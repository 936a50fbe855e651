import TlsAttestation.Attestation.Onchain
import TlsAttestation.Contracts.TLSAttestation

/-!
# The on-chain form with the other curve

`tls_attestation_attestation::onchain_secp256k1`: both sides agree about the layout
(`OnChainAttestationSecp256k1.abiDecode_agrees`) and not about the check: the Rust side gives a
group key of 65 bytes to a function for 33, which panics (`OnChainAttestationSecp256k1.agrees_iff`).
-/

namespace TlsAttestation

open ByteEncoding Evm Fallible OnChainAttestation Secp256k1

inductive Secp256k1OnChainError where
  | wrongLength (expected got : ℕ)
  | invalidSignature (reason : String)
  | thresholdNotMet (need have' : UInt8)
deriving DecidableEq

structure OnChainAttestationSecp256k1 where
  (statementDigest dvrfValue envelopeDigest groupKeyX groupKeyY sigRX sigS : Bytes32)
  (threshold verifierCount : UInt8)
  (alphaCommitment sessionId : Bytes32)
deriving DecidableEq

namespace OnChainAttestationSecp256k1

/-! ### The bytes for the contract -/

variable (a : OnChainAttestationSecp256k1)

def abiEncode : Bytes :=
  a.statementDigest.toList ++ (a.dvrfValue.toList ++ (a.envelopeDigest.toList ++
    (a.groupKeyX.toList ++ (a.groupKeyY.toList ++ (a.sigRX.toList ++ (a.sigS.toList ++
    ((u8Word a.threshold).toList ++ ((u8Word a.verifierCount).toList ++
      (a.alphaCommitment.toList ++ a.sessionId.toList)))))))))

def abiDecode (bytes : Bytes) : Except Secp256k1OnChainError OnChainAttestationSecp256k1 := do
  ensure (bytes.length = 352) (.wrongLength 352 bytes.length)
  return {
    statementDigest := bytesAt 32 0 bytes
    dvrfValue := bytesAt 32 32 bytes
    envelopeDigest := bytesAt 32 64 bytes
    groupKeyX := bytesAt 32 96 bytes
    groupKeyY := bytesAt 32 128 bytes
    sigRX := bytesAt 32 160 bytes
    sigS := bytesAt 32 192 bytes
    threshold := bytes.getD 255 0
    verifierCount := bytes.getD 287 0
    alphaCommitment := bytesAt 32 288 bytes
    sessionId := bytesAt 32 320 bytes }

def shared : Attestation where
  statementDigest := .ofBytes a.statementDigest.toList
  dvrfValue := .ofBytes a.dvrfValue.toList
  envelopeDigest := .ofBytes a.envelopeDigest.toList
  groupKeyX := .ofBytes a.groupKeyX.toList
  groupKeyY := .ofBytes a.groupKeyY.toList
  sigRX := .ofBytes a.sigRX.toList
  sigS := .ofBytes a.sigS.toList
  threshold := a.threshold
  verifierCount := a.verifierCount

theorem exists_abiDecode {raw : Bytes} (h : raw.length = 352) :
    ∃ a, abiDecode raw = .ok a ∧ a.shared = TLSAttestation.decode raw := by
  simp only [abiDecode, do_eq_ok, h]
  exact ⟨_, ⟨(), trivial, rfl⟩, rfl⟩

theorem abiDecode_abiEncode_self :
    abiDecode a.abiEncode = .ok a := by
  have hlen : a.abiEncode.length = 352 := by simp [abiEncode]
  have hthr : a.abiEncode.getD 255 0 = a.threshold := by
    refine getD_eq_of_bytesAt_eq_u8Word ?_
    simp [abiEncode]
  have hcount : a.abiEncode.getD 287 0 = a.verifierCount := by
    refine getD_eq_of_bytesAt_eq_u8Word ?_
    simp [abiEncode]
  simp only [abiDecode, do_eq_ok, hlen, hthr, hcount]
  refine ⟨(), trivial, ?_⟩
  simp [abiEncode]

/-- **Both sides read the same**, which is what was encoded. -/
theorem abiDecode_agrees :
    (∀ raw : Vector UInt8 352, ∃ a, abiDecode raw.toList = .ok a ∧
      a.shared = TLSAttestation.decode raw.toList) ∧
    ∀ a : OnChainAttestationSecp256k1, abiDecode a.abiEncode = .ok a :=
  ⟨fun raw => exists_abiDecode raw.length_toList, abiDecode_abiEncode_self⟩

end OnChainAttestationSecp256k1

/-! ### The check -/

/-- The crate `k256`. Slices of the wrong length are a panic. -/
structure K256 where
  fromRepr : Bytes32 → Option (ZMod n)
  fromRepr_eq_none : ∀ repr, fromRepr repr = none ↔ n ≤ ofBeBytes repr.toList
  fromSlice : (N : ℕ) → Bytes → Except String (Vector UInt8 N)
  fromSlice_eq_ok : ∀ N slice array, fromSlice N slice = .ok array ↔ array.toList = slice
  /-- `AffinePoint::from_bytes`. -/
  fromBytes : Vector UInt8 33 → Option Point
  toBytes : Point → Vector UInt8 33

namespace OnChainAttestationSecp256k1

variable (K : K256) (a : OnChainAttestationSecp256k1)

def challengeBytes : Bytes32 :=
  Keccak.keccak256 (a.sigRX.toList ++ a.groupKeyX.toList ++ a.envelopeDigest.toList)

/-- The check of the Rust side: `s G - e P` has the `x` of the signature. -/
def verifySchnorr : Except (Stop Secp256k1OnChainError) Unit := do
  let s ← okOr (K.fromRepr a.sigS) (.error (.invalidSignature "invalid s"))
  let e ← okOr (K.fromRepr a.challengeBytes) (.error (.invalidSignature "invalid e"))
  let pkBytes : Bytes := 0x04 :: (a.groupKeyX.toList ++ a.groupKeyY.toList)
  let repr ← (K.fromSlice 33 pkBytes).mapError .panic
  let pkPoint ← okOr (K.fromBytes repr) (.error (.invalidSignature "invalid group key"))
  let compressed := (K.toBytes (s • base - e • pkPoint)).toList
  ensure (¬ compressed.length < 33) (.error (.invalidSignature "degenerate point"))
  ensure (bytesAt 32 1 compressed = a.sigRX)
    (.error (.invalidSignature "Schnorr verification failed: R.x mismatch"))
  ensure (¬ a.threshold > a.verifierCount) (.error (.thresholdNotMet a.threshold a.verifierCount))

def AcceptedOnChain : Prop :=
  FrostVerifier.verify a.shared.envelopeDigest a.shared.groupKeyX a.shared.groupKeyY
    a.shared.sigRX a.shared.sigS = true ∧ 1 ≤ a.threshold ∧ a.threshold ≤ a.verifierCount

/-- The check of the Rust side never panics, and accepts what the contract accepts. -/
def Agrees : Prop :=
  (∀ message, a.verifySchnorr K ≠ .error (.panic message)) ∧
    (a.verifySchnorr K = .ok () ↔ a.AcceptedOnChain)

variable {K a}

theorem exists_fromSlice_eq_error :
    ∃ message, K.fromSlice 33 (0x04 :: (a.groupKeyX.toList ++ a.groupKeyY.toList)) =
      .error message := by
  cases h : K.fromSlice 33 (0x04 :: (a.groupKeyX.toList ++ a.groupKeyY.toList)) with
  | error message => exact ⟨message, rfl⟩
  | ok array =>
    have hlen := congrArg List.length ((K.fromSlice_eq_ok _ _ _).1 h)
    simp at hlen

/-- **The check never succeeds**; it panics once both scalars are read. -/
theorem verifySchnorr_cases :
    ((n ≤ ofBeBytes a.sigS.toList ∨ n ≤ ofBeBytes a.challengeBytes.toList) ∧
      ∃ e, a.verifySchnorr K = .error (.error e)) ∨
    ((ofBeBytes a.sigS.toList < n ∧ ofBeBytes a.challengeBytes.toList < n) ∧
      ∃ message, a.verifySchnorr K = .error (.panic message)) := by
  rw [← not_le, ← not_le, ← K.fromRepr_eq_none, ← K.fromRepr_eq_none, verifySchnorr]
  cases K.fromRepr a.sigS with
  | none => exact .inl ⟨.inl rfl, _, rfl⟩
  | some s =>
    cases K.fromRepr a.challengeBytes with
    | none => exact .inl ⟨.inr rfl, _, rfl⟩
    | some e =>
      obtain ⟨message, hmessage⟩ := exists_fromSlice_eq_error (K := K) (a := a)
      refine .inr ⟨⟨Option.some_ne_none s, Option.some_ne_none e⟩, message, ?_⟩
      simp only [hmessage]
      rfl

/-- **When the two checks agree**: if a scalar is not below the order and the contract rejects, too.
-/
theorem agrees_iff :
    a.Agrees K ↔ (n ≤ ofBeBytes a.sigS.toList ∨ n ≤ ofBeBytes a.challengeBytes.toList) ∧
        ¬ a.AcceptedOnChain := by
  rcases verifySchnorr_cases (K := K) (a := a) with ⟨hscalars, e, he⟩ | ⟨hscalars, message, hm⟩
  · simp [Agrees, he, hscalars]
  · rw [← not_lt, ← not_lt, ← not_and_or, Agrees]
    exact iff_of_false (fun h => h.1 message hm) fun h => h.1 hscalars

/-! ### A signature by the base point -/

def standardK256 : K256 where
  fromRepr repr := if ofBeBytes repr.toList < n then some (ofBeBytes repr.toList) else none
  fromRepr_eq_none repr := by simp
  fromSlice N slice :=
    if h : slice.length = N then .ok ⟨slice.toArray, h⟩ else .error "assertion failed"
  fromSlice_eq_ok N slice array := by
    constructor
    · intro h
      split at h
      · rw [← Except.ok.inj h]
        rfl
      · cases h
    · rintro rfl
      rw [dif_pos array.length_toList]
      rfl
  fromBytes repr :=
    let x : ZMod p := ofBeBytes (bytesAt 32 1 repr.toList).toList
    if repr.toList.headD 0 = 2 then lift x 0 else
    if repr.toList.headD 0 = 3 then lift x 1 else none
  toBytes Q :=
    match coordinates Q with
    | none => .replicate 33 0
    | some (x, y) => bytesAt 33 0 (UInt8.ofNat (2 + y.toNat % 2) :: x.bytes)

def ofWord (w : Word) : Bytes32 :=
  ⟨w.bytes.toArray, size_toArray_of_length w.length_bytes⟩

def baseAttestation : OnChainAttestationSecp256k1 where
  statementDigest := .replicate 32 0
  dvrfValue := .replicate 32 0
  envelopeDigest := ofWord 0
  groupKeyX := ofWord FrostVerifier.baseX
  groupKeyY := ofWord FrostVerifier.baseY
  sigRX := ofWord FrostVerifier.baseX
  sigS := ofWord (FrostVerifier.baseSignature 0)
  threshold := 1
  verifierCount := 1
  alphaCommitment := .replicate 32 0
  sessionId := .replicate 32 0

/-- It is accepted on the chain, and not here. -/
theorem not_agrees_baseAttestation :
    baseAttestation.AcceptedOnChain ∧ ¬ baseAttestation.Agrees standardK256 := by
  have hacc : baseAttestation.AcceptedOnChain := by
    refine ⟨?_, by decide, by decide⟩
    have hword (w : Word) : Word.ofBytes (ofWord w).toList = w := Word.ofBytes_bytes w
    simp only [shared, baseAttestation, hword]
    exact FrostVerifier.verify_baseSignature FrostVerifier.challenge_zero_ne_zero
  refine ⟨hacc, fun h => ?_⟩
  have hok := h.2.2 hacc
  rcases verifySchnorr_cases (K := standardK256) (a := baseAttestation) with
    ⟨-, e, he⟩ | ⟨-, message, hm⟩
  · cases hok.symm.trans he
  · cases hok.symm.trans hm

end OnChainAttestationSecp256k1

end TlsAttestation
