import TlsAttestation.Crypto.FrostAdapter

/-!
# The on-chain form

`tls_attestation_attestation::onchain`: eight fields of fixed width. The check takes
`envelopeDigest` for the message, but an approval signs the tagged digest of it
(`verify_extractOnChainAttestation_ne_ok`).
-/

namespace TlsAttestation

open ByteEncoding Fallible Frost

inductive OnChainError where
  | signatureVerificationFailed (reason : String)
  | digestMismatch
  | thresholdNotMet (need have' : UInt8)
deriving DecidableEq

section

variable {F G : Type} [Field F] [AddCommGroup G] [Module F G] [DecidableEq G]

structure Ed25519Dalek (C : FrostCrates F G) (VerifyingKey : Type) where
  fromBytes : Bytes32 → Except String VerifyingKey
  verify : VerifyingKey → Bytes → Signature → Except String Unit
  verify_eq_ok : ∀ (Y : G) (m : Bytes) (sig : Frost.Signature F G),
    (fromBytes (C.serializeElement Y) >>= fun vk => verify vk m (C.serializeSignature sig)) =
      .ok () ↔ C.verify Y m sig = .ok ()

end

structure OnChainAttestation where
  (statementDigest dvrfValue envelopeDigest groupVerifyingKey : Bytes32)
  aggregateSignature : Vector UInt8 64
  (threshold verifierCount : UInt8)
  statementDvrfBinding : Bytes32
deriving DecidableEq

namespace OnChainAttestation

/-- A plain hash of statement and randomness, which anyone can compute. -/
def computeStatementDvrfBinding (statementDigest dvrfValue : Bytes32) : Bytes32 :=
  Sha2.sha256 (strBytes "tls-attestation/stmt-dvrf-binding/v1" ++ statementDigest.toList ++
    dvrfValue.toList)

section

variable {F G K : Type} [Field F] [AddCommGroup G] [Module F G] [DecidableEq G]
  {C : FrostCrates F G} (D : Ed25519Dalek C K) (a : OnChainAttestation)

def verify : Except OnChainError Unit := do
  let vk ← (D.fromBytes a.groupVerifyingKey).mapError .signatureVerificationFailed
  (D.verify vk a.envelopeDigest.toList a.aggregateSignature).mapError .signatureVerificationFailed
  ensure (a.threshold ≠ 0) (.thresholdNotMet 1 a.threshold)
  ensure (¬ a.threshold > a.verifierCount) (.thresholdNotMet a.threshold a.verifierCount)
  ensure (a.statementDvrfBinding = computeStatementDvrfBinding a.statementDigest a.dvrfValue)
    .digestMismatch

variable {D a}

theorem verify_eq_ok {u : Unit} :
    a.verify D = .ok u ↔ (D.fromBytes a.groupVerifyingKey >>= fun vk =>
        D.verify vk a.envelopeDigest.toList a.aggregateSignature) = .ok () ∧
      (0 < a.threshold.toNat ∧ a.threshold.toNat ≤ a.verifierCount.toNat) ∧
      a.statementDvrfBinding = computeStatementDvrfBinding a.statementDigest a.dvrfValue := by
  have hpos : a.threshold ≠ 0 ↔ 0 < a.threshold.toNat := by
    rw [Nat.pos_iff_ne_zero, ne_eq, ← UInt8.toNat_inj]
    rfl
  have hle : ¬ a.threshold > a.verifierCount ↔ a.threshold.toNat ≤ a.verifierCount.toNat := by
    rw [gt_iff_lt, UInt8.lt_iff_toNat_lt, not_lt]
  simp only [verify, do_eq_ok, hpos, hle]
  constructor
  · rintro ⟨vk, hvk, _, hsig, _, ht, _, hn, hbind⟩
    exact ⟨⟨vk, hvk, hsig⟩, ⟨ht, hn⟩, hbind⟩
  · rintro ⟨⟨vk, hvk, hsig⟩, ⟨ht, hn⟩, hbind⟩
    exact ⟨vk, hvk, (), hsig, (), ht, (), hn, hbind⟩

end

/-! ### The bytes for the chain -/

def u8Word (b : UInt8) : Bytes32 :=
  Vector.replicate 31 (0 : UInt8) ++ Vector.singleton b

variable (a : OnChainAttestation)

def abiEncode : Bytes :=
  a.statementDigest.toList ++ (a.dvrfValue.toList ++ (a.envelopeDigest.toList ++
    (a.groupVerifyingKey.toList ++ (a.aggregateSignature.toList ++
    ((u8Word a.threshold).toList ++ ((u8Word a.verifierCount).toList ++
      a.statementDvrfBinding.toList))))))

/-- Reading the encoding back; the zeros are not looked at. -/
def abiDecode (bytes : Bytes) : Except OnChainError OnChainAttestation := do
  ensure (bytes.length = 288)
    (.signatureVerificationFailed s!"expected 288 bytes, got {bytes.length}")
  return {
    statementDigest := bytesAt 32 0 bytes
    dvrfValue := bytesAt 32 32 bytes
    envelopeDigest := bytesAt 32 64 bytes
    groupVerifyingKey := bytesAt 32 96 bytes
    aggregateSignature := bytesAt 32 128 bytes ++ bytesAt 32 160 bytes
    threshold := bytes.getD 223 0
    verifierCount := bytes.getD 255 0
    statementDvrfBinding := bytesAt 32 256 bytes }

theorem length_abiEncode : a.abiEncode.length = 288 := by
  simp [abiEncode]

theorem getD_eq_of_bytesAt_eq_u8Word {bytes : Bytes} {offset : ℕ} {b : UInt8}
    (h : bytesAt 32 offset bytes = u8Word b) : bytes.getD (offset + 31) 0 = b := by
  have hlast : (bytesAt 32 offset bytes)[31] = (u8Word b)[31] := by rw [h]
  rw [getElem_bytesAt] at hlast
  rw [hlast]
  rfl

/-- What was encoded is read back. -/
theorem abiDecode_abiEncode : abiDecode a.abiEncode = .ok a := by
  have hsignature : bytesAt 32 128 a.abiEncode ++ bytesAt 32 160 a.abiEncode =
      a.aggregateSignature := by
    refine (bytesAt_append_bytesAt a.abiEncode).trans ?_
    simp [abiEncode]
  have hthr : a.abiEncode.getD 223 0 = a.threshold := by
    refine getD_eq_of_bytesAt_eq_u8Word ?_
    simp [abiEncode]
  have hcount : a.abiEncode.getD 255 0 = a.verifierCount := by
    refine getD_eq_of_bytesAt_eq_u8Word ?_
    simp [abiEncode]
  simp only [abiDecode, do_eq_ok, length_abiEncode, hsignature, hthr, hcount]
  refine ⟨(), trivial, ?_⟩
  simp [abiEncode]

end OnChainAttestation

def extractOnChainAttestation (statementDigest dvrfValue envelopeDigest : Bytes32)
    (frostApproval : FrostThresholdApproval) (threshold verifierCount : UInt8) :
    OnChainAttestation where
  statementDigest := statementDigest
  dvrfValue := dvrfValue
  envelopeDigest := envelopeDigest
  groupVerifyingKey := frostApproval.groupVerifyingKeyBytes
  aggregateSignature := frostApproval.aggregateSignatureBytes
  threshold := threshold
  verifierCount := verifierCount
  statementDvrfBinding := OnChainAttestation.computeStatementDvrfBinding statementDigest dvrfValue

/-! ### What the check says of an approval -/

section

variable {F G K : Type} [Field F] [AddCommGroup G] [Module F G] [DecidableEq G]
  {C : FrostCrates F G} {D : Ed25519Dalek C K} {groupKey : FrostGroupKey F G}
  {signedDigest : DigestBytes} {approval : FrostThresholdApproval}
  {statementDigest dvrfValue envelopeDigest : Bytes32} {threshold verifierCount : UInt8}

/-- **The check on a signature by the group** compares two challenges. -/
theorem verify_extractOnChainAttestation_eq_ok {sig : Frost.Signature F G}
    (hsig : C.verify groupKey.pubKeyPackage.verifyingKey signedDigest.asBytes.toList sig = .ok ())
    (happ : approval = ⟨signedDigest, C.serializeSignature sig, groupKey.verifyingKeyBytes C⟩)
    (hkey : groupKey.pubKeyPackage.verifyingKey ≠ 0) :
    (extractOnChainAttestation statementDigest dvrfValue envelopeDigest approval threshold
        verifierCount).verify D = .ok () ↔
      C.challenge sig.R groupKey.pubKeyPackage.verifyingKey envelopeDigest.toList =
          C.challenge sig.R groupKey.pubKeyPackage.verifyingKey signedDigest.asBytes.toList ∧
        0 < threshold.toNat ∧ threshold.toNat ≤ verifierCount.toNat := by
  subst happ
  have heqn := Ciphersuite.verify_eq_ok.1 hsig
  have hsubmitted : (D.fromBytes (groupKey.verifyingKeyBytes C) >>= fun vk =>
      D.verify vk envelopeDigest.toList (C.serializeSignature sig)) = .ok () ↔
      C.challenge sig.R groupKey.pubKeyPackage.verifyingKey envelopeDigest.toList =
        C.challenge sig.R groupKey.pubKeyPackage.verifyingKey signedDigest.asBytes.toList := by
    rw [FrostGroupKey.verifyingKeyBytes, D.verify_eq_ok, Ciphersuite.verify_eq_ok, heqn,
      add_right_inj]
    -- The key generates the group, so that challenges can be read off multiples of it.
    exact (smul_left_injective F hkey).eq_iff.trans eq_comm
  rw [OnChainAttestation.verify_eq_ok]
  simp only [extractOnChainAttestation, hsubmitted, and_true]

/-- **Another digest is not accepted**, if the challenges differ. -/
theorem verify_extractOnChainAttestation_ne_ok
    (h : ApprovedByGroup C groupKey signedDigest approval)
    (hkey : groupKey.pubKeyPackage.verifyingKey ≠ 0)
    (hchal : ∀ R, C.challenge R groupKey.pubKeyPackage.verifyingKey envelopeDigest.toList ≠
        C.challenge R groupKey.pubKeyPackage.verifyingKey signedDigest.asBytes.toList) :
    (extractOnChainAttestation statementDigest dvrfValue envelopeDigest approval threshold
        verifierCount).verify D ≠ .ok () := by
  obtain ⟨sig, hsig, happ⟩ := h
  rw [ne_eq, verify_extractOnChainAttestation_eq_ok hsig happ hkey]
  rintro ⟨heq, -⟩
  exact hchal sig.R heq

end

/-! ### A small verifier -/

open Toy in
def toyEd25519 : Ed25519Dalek toyCrates Toy where
  fromBytes b := .ok (decode b)
  verify Y m sig :=
    let R := decode (n := 31) (bytesAt 32 0 sig.toList)
    let z := decode (n := 31) (bytesAt 32 32 sig.toList)
    ensure (z = R + (R + (Y + Y) + (ofBeBytes m : Toy)) * Y) "signature error"
  verify_eq_ok Y m sig := by
    obtain ⟨R, z⟩ := sig
    have hsig : (toyCrates.serializeSignature ⟨R, z⟩).toList =
        (encode 31 R).toList ++ (encode 31 z).toList := Vector.toList_append
    have hY : decode (toyCrates.serializeElement Y) = Y := decode_encode 31 Y
    rw [Ciphersuite.verify_eq_ok]
    simp only [do_eq_ok, Except.ok.injEq, exists_eq_left', hsig, hY, bytesAt_zero_append,
      bytesAt_toList_append _ _ (le_refl 32), Nat.sub_self, bytesAt_zero, decode_encode]
    simp [toyCrates, toySuite]

end TlsAttestation
