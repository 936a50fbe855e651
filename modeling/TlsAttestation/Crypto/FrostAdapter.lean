import TlsAttestation.Crypto.Threshold
import TlsAttestation.Lib.Collect
import TlsAttestation.Lib.Frost

/-!
# The FROST adapter

`tls_attestation_crypto::frost_adapter`: participants and group keys under the protocol's own
identities, and the two rounds, over `FrostCrates`. `FrostParticipant.round1` draws nonces;
`FrostParticipant.round1Dvrf` derives them from key and input.
-/

namespace TlsAttestation

open ByteEncoding Collect Fallible Frost

structure FrostCrates (F G : Type) [Field F] [AddCommGroup G] [Module F G] extends
    Ciphersuite F G 32 32 where
  /-- Two draws of 32 bytes from a seed. -/
  stdRng : Bytes32 → Bytes32 × Bytes32
  /-- A string under `{:?}`. -/
  debugStr : String → String
  keyPackageJson : KeyPackage F G → Bytes
  commitmentsJson : SigningCommitments G → Bytes
  parseCommitments : Bytes → Except String (SigningCommitments G)
  shareJson : F → Bytes
  parseShare : Bytes → Except String F
  packageJson : SigningPackage F G → Bytes
  /-- Commitments are read back, unless neutral. -/
  parseCommitments_json : ∀ c d : SigningCommitments G,
    parseCommitments (commitmentsJson c) = .ok d ↔
      (c.hidingCommitment ≠ 0 ∧ c.bindingCommitment ≠ 0) ∧ c = d
  parseShare_json : ∀ z, parseShare (shareJson z) = .ok z

structure FrostGroupKey (F G : Type) [Zero F] where
  pubKeyPackage : PublicKeyPackage F G
  verifierToId : Finmap fun _ : VerifierId => Identifier F

structure FrostParticipant (F G : Type) [Zero F] where
  keyPackage : KeyPackage F G
  identifier : Identifier F
  verifierId : VerifierId
deriving DecidableEq

structure FrostCommitment (F G : Type) [Zero F] where
  identifier : Identifier F
  inner : SigningCommitments G
deriving DecidableEq

structure FrostSignatureShare (F : Type) [Zero F] where
  identifier : Identifier F
  inner : F
deriving DecidableEq

structure FrostThresholdApproval where
  signedDigest : DigestBytes
  aggregateSignatureBytes : Vector UInt8 64
  groupVerifyingKeyBytes : Bytes32
deriving DecidableEq

section

variable {F G : Type} [Field F] [AddCommGroup G] [Module F G] (C : FrostCrates F G)
  (k : FrostGroupKey F G)

def FrostGroupKey.verifierToIdentifier (vid : VerifierId) :
    Option (Identifier F) :=
  k.verifierToId.lookup vid

def FrostGroupKey.verifyingKeyBytes : Bytes32 :=
  C.serializeElement k.pubKeyPackage.verifyingKey

namespace FrostParticipant

variable (p : FrostParticipant F G)

def round1 (random : Bytes32 × Bytes32) :
    SigningNonces F × FrostCommitment F G :=
  let nonces := C.nonces p.keyPackage.signingShare random
  (nonces, ⟨p.identifier, C.commitments nonces⟩)

variable (alpha : Bytes)

def dvrfNonceSeedPreimage : Bytes :=
  strBytes "tls-attestation/dvrf-nonce-seed/v1" ++ [0] ++
    lengthPrefixed 8 (C.keyPackageJson p.keyPackage) ++ lengthPrefixed 8 alpha

def dvrfNonceSeed : Bytes32 :=
  Sha2.sha256 (p.dvrfNonceSeedPreimage C alpha)

def round1Dvrf : SigningNonces F × FrostCommitment F G :=
  p.round1 C (C.stdRng (p.dvrfNonceSeed C alpha))

variable [DecidableEq F] [DecidableEq G]

def round2 (package : SigningPackage F G) (nonces : SigningNonces F) :
    Except CryptoError (FrostSignatureShare F) := do
  let share ← (C.sign package nonces p.keyPackage).mapError fun e => .signingFailed (C.errorText e)
  return ⟨p.identifier, share⟩

end FrostParticipant

/-! ### What travels -/

def FrostCommitment.fromBytes (bytes : Bytes) (verifierId : VerifierId)
    (groupKey : FrostGroupKey F G) : Except CryptoError (FrostCommitment F G) := do
  let identifier ← okOr (groupKey.verifierToIdentifier verifierId)
    (.unknownVerifier verifierId.display)
  let inner ← (C.parseCommitments bytes).mapError fun e =>
    .aggregationFailed s!"commitment deserialization failed: {e}"
  return ⟨identifier, inner⟩

def FrostSignatureShare.fromBytes (bytes : Bytes) (verifierId : VerifierId)
    (groupKey : FrostGroupKey F G) : Except CryptoError (FrostSignatureShare F) := do
  let identifier ← okOr (groupKey.verifierToIdentifier verifierId)
    (.unknownVerifier verifierId.display)
  let inner ← (C.parseShare bytes).mapError fun e =>
    .aggregationFailed s!"signature share deserialization failed: {e}"
  return ⟨identifier, inner⟩

variable [DecidableEq F] [DecidableEq G] (collected : List (VerifierId × Bytes))

def collectCommitments (groupKey : FrostGroupKey F G) :
    Except CryptoError (Finmap fun _ : Identifier F => SigningCommitments G) :=
  collected.foldlM (fun m p => do
    let commitment ← FrostCommitment.fromBytes C p.2 p.1 groupKey
    return m.insert commitment.identifier commitment.inner) ∅

def buildSigningPackage (signedDigest : DigestBytes)
    (groupKey : FrostGroupKey F G) : Except CryptoError (SigningPackage F G × Bytes) := do
  let commitmentsMap ← collectCommitments C collected groupKey
  let package := ⟨commitmentsMap, signedDigest.asBytes.toList⟩
  return (package, C.packageJson package)

def collectShares (shares : List (VerifierId × Bytes)) (groupKey : FrostGroupKey F G) :
    Except CryptoError (Finmap fun _ : Identifier F => F) :=
  shares.foldlM (fun m p => do
    let share ← FrostSignatureShare.fromBytes C p.2 p.1 groupKey
    return m.insert share.identifier share.inner) ∅

def aggregateSignatureShares (package : SigningPackage F G) (shares : List (VerifierId × Bytes))
    (groupKey : FrostGroupKey F G) (signedDigest : DigestBytes) :
    Except CryptoError FrostThresholdApproval := do
  let sharesMap ← collectShares C shares groupKey
  let signature ← (C.aggregate package sharesMap groupKey.pubKeyPackage).mapError fun e =>
    .aggregationFailed (C.errorText e)
  return ⟨signedDigest, C.serializeSignature signature, groupKey.verifyingKeyBytes C⟩

/-- **Both rounds in one process**; signer `i` draws `random i`. -/
def frostCollectApproval (signers : List (FrostParticipant F G)) (signedDigest : DigestBytes)
    (groupKey : FrostGroupKey F G) (quorum : QuorumSpec)
    (random : ℕ → Bytes32 × Bytes32) :
    Except CryptoError FrostThresholdApproval := do
  ensure (quorum.threshold.toNat ≤ signers.length)
    (.insufficientSignatures quorum.threshold.toNat signers.length)
  let drawn := signers.zipIdx.map fun s => (s.1, s.1.round1 C (random s.2))
  let commitmentsMap ← drawn.foldlM (fun m s => do
    let frostId ← okOr (groupKey.verifierToIdentifier s.1.verifierId)
      (.unknownVerifier s.1.verifierId.display)
    return m.insert frostId s.2.2.inner) (∅ : Finmap fun _ : Identifier F => SigningCommitments G)
  let package : SigningPackage F G := ⟨commitmentsMap, signedDigest.asBytes.toList⟩
  let sharesMap ← drawn.foldlM (fun m s => do
    let frostId ← okOr (groupKey.verifierToIdentifier s.1.verifierId)
      (.unknownVerifier s.1.verifierId.display)
    let share ← s.1.round2 C package s.2.1
    return m.insert frostId share.inner) (∅ : Finmap fun _ : Identifier F => F)
  let signature ← (C.aggregate package sharesMap groupKey.pubKeyPackage).mapError fun e =>
    .aggregationFailed (C.errorText e)
  return ⟨signedDigest, C.serializeSignature signature, groupKey.verifyingKeyBytes C⟩

/-! ### What collecting means -/

variable {C}

variable {groupKey : FrostGroupKey F G}

omit [DecidableEq G] in
theorem collectCommitments_eq_ok {collected : List (VerifierId × Bytes)}
    {m : Finmap fun _ : Identifier F => SigningCommitments G} :
    collectCommitments C collected groupKey = .ok m ↔
      ∃ cs, List.Forall₂ (fun p c => FrostCommitment.fromBytes C p.2 p.1 groupKey = .ok c)
        collected cs ∧ collect (cs.map fun c => (c.identifier, c.inner)) = m := by
  simp only [collectCommitments, foldlM_bind_eq_ok, collect, List.foldl_map]

variable {shares : List (VerifierId × Bytes)}

omit [DecidableEq G] in
theorem collectShares_eq_ok {m : Finmap fun _ : Identifier F => F} :
    collectShares C shares groupKey = .ok m ↔
      ∃ zs, List.Forall₂ (fun p z => FrostSignatureShare.fromBytes C p.2 p.1 groupKey = .ok z)
        shares zs ∧ collect (zs.map fun z => (z.identifier, z.inner)) = m := by
  simp only [collectShares, foldlM_bind_eq_ok, collect, List.foldl_map]

omit [DecidableEq F] [DecidableEq G] in
theorem FrostCommitment.fromBytes_eq_ok {bytes : Bytes} {v : VerifierId} {c : FrostCommitment F G} :
    FrostCommitment.fromBytes C bytes v groupKey = .ok c ↔
      groupKey.verifierToIdentifier v = some c.identifier ∧
        C.parseCommitments bytes = .ok c.inner := by
  obtain ⟨id, inner⟩ := c
  simp [FrostCommitment.fromBytes]

omit [DecidableEq F] [DecidableEq G] in
theorem FrostSignatureShare.fromBytes_eq_ok {bytes : Bytes} {v : VerifierId}
    {z : FrostSignatureShare F} :
    FrostSignatureShare.fromBytes C bytes v groupKey = .ok z ↔
      groupKey.verifierToIdentifier v = some z.identifier ∧ C.parseShare bytes = .ok z.inner := by
  obtain ⟨id, inner⟩ := z
  simp [FrostSignatureShare.fromBytes]

/-! ### What an approval rests on -/

variable (C) in
def ApprovedByGroup (groupKey : FrostGroupKey F G) (signedDigest : DigestBytes)
    (approval : FrostThresholdApproval) : Prop :=
  ∃ sig, C.verify groupKey.pubKeyPackage.verifyingKey signedDigest.asBytes.toList sig = .ok () ∧
    approval = ⟨signedDigest, C.serializeSignature sig, groupKey.verifyingKeyBytes C⟩

/-- **An aggregated approval** is by the group, of known senders. -/
theorem aggregateSignatureShares_spec {package : SigningPackage F G} {signedDigest : DigestBytes}
    {approval : FrostThresholdApproval} (hmessage : package.message = signedDigest.asBytes.toList)
    (h : aggregateSignatureShares C package shares groupKey signedDigest = .ok approval) :
    (∀ s ∈ shares, ∃ id, groupKey.verifierToIdentifier s.1 = some id) ∧
      ApprovedByGroup C groupKey signedDigest approval := by
  simp only [aggregateSignatureShares, do_eq_ok] at h
  obtain ⟨m, hm, sig, hsig, rfl⟩ := h
  refine ⟨foldlM_forall (fun m s t ht => ?_) hm, sig, ?_, rfl⟩
  · obtain ⟨share, hshare, -⟩ := bind_eq_ok.1 ht
    exact ⟨_, (FrostSignatureShare.fromBytes_eq_ok.1 hshare).1⟩
  · rw [← hmessage]
    exact Ciphersuite.verify_of_aggregate_eq_ok hsig

/-- **An approval collected in one process** is by enough known signers. -/
theorem frostCollectApproval_spec {signers : List (FrostParticipant F G)}
    {signedDigest : DigestBytes} {quorum : QuorumSpec}
    {random : ℕ → Bytes32 × Bytes32} {approval : FrostThresholdApproval}
    (h : frostCollectApproval C signers signedDigest groupKey quorum random = .ok approval) :
    (∀ p ∈ signers, ∃ id, groupKey.verifierToIdentifier p.verifierId = some id) ∧
      ApprovedByGroup C groupKey signedDigest approval := by
  simp only [frostCollectApproval, do_eq_ok] at h
  obtain ⟨_, _, m, hm, shares, _, sig, hsig, rfl⟩ := h
  refine ⟨fun p hp => ?_, sig, Ciphersuite.verify_of_aggregate_eq_ok hsig, rfl⟩
  obtain ⟨i, hi⟩ := List.mem_iff_getElem?.1 hp
  refine foldlM_forall (P := fun s => ∃ id, groupKey.verifierToIdentifier s.1.verifierId = some id)
    (fun m s t ht => ?_) hm _ (List.mem_map_of_mem (List.mk_mem_zipIdx_iff_getElem?.2 hi))
  obtain ⟨id, hid, -⟩ := bind_eq_ok.1 ht
  exact ⟨id, okOr_eq_ok.1 hid⟩

end

/-! ### Small crates to run the adapter with -/

open Toy in
def toyCrates : FrostCrates Toy Toy where
  toCiphersuite := toySuite 31 31
  stdRng seed := (seed, seed.map (· + 1))
  debugStr := String.quote
  keyPackageJson k :=
    [toByte k.identifier, toByte k.signingShare, toByte k.verifyingShare, toByte k.verifyingKey,
      .ofNat k.minSigners]
  commitmentsJson c := [toByte c.hidingCommitment, toByte c.bindingCommitment]
  parseCommitments bytes :=
    match bytes with
    | [a, b] => if a = 0 ∨ b = 0 then .error "identity" else .ok ⟨ofByte a, ofByte b⟩
    | _ => .error "expected two elements"
  shareJson z := [toByte z]
  parseShare bytes :=
    match bytes with
    | [a] => .ok (ofByte a)
    | _ => .error "expected a scalar"
  packageJson package := package.message
  parseCommitments_json c d := by
    simp only [toByte_eq_zero, ofByte_toByte]
    split_ifs with h
    · simp only [false_iff]
      rintro ⟨⟨h₁, h₂⟩, -⟩
      exact h.elim h₁ h₂
    · simp [not_or.1 h]
  parseShare_json z := by simp

end TlsAttestation
