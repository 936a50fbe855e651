import TlsAttestation.Core.Types
import Mathlib.Data.List.Dedup
import Mathlib.Data.List.Duplicate

/-!
# Threshold approvals

`tls_attestation_crypto::threshold`: Ed25519 signatures over a tagged digest. `aggregateSignatures`
takes the caller's quorum and counts a verifier once; `verifyThresholdApproval` takes quorum and
signers from the approval, and counts every signature.
-/

namespace TlsAttestation

open ByteEncoding Fallible
open List hiding Vector

/-! ### Errors of the crate -/

inductive CryptoError where
  | randomnessVerificationFailed (reason : String)
  | insufficientContributions (need got : ℕ)
  | signatureVerificationFailed (reason : String)
  | insufficientSignatures (need got : ℕ)
  | unknownVerifier (id : String)
  | transcriptMismatch
  | invalidKeyMaterial (reason : String)
  | signingFailed (reason : String)
  | aggregationFailed (reason : String)
  | dkgAnnouncement (reason : String)
deriving DecidableEq

def CryptoError.display : CryptoError → String
  | .randomnessVerificationFailed reason => s!"randomness verification failed: {reason}"
  | .insufficientContributions need got => s!"insufficient contributions: need {need}, got {got}"
  | .signatureVerificationFailed reason => s!"signature verification failed: {reason}"
  | .insufficientSignatures need got => s!"insufficient partial signatures: need {need}, got {got}"
  | .unknownVerifier id => s!"unknown verifier: {id}"
  | .transcriptMismatch => "transcript commitment mismatch"
  | .invalidKeyMaterial reason => s!"invalid key material: {reason}"
  | .signingFailed reason => s!"signing failed: {reason}"
  | .aggregationFailed reason => s!"threshold aggregation failed: {reason}"
  | .dkgAnnouncement reason => s!"DKG key-announcement error: {reason}"

/-! ### Ed25519 -/

abbrev Signature := Vector UInt8 64

/-- Any 64 bytes are a signature. -/
def Signature.fromSlice (bytes : Bytes) : Except String Signature :=
  if h : bytes.length = 64 then .ok ⟨bytes.toArray, by simpa using h⟩ else .error "signature error"

/-- A signature scheme, by its verifier. -/
class Verifier (VerifyingKey : Type) where
  verify : VerifyingKey → Bytes → Signature → Bool

theorem Signature.fromSlice_eq_ok {bytes : Bytes} {sig : Signature} :
    Signature.fromSlice bytes = .ok sig ↔ bytes = sig.toList := by
  unfold Signature.fromSlice
  split
  case isTrue h =>
    rw [Except.ok.injEq]
    constructor
    · rintro rfl
      rfl
    · rintro rfl
      rfl
  case isFalse h =>
    simp only [reduceCtorEq, false_iff]
    rintro rfl
    exact h (by simp)

/-! ### Approvals -/

structure PartialSignature where
  verifierId : VerifierId
  bytes : Bytes
deriving DecidableEq

/-- Signatures with the quorum and the digest they are for. -/
structure ThresholdApproval where
  quorum : QuorumSpec
  signers : List VerifierId
  signatures : List (VerifierId × Bytes)
  signedDigest : DigestBytes
deriving DecidableEq

class Signer (SigningKey : Type) where
  sign : SigningKey → Bytes → Signature

/-- A verifier that signs or fails; it may change the world. -/
structure ThresholdSigner (σ : Type) where
  verifierId : VerifierId
  signPartial : Bytes → EStateM CryptoError σ PartialSignature

structure VerifierKeyPair (SigningKey : Type) where
  verifierId : VerifierId
  signingKey : SigningKey

structure PrototypeThresholdSigner (SigningKey : Type) where
  keyPair : VerifierKeyPair SigningKey

namespace PrototypeThresholdSigner

variable {SigningKey : Type} (s : PrototypeThresholdSigner SigningKey)

def verifierId : VerifierId := s.keyPair.verifierId

def signPartial [Signer SigningKey] (payload : Bytes) :
    Except CryptoError PartialSignature :=
  .ok ⟨s.keyPair.verifierId, (Signer.sign s.keyPair.signingKey payload).toList⟩

end PrototypeThresholdSigner

variable (envelopeDigest : DigestBytes)

def approvalSignedDigest : DigestBytes :=
  sha256Tagged "tls-attestation/threshold-approval/v1" envelopeDigest.asBytes.toList

def approvalPreimage : Bytes :=
  domainPrefixed "tls-attestation/threshold-approval/v1" ++ envelopeDigest.asBytes.toList

section

variable {VerifyingKey : Type} (publicKeys : List (VerifierId × VerifyingKey))

def keyOf (id : VerifierId) : Option VerifyingKey :=
  (publicKeys.find? fun p => p.1 = id).map Prod.snd

variable [Verifier VerifyingKey] (signedDigest : DigestBytes)

def verifySignature (id : VerifierId) (bytes : Bytes) : Except CryptoError Unit := do
  let vk ← okOr (keyOf publicKeys id) (.unknownVerifier id.display)
  let sig ← (Signature.fromSlice bytes).mapError fun e =>
    .signatureVerificationFailed s!"malformed signature: {e}"
  ensure (Verifier.verify vk signedDigest.asBytes.toList sig)
    (.signatureVerificationFailed s!"signature from {id.display} is invalid")

def aggregateStep (quorum : QuorumSpec) (signedDigest : DigestBytes)
    (publicKeys : List (VerifierId × VerifyingKey)) (valid : List (VerifierId × Bytes))
    (p : PartialSignature) : Except CryptoError (List (VerifierId × Bytes)) := do
  if p.verifierId ∉ quorum.verifiers.1 then
    return valid
  verifySignature publicKeys signedDigest p.verifierId p.bytes
  if valid.any fun v => v.1 = p.verifierId then
    return valid
  else
    return valid ++ [(p.verifierId, p.bytes)]

/-- **The coordinator's side**: signatures into an approval. -/
def aggregateSignatures (partials : List PartialSignature) (quorum : QuorumSpec)
    (envelopeDigest : DigestBytes) (publicKeys : List (VerifierId × VerifyingKey)) :
    Except CryptoError ThresholdApproval := do
  let signedDigest := approvalSignedDigest envelopeDigest
  let valid ← partials.foldlM (aggregateStep quorum signedDigest publicKeys) []
  let signers := valid.map Prod.fst
  ensure (quorum.isSatisfiedBy signers)
    (.insufficientSignatures quorum.threshold.toNat signers.length)
  return { quorum, signers, signatures := valid, signedDigest }

variable (approval : ThresholdApproval)

def verifyStep (publicKeys : List (VerifierId × VerifyingKey))
    (validCount : ℕ) (s : VerifierId × Bytes) : Except CryptoError ℕ := do
  if s.1 ∉ approval.quorum.verifiers.1 then
    return validCount
  verifySignature publicKeys approval.signedDigest s.1 s.2
  return validCount + 1

/-- **The consumer's side**: check an approval. -/
def verifyThresholdApproval (envelopeDigest : DigestBytes)
    (publicKeys : List (VerifierId × VerifyingKey)) : Except CryptoError Unit := do
  ensure (approval.signedDigest = approvalSignedDigest envelopeDigest)
    (.signatureVerificationFailed "signed_digest does not match envelope_digest")
  let validCount ← approval.signatures.foldlM (verifyStep approval publicKeys) 0
  ensure (approval.quorum.isSatisfiedBy approval.signers ∧
      approval.quorum.threshold.toNat ≤ validCount)
    (.insufficientSignatures approval.quorum.threshold.toNat validCount)

/-! ### What the checks establish -/

def SignatureValid (id : VerifierId) (bytes : Bytes) : Prop :=
  ∃ vk, keyOf publicKeys id = some vk ∧
    ∃ sig : Signature, bytes = sig.toList ∧ Verifier.verify vk signedDigest.asBytes.toList sig

variable {publicKeys : List (VerifierId × VerifyingKey)} {quorum : QuorumSpec}
  {signedDigest envelopeDigest : DigestBytes} {approval : ThresholdApproval}

theorem verifySignature_eq_ok {id : VerifierId} {bytes : Bytes} {u : Unit} :
    verifySignature publicKeys signedDigest id bytes = .ok u ↔
      SignatureValid publicKeys signedDigest id bytes := by
  simp [verifySignature, SignatureValid, Signature.fromSlice_eq_ok]

instance (id : VerifierId) (bytes : Bytes) :
    Decidable (SignatureValid publicKeys signedDigest id bytes) :=
  decidable_of_iff (verifySignature publicKeys signedDigest id bytes = .ok ()) verifySignature_eq_ok

theorem verifyStep_eq_ok {n t : ℕ} {s : VerifierId × Bytes} :
    verifyStep approval publicKeys n s = .ok t ↔ (s.1 ∈ approval.quorum.verifiers.1 →
        SignatureValid publicKeys approval.signedDigest s.1 s.2) ∧
      (if s.1 ∈ approval.quorum.verifiers.1 then n + 1 else n) = t := by
  unfold verifyStep
  by_cases hs : s.1 ∈ approval.quorum.verifiers.1
  · simp [hs, verifySignature_eq_ok]
  · simp [hs]

theorem verifyThresholdApproval_eq_ok {u : Unit} :
    verifyThresholdApproval approval envelopeDigest publicKeys = .ok u ↔
      approval.signedDigest = approvalSignedDigest envelopeDigest ∧
      (∀ s ∈ approval.signatures, s.1 ∈ approval.quorum.verifiers.1 →
        SignatureValid publicKeys approval.signedDigest s.1 s.2) ∧
      approval.quorum.isSatisfiedBy approval.signers ∧
      approval.quorum.threshold.toNat ≤
        approval.signatures.countP fun s => s.1 ∈ approval.quorum.verifiers.1 := by
  unfold verifyThresholdApproval
  simp only [do_eq_ok, exists_const,
    foldlM_eq_ok_iff (fun n s t => verifyStep_eq_ok (n := n) (s := s) (t := t)), foldl_count,
    Nat.zero_add]
  constructor
  · rintro ⟨hdig, _, ⟨hvalid, rfl⟩, hsat, hcount⟩
    exact ⟨hdig, hvalid, hsat, hcount⟩
  · rintro ⟨hdig, hvalid, hsat, hcount⟩
    exact ⟨hdig, _, ⟨hvalid, rfl⟩, hsat, hcount⟩

/-! ### The coordinator's list of valid signatures -/

/-- Eligible verifiers so far, each once with a valid signature. -/
def Collected (quorum : QuorumSpec) (publicKeys : List (VerifierId × VerifyingKey))
    (signedDigest : DigestBytes) (valid : List (VerifierId × Bytes)) : Prop :=
  (valid.map Prod.fst).Nodup ∧
    ∀ s ∈ valid, s.1 ∈ quorum.verifiers.1 ∧ SignatureValid publicKeys signedDigest s.1 s.2

variable {valid : List (VerifierId × Bytes)} {partials : List PartialSignature}
  {valid' : List (VerifierId × Bytes)} {p : PartialSignature}

theorem aggregateStep_eq_ok :
    aggregateStep quorum signedDigest publicKeys valid p = .ok valid' ↔
      (p.verifierId ∈ quorum.verifiers.1 →
        SignatureValid publicKeys signedDigest p.verifierId p.bytes) ∧
      (if p.verifierId ∈ quorum.verifiers.1 ∧ p.verifierId ∉ valid.map Prod.fst then
        valid ++ [(p.verifierId, p.bytes)] else valid) = valid' := by
  unfold aggregateStep
  have hany : (valid.any fun v => v.1 = p.verifierId) =
      decide (p.verifierId ∈ valid.map Prod.fst) := by
    rw [Bool.eq_iff_iff]
    simp
  rw [hany]
  by_cases hp : p.verifierId ∈ quorum.verifiers.1
  · by_cases hseen : p.verifierId ∈ valid.map Prod.fst
    · simp [hp, hseen, verifySignature_eq_ok]
    · simp [hp, hseen, verifySignature_eq_ok]
  · simp [hp]

theorem Collected.aggregateStep (h : Collected quorum publicKeys signedDigest valid)
    (hstep : aggregateStep quorum signedDigest publicKeys valid p = .ok valid') :
    Collected quorum publicKeys signedDigest valid' := by
  obtain ⟨hvalid, rfl⟩ := aggregateStep_eq_ok.1 hstep
  obtain ⟨hnodup, hall⟩ := h
  split
  case isFalse => exact ⟨hnodup, hall⟩
  case isTrue hnew =>
    refine ⟨?_, ?_⟩
    · rw [map_append, nodup_append]
      refine ⟨hnodup, by simp, ?_⟩
      rintro id hid _ hid' rfl
      have heq : id = p.verifierId := by simpa using hid'
      exact hnew.2 (heq ▸ hid)
    · intro s hs
      rcases mem_append.1 hs with hs | hs
      · exact hall s hs
      · rw [mem_singleton.1 hs]
        exact ⟨hnew.1, hvalid hnew.1⟩

theorem aggregateSignatures_spec
    (h : aggregateSignatures partials quorum envelopeDigest publicKeys = .ok approval) :
    approval.quorum = quorum ∧ approval.signedDigest = approvalSignedDigest envelopeDigest ∧
      approval.signers = approval.signatures.map Prod.fst ∧
      Collected quorum publicKeys approval.signedDigest approval.signatures ∧
      quorum.isSatisfiedBy approval.signers := by
  simp only [aggregateSignatures, do_eq_ok] at h
  obtain ⟨valid, hloop, _, hsat, rfl⟩ := h
  have hcollected : Collected quorum publicKeys (approvalSignedDigest envelopeDigest) valid :=
    foldlM_invariant (fun _ _ _ _ hs hstep => hs.aggregateStep hstep) ⟨by simp, by simp⟩ hloop
  exact ⟨rfl, rfl, rfl, hcollected, hsat⟩

/-- When the consumer accepts what the coordinator built. -/
theorem verifyThresholdApproval_iff_of_aggregateSignatures
    (h : aggregateSignatures partials quorum envelopeDigest publicKeys = .ok approval) :
    verifyThresholdApproval approval envelopeDigest publicKeys = .ok () ↔
      quorum.threshold.toNat ≤ approval.signers.length := by
  obtain ⟨rfl, hdig, hsigners, ⟨-, hall⟩, hsat⟩ := aggregateSignatures_spec h
  have hcount : approval.signatures.countP (fun s => s.1 ∈ approval.quorum.verifiers.1) =
      approval.signers.length := by
    rw [hsigners, length_map, countP_eq_length]
    exact fun s hs => by simpa using (hall s hs).1
  rw [verifyThresholdApproval_eq_ok, hcount]
  exact ⟨fun h => h.2.2.2, fun hle => ⟨hdig, fun s hs _ => (hall s hs).2, hsat, hle⟩⟩

theorem foldlM_aggregateStep
    (hids : (valid.map Prod.fst ++ partials.map PartialSignature.verifierId).Nodup)
    (hvalid : ∀ p ∈ partials, p.verifierId ∈ quorum.verifiers.1 ∧
      SignatureValid publicKeys signedDigest p.verifierId p.bytes) :
    partials.foldlM (aggregateStep quorum signedDigest publicKeys) valid =
      .ok (valid ++ partials.map fun p => (p.verifierId, p.bytes)) := by
  induction partials generalizing valid with
  | nil => simp
  | cons p ps ih =>
    obtain ⟨hmember, hsig⟩ := hvalid p mem_cons_self
    have hnew : p.verifierId ∉ valid.map Prod.fst := by
      intro hmem
      exact (nodup_append.1 hids).2.2 _ hmem _ (by simp) rfl
    have hstep : aggregateStep quorum signedDigest publicKeys valid p =
        .ok (valid ++ [(p.verifierId, p.bytes)]) :=
      aggregateStep_eq_ok.2 ⟨fun _ => hsig, if_pos ⟨hmember, hnew⟩⟩
    rw [foldlM_cons, hstep]
    refine (ih ?_ fun q hq => hvalid q (mem_cons_of_mem p hq)).trans ?_
    · simpa using hids
    · simp

/-- **Enough valid signatures of different members** are aggregated. -/
theorem exists_aggregateSignatures (hids : (partials.map PartialSignature.verifierId).Nodup)
    (hvalid : ∀ p ∈ partials, p.verifierId ∈ quorum.verifiers.1 ∧
      SignatureValid publicKeys (approvalSignedDigest envelopeDigest) p.verifierId p.bytes)
    (hsat : quorum.isSatisfiedBy (partials.map PartialSignature.verifierId) = true) :
    ∃ approval, aggregateSignatures partials quorum envelopeDigest publicKeys = .ok approval ∧
      approval.signers = partials.map PartialSignature.verifierId := by
  have hloop : partials.foldlM
      (aggregateStep quorum (approvalSignedDigest envelopeDigest) publicKeys)
      [] = .ok (partials.map fun p => (p.verifierId, p.bytes)) :=
    foldlM_aggregateStep (by simpa using hids) hvalid
  have hsigners : (partials.map fun p => (p.verifierId, p.bytes)).map Prod.fst =
      partials.map PartialSignature.verifierId := map_map
  refine ⟨⟨quorum, _, partials.map fun p => (p.verifierId, p.bytes),
    approvalSignedDigest envelopeDigest⟩, ?_, hsigners⟩
  simp only [aggregateSignatures, do_eq_ok]
  exact ⟨_, hloop, (), by rw [hsigners]; exact hsat, rfl⟩

end

/-! ### Quorums that list a verifier twice -/

namespace QuorumSpec

/-- Repetitions do not matter: there are none, or at most one approval is asked for, or more than
listed. -/
def CountsOnce (q : QuorumSpec) : Prop :=
  q.threshold.toNat ≤ 1 ∨ q.verifiers.1.length < q.threshold.toNat ∨ q.verifiers.1.Nodup

variable {q : QuorumSpec}

theorem CountsOnce.threshold_le (hq : q.CountsOnce) {approvers : List VerifierId}
    (hsat : q.isSatisfiedBy approvers = true) : q.threshold.toNat ≤ approvers.length := by
  have hthr := of_decide_eq_true hsat
  rcases hq with hone | hmany | hnodup
  · rcases approvers with _ | ⟨v, vs⟩
    · simpa using hthr
    · exact hone.trans (by simp)
  · exact absurd (hthr.trans (length_filter_le _ _)) (not_le.2 hmany)
  · -- the quorum's own list has no repetition, so its part among the approvers is no longer
    refine hthr.trans (List.Nodup.length_le_of_subset (hnodup.filter _) fun id hid => ?_)
    simpa using (mem_filter.1 hid).2

/-- Where a repetition matters. -/
theorem exists_approvers_of_not_countsOnce (hq : ¬ q.CountsOnce) :
    ∃ approvers : List VerifierId, approvers.Nodup ∧ approvers ⊆ q.verifiers.1 ∧
      q.isSatisfiedBy approvers = true ∧ approvers.length < q.threshold.toNat := by
  obtain ⟨htwo, hle, hdup⟩ : 1 < q.threshold.toNat ∧ q.threshold.toNat ≤ q.verifiers.1.length ∧
      ¬ q.verifiers.1.Nodup := by
    simpa only [CountsOnce, not_or, not_le, not_lt] using hq
  obtain ⟨v, hv⟩ := exists_duplicate_iff_not_nodup.2 hdup
  obtain ⟨rest, hperm⟩ := (duplicate_iff_sublist.1 hv).exists_perm_append
  -- As many as are asked for, beginning with both copies.
  obtain ⟨k, hk⟩ : ∃ k, q.threshold.toNat = k + 2 := Nat.exists_eq_add_of_le' htwo
  have hlen : k ≤ rest.length := by
    have hcount := hperm.length_eq
    simp only [length_append, length_cons, length_nil] at hcount
    omega
  obtain ⟨first, last, rfl, hfirst⟩ : ∃ first last, rest = first ++ last ∧ first.length = k :=
    ⟨rest.take k, rest.drop k, (take_append_drop k rest).symm, length_take_of_le hlen⟩
  have hmem : ∀ u, (v :: first).dedup.contains u = true ↔ u = v ∨ u ∈ first := by
    intro u
    rw [contains_iff_mem, mem_dedup, mem_cons]
  refine ⟨(v :: first).dedup, nodup_dedup _, fun u hu => hperm.mem_iff.2 ?_, ?_, ?_⟩
  · rcases mem_cons.1 (mem_dedup.1 hu) with rfl | hu
    · simp
    · simp [hu]
  · have hall : first.countP (fun u => (v :: first).dedup.contains u) = k := by
      rw [countP_eq_length.2 fun u hu => (hmem u).2 (.inr hu), hfirst]
    refine decide_eq_true ?_
    rw [← countP_eq_length_filter, hperm.countP_eq, hk]
    simp only [cons_append, nil_append, countP_cons, countP_append, hall,
      (hmem v).2 (.inl rfl), if_true]
    omega
  · calc (v :: first).dedup.length ≤ (v :: first).length := (dedup_sublist _).length_le
      _ < q.threshold.toNat := by
        rw [length_cons, hfirst, hk]
        exact Nat.lt_succ_self _

end QuorumSpec

end TlsAttestation
