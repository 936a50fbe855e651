import TlsAttestation.Attestation.Envelope
import Mathlib.Data.Finset.Card

/-!
# What an accepted approval says about the session's quorum

The check of an approval is about the approval's own quorum, and counts signatures. Known to have
signed are the members of the session's quorum that are listed *and* in that quorum
(`AttestationEnvelope.countedMembers`).
-/

namespace TlsAttestation

open ByteEncoding

namespace AttestationEnvelope

section

variable {VerifyingKey : Type} [Verifier VerifyingKey] (env : AttestationEnvelope)

def Accepted (keys : List (VerifierId × VerifyingKey)) : Prop :=
  verifyThresholdApproval env.thresholdApproval env.envelopeDigest keys = .ok ()

def signedMembers (keys : List (VerifierId × VerifyingKey)) :
    Finset VerifierId :=
  env.session.quorum.verifiers.1.toFinset.filter fun v =>
    ∃ s ∈ env.thresholdApproval.signatures, s.1 = v ∧
      SignatureValid keys (approvalSignedDigest env.envelopeDigest) v s.2

/-- The members whose signature the check looks at. -/
def countedMembers : Finset VerifierId :=
  env.session.quorum.verifiers.1.toFinset.filter fun v =>
    v ∈ env.thresholdApproval.quorum.verifiers.1 ∧ v ∈ env.thresholdApproval.signatures.map Prod.fst

variable (VerifyingKey) in
/-- Whatever keys an intact envelope is accepted with, a threshold of members of its session
signed. -/
def ApprovalSound : Prop :=
  ∀ keys : List (VerifierId × VerifyingKey), env.verifyDigest = true → env.Accepted keys →
    env.session.quorum.threshold.toNat ≤ (env.signedMembers keys).card

variable {env : AttestationEnvelope} {keys : List (VerifierId × VerifyingKey)}

theorem countedMembers_subset_signedMembers (h : env.Accepted keys) :
    env.countedMembers ⊆ env.signedMembers keys := by
  obtain ⟨hdig, hvalid, -, -⟩ := verifyThresholdApproval_eq_ok.1 h
  intro v hv
  obtain ⟨hmember, helig, hlisted⟩ := Finset.mem_filter.1 hv
  obtain ⟨s, hs, rfl⟩ := List.mem_map.1 hlisted
  exact Finset.mem_filter.2 ⟨hmember, s, hs, rfl, hdig ▸ hvalid s hs helig⟩

/-! ### Keys the check does not use -/

def usedKeys (keys : List (VerifierId × VerifyingKey)) :
    List (VerifierId × VerifyingKey) :=
  keys.filter fun p => p.1 ∈ env.thresholdApproval.quorum.verifiers.1

omit [Verifier VerifyingKey] in
theorem keyOf_usedKeys {v : VerifierId} (hv : v ∈ env.thresholdApproval.quorum.verifiers.1) :
    keyOf (env.usedKeys keys) v = keyOf keys v := by
  have hfind : ∀ p : VerifierId × VerifyingKey,
      (p.1 ∈ env.thresholdApproval.quorum.verifiers.1 ∧ p.1 = v) ↔ p.1 = v := by
    rintro p
    exact ⟨And.right, fun h => ⟨h ▸ hv, h⟩⟩
  simp [keyOf, usedKeys, hfind]

omit [Verifier VerifyingKey] in
theorem mem_quorum_of_keyOf_usedKeys {v : VerifierId} {vk : VerifyingKey}
    (h : keyOf (env.usedKeys keys) v = some vk) :
    v ∈ env.thresholdApproval.quorum.verifiers.1 := by
  obtain ⟨p, hp, -⟩ := Option.map_eq_some_iff.1 h
  have hmem := (List.mem_filter.1 (List.mem_of_find?_eq_some hp)).2
  have hid : p.1 = v := by simpa using List.find?_some hp
  simpa [hid] using hmem

theorem Accepted.usedKeys (h : env.Accepted keys) : env.Accepted (env.usedKeys keys) := by
  obtain ⟨hdig, hvalid, hsat, hcount⟩ := verifyThresholdApproval_eq_ok.1 h
  refine verifyThresholdApproval_eq_ok.2 ⟨hdig, fun s hs helig => ?_, hsat, hcount⟩
  obtain ⟨vk, hkey, hsig⟩ := hvalid s hs helig
  exact ⟨vk, (keyOf_usedKeys helig).trans hkey, hsig⟩

theorem signedMembers_usedKeys_subset :
    env.signedMembers (env.usedKeys keys) ⊆ env.countedMembers := by
  intro v hv
  obtain ⟨hmember, s, hs, rfl, vk, hkey, -⟩ := Finset.mem_filter.1 hv
  exact Finset.mem_filter.2 ⟨hmember, mem_quorum_of_keyOf_usedKeys hkey, List.mem_map_of_mem hs⟩

/-- **When an approval is sound**: if the signatures the check looks at are by enough distinct
members of the session's quorum. -/
theorem approvalSound_iff :
    env.ApprovalSound VerifyingKey ↔ (env.verifyDigest = true →
        (∃ keys : List (VerifierId × VerifyingKey), env.Accepted keys) →
          env.session.quorum.threshold.toNat ≤ env.countedMembers.card) := by
  constructor
  · rintro hsound hdig ⟨keys, hacc⟩
    exact (hsound _ hdig hacc.usedKeys).trans (Finset.card_le_card signedMembers_usedKeys_subset)
  · intro h keys hdig hacc
    exact (h hdig ⟨keys, hacc⟩).trans
      (Finset.card_le_card (countedMembers_subset_signedMembers hacc))

theorem signedMembers_subset_listed :
    env.signedMembers keys ⊆ (env.thresholdApproval.signatures.map Prod.fst).toFinset := by
  intro v hv
  obtain ⟨-, s, hs, rfl, -⟩ := Finset.mem_filter.1 hv
  exact List.mem_toFinset.2 (List.mem_map_of_mem hs)

end

/-! ### One verifier, counted twice -/

/-- A scheme with exactly one valid signature of a key on each message. -/
structure DigestKey where
  seed : Bytes

variable (k : DigestKey)

def DigestKey.sign (msg : Bytes) : Signature :=
  Sha2.sha256 (k.seed ++ msg) ++ Sha2.sha256 (msg ++ k.seed)

instance : Verifier DigestKey where
  verify k msg sig := sig = k.sign msg

instance : Signer DigestKey where
  sign := DigestKey.sign

def alice : VerifierId := .fromBytes (.replicate 32 1)

def bob : VerifierId := .fromBytes (.replicate 32 2)

/-- `alice` alone has signed; the signature is listed twice, and both members as signers. -/
def replayedEnvelope : AttestationEnvelope :=
  let quorum : QuorumSpec := ⟨.ofList [alice, bob], 2⟩
  let env := soloEnvelope (.ofList [1])
  let session := { env.session with quorum }
  let digest := computeDigest session env.randomness env.transcript env.statement
    env.coordinatorEvidence
  let signature := (k.sign (approvalSignedDigest digest).asBytes.toList).toList
  assemble session env.randomness env.transcript env.statement env.coordinatorEvidence
    ⟨quorum, [alice, bob], [(alice, signature), (alice, signature)], approvalSignedDigest digest⟩

/-- A repeated signature makes a quorum. -/
theorem replayedEnvelope_accepted :
    (replayedEnvelope k).verifyDigest = true ∧ (replayedEnvelope k).Accepted [(alice, k)] ∧
      (replayedEnvelope k).session.quorum.threshold = 2 ∧
      ((replayedEnvelope k).signedMembers [(alice, k)]).card ≤ 1 := by
  refine ⟨verifyDigest_assemble _ _ _ _ _ _, ?_, rfl, ?_⟩
  · refine verifyThresholdApproval_eq_ok.2 ⟨rfl, fun s hs _ => ?_, rfl, le_of_eq rfl⟩
    obtain rfl : s = (alice, _) := by simpa [replayedEnvelope, assemble] using hs
    exact ⟨k, rfl, _, rfl, by simp [Verifier.verify, replayedEnvelope, assemble]⟩
  · exact (Finset.card_le_card signedMembers_subset_listed).trans (le_of_eq rfl)

/-- The same run, against the statement of soundness. -/
theorem not_approvalSound_replayedEnvelope :
    ¬ (replayedEnvelope ⟨[7]⟩).ApprovalSound DigestKey := by
  intro hsound
  obtain ⟨hdig, hacc, hthr, hcard⟩ := replayedEnvelope_accepted ⟨[7]⟩
  have hle := (hsound _ hdig hacc).trans hcard
  rw [hthr] at hle
  exact absurd hle (by decide)

end AttestationEnvelope

end TlsAttestation
