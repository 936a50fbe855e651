import TlsAttestation.Attestation.Approval
import Mathlib.Algebra.BigOperators.Group.Finset.Basic
import Mathlib.Algebra.Order.BigOperators.Group.Finset

/-!
# What counts towards a quorum

`is_satisfied_by` counts the entries of the quorum's **list**, with repetitions
(`QuorumSpec.countsDistinct_iff`). `aggregate_signatures` **leaves its loop** at the first invalid
signature of a member (`aggregates_iff`).
-/

namespace TlsAttestation

open ByteEncoding Fallible Finset
open AttestationEnvelope (DigestKey alice bob)

/-! ### Entries of the list and members of the set -/

namespace QuorumSpec

variable {q : QuorumSpec} {approvers : List VerifierId}

def approving (q : QuorumSpec) (approvers : List VerifierId) : Finset VerifierId :=
  q.verifiers.1.toFinset ∩ approvers.toFinset

/-- How many entries of the list are repetitions of approvers. -/
def repeats (q : QuorumSpec) (approvers : List VerifierId) : ℕ :=
  ∑ v ∈ q.approving approvers, (q.verifiers.1.count v - 1)

/-- The quorum is satisfied exactly if enough different members approve. -/
def CountsDistinct (q : QuorumSpec) (approvers : List VerifierId) : Prop :=
  q.isSatisfiedBy approvers = true ↔ q.threshold.toNat ≤ (q.approving approvers).card

theorem mem_approving {v : VerifierId} :
    v ∈ q.approving approvers ↔ v ∈ q.verifiers.1 ∧ v ∈ approvers := by
  rw [approving, mem_inter, List.mem_toFinset, List.mem_toFinset]

theorem length_filter_contains (q : QuorumSpec) (approvers : List VerifierId) :
    (q.verifiers.1.filter fun v => approvers.contains v).length =
      (q.approving approvers).card + q.repeats approvers := by
  have hset : (q.verifiers.1.filter fun v => approvers.contains v).toFinset =
      q.approving approvers := by
    ext v
    simp [mem_approving]
  rw [← List.sum_toFinset_count_eq_length, hset, card_eq_sum_ones, repeats, ← sum_add_distrib]
  refine sum_congr rfl fun v hv => ?_
  obtain ⟨hlisted, happ⟩ := mem_approving.1 hv
  rw [List.count_filter (by simpa using happ)]
  exact (Nat.add_sub_cancel' (List.count_pos_iff.2 hlisted)).symm

theorem isSatisfiedBy_eq_true :
    q.isSatisfiedBy approvers = true ↔
      q.threshold.toNat ≤ (q.approving approvers).card + q.repeats approvers := by
  rw [isSatisfiedBy, decide_eq_true_eq, length_filter_contains]

theorem repeats_of_nodup (hq : q.verifiers.1.Nodup) : q.repeats approvers = 0 :=
  sum_eq_zero fun v _ => Nat.sub_eq_zero_of_le (List.nodup_iff_count_le_one.1 hq v)

theorem countsDistinct_iff_repeats :
    q.CountsDistinct approvers ↔ ¬ ((q.approving approvers).card < q.threshold.toNat ∧
        q.threshold.toNat ≤ (q.approving approvers).card + q.repeats approvers) := by
  rw [CountsDistinct, isSatisfiedBy_eq_true]
  omega

theorem repeats_of_card_eq_zero (h : (q.approving approvers).card = 0) :
    q.repeats approvers = 0 := by
  rw [repeats, card_eq_zero.1 h, sum_empty]

theorem CountsOnce.countsDistinct (hq : q.CountsOnce)
    (hle : q.threshold.toNat ≤ q.verifiers.1.length) : q.CountsDistinct approvers := by
  refine countsDistinct_iff_repeats.2 fun ⟨hfew, henough⟩ => ?_
  rcases hq with hone | hmany | hnodup
  · rw [repeats_of_card_eq_zero (by omega)] at henough
    omega
  · omega
  · rw [repeats_of_nodup hnodup] at henough
    omega

theorem countsOnce_of_forall_countsDistinct (h : ∀ approvers, q.CountsDistinct approvers) :
    q.CountsOnce := by
  by_contra hq
  obtain ⟨approvers, -, -, hsat, hfew⟩ := exists_approvers_of_not_countsOnce hq
  have hcard : (q.approving approvers).card ≤ approvers.length :=
    (card_le_card inter_subset_right).trans (List.toFinset_card_le approvers)
  exact absurd (((h approvers).1 hsat).trans hcard) (not_le.2 hfew)

/-- **When different verifiers are counted**: for given approvers, unless repetitions make up for
too few; for all approvers, if no verifier is listed twice or one approval is enough. -/
theorem countsDistinct_iff {verifiers : RVec VerifierId} {threshold : UInt64} {q : QuorumSpec}
    (h : QuorumSpec.new verifiers threshold = .ok q) :
    (∀ approvers, q.CountsDistinct approvers ↔ ¬ ((q.approving approvers).card < threshold.toNat ∧
        threshold.toNat ≤ (q.approving approvers).card + q.repeats approvers)) ∧
    ((∀ approvers, q.CountsDistinct approvers) ↔ verifiers.1.Nodup ∨ threshold = 1) := by
  obtain ⟨rfl, hpos, hle⟩ := new_eq_ok h
  refine ⟨fun approvers => countsDistinct_iff_repeats, fun hall => ?_, fun hq approvers => ?_⟩
  · rcases countsOnce_of_forall_countsDistinct hall with hone | hmany | hnodup
    · exact .inr (UInt64.toNat_inj.1 (Nat.le_antisymm hone hpos))
    · exact absurd hle (not_le.2 hmany)
    · exact .inl hnodup
  · refine CountsOnce.countsDistinct ?_ hle
    rcases hq with hnodup | rfl
    · exact .inr (.inr hnodup)
    · exact .inl le_rfl

theorem countsDistinct_iff_pair :
    QuorumSpec.new (.ofList [alice, bob]) 2 = .ok ⟨.ofList [alice, bob], 2⟩ ∧
      QuorumSpec.CountsDistinct ⟨.ofList [alice, bob], 2⟩ [alice] := by
  have hnew : QuorumSpec.new (.ofList [alice, bob]) 2 = .ok ⟨.ofList [alice, bob], 2⟩ := rfl
  exact ⟨hnew, (countsDistinct_iff hnew).2.2 (.inl (by decide)) [alice]⟩

/-- One verifier, listed twice, is a quorum of two. -/
theorem not_countsDistinct_twice :
    QuorumSpec.new (.ofList [alice, alice]) 2 = .ok ⟨.ofList [alice, alice], 2⟩ ∧
      ¬ QuorumSpec.CountsDistinct ⟨.ofList [alice, alice], 2⟩ [alice] := by
  refine ⟨rfl, fun h => ?_⟩
  exact absurd (h.1 (by decide)) (by decide)

end QuorumSpec

/-! ### Signatures of members -/

section

variable {VerifyingKey : Type} [Verifier VerifyingKey]
  {publicKeys : List (VerifierId × VerifyingKey)} {quorum : QuorumSpec}
  {signedDigest envelopeDigest : DigestBytes} {partials : List PartialSignature}

def validMembers (partials : List PartialSignature) (quorum : QuorumSpec)
    (signedDigest : DigestBytes) (publicKeys : List (VerifierId × VerifyingKey)) :
    Finset VerifierId :=
  quorum.verifiers.1.toFinset.filter fun v =>
    ∃ p ∈ partials, p.verifierId = v ∧ SignatureValid publicKeys signedDigest v p.bytes

/-- **Enough valid signatures are enough** for an approval, and needed. -/
def Aggregates (partials : List PartialSignature) (quorum : QuorumSpec)
    (envelopeDigest : DigestBytes) (publicKeys : List (VerifierId × VerifyingKey)) : Prop :=
  (∃ approval, aggregateSignatures partials quorum envelopeDigest publicKeys = .ok approval) ↔
    quorum.threshold.toNat ≤
      (validMembers partials quorum (approvalSignedDigest envelopeDigest) publicKeys).card

def NoneInvalid (partials : List PartialSignature) (quorum : QuorumSpec)
    (signedDigest : DigestBytes) (publicKeys : List (VerifierId × VerifyingKey)) : Prop :=
  ∀ p ∈ partials, p.verifierId ∈ quorum.verifiers.1 →
    SignatureValid publicKeys signedDigest p.verifierId p.bytes

def keepFirst (quorum : QuorumSpec) (valid : List (VerifierId × Bytes)) (p : PartialSignature) :
    List (VerifierId × Bytes) :=
  if p.verifierId ∈ quorum.verifiers.1 ∧ p.verifierId ∉ valid.map Prod.fst then
    valid ++ [(p.verifierId, p.bytes)] else valid

variable {valid : List (VerifierId × Bytes)}

theorem mem_map_fst_keepFirst {p : PartialSignature} {v : VerifierId} :
    v ∈ (keepFirst quorum valid p).map Prod.fst ↔
      v ∈ valid.map Prod.fst ∨ (v = p.verifierId ∧ v ∈ quorum.verifiers.1) := by
  rw [keepFirst]
  split
  · next h =>
    rw [List.map_append, List.mem_append]
    refine or_congr_right ?_
    rw [List.map_singleton, List.mem_singleton]
    exact ⟨fun hv => ⟨hv, hv ▸ h.1⟩, And.left⟩
  · next h =>
    refine ⟨.inl, ?_⟩
    rintro (hv | ⟨rfl, hv⟩)
    · exact hv
    · exact not_not.1 fun hnew => h ⟨hv, hnew⟩

theorem mem_map_fst_foldl_keepFirst {v : VerifierId} :
    v ∈ (partials.foldl (keepFirst quorum) valid).map Prod.fst ↔ v ∈ valid.map Prod.fst ∨
        (v ∈ partials.map PartialSignature.verifierId ∧ v ∈ quorum.verifiers.1) := by
  induction partials generalizing valid with
  | nil => simp
  | cons p ps ih =>
    rw [List.foldl_cons, ih, mem_map_fst_keepFirst, List.map_cons, List.mem_cons, or_and_right,
      or_assoc]

theorem foldlM_aggregateStep_eq_ok :
    partials.foldlM (aggregateStep quorum signedDigest publicKeys) [] = .ok valid ↔
      NoneInvalid partials quorum signedDigest publicKeys ∧
        partials.foldl (keepFirst quorum) [] = valid := by
  have hstep : ∀ valid p valid', aggregateStep quorum signedDigest publicKeys valid p = .ok valid' ↔
      (p.verifierId ∈ quorum.verifiers.1 →
        SignatureValid publicKeys signedDigest p.verifierId p.bytes) ∧
      keepFirst quorum valid p = valid' := fun _ _ _ => aggregateStep_eq_ok
  exact foldlM_eq_ok_iff hstep

theorem approving_foldl_keepFirst (h : NoneInvalid partials quorum signedDigest publicKeys) :
    quorum.approving ((partials.foldl (keepFirst quorum) []).map Prod.fst) =
      validMembers partials quorum signedDigest publicKeys := by
  ext v
  rw [QuorumSpec.mem_approving, mem_map_fst_foldl_keepFirst, validMembers, Finset.mem_filter,
    List.mem_toFinset]
  refine and_congr_right fun hv => ?_
  simp only [List.map_nil, List.not_mem_nil, false_or, List.mem_map, hv, and_true]
  constructor
  · rintro ⟨p, hp, rfl⟩
    exact ⟨p, hp, rfl, h p hp hv⟩
  · rintro ⟨p, hp, rfl, -⟩
    exact ⟨p, hp, rfl⟩

theorem exists_aggregateSignatures_iff (hq : quorum.verifiers.1.Nodup) :
    (∃ approval, aggregateSignatures partials quorum envelopeDigest publicKeys = .ok approval) ↔
      NoneInvalid partials quorum (approvalSignedDigest envelopeDigest) publicKeys ∧
        quorum.threshold.toNat ≤
          (validMembers partials quorum (approvalSignedDigest envelopeDigest) publicKeys).card := by
  simp only [aggregateSignatures, do_eq_ok, foldlM_aggregateStep_eq_ok,
    QuorumSpec.isSatisfiedBy_eq_true, QuorumSpec.repeats_of_nodup hq, Nat.add_zero]
  constructor
  · rintro ⟨_, _, ⟨hnone, rfl⟩, _, hsat, _⟩
    rw [approving_foldl_keepFirst hnone] at hsat
    exact ⟨hnone, hsat⟩
  · rintro ⟨hnone, henough⟩
    rw [← approving_foldl_keepFirst hnone] at henough
    exact ⟨_, _, ⟨hnone, rfl⟩, (), henough, rfl⟩

/-- **When enough valid signatures are enough**: if no member's is invalid, or there are too few. -/
theorem aggregates_iff (partials : List PartialSignature) (envelopeDigest : DigestBytes)
    (publicKeys : List (VerifierId × VerifyingKey)) (hq : quorum.verifiers.1.Nodup) :
    Aggregates partials quorum envelopeDigest publicKeys ↔
      NoneInvalid partials quorum (approvalSignedDigest envelopeDigest) publicKeys ∨
        (validMembers partials quorum (approvalSignedDigest envelopeDigest) publicKeys).card <
          quorum.threshold.toNat := by
  rw [Aggregates, exists_aggregateSignatures_iff hq, ← not_le]
  tauto

end

/-! ### One faulty verifier -/

def eitherQuorum : QuorumSpec := ⟨.ofList [alice, bob], 1⟩

def sharedKey : DigestKey := ⟨[7]⟩

variable (envelopeDigest : DigestBytes)

def alicePartial : PartialSignature :=
  ⟨alice, (sharedKey.sign (approvalSignedDigest envelopeDigest).asBytes.toList).toList⟩

theorem signatureValid_alicePartial :
    SignatureValid [(alice, sharedKey), (bob, sharedKey)] (approvalSignedDigest envelopeDigest)
      (alicePartial envelopeDigest).verifierId (alicePartial envelopeDigest).bytes :=
  ⟨sharedKey, rfl, _, rfl, by simp [Verifier.verify]⟩

def zeroDigest : DigestBytes := .fromBytes (.replicate 32 0)

theorem aggregates_alicePartial :
    Aggregates [alicePartial zeroDigest] eitherQuorum zeroDigest
      [(alice, sharedKey), (bob, sharedKey)] := by
  refine (aggregates_iff _ _ _ (by decide)).2 (.inl fun p hp _ => ?_)
  obtain rfl := List.mem_singleton.1 hp
  exact signatureValid_alicePartial zeroDigest

/-- **One faulty verifier**: the other member's signature is empty. -/
theorem not_aggregates_emptySignature :
    ¬ Aggregates [alicePartial zeroDigest, ⟨bob, []⟩] eitherQuorum zeroDigest
      [(alice, sharedKey), (bob, sharedKey)] := by
  intro h
  have hmember : alice ∈ validMembers [alicePartial zeroDigest, ⟨bob, []⟩] eitherQuorum
      (approvalSignedDigest zeroDigest) [(alice, sharedKey), (bob, sharedKey)] :=
    Finset.mem_filter.2 ⟨by decide, _, List.mem_cons_self, rfl, signatureValid_alicePartial _⟩
  have hok := h.2 (Finset.card_pos.2 ⟨alice, hmember⟩)
  obtain ⟨hnone, -⟩ := (exists_aggregateSignatures_iff (by decide)).1 hok
  obtain ⟨-, -, sig, hsig, -⟩ := hnone ⟨bob, []⟩ (by simp) (by decide)
  have hlen := congrArg List.length hsig
  simp at hlen

end TlsAttestation
