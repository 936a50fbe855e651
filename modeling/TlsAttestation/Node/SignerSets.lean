import TlsAttestation.Node.Runs

/-!
# The signers of the two rounds

A node compares the signers of round two with those of round one. But it signs for the participants
of the signing package, which it compares with nothing (`FrostAuxiliaryNode.signers_of_share`,
`FrostAuxiliaryNode.exists_share_for_others`).
-/

namespace TlsAttestation

open ByteEncoding Effect Fallible Frost

variable {F G : Type} [Field F] [AddCommGroup G] [Module F G]

/-! ### Signers, by name and by identifier -/

section

variable [DecidableEq F]

def FrostGroupKey.identifiersOf (k : FrostGroupKey F G) (signerSet : List VerifierId) :
    Finset (Identifier F) :=
  (signerSet.filterMap k.verifierToIdentifier).toFinset

def AssembledFor (C : NodeCrates F G) (groupKey : FrostGroupKey F G) (signerSet : List VerifierId)
    (signingPackageBytes : Bytes) : Prop :=
  ∀ package, C.parsePackage signingPackageBytes = .ok package →
    package.signingCommitments.keys = groupKey.identifiersOf signerSet

end

def NodeCall.announced : NodeCall → Option ((Protocol × SessionId) × List VerifierId)
  | .frostRound1 _ request _ => some ((.attestation, request.sessionId), request.signerSet)
  | .handshakeBindingRound1 _ request _ =>
    some ((.handshakeBinding, request.sessionId), request.signerSet)
  | _ => none

theorem NodeCall.announced_of_drawn {C : NodeCrates F G} {n : FrostAuxiliaryNode F G}
    {call : NodeCall} {k : Protocol × SessionId} {p : PendingRound F}
    (h : call.drawn C n = some (k, p)) : call.announced = some (k, p.signerSet) := by
  cases call with
  | frostRound1 ambient request now =>
    obtain ⟨rfl, rfl⟩ := Prod.mk.inj (Option.some.inj h)
    rfl
  | frostRound2 request => cases h
  | handshakeBindingRound1 ambient request now =>
    obtain ⟨rfl, rfl⟩ := Prod.mk.inj (Option.some.inj h)
    rfl
  | handshakeBindingRound2 request => cases h

/-! ### Over a run -/

variable [DecidableEq F] [DecidableEq G] {C : NodeCrates F G} {n : FrostAuxiliaryNode F G}
  {calls : List NodeCall} {k : Protocol × SessionId} {p : PendingRound F}

theorem NodeRun.waiting_step {s : NodeRun F G} {call : NodeCall}
    (h : (s.step C call).node.caches k = some p) :
    s.node.caches k = some p ∨
      call.drawn C s.node = some (k, p) ∧ ∃ resp, (call, resp) ∈ (s.step C call).log := by
  rcases hrun : (call.exec C).run s.node with ⟨resp, n⟩ | ⟨e, n⟩
  · rw [step, hrun] at h
    have hlog : (call, resp) ∈ (s.step C call).log := by
      rw [step, hrun]
      exact List.mem_append_right _ (List.mem_singleton_self _)
    obtain ⟨signed, hturn, -, -⟩ := NodeCall.turn_of_exec_ok hrun
    cases hturn with
    | drops hrest => exact .inl (hrest k p h)
    | @puts k₀ p₀ hdrawn hk₀ hrest =>
      by_cases hk : k = k₀
      · subst hk
        obtain rfl := Option.some.inj (hk₀.symm.trans h)
        exact .inr ⟨hdrawn, resp, hlog⟩
      · exact .inl (hrest k p hk h)
    | takes _ _ _ hrest _ _ => exact .inl (hrest k p h)
  · rw [step, hrun] at h
    exact .inl ((NodeCall.dropped_of_exec_error hrun).1 k p h)

theorem NodeRun.log_subset_step (s : NodeRun F G) (call : NodeCall) :
    s.log ⊆ (s.step C call).log := by
  rw [step]
  split
  · exact List.subset_append_left _ _
  · exact List.Subset.refl _

namespace FrostAuxiliaryNode

/-- **What waits was accepted** in round one. -/
theorem exists_round1_of_waiting (hn : n.Fresh) (h : (n.serve C calls).node.caches k = some p) :
    ∃ r resp, (r, resp) ∈ (n.serve C calls).log ∧ r.announced = some (k, p.signerSet) := by
  induction calls using List.reverseRecOn with
  | nil =>
    rw [serve, List.foldl_nil, hn.caches_eq_none] at h
    cases h
  | append_singleton calls call ih =>
    rw [serve_concat] at h ⊢
    rcases NodeRun.waiting_step h with hold | ⟨hdrawn, resp, hlog⟩
    · obtain ⟨r, resp, hr, hannounced⟩ := ih hold
      exact ⟨r, resp, NodeRun.log_subset_step _ call hr, hannounced⟩
    · exact ⟨call, resp, hlog, NodeCall.announced_of_drawn hdrawn⟩

/-- **What was signed waited**, for the named signers. -/
theorem exists_waiting_of_mem_log {q : NodeCall} {resp : NodeResponse}
    {signerSet : List VerifierId} {bytes : Bytes} (hq : (q, resp) ∈ (n.serve C calls).log)
    (hasked : q.asked = some (k, signerSet, bytes)) :
    ∃ before p package, before ++ [q] <+: calls ∧
      (n.serve C before).node.caches k = some p ∧ signerSet = p.signerSet ∧
      C.parsePackage bytes = .ok package := by
  induction calls using List.reverseRecOn with
  | nil => cases hq
  | append_singleton calls call ih =>
    rw [serve_concat] at hq
    obtain ⟨signed, hturn, -, hlog⟩ := NodeRun.step_turn (C := C) (n.serve C calls) call
    rcases hlog q resp hq (by rw [hasked]; rfl) with hold | ⟨rfl, hsigned⟩
    · obtain ⟨before, p, package, hbefore, hrest⟩ := ih hold
      exact ⟨before, p, package, hbefore.trans (List.prefix_append calls [call]), hrest⟩
    · cases hturn with
      | drops _ => cases hsigned
      | puts _ _ _ => cases hsigned
      | takes hasked' hk _ _ hset hover =>
        obtain ⟨rfl, rfl, rfl⟩ : _ ∧ _ ∧ _ := by simpa using hasked'.symm.trans hasked
        obtain ⟨package, hparse, -⟩ := hover
        exact ⟨calls, _, package, List.prefix_rfl, hk, hset, hparse⟩

/-- **The signers of a share** are those accepted in round one, in either protocol, if packages are
made for the signers of their requests. -/
theorem signers_of_share (hn : n.Fresh) (groupKey : FrostGroupKey F G)
    (hcalls : ∀ q ∈ calls, ∀ k signerSet bytes, q.asked = some (k, signerSet, bytes) →
      AssembledFor C groupKey signerSet bytes)
    {q : NodeCall} {resp : NodeResponse} {signerSet : List VerifierId} {bytes : Bytes}
    (hq : (q, resp) ∈ (n.serve C calls).log) (hasked : q.asked = some (k, signerSet, bytes)) :
    ∃ before r resp' accepted package, before ++ [q] <+: calls ∧
      (r, resp') ∈ (n.serve C before).log ∧ r.announced = some (k, accepted) ∧
      C.parsePackage bytes = .ok package ∧
      package.signingCommitments.keys = groupKey.identifiersOf accepted := by
  obtain ⟨before, p, package, hbefore, hwaiting, rfl, hparse⟩ := exists_waiting_of_mem_log hq hasked
  obtain ⟨r, resp', hr, hannounced⟩ := exists_round1_of_waiting hn hwaiting
  have hmem : q ∈ calls := hbefore.subset (List.mem_append_right _ (List.mem_singleton_self q))
  exact ⟨before, r, resp', p.signerSet, package, hbefore, hr, hannounced, hparse,
    hcalls q hmem k _ bytes hasked package hparse⟩

/-! ### Three participants, of which two sign -/

def trioVerifier (i : UInt8) : VerifierId := .fromBytes (.replicate 32 i)

def trioParticipant : FrostParticipant Toy Toy where
  keyPackage := ⟨ToyMember.alice.id, 1, 1, 1, 2⟩
  identifier := ToyMember.alice.id
  verifierId := trioVerifier 1

def trioGroupKey : FrostGroupKey Toy Toy where
  pubKeyPackage := ⟨∅, 1⟩
  verifierToId := (((∅ : Finmap fun _ : VerifierId => Identifier Toy).insert (trioVerifier 1)
    trioParticipant.identifier).insert (trioVerifier 2) ToyMember.bob.id).insert (trioVerifier 3)
      ToyMember.carol.id

variable (other : Identifier Toy) (message : Bytes)

def trioPackage : SigningPackage Toy Toy :=
  ⟨((∅ : Finmap fun _ : Identifier Toy => SigningCommitments Toy).insert other ⟨1, 1⟩).insert
    trioParticipant.identifier (trioParticipant.round1 toyCrates (soloAmbient 0).random).2.inner,
    message⟩

def trioCrates : NodeCrates Toy Toy where
  toFrostCrates := toyCrates
  parsePackage bytes := .ok (trioPackage other bytes)
  verifyHspZk _ _ _ := .ok ()
  parseEvidence _ := .error "unexpected evidence"

def trioRequest : FrostRound1Request :=
  { soloRequest soloSession .zero .genesis with signerSet := [trioVerifier 1, trioVerifier 2] }

def trioRound2Request : FrostRound2Request :=
  { soloRound2Request (approvalSignedDigest .zero) with
    signerSet := [trioVerifier 1, trioVerifier 2] }

def trioCalls : List NodeCall :=
  [.frostRound1 (soloAmbient 0) trioRequest ⟨0⟩, .frostRound2 trioRound2Request]

theorem exists_round2_trioPackage
    (hother : other = ToyMember.bob.id ∨ other = ToyMember.carol.id) (message : Bytes) :
    ∃ share, trioParticipant.round2 toyCrates (trioPackage other message)
      (trioParticipant.round1 toyCrates (soloAmbient 0).random).1 = .ok share := by
  have hcard : trioParticipant.keyPackage.minSigners ≤
      (trioPackage other []).signingCommitments.entries.card := by
    rcases hother with rfl | rfl <;> decide
  have hnonzero : ∀ e ∈ (trioPackage other []).signingCommitments.entries,
      e.2.hidingCommitment ≠ 0 ∧ e.2.bindingCommitment ≠ 0 := by
    rcases hother with rfl | rfl <;> decide
  simp only [FrostParticipant.round2, Ciphersuite.sign, Ciphersuite.groupCommitment, do_eq_ok]
  exact ⟨_, _, ⟨(), hcard, _, Finmap.lookup_insert _, (), rfl, _, ⟨(), hnonzero, rfl⟩, rfl⟩, rfl⟩

/-- **A share is returned** in both cases. -/
theorem exists_mem_log_trioCalls (hother : other = ToyMember.bob.id ∨ other = ToyMember.carol.id) :
    ∃ resp, (.frostRound2 trioRound2Request, resp) ∈
      ((new trioParticipant).serve (trioCrates other) trioCalls).log := by
  have hchk : frostRound1Checks (trioCrates other) 0 (new trioParticipant) trioRequest ⟨0⟩ =
      .ok () := by
    refine frostRound1Checks_eq_ok.2 ⟨UInt64.zero_le, ?_, rfl, rfl, ?_⟩
    · exact List.mem_cons_self
    · exact checkEvidence_eq_ok.2 ⟨by simp [trioRequest, soloRequest],
        by simp [trioRequest, soloRequest]⟩
  obtain ⟨share, hshare⟩ := exists_round2_trioPackage other hother
    (approvalSignedDigest .zero).asBytes.toList
  have hsign : frostRound2Sign (trioCrates other) (new trioParticipant)
      (frostRound1Pending (trioCrates other) (soloAmbient 0) (new trioParticipant) trioRequest)
      trioRound2Request = .ok share :=
    signPending_eq_ok.2 ⟨rfl, trioPackage other _, rfl, rfl, hshare⟩
  have hwaiting : Function.update (evictExpired 0 fun _ => none) soloSession
      (some (frostRound1Pending (trioCrates other) (soloAmbient 0) (new trioParticipant)
        trioRequest)) soloSession = some _ :=
    Function.update_self soloSession _ _
  have hfold : ∃ n entry resp, trioCalls.foldl (NodeRun.step (trioCrates other))
      ⟨new trioParticipant, []⟩ = ⟨n, [] ++ [entry] ++ [(.frostRound2 trioRound2Request, resp)]⟩ :=
    ⟨_, _, _, NodeRun.foldl_step_pair
      (run_map_ok.2 ⟨_, run_frostRound1_eq_ok.2 ⟨hchk, rfl, rfl, rfl⟩, rfl⟩)
      (run_map_ok.2 ⟨_, run_frostRound2_eq_ok.2 ⟨_, share, hwaiting, hsign, rfl, rfl⟩, rfl⟩)⟩
  obtain ⟨n, entry, resp, hfold⟩ := hfold
  refine ⟨resp, ?_⟩
  rw [serve, hfold]
  simp

theorem keys_trioPackage_second :
    (trioPackage ToyMember.bob.id message).signingCommitments.keys =
      trioGroupKey.identifiersOf [trioVerifier 1, trioVerifier 2] := by
  have hkeys : (trioPackage ToyMember.bob.id []).signingCommitments.keys =
      trioGroupKey.identifiersOf [trioVerifier 1, trioVerifier 2] := by decide +kernel
  exact hkeys

theorem keys_trioPackage_third :
    (trioPackage ToyMember.carol.id message).signingCommitments.keys ≠
      trioGroupKey.identifiersOf [trioVerifier 1, trioVerifier 2] := by
  have hkeys : (trioPackage ToyMember.carol.id []).signingCommitments.keys ≠
      trioGroupKey.identifiersOf [trioVerifier 1, trioVerifier 2] := by decide +kernel
  exact hkeys

theorem signers_of_share_second :
    ∃ before r resp' accepted package, before ++ [.frostRound2 trioRound2Request] <+: trioCalls ∧
      (r, resp') ∈ ((new trioParticipant).serve (trioCrates ToyMember.bob.id) before).log ∧
      r.announced = some ((.attestation, soloSession), accepted) ∧
      (trioCrates ToyMember.bob.id).parsePackage trioRound2Request.signingPackageBytes =
        .ok package ∧
      package.signingCommitments.keys = trioGroupKey.identifiersOf accepted := by
  obtain ⟨resp, hlog⟩ := exists_mem_log_trioCalls ToyMember.bob.id (.inl rfl)
  refine signers_of_share (.inl rfl) trioGroupKey (fun q hq k signerSet bytes hasked => ?_) hlog rfl
  rw [trioCalls, List.mem_cons, List.mem_singleton] at hq
  rcases hq with rfl | rfl
  · cases hasked
  · obtain ⟨-, hset⟩ := Prod.mk.inj (Option.some.inj hasked)
    obtain ⟨rfl, rfl⟩ := Prod.mk.inj hset
    intro package hparse
    obtain rfl := Except.ok.inj hparse
    exact keys_trioPackage_second _

/-- **Another signer**: the package is of the first and the third participant. -/
theorem exists_share_for_others :
    ∃ resp package, (.frostRound2 trioRound2Request, resp) ∈
        ((new trioParticipant).serve (trioCrates ToyMember.carol.id) trioCalls).log ∧
      (trioCrates ToyMember.carol.id).parsePackage trioRound2Request.signingPackageBytes =
        .ok package ∧
      ∀ r ∈ trioCalls, ∀ k accepted, r.announced = some (k, accepted) →
        package.signingCommitments.keys ≠ trioGroupKey.identifiersOf accepted := by
  obtain ⟨resp, hlog⟩ := exists_mem_log_trioCalls ToyMember.carol.id (.inr rfl)
  refine ⟨resp, _, hlog, rfl, fun r hr k accepted hannounced => ?_⟩
  rw [trioCalls, List.mem_cons, List.mem_singleton] at hr
  rcases hr with rfl | rfl
  · obtain ⟨-, rfl⟩ := Prod.mk.inj (Option.some.inj hannounced)
    exact keys_trioPackage_third _
  · cases hannounced

end FrostAuxiliaryNode

end TlsAttestation
