import TlsAttestation.Lib.Ownership
import TlsAttestation.Node.Attest

/-!
# What a successful attestation stands for

An envelope that `attest` returns should be accepted, and the store should say *finalized* of the
sessions with such an envelope only. Calls run in threads, cut into their operations on the store
(`AttestCall.prog`). The coordinator counts entries of the quorum's list, the consumer counts
signatures (`attestSound_iff`).
-/

namespace TlsAttestation

open ByteEncoding Effect Fallible Frost Threads
open SessionStore (hasApproved recordApproval)

structure AttestCall (VerifyingKey F G N : Type) [Zero F] where
  coordinator : CoordinatorNode
  verifierPublicKeys : List (VerifierId × VerifyingKey)
  draws : Draws
  request : AttestationRequest
  response : RVec UInt8
  auxSigners : List (ThresholdSigner (Outside F G N))

section

variable {S F G N VerifyingKey : Type} [SessionStore S] [Zero F] [Verifier VerifyingKey]

/-! ### Calls in sections -/

def CoordinatorNode.prepareSessionProg (c : CoordinatorNode) (draws : Draws)
    (request : AttestationRequest) (response : RVec UInt8) :
    Prog (World S F G N) (Except NodeError PreparedSession) :=
  (Prog.atomic (onStore (SessionStore.insert (Session.new (c.sessionCtx draws request))))).andThen
    fun _ =>
  (Prog.atomic (advance draws.sessionId (Session.new (c.sessionCtx draws request)) .active)).andThen
    fun session =>
  (Prog.done ((c.generate draws.sessionId draws.nonce c.config.epoch
    c.config.quorum.verifiers.1).mapError .crypto)).andThen fun randomness =>
  (Prog.atomic (advance draws.sessionId session .attesting)).andThen fun session =>
  (Prog.done ((c.execute (c.sessionCtx draws request) randomness.value request.query.1
    response.1).mapError .attestation)).andThen fun answer =>
  Prog.done
    (.ok { c.preparedFrom draws request response randomness answer.1 answer.2 with session })

def collectPartialProg (p : PreparedSession) (signer : ThresholdSigner (Outside F G N)) :
    Prog (World S F G N) (Except NodeError (Option PartialSignature)) :=
  (Prog.atomic get).andThen fun world =>
    if hasApproved world.store p.sessionId signer.verifierId then .done (.ok none)
    else (Prog.atomic (askSigner signer p.signedDigest.asBytes.toList)).andThen fun answer =>
      match answer with
      | .ok signature =>
        (Prog.atomic (onStore (recordApproval p.sessionId signer.verifierId))).andThen fun _ =>
          .done (.ok (some signature))
      | .error _ => .done (.ok none)

namespace AttestCall

variable (call : AttestCall VerifyingKey F G N)

def run : NodeM S F G N AttestationResponse :=
  call.coordinator.attest call.verifierPublicKeys call.draws call.request call.response
    call.auxSigners

def prog : Prog (World S F G N) (Except NodeError AttestationResponse) :=
  (call.coordinator.prepareSessionProg call.draws call.request call.response).andThen fun p =>
  (Prog.atomic (advance p.sessionId p.session .collecting)).andThen fun session =>
  (Prog.forEach (collectPartialProg p) call.auxSigners).andThen fun partials =>
  (Prog.done ((aggregateSignatures partials.reduceOption call.coordinator.config.quorum
    p.envelopeDigest call.verifierPublicKeys).mapError .crypto)).andThen fun approval =>
  (Prog.atomic (advance p.sessionId session .finalized)).andThen fun _ =>
  Prog.done (.ok (.success (p.approvedEnvelope approval)))

end AttestCall

theorem CoordinatorNode.represents_prepareSessionProg (c : CoordinatorNode) (draws : Draws)
    (request : AttestationRequest) (response : RVec UInt8) :
    Represents (c.prepareSessionProg draws request response)
      (c.prepareSession draws request response : NodeM S F G N _) := by
  refine (represents_atomic _).andThen fun _ => (represents_atomic _).andThen fun session => ?_
  refine (represents_lift _ _).andThen fun randomness =>
    (represents_atomic _).andThen fun session => ?_
  exact (represents_lift _ _).andThen fun answer => represents_pure _

theorem represents_collectPartialProg (p : PreparedSession)
    (signer : ThresholdSigner (Outside F G N)) :
    Represents (collectPartialProg p signer) (collectPartial p signer : NodeM S F G N _) := by
  refine (represents_atomic _).andThen fun world => ?_
  split
  · exact represents_pure _
  · refine (represents_atomic _).andThen fun answer => ?_
    rcases answer with e | signature
    · exact represents_pure _
    · exact (represents_atomic _).andThen fun _ => represents_pure _

variable (call : AttestCall VerifyingKey F G N)

/-- The sections make up the call. -/
theorem AttestCall.represents_prog :
    Represents call.prog (call.run : NodeM S F G N _) := by
  refine (CoordinatorNode.represents_prepareSessionProg _ _ _ _).andThen fun p => ?_
  refine (represents_atomic _).andThen fun session => ?_
  refine (Represents.forEach (represents_collectPartialProg p) _).andThen fun partials => ?_
  refine (represents_lift _ _).andThen fun approval => (represents_atomic _).andThen fun _ => ?_
  exact represents_pure _

/-! ### A call keeps to its session -/

def sessionStates (w : World S F G N) : SessionId → Option SessionState := stateOf w.store

def KeepsTo {α : Type} (id : SessionId) (Ok : Option SessionState → α → Prop) :
    Option SessionState → Prog (World S F G N) (Except NodeError α) → Prop :=
  Owns sessionStates (· = .finalized) id (Results Ok fun own _ => own ≠ some .finalized)

section Keeps

variable [LawfulSessionStates S] {id : SessionId} {own : Option SessionState}

omit [LawfulSessionStates S] in
theorem not_last (hown : own ≠ some .finalized) : ∀ v ∈ own, ¬ v = SessionState.finalized := by
  rintro v hv rfl
  exact hown hv

omit [LawfulSessionStates S] in
theorem keepsTo_atomic {α : Type} {x : NodeM S F G N α} (hown : own ≠ some .finalized)
    (hok : ∀ w a w', x.run w = .ok a w' → stateOf w'.store = stateOf w.store)
    (herror : ∀ w e w', x.run w = .error e w' → stateOf w'.store = stateOf w.store) :
    KeepsTo id (fun own' _ => own' = own) own (.atomic x) := by
  refine owns_atomic (not_last hown) (fun w a w' h => ⟨own, ?_, rfl⟩) fun w e w' h =>
    ⟨own, ?_, hown⟩
  · rw [sessionStates, sessionStates, hok w a w' h]
    exact .keep own _
  · rw [sessionStates, sessionStates, herror w e w' h]
    exact .keep own _

omit [LawfulSessionStates S] in
theorem keepsTo_done {α ε : Type} {x : Except ε α} {f : ε → NodeError}
    (hown : own ≠ some .finalized) :
    KeepsTo (S := S) (F := F) (G := G) (N := N) id (fun own' _ => own' = own) own
      (.done (x.mapError f)) := by
  rcases x with e | a
  · exact hown
  · exact rfl

theorem keepsTo_insert {context : SessionContext} (hid : context.sessionId = id) :
    KeepsTo (S := S) (F := F) (G := G) (N := N) id (fun own _ => own = some .pending) none
      (.atomic (onStore (SessionStore.insert (Session.new context)))) := by
  subst hid
  refine owns_atomic (fun v hv => absurd hv (by simp)) (fun w u w' h => ?_) fun w e w' h => ?_
  · obtain ⟨s, hs, rfl⟩ := run_onStore_ok.1 h
    obtain ⟨hnew, hstates⟩ := LawfulSessionStates.stateOf_insert hs
    refine ⟨some .pending, ?_, rfl⟩
    rw [sessionStates, sessionStates, hstates]
    exact .create _ _ hnew
  · obtain ⟨_, s, hs, -, rfl⟩ := run_onStore_error.1 h
    refine ⟨none, ?_, by simp⟩
    rw [sessionStates, sessionStates, LawfulSessionStates.stateOf_insert_error hs]
    exact .keep none _

theorem keepsTo_advance {session : Session} {state now : SessionState} (hnow : now ≠ .finalized) :
    KeepsTo (S := S) (F := F) (G := G) (N := N) id (fun own _ => own = some state) (some now)
      (.atomic (advance id session state)) := by
  have hopen : some now ≠ some SessionState.finalized := by simpa using hnow
  refine owns_atomic (not_last hopen) (fun w session' w' h => ?_) fun w e w' h => ?_
  · refine ⟨some state, ?_, rfl⟩
    rw [sessionStates, sessionStates, (states_of_run_advance_ok h).1]
    exact .change _ _ _
  · refine ⟨some now, ?_, hopen⟩
    rw [sessionStates, sessionStates, states_of_run_advance_error h]
    exact .keep _ _

theorem keepsTo_prepareSessionProg (c : CoordinatorNode) (draws : Draws)
    (request : AttestationRequest) (response : RVec UInt8) :
    KeepsTo (S := S) (F := F) (G := G) (N := N) draws.sessionId
      (fun own p => own = some .attesting ∧ p.sessionId = draws.sessionId) none
      (c.prepareSessionProg draws request response) := by
  refine Owns.andThen (keepsTo_insert rfl) fun own _ hown => ?_
  subst hown
  refine Owns.andThen (keepsTo_advance (by decide)) fun own session hown => ?_
  subst hown
  refine Owns.andThen (keepsTo_done (by decide)) fun own randomness hown => ?_
  subst hown
  refine Owns.andThen (keepsTo_advance (by decide)) fun own session hown => ?_
  subst hown
  refine Owns.andThen (keepsTo_done (by decide)) fun own answer hown => ?_
  subst hown
  exact ⟨rfl, rfl⟩

theorem keepsTo_collectPartialProg (p : PreparedSession)
    (signer : ThresholdSigner (Outside F G N)) (hown : own ≠ some .finalized) :
    KeepsTo (S := S) id (fun own' _ => own' = own) own (collectPartialProg p signer) := by
  have hget : KeepsTo (S := S) (F := F) (G := G) (N := N) id (fun own' _ => own' = own) own
      (.atomic get) := by
    refine keepsTo_atomic hown (fun w a w' h => ?_) fun w e w' h => ?_
    · obtain ⟨-, rfl⟩ := run_get_ok.1 h
      rfl
    · cases h
  refine Owns.andThen hget fun own' world hown' => ?_
  subst hown'
  split
  · exact rfl
  · have hask : KeepsTo (S := S) id (fun own'' _ => own'' = own') own'
        (.atomic (askSigner signer p.signedDigest.asBytes.toList)) := by
      refine keepsTo_atomic hown (fun w a w' h => ?_) fun w e w' h => ?_
      · rw [run_askSigner] at h
        obtain ⟨-, rfl⟩ := EStateM.Result.ok.inj h
        rfl
      · rw [run_askSigner] at h
        cases h
    refine Owns.andThen hask fun own'' answer hown'' => ?_
    subst hown''
    rcases answer with e | signature
    · exact rfl
    · have hrec : KeepsTo (S := S) (F := F) (G := G) (N := N) id (fun own' _ => own' = own'') own''
          (.atomic (onStore (recordApproval p.sessionId signer.verifierId))) := by
        refine keepsTo_atomic hown (fun w a w' h => ?_) fun w e w' h => ?_
        · obtain ⟨s, hs, rfl⟩ := run_onStore_ok.1 h
          exact LawfulSessionStates.stateOf_recordApproval hs
        · obtain ⟨_, s, hs, -, rfl⟩ := run_onStore_error.1 h
          exact LawfulSessionStates.stateOf_recordApproval_error hs
      exact Owns.andThen hrec fun own' _ hown' => hown'

/-- **A call** creates its session, and has returned an envelope when it is finalized. -/
theorem AttestCall.keepsTo_prog (call : AttestCall VerifyingKey F G N) :
    KeepsTo (S := S) call.draws.sessionId
      (fun own r => own = some .finalized ∧ ∃ env, r = .success env) none call.prog := by
  refine Owns.andThen (keepsTo_prepareSessionProg _ _ _ _) fun own p h => ?_
  obtain ⟨rfl, hid⟩ := h
  rw [← hid]
  refine Owns.andThen (keepsTo_advance (by decide)) fun own session hown => ?_
  subst hown
  refine Owns.andThen (owns_forEach fun signer _ =>
    keepsTo_collectPartialProg p signer (by decide)) fun own partials hown => ?_
  subst hown
  refine Owns.andThen (keepsTo_done (by decide)) fun own approval hown => ?_
  subst hown
  refine Owns.andThen (keepsTo_advance (by decide)) fun own session hown => ?_
  exact ⟨hown, _, rfl⟩

end Keeps

/-! ### Soundness -/

variable (S) in
/-- The envelope of a success is intact and accepted, and its session is finalized. -/
def AttestCall.Sound : Prop :=
  ∀ (w w' : World S F G N) (env : AttestationEnvelope), call.run.run w = .ok (.success env) w' →
    env.verifyDigest = true ∧
      env.statement.verifyDigest env.transcript.sessionTranscriptDigest = true ∧
      env.Accepted call.verifierPublicKeys ∧
      stateOf w'.store env.session.sessionId = some .finalized

variable (S) in
/-- In any interleaving, a finalized session was made by a call, and that call was a success. -/
def FinalizedBySuccess {ι : Type} [DecidableEq ι]
    (calls : ι → AttestCall VerifyingKey F G N) : Prop :=
  ∀ (w : World S F G N) (schedule : List ι) (id : SessionId), (∀ id, stateOf w.store id = none) →
    stateOf ((Pool.mk w fun i => (calls i).prog).run schedule).shared.store id = some .finalized →
      (∃ i, CreatedBy sessionStates ⟨w, fun i => (calls i).prog⟩ schedule id i) ∧
        ∀ i, CreatedBy sessionStates ⟨w, fun i => (calls i).prog⟩ schedule id i →
          ∃ env, ((Pool.mk w fun i => (calls i).prog).run schedule).threads i =
            .done (.ok (.success env))

theorem AttestCall.spec_of_success [LawfulSessionStates S] {call : AttestCall VerifyingKey F G N}
    {w w' : World S F G N} {env : AttestationEnvelope}
    (h : call.run.run w = .ok (.success env) w') :
    env.verifyDigest = true ∧
      env.statement.verifyDigest env.transcript.sessionTranscriptDigest = true ∧
      (env.Accepted call.verifierPublicKeys ↔
        call.coordinator.config.quorum.threshold.toNat ≤ env.thresholdApproval.signers.length) ∧
      call.coordinator.config.quorum.isSatisfiedBy env.thresholdApproval.signers = true ∧
      stateOf w'.store env.session.sessionId = some .finalized := by
  obtain ⟨p, partials, approval, hp, happ, henv, hstate⟩ := run_attest_ok h
  obtain rfl := AttestationResponse.success.inj henv
  obtain ⟨randomness, transcript, evidence, rfl⟩ := CoordinatorNode.exists_preparedFrom hp
  refine ⟨AttestationEnvelope.verifyDigest_assemble _ _ _ _ _ _, decide_eq_true rfl, ?_, ?_, hstate⟩
  · exact verifyThresholdApproval_iff_of_aggregateSignatures happ
  · exact (aggregateSignatures_spec happ).2.2.2.2

/-- Finalized only by a success. -/
theorem finalizedBySuccess [LawfulSessionStates S] {ι : Type} [DecidableEq ι]
    (calls : ι → AttestCall VerifyingKey F G N) : FinalizedBySuccess S calls := by
  intro w schedule id hempty hfinal
  have hstarts : Starts sessionStates (· = .finalized) (fun i => (calls i).draws.sessionId)
      (fun _ => Results (fun own r => own = some .finalized ∧ ∃ env, r = .success env)
        fun own _ => own ≠ some .finalized)
      (Pool.mk w fun i => (calls i).prog) :=
    ⟨hempty, fun i => (calls i).keepsTo_prog⟩
  refine ⟨exists_createdBy (hempty id) ?_, fun i hi => ?_⟩
  · rw [sessionStates, hfinal]
    exact Option.some_ne_none _
  · obtain ⟨r, hdone, hpost⟩ := exists_done_of_createdBy hstarts hfinal rfl hi
    rcases r with e | r
    · exact absurd rfl hpost
    · obtain ⟨-, env, rfl⟩ := hpost
      exact ⟨env, hdone⟩

variable (VerifyingKey) in
/-- **Attestation success**, for all calls and runs with this quorum. -/
def AttestSound (quorum : QuorumSpec) : Prop :=
  ∀ (S F G N : Type) [SessionStore S] [LawfulSessionStates S] [Zero F],
    (∀ call : AttestCall VerifyingKey F G N, call.coordinator.config.quorum = quorum →
      call.Sound S) ∧
    ∀ (ι : Type) [DecidableEq ι] (calls : ι → AttestCall VerifyingKey F G N),
      FinalizedBySuccess S calls

end

/-! ### Honest signers -/

section

variable {VerifyingKey : Type} [Verifier VerifyingKey] {vk : VerifyingKey}
  {sign : Bytes → Signature}

def honestSigner {σ : Type} (sign : Bytes → Signature) (v : VerifierId) : ThresholdSigner σ where
  verifierId := v
  signPartial payload := pure ⟨v, (sign payload).toList⟩

theorem answers_honestSigner {σ : Type} {payload : Bytes} {vs approved : List VerifierId} {o : σ}
    (hnodup : (approved ++ vs).Nodup) :
    answers payload (vs.map (honestSigner sign)) approved o =
      vs.map fun v => ⟨v, (sign payload).toList⟩ := by
  induction vs generalizing approved with
  | nil => rfl
  | cons v vs ih =>
    have hnew : v ∉ approved := by
      intro hmem
      exact (List.nodup_append.1 hnodup).2.2 v hmem v List.mem_cons_self rfl
    have hrest : (v :: approved ++ vs).Nodup := (List.perm_middle.nodup_iff).1 hnodup
    refine (if_neg hnew).trans ?_
    exact congrArg _ (ih hrest)

def honestCall (vk : VerifyingKey) (sign : Bytes → Signature) (quorum : QuorumSpec)
    (signers : List VerifierId) : AttestCall VerifyingKey Toy Toy Unit where
  coordinator := agreeableCoordinator quorum
  verifierPublicKeys := quorum.verifiers.1.map (·, vk)
  draws := toyDraws
  request := toyRequest
  response := .ofList [1]
  auxSigners := signers.map (honestSigner sign)

omit [Verifier VerifyingKey] in
theorem keyOf_map_of_mem {vs : List VerifierId} {v : VerifierId} (hv : v ∈ vs) :
    keyOf (vs.map (·, vk)) v = some vk := by
  unfold keyOf
  rcases hfind : (vs.map (·, vk)).find? (fun p => p.1 = v) with _ | p
  · have hnone := List.find?_eq_none.1 hfind (v, vk) (List.mem_map_of_mem hv)
    exact absurd (decide_eq_true rfl) hnone
  · obtain ⟨u, -, rfl⟩ := List.mem_map.1 (List.mem_of_find?_eq_some hfind)
    rw [hfind]
    rfl

/-- **Honest signers that satisfy the quorum** get an envelope. -/
theorem exists_run_honestCall (hsign : ∀ msg, Verifier.verify vk msg (sign msg) = true)
    (quorum : QuorumSpec) {signers : List VerifierId} (hnodup : signers.Nodup)
    (hsub : signers ⊆ quorum.verifiers.1) (hsat : quorum.isSatisfiedBy signers = true) :
    ∃ env w', (honestCall vk sign quorum signers).run.run toyWorld = .ok (.success env) w' ∧
      env.thresholdApproval.signers = signers := by
  have hnew : stateOf toyWorld.store toyDraws.sessionId = none := rfl
  obtain ⟨p, hp⟩ : ∃ p, (agreeableCoordinator quorum).prepared toyDraws toyRequest
      (.ofList [1]) = .ok p := ⟨_, rfl⟩
  -- What is signed is the digest that the aggregation checks.
  have hdig : p.signedDigest = approvalSignedDigest p.envelopeDigest := by
    obtain ⟨_, _, _, rfl⟩ := CoordinatorNode.exists_preparedFrom hp
    rfl
  have hanswers : answers p.signedDigest.asBytes.toList (signers.map (honestSigner sign)) []
      toyWorld.outside = signers.map fun v => ⟨v, (sign p.signedDigest.asBytes.toList).toList⟩ :=
    answers_honestSigner hnodup
  have hids : (signers.map fun v =>
        (⟨v, (sign p.signedDigest.asBytes.toList).toList⟩ : PartialSignature)).map
      PartialSignature.verifierId = signers := by
    rw [List.map_map]
    exact List.map_id signers
  have hvalid : ∀ signature ∈ signers.map fun v =>
        (⟨v, (sign p.signedDigest.asBytes.toList).toList⟩ : PartialSignature),
      signature.verifierId ∈ quorum.verifiers.1 ∧ SignatureValid (quorum.verifiers.1.map (·, vk))
        (approvalSignedDigest p.envelopeDigest) signature.verifierId signature.bytes := by
    intro signature hmem
    obtain ⟨v, hv, rfl⟩ := List.mem_map.1 hmem
    refine ⟨hsub hv, vk, keyOf_map_of_mem (hsub hv), _, rfl, ?_⟩
    rw [← hdig]
    exact hsign _
  obtain ⟨approval, happ, hsigners⟩ :=
    exists_aggregateSignatures (hids.symm ▸ hnodup) hvalid (hids.symm ▸ hsat)
  rw [← hanswers] at happ
  obtain ⟨w', hrun⟩ := run_attest_of_aggregated hnew hp happ
  exact ⟨_, w', hrun, hsigners.trans hids⟩

/-- **When a success is one for the consumer**: if no repetition in the quorum's list can make up
for a missing signature. -/
theorem attestSound_iff (hsign : ∃ (vk : VerifyingKey) (sign : Bytes → Signature),
      ∀ msg, Verifier.verify vk msg (sign msg) = true) (quorum : QuorumSpec) :
    AttestSound VerifyingKey quorum ↔ quorum.CountsOnce := by
  constructor
  · intro hsound
    by_contra hcounts
    obtain ⟨vk, sign, hsign⟩ := hsign
    obtain ⟨signers, hnodup, hsub, hsat, hfew⟩ :=
      QuorumSpec.exists_approvers_of_not_countsOnce hcounts
    obtain ⟨env, w', hrun, hsigners⟩ := exists_run_honestCall hsign quorum hnodup hsub hsat
    obtain ⟨-, -, hacc, -⟩ := (hsound InMemorySessionStore Toy Toy Unit).1
      (honestCall vk sign quorum signers) rfl toyWorld w' env hrun
    have hmany := (AttestCall.spec_of_success hrun).2.2.1.1 hacc
    rw [hsigners] at hmany
    exact absurd hmany (not_le.2 hfew)
  · intro hcounts S F G N _ _ _
    refine ⟨fun call hquorum w w' env hrun => ?_, fun ι _ calls => finalizedBySuccess calls⟩
    obtain ⟨hdig, hstmt, hacc, hsat, hstate⟩ := AttestCall.spec_of_success hrun
    refine ⟨hdig, hstmt, hacc.2 ?_, hstate⟩
    rw [hquorum] at hsat ⊢
    exact hcounts.threshold_le hsat

end

def toyKey : AttestationEnvelope.DigestKey := ⟨[7]⟩

theorem verify_toyKey (msg : Bytes) : Verifier.verify toyKey msg (toyKey.sign msg) = true :=
  decide_eq_true rfl

theorem attestSound_toyMembers : AttestSound AttestationEnvelope.DigestKey ⟨toyMembers, 2⟩ :=
  (attestSound_iff ⟨toyKey, toyKey.sign, verify_toyKey⟩ _).2 (.inr (.inr (by decide)))

def doubledQuorum : QuorumSpec := ⟨.ofList [toyVerifier 1, toyVerifier 1], 2⟩

/-- **One signature, two approvals**: the consumer misses a signature. -/
theorem exists_refusedEnvelope :
    ∃ env w', (honestCall toyKey toyKey.sign doubledQuorum [toyVerifier 1]).run.run toyWorld =
        .ok (.success env) w' ∧
      ¬ env.Accepted (doubledQuorum.verifiers.1.map (·, toyKey)) := by
  have hsub : [toyVerifier 1] ⊆ doubledQuorum.verifiers.1 := List.subset_cons_self _ _
  have hsat : doubledQuorum.isSatisfiedBy [toyVerifier 1] = true := by decide
  obtain ⟨env, w', hrun, hsigners⟩ := exists_run_honestCall verify_toyKey doubledQuorum
    (List.nodup_singleton _) hsub hsat
  refine ⟨env, w', hrun, fun hacc => ?_⟩
  have hmany : doubledQuorum.threshold.toNat ≤ env.thresholdApproval.signers.length :=
    (AttestCall.spec_of_success hrun).2.2.1.1 hacc
  rw [hsigners] at hmany
  exact absurd hmany (by decide)

end TlsAttestation
