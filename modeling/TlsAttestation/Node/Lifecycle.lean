import TlsAttestation.Node.Coordinator

/-!
# The states of a session during a call

A call creates one session and moves it on, one operation of the store at a time, in every store
that keeps the trait's promises (`LawfulSessionStates`). In a store that does not fail
(`ReliableSessionStore`) the engines alone decide how far a new session gets.
-/

namespace TlsAttestation

open Effect Fallible Function
open SessionStore (hasApproved)

variable {S F G N : Type} [SessionStore S] [Zero F] {w w' : World S F G N}

omit [SessionStore S] in
theorem run_onStore_error {α : Type} {x : EStateM StorageError S α} {e : NodeError} :
    (onStore x : NodeM S F G N α).run w = .error e w' ↔
      ∃ e' s, x.run w.store = .error e' s ∧ .storage e' = e ∧ { w with store := s } = w' :=
  run_zoom_error

/-! ### What a session becomes -/

namespace CoordinatorNode

variable (c : CoordinatorNode) (draws : Draws) (req : AttestationRequest)

def sessionCtx : SessionContext :=
  SessionContext.new draws.sessionId req.proverId c.config.coordinatorId c.config.quorum
    c.config.epoch draws.now
    ⟨draws.now.secs + min req.requestedTtlSecs c.config.defaultTtlSecs⟩ draws.nonce

def preparedFrom (response : RVec UInt8) (randomness : RandomnessOutput)
    (transcript : TranscriptCommitments) (evidence : ExportableEvidence) : PreparedSession :=
  let sessionCtx := c.sessionCtx draws req
  let statement := StatementPayload.new response req.statementTag transcript.sessionTranscriptDigest
  let randomnessBinding : RandomnessBinding :=
    ⟨randomness.id, randomness.value, randomness.epoch, randomness.sessionBinding⟩
  let package := AttestationPackage.build sessionCtx randomness.value transcript evidence
  let coordinatorEvidence : CoordinatorEvidence :=
    ⟨evidence.engineTag, evidence.evidenceDigest, package.packageDigest⟩
  let envelopeDigest := AttestationEnvelope.computeDigest sessionCtx randomnessBinding transcript
    statement coordinatorEvidence
  { sessionId := draws.sessionId
    sessionCtx
    session := ⟨sessionCtx, .attesting⟩
    now := draws.now
    expiresAt := ⟨draws.now.secs + min req.requestedTtlSecs c.config.defaultTtlSecs⟩
    transcriptCommitments := transcript
    statement, randomnessBinding, coordinatorEvidence, envelopeDigest
    signedDigest := approvalSignedDigest envelopeDigest }

/-- **What the engines make of a call**, without the store. -/
def prepared (response : RVec UInt8) :
    Except NodeError PreparedSession := do
  let randomness ← (c.generate draws.sessionId draws.nonce c.config.epoch
    c.config.quorum.verifiers.1).mapError .crypto
  let (transcript, evidence) ← (c.execute (c.sessionCtx draws req) randomness.value
    req.query.1 response.1).mapError .attestation
  return c.preparedFrom draws req response randomness transcript evidence

variable {c} in
theorem exists_preparedFrom {draws : Draws} {req : AttestationRequest} {response : RVec UInt8}
    {p : PreparedSession} (h : c.prepared draws req response = .ok p) :
    ∃ randomness transcript evidence,
      p = c.preparedFrom draws req response randomness transcript evidence := by
  simp only [prepared, do_eq_ok] at h
  obtain ⟨randomness, -, ⟨transcript, evidence⟩, -, rfl⟩ := h
  exact ⟨randomness, transcript, evidence, rfl⟩

end CoordinatorNode

/-! ### Steps -/

section Lawful

variable [LawfulSessionStates S]

theorem states_of_run_advance_ok {id : SessionId} {session session' : Session}
    {state : SessionState} (h : (advance id session state).run w = .ok session' w') :
    stateOf w'.store = update (stateOf w.store) id (some state) ∧
      session' = { session with state } := by
  simp only [advance, Session.transition, run_bind_ok, run_lift_ok, run_onStore_ok, run_pure_ok,
    do_eq_ok] at h
  obtain ⟨_, _, ⟨⟨_, -, rfl⟩, rfl⟩, _, _, ⟨s, hs, rfl⟩, rfl, rfl⟩ := h
  exact ⟨LawfulSessionStates.stateOf_updateState hs, rfl⟩

theorem states_of_run_advance_error {id : SessionId} {session : Session} {state : SessionState}
    {e : NodeError} (h : (advance id session state).run w = .error e w') :
    stateOf w'.store = stateOf w.store := by
  rcases run_bind_error.1 h with h | ⟨_, _, h₁, h⟩
  · obtain ⟨-, rfl⟩ := run_lift_error.1 h
    rfl
  · obtain ⟨-, rfl⟩ := run_lift_ok.1 h₁
    rcases run_bind_error.1 h with h | ⟨_, _, -, h⟩
    · obtain ⟨_, s, hs, -, rfl⟩ := run_onStore_error.1 h
      exact LawfulSessionStates.stateOf_updateState_error hs
    · exact absurd h not_run_pure_error

variable {c : CoordinatorNode} {draws : Draws} {req : AttestationRequest} {response : RVec UInt8}

/-- **A prepared session** is new, and attesting. -/
theorem states_of_run_prepareSession_ok {p : PreparedSession}
    (h : (c.prepareSession draws req response).run w = .ok p w') :
    stateOf w.store draws.sessionId = none ∧
      stateOf w'.store = update (stateOf w.store) draws.sessionId (some .attesting) ∧
      c.prepared draws req response = .ok p := by
  simp only [CoordinatorNode.prepareSession, run_bind_ok, run_onStore_ok, run_lift_ok,
    run_pure_ok] at h
  obtain ⟨_, _, ⟨s₁, hins, rfl⟩, _, w₂, hact, randomness, _, ⟨hgen, rfl⟩, _, w₄,
    hatt, ⟨transcript, evidence⟩, _, ⟨hexec, rfl⟩, rfl, rfl⟩ := h
  obtain ⟨hnew, hinserted⟩ := LawfulSessionStates.stateOf_insert hins
  obtain ⟨hstates₂, rfl⟩ := states_of_run_advance_ok hact
  obtain ⟨hstates₄, rfl⟩ := states_of_run_advance_ok hatt
  refine ⟨hnew, ?_, ?_⟩
  · rw [hstates₄, hstates₂, hinserted, update_idem]
    exact update_idem ..
  · simp only [CoordinatorNode.prepared, do_eq_ok]
    exact ⟨randomness, hgen, (transcript, evidence), hexec, rfl⟩

end Lawful

/-! ### In a store that does not fail -/

section Reliable

variable [LawfulSessionStore S] [LawfulSessionStates S] [ReliableSessionStore S]

theorem exists_run_advance {id : SessionId} (session : Session) (state : SessionState)
    {now : SessionState} (hnow : stateOf w.store id = some now) (hopen : now.isTerminal = false)
    (hnext : session.state.canTransitionTo state = true) :
    ∃ s', (advance id session state).run w = .ok { session with state } { w with store := s' } ∧
      stateOf s' = update (stateOf w.store) id (some state) ∧
      ∀ i v, hasApproved s' i v = hasApproved w.store i v := by
  obtain ⟨s', hs'⟩ := ReliableSessionStore.updateState hnow hopen
  have hrun : (advance id session state).run w =
      .ok { session with state } { w with store := s' } := by
    simp only [advance, Session.transition, run_bind_ok, run_lift_ok, run_onStore_ok, run_pure_ok,
      do_eq_ok]
    exact ⟨_, w, ⟨⟨(), hnext, rfl⟩, rfl⟩, (), _, ⟨s', hs', rfl⟩, rfl, rfl⟩
  exact ⟨s', hrun, (states_of_run_advance_ok hrun).1, (run_advance_ok hrun).1⟩

omit [LawfulSessionStore S] in
theorem exists_run_failSession {α : Type} {id : SessionId} {reason : String} {e : NodeError}
    {now : SessionState} (hnow : stateOf w.store id = some now) (hopen : now.isTerminal = false) :
    ∃ s', (failSession id reason e : NodeM S F G N α).run w = .error e { w with store := s' } ∧
      stateOf s' id = some (.failed reason) := by
  obtain ⟨s', hs'⟩ := ReliableSessionStore.updateState hnow hopen
  refine ⟨s', run_bind_of_ok _ (run_onStore_ok.2 ⟨s', hs', rfl⟩), ?_⟩
  rw [LawfulSessionStates.stateOf_updateState hs', update_self]

namespace CoordinatorNode

variable {c : CoordinatorNode} {draws : Draws} {req : AttestationRequest} {response : RVec UInt8}

theorem exists_run_start (c : CoordinatorNode) (req : AttestationRequest)
    (hnew : stateOf w.store draws.sessionId = none) :
    ∃ s₁ s₂, (onStore (SessionStore.insert (Session.new (c.sessionCtx draws req))) :
        NodeM S F G N Unit).run w = .ok () { w with store := s₁ } ∧
      (advance draws.sessionId (Session.new (c.sessionCtx draws req)) .active).run
          { w with store := s₁ } =
        .ok ⟨c.sessionCtx draws req, .active⟩ { w with store := s₂ } ∧
      stateOf s₂ draws.sessionId = some .active ∧
      ∀ v, hasApproved s₂ draws.sessionId v = false := by
  obtain ⟨s₁, hins⟩ : ∃ s₁, (SessionStore.insert (Session.new (c.sessionCtx draws req))).run
      w.store = .ok () s₁ := ReliableSessionStore.insert hnew
  obtain ⟨-, hstates⟩ := LawfulSessionStates.stateOf_insert hins
  have hpend : stateOf s₁ draws.sessionId = some .pending := by
    rw [hstates]
    exact update_self ..
  obtain ⟨s₂, hact, hstates₂, happ⟩ := exists_run_advance (w := { w with store := s₁ })
    (Session.new (c.sessionCtx draws req)) .active hpend rfl rfl
  refine ⟨s₁, s₂, run_onStore_ok.2 ⟨s₁, hins, rfl⟩, hact, ?_, fun v => ?_⟩
  · rw [hstates₂]
    exact update_self ..
  · rw [happ, LawfulSessionStore.hasApproved_insert hins]
    exact if_pos rfl

/-- **A session that the engines accept** is prepared. -/
theorem run_prepareSession_of_ok {p : PreparedSession}
    (hnew : stateOf w.store draws.sessionId = none)
    (hp : c.prepared draws req response = .ok p) :
    ∃ s', (c.prepareSession draws req response).run w = .ok p { w with store := s' } ∧
      stateOf s' draws.sessionId = some .attesting ∧
      ∀ v, hasApproved s' draws.sessionId v = false := by
  simp only [prepared, do_eq_ok] at hp
  obtain ⟨randomness, hgen, ⟨transcript, evidence⟩, hexec, rfl⟩ := hp
  obtain ⟨s₁, s₂, hins, hact, hstate, happ⟩ := exists_run_start c req hnew
  obtain ⟨s₃, hatt, hstates₃, happroved₃⟩ := exists_run_advance (w := { w with store := s₂ })
    ⟨c.sessionCtx draws req, .active⟩ .attesting hstate rfl rfl
  refine ⟨s₃, ?_, ?_, fun v => ?_⟩
  · refine (run_bind_of_ok _ hins).trans ((run_bind_of_ok _ hact).trans ?_)
    refine (run_bind_of_ok _ (run_lift_ok.2 ⟨hgen, rfl⟩)).trans ?_
    refine (run_bind_of_ok _ hatt).trans ?_
    exact run_bind_of_ok _ (run_lift_ok.2 ⟨hexec, rfl⟩)
  · rw [hstates₃]
    exact update_self ..
  · rw [happroved₃]
    exact happ v

theorem exists_run_collecting {α : Type} {p : PreparedSession}
    (hnew : stateOf w.store draws.sessionId = none) (hp : c.prepared draws req response = .ok p)
    (k : PreparedSession → Session → NodeM S F G N α) :
    ∃ s', (c.prepareSession draws req response >>= fun p =>
        advance p.sessionId p.session .collecting >>= k p).run w =
          (k p ⟨p.sessionCtx, .collecting⟩).run { w with store := s' } ∧
      p.sessionId = draws.sessionId ∧ stateOf s' draws.sessionId = some .collecting ∧
      ∀ v, hasApproved s' draws.sessionId v = false := by
  obtain ⟨s₁, hprep, hatt, hnobody⟩ :=
    run_prepareSession_of_ok (w := w) hnew hp
  obtain ⟨_, _, _, rfl⟩ := exists_preparedFrom hp
  obtain ⟨s₂, hcoll, hstates₂, happroved₂⟩ := exists_run_advance (w := { w with store := s₁ })
    ⟨c.sessionCtx draws req, .attesting⟩ .collecting hatt rfl rfl
  refine ⟨s₂, (run_bind_of_ok _ hprep).trans (run_bind_of_ok _ hcoll), rfl, ?_, fun v => ?_⟩
  · rw [hstates₂]
    exact update_self ..
  · rw [happroved₂]
    exact hnobody v

/-- **A session that an engine refuses** is active, or attesting if the attestation failed. -/
theorem run_prepareSession_of_error {e : NodeError} (hnew : stateOf w.store draws.sessionId = none)
    (he : c.prepared draws req response = .error e) :
    ∃ s' state, (c.prepareSession draws req response).run w = .error e { w with store := s' } ∧
      stateOf s' draws.sessionId = some state ∧ (state = .active ∨ state = .attesting) := by
  obtain ⟨s₁, s₂, hins, hact, hstate, -⟩ := exists_run_start c req hnew
  have hstart : (c.prepareSession draws req response).run w = _ :=
    (run_bind_of_ok _ hins).trans (run_bind_of_ok _ hact)
  rw [hstart]
  unfold prepared at he
  rcases hgen : c.generate draws.sessionId draws.nonce c.config.epoch
    c.config.quorum.verifiers.1 with e' | randomness
  · rw [hgen] at he
    obtain rfl : NodeError.crypto e' = e := Except.error.inj he
    exact ⟨s₂, .active, run_bind_of_error _ (run_lift_error.2 ⟨⟨e', rfl, rfl⟩, rfl⟩), hstate,
      .inl rfl⟩
  · rw [hgen] at he
    obtain ⟨s₃, hatt, hstates₃, -⟩ := exists_run_advance (w := { w with store := s₂ })
      ⟨c.sessionCtx draws req, .active⟩ .attesting hstate rfl rfl
    have hstate₃ : stateOf s₃ draws.sessionId = some .attesting := by
      rw [hstates₃]
      exact update_self ..
    have hgenerated : (lift .crypto (.ok randomness) : NodeM S F G N _).run
        { w with store := s₂ } = .ok randomness { w with store := s₂ } := rfl
    rw [run_bind_of_ok _ hgenerated, run_bind_of_ok _ hatt]
    rcases hexec : c.execute (c.sessionCtx draws req) randomness.value req.query.1
      response.1 with e' | ⟨transcript, evidence⟩
    · simp only [bind, Except.bind, Except.mapError, hexec] at he
      obtain rfl : NodeError.attestation e' = e := Except.error.inj he
      refine ⟨s₃, .attesting, run_bind_of_error _ (run_lift_error.2 ⟨⟨e', hexec, rfl⟩, rfl⟩),
        hstate₃, .inr rfl⟩
    · simp only [bind, Except.bind, Except.mapError, hexec] at he
      cases he

end CoordinatorNode

end Reliable

end TlsAttestation
