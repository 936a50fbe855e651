import TlsAttestation.Node.Attest

/-!
# What is left of a session when a call fails

A session is stored as failed if there are too few signers or a peer answers with an error. If an
engine refuses, the answers cannot be combined, or a signer is given twice, it stays where it was
for ever (`AttestPath.failureRecorded_iff`).
-/

namespace TlsAttestation

open ByteEncoding Effect Fallible Frost CoordinatorNode FrostNodeTransport
open SessionStore (hasApproved)

def SessionState.isFailure : SessionState → Bool
  | expired | failed _ => true
  | _ => false

section

variable {S F G N : Type} [SessionStore S] [Zero F] {α β : Type} {w w' : World S F G N}
  {id : SessionId}

/-- If the run fails, the session is left in a state of failure. -/
def RecordsFailure (id : SessionId) (r : EStateM.Result NodeError (World S F G N) α) : Prop :=
  ∀ e w', r = .error e w' → ∃ state, stateOf w'.store id = some state ∧ state.isFailure = true

theorem recordsFailure_ok {a : α} :
    RecordsFailure id (.ok a w : EStateM.Result NodeError (World S F G N) α) := by
  intro e w' h
  cases h

theorem recordsFailure_error_iff {e : NodeError} :
    RecordsFailure id (.error e w : EStateM.Result NodeError (World S F G N) α) ↔
      ∃ state, stateOf w.store id = some state ∧ state.isFailure = true := by
  constructor
  · intro h
    exact h e w rfl
  · intro hstate e' w' h
    obtain ⟨-, rfl⟩ := EStateM.Result.error.inj h
    exact hstate

theorem recordsFailure_error {e : NodeError} {state : SessionState}
    (hstate : stateOf w.store id = some state) :
    RecordsFailure id (.error e w : EStateM.Result NodeError (World S F G N) α) ↔
      state.isFailure = true := by
  rw [recordsFailure_error_iff]
  constructor
  · rintro ⟨state', hstate', hfailure⟩
    rw [hstate] at hstate'
    rwa [Option.some.inj hstate']
  · exact fun hfailure => ⟨state, hstate, hfailure⟩

theorem recordsFailure_bind_pure {x : NodeM S F G N α} {f : α → β} :
    RecordsFailure id ((x >>= fun a => pure (f a)).run w) ↔ RecordsFailure id (x.run w) := by
  rcases h : x.run w with ⟨a, t⟩ | ⟨e, t⟩
  · rw [run_bind_of_ok _ h]
    exact iff_of_true recordsFailure_ok recordsFailure_ok
  · rw [run_bind_of_error _ h, recordsFailure_error_iff, recordsFailure_error_iff]

theorem recordsFailure_lift_bind {ε : Type} {f : ε → NodeError} {x : Except ε α}
    {k : α → NodeM S F G N β} (hstate : stateOf w.store id = some .collecting) :
    RecordsFailure id ((lift f x >>= k).run w) ↔
      ∃ a, x = .ok a ∧ RecordsFailure id ((k a).run w) := by
  rw [run_lift_bind]
  rcases x with e | a
  · exact (recordsFailure_error hstate).trans (iff_of_false Bool.false_ne_true (by simp))
  · simp

section Reliable

variable [LawfulSessionStore S] [LawfulSessionStates S] [ReliableSessionStore S]
  {c : CoordinatorNode} {draws : Draws} {request : AttestationRequest} {response : RVec UInt8}
  {p : PreparedSession}

/-- **An engine that refuses** leaves the session. -/
theorem not_recordsFailure_of_prepared_error {e : NodeError}
    (hnew : stateOf w.store draws.sessionId = none)
    (he : c.prepared draws request response = .error e) (k : PreparedSession → NodeM S F G N α) :
    ¬ RecordsFailure draws.sessionId ((c.prepareSession draws request response >>= k).run w) := by
  obtain ⟨s', state, hrun, hstate, hopen⟩ :=
    run_prepareSession_of_error (w := w) hnew he
  rw [run_bind_of_error _ hrun, recordsFailure_error hstate]
  rcases hopen with rfl | rfl <;> exact Bool.false_ne_true

theorem recordsFailure_finalize {approvers : List VerifierId}
    {frostApproval : FrostThresholdApproval} (hnow : stateOf w.store p.sessionId = some .collecting)
    (hnobody : ∀ v, hasApproved w.store p.sessionId v = false) :
    RecordsFailure p.sessionId ((finalize p ⟨p.sessionCtx, .collecting⟩ approvers
      frostApproval).run w) ↔ approvers.Nodup := by
  by_cases hnodup : approvers.Nodup
  · obtain ⟨s₁, hrec⟩ := exists_run_recordApprovals hnow rfl hnodup fun v _ => hnobody v
    have hnow₁ : stateOf s₁ p.sessionId = some .collecting := by
      rw [stateOf_recordApprovals.1 _ _ hrec]
      exact hnow
    obtain ⟨s₂, hfinal, -⟩ := exists_run_advance (w := { w with store := s₁ })
      ⟨p.sessionCtx, .collecting⟩ .finalized hnow₁ rfl rfl
    have hrun : (finalize p ⟨p.sessionCtx, .collecting⟩ approvers frostApproval).run w =
        .ok (p.envelope frostApproval) { w with store := s₂ } :=
      (run_bind_of_ok _ (run_onStore_ok.2 ⟨s₁, hrec, rfl⟩)).trans (run_bind_of_ok _ hfinal)
    rw [hrun]
    exact iff_of_true recordsFailure_ok hnodup
  · rcases hrec : (recordApprovals p.sessionId approvers).run w.store with ⟨u, s⟩ | ⟨e, s⟩
    · exact absurd (hasApproved_recordApprovals hrec).1 hnodup
    · have hnow' : stateOf s p.sessionId = some .collecting := by
        rw [stateOf_recordApprovals.2 _ _ hrec]
        exact hnow
      have hrun : (finalize p ⟨p.sessionCtx, .collecting⟩ approvers
          frostApproval).run w = .error (.storage e) { w with store := s } :=
        run_bind_of_error _ (run_onStore_error.2 ⟨e, s, hrec, rfl, rfl⟩)
      rw [hrun, recordsFailure_error hnow']
      exact iff_of_false Bool.false_ne_true hnodup

end Reliable

end

/-! ### Exchanges with peers -/

section Exchanges

variable {S F G N : Type} [SessionStore S] [Field F] {β : Type} {w : World S F G N}
  {p : PreparedSession} (round : String) {peers : List (FrostNodeTransport F G N)}
  {x : FrostNodeTransport F G N → EStateM NodeError (Outside F G N) β} {o : Outside F G N}

theorem run_exchanges_ok {bs : List β} (h : (forEach x peers).run w.outside = .ok bs o) :
    (forEach (fun peer => exchange p round peer (x peer)) peers).run w =
      .ok bs { w with outside := o } := by
  induction peers generalizing w bs with
  | nil =>
    obtain ⟨rfl, rfl⟩ := run_pure_ok.1 h
    rfl
  | cons peer peers ih =>
    simp only [forEach, run_bind_ok, run_pure_ok] at h
    obtain ⟨b, o₁, hb, bs, _, hbs, rfl, rfl⟩ := h
    have hfirst : (exchange p round peer (x peer)).run w =
        .ok b { w with outside := o₁ } := run_exchange_ok.2 ⟨o₁, hb, rfl⟩
    exact (run_bind_of_ok _ hfirst).trans (run_bind_of_ok _ (ih hbs))

/-- **A peer that does not answer** ends the session. -/
theorem exists_run_exchanges_error [LawfulSessionStates S] [ReliableSessionStore S] {e : NodeError}
    {now : SessionState} (hnow : stateOf w.store p.sessionId = some now)
    (hopen : now.isTerminal = false) (h : (forEach x peers).run w.outside = .error e o) :
    ∃ w' reason, (forEach (fun peer =>
      exchange p round peer (x peer)) peers).run w =
        .error e w' ∧ stateOf w'.store p.sessionId = some (.failed reason) := by
  induction peers generalizing w with
  | nil => exact absurd h not_run_pure_error
  | cons peer peers ih =>
    rcases run_bind_error.1 h with hfirst | ⟨b, o₁, hb, hrest⟩
    · obtain ⟨s, hfail, hstate⟩ := exists_run_failSession (w := { w with outside := o }) hnow hopen
      refine ⟨_, _, run_bind_of_error _ (run_orElse_error.2
        ⟨e, { w with outside := o }, ?_, hfail⟩),
        hstate⟩
      exact run_zoom_error.2 ⟨e, o, hfirst, rfl, rfl⟩
    · rcases run_bind_error.1 hrest with hrest | ⟨_, _, -, hpure⟩
      · obtain ⟨w', reason, hrun, hstate⟩ := ih (w := { w with outside := o₁ }) hnow hrest
        have hfirst : (exchange p round peer (x peer)).run w =
            .ok b { w with outside := o₁ } := run_exchange_ok.2 ⟨o₁, hb, rfl⟩
        exact ⟨w', reason, (run_bind_of_ok _ hfirst).trans (run_bind_of_error _ hrun), hstate⟩
      · exact absurd hpure not_run_pure_error

/-- **A round is settled** by a peer that does not answer, or by what follows. -/
theorem recordsFailure_exchanges [LawfulSessionStates S] [ReliableSessionStore S] {γ : Type}
    {k : List β → NodeM S F G N γ} (hstate : stateOf w.store p.sessionId = some .collecting) :
    RecordsFailure p.sessionId ((forEach (fun peer =>
      exchange p round peer (x peer)) peers >>= k).run w) ↔
      ∀ bs o, (forEach x peers).run w.outside = .ok bs o →
        RecordsFailure p.sessionId ((k bs).run { w with outside := o }) := by
  rcases hround : (forEach x peers).run w.outside with ⟨bs, o⟩ | ⟨e, o⟩
  · rw [run_bind_of_ok _ (run_exchanges_ok round hround), ← hround]
    exact (forall_run_ok_iff hround (P := fun bs o =>
      RecordsFailure p.sessionId ((k bs).run { w with outside := o }))).symm
  · obtain ⟨w', reason, hfail, hfailed⟩ := exists_run_exchanges_error round hstate rfl hround
    rw [run_bind_of_error _ hfail, recordsFailure_error hfailed, ← hround]
    exact iff_of_true rfl (forall_run_ok_of_error hround)

end Exchanges

/-! ### The paths -/

section Paths

variable {S F G N VerifyingKey : Type} [SessionStore S] [Field F] [AddCommGroup G] [Module F G]
  [DecidableEq F] [DecidableEq G]

namespace CoordinatorNode

variable (c : CoordinatorNode)

def round1Request (p : PreparedSession) (signerSet : List VerifierId)
    (registryEpoch : RegistryEpoch) : FrostRound1Request where
  sessionId := p.sessionId
  coordinatorId := c.config.coordinatorId
  signedDigest := p.signedDigest
  envelopeDigest := p.envelopeDigest
  signerSet := signerSet
  roundExpiresAt := p.expiresAt
  registryEpoch := registryEpoch
  hspProofBytes := []
  hspPvkBytes := []
  dctlsEvidenceBytes := []
  randValueBytes := []
  serverCertHashBytes := []

variable (C : NodeCrates F G)

/-- Signed by key shares in one process, or on record. -/
def SettledByKeyShares (draws : Draws) (groupKey : FrostGroupKey F G)
    (frostSigners : List (FrostParticipant F G)) (p : PreparedSession) : Prop :=
  frostSigners.length < c.config.quorum.threshold.toNat ∨
    (∃ approval, frostCollectApproval C.toFrostCrates frostSigners p.signedDigest groupKey
      c.config.quorum draws.random = .ok approval) ∧
    (frostSigners.map FrostParticipant.verifierId).Nodup

def roundTwo (groupKey : FrostGroupKey F G) (peers : List (FrostNodeTransport F G N))
    (p : PreparedSession) (session : Session) (package : SigningPackage F G) (bytes : Bytes) :
    NodeM S F G N (FrostAttestationEnvelope × List VerifierId) := do
  let signerSet := peers.map verifierId
  let shares ← forEach (fun peer => exchange p "round-2" peer
    (peer.frostRound2 ⟨p.sessionId, c.config.coordinatorId, bytes, signerSet⟩)) peers
  let shareEntries := shares.map fun r => (r.verifierId, r.signatureShareBytes)
  let frostApproval ← lift .crypto (aggregateSignatureShares C.toFrostCrates package shareEntries
    groupKey p.signedDigest)
  let envelope ← finalize p session signerSet frostApproval
  return (envelope, shareEntries.map Prod.fst)

def roundOne (groupKey : FrostGroupKey F G) (registryEpoch : RegistryEpoch)
    (peers : List (FrostNodeTransport F G N)) (p : PreparedSession) (session : Session) :
    NodeM S F G N (FrostAttestationEnvelope × List VerifierId) := do
  let signerSet := peers.map verifierId
  let commitments ← forEach (fun peer => exchange p "round-1" peer
    (peer.frostRound1 (c.round1Request p signerSet registryEpoch) p.now)) peers
  let (package, bytes) ← lift id
    (assembleSigningPackageFromResponses C commitments p.signedDigest groupKey)
  c.roundTwo C groupKey peers p session package bytes

theorem distributedRounds_eq (draws : Draws) (request : AttestationRequest)
    (response : RVec UInt8) (kind : String) (peers : List (FrostNodeTransport F G N))
    (groupKey : FrostGroupKey F G) (registryEpoch : RegistryEpoch) :
    (c.distributedRounds C draws request response kind peers groupKey registryEpoch :
        NodeM S F G N _) =
      c.prepareSession draws request response >>= fun p =>
        advance p.sessionId p.session .collecting >>= fun session =>
          if peers.length < c.config.quorum.threshold.toNat then
            failSession p.sessionId
              s!"insufficient {kind}: need {c.config.quorum.threshold.toNat}, got {peers.length}"
              (.quorumNotMet peers.length c.config.quorum.threshold.toNat)
          else c.roundOne C groupKey registryEpoch peers p session :=
  rfl

def SettledInRoundTwo (groupKey : FrostGroupKey F G)
    (peers : List (FrostNodeTransport F G N)) (p : PreparedSession) (package : SigningPackage F G)
    (bytes : Bytes) (o : Outside F G N) : Prop :=
  ∀ shares o', (forEach (fun peer => peer.frostRound2 ⟨p.sessionId, c.config.coordinatorId, bytes,
      peers.map verifierId⟩) peers).run o = .ok shares o' →
    (∃ approval, aggregateSignatureShares C.toFrostCrates package
      (shares.map fun r => (r.verifierId, r.signatureShareBytes)) groupKey p.signedDigest =
        .ok approval) ∧
    (peers.map verifierId).Nodup

/-- Too few peers, or answers to round one with which round two ends in a signature or on record. -/
def SettledByPeers (groupKey : FrostGroupKey F G) (registryEpoch : RegistryEpoch)
    (peers : List (FrostNodeTransport F G N)) (p : PreparedSession) (o : Outside F G N) : Prop :=
  peers.length < c.config.quorum.threshold.toNat ∨
    ∀ commitments o₁, (forEach (fun peer => peer.frostRound1
        (c.round1Request p (peers.map verifierId) registryEpoch) p.now) peers).run
          o = .ok commitments o₁ →
      ∃ package bytes, assembleSigningPackageFromResponses C commitments p.signedDigest groupKey =
          .ok (package, bytes) ∧
        c.SettledInRoundTwo C groupKey peers p package bytes o₁

end CoordinatorNode

variable [LawfulSessionStore S] [LawfulSessionStates S] [ReliableSessionStore S] {w : World S F G N}
  {C : NodeCrates F G} {c : CoordinatorNode} {draws : Draws} {request : AttestationRequest}
  {response : RVec UInt8} {p : PreparedSession} {groupKey : FrostGroupKey F G}

section Peers

variable {peers : List (FrostNodeTransport F G N)} {registryEpoch : RegistryEpoch}

theorem recordsFailure_roundTwo {package : SigningPackage F G} {bytes : Bytes}
    (hstate : stateOf w.store p.sessionId = some .collecting)
    (hnobody : ∀ v, hasApproved w.store p.sessionId v = false) :
    RecordsFailure p.sessionId ((c.roundTwo C groupKey peers p ⟨p.sessionCtx, .collecting⟩ package
        bytes).run w) ↔
      c.SettledInRoundTwo C groupKey peers p package bytes w.outside := by
  refine (recordsFailure_exchanges "round-2" hstate).trans (forall₃_congr fun shares o _ => ?_)
  rw [← exists_and_right]
  refine (recordsFailure_lift_bind (w := { w with outside := o }) hstate).trans
    (exists_congr fun approval => ?_)
  exact and_congr_right fun _ => recordsFailure_bind_pure.trans
    (recordsFailure_finalize hstate hnobody)

theorem recordsFailure_roundOne (hstate : stateOf w.store p.sessionId = some .collecting)
    (hnobody : ∀ v, hasApproved w.store p.sessionId v = false) :
    RecordsFailure p.sessionId ((c.roundOne C groupKey registryEpoch peers p
        ⟨p.sessionCtx, .collecting⟩).run w) ↔
      ∀ commitments o, (forEach (fun peer => peer.frostRound1
          (c.round1Request p (peers.map verifierId) registryEpoch) p.now)
            peers).run w.outside = .ok commitments o →
        ∃ package bytes, assembleSigningPackageFromResponses C commitments
            p.signedDigest groupKey = .ok (package, bytes) ∧
          c.SettledInRoundTwo C groupKey peers p package bytes o := by
  refine (recordsFailure_exchanges "round-1" hstate).trans (forall₃_congr fun commitments o _ => ?_)
  refine (recordsFailure_lift_bind (w := { w with outside := o }) hstate).trans
    (Prod.exists.trans ?_)
  exact exists₂_congr fun package bytes => and_congr_right fun _ =>
    recordsFailure_roundTwo (w := { w with outside := o }) hstate hnobody

variable (hnew : stateOf w.store draws.sessionId = none)
  (hp : c.prepared draws request response = .ok p)

include hnew hp

omit [AddCommGroup G] [Module F G] [DecidableEq F] [DecidableEq G] in
theorem recordsFailure_attest [Verifier VerifyingKey] {keys : List (VerifierId × VerifyingKey)}
    {auxSigners : List (ThresholdSigner (Outside F G N))} :
    RecordsFailure draws.sessionId ((c.attest keys draws request response auxSigners).run w) ↔
      ∃ approval, aggregateSignatures
        (answers p.signedDigest.asBytes.toList auxSigners [] w.outside)
        c.config.quorum p.envelopeDigest keys = .ok approval := by
  rcases happ : aggregateSignatures (answers p.signedDigest.asBytes.toList auxSigners []
    w.outside) c.config.quorum p.envelopeDigest keys with e | approval
  · obtain ⟨w', hrun, hstate⟩ := run_attest_of_refused hnew hp happ
    rw [hrun, recordsFailure_error hstate]
    exact iff_of_false Bool.false_ne_true (by simp)
  · obtain ⟨w', hrun⟩ := run_attest_of_aggregated hnew hp happ
    rw [hrun]
    exact iff_of_true recordsFailure_ok ⟨approval, rfl⟩

theorem recordsFailure_attestFrost {frostSigners : List (FrostParticipant F G)} :
    RecordsFailure draws.sessionId
        ((c.attestFrost C draws request response frostSigners groupKey).run w) ↔
      c.SettledByKeyShares C draws groupKey frostSigners p := by
  obtain ⟨s, hrun, hid, hstate, hnobody⟩ :=
    exists_run_collecting (w := w) hnew hp _
  rw [attestFrost, hrun]
  rw [← hid] at hstate hnobody ⊢
  unfold CoordinatorNode.SettledByKeyShares
  dsimp only
  split
  case isTrue hfew =>
    obtain ⟨s', hfail, hfailed⟩ := exists_run_failSession (w := { w with store := s }) hstate rfl
    rw [hfail, recordsFailure_error hfailed]
    exact iff_of_true rfl (.inl hfew)
  case isFalse henough =>
    rw [or_iff_right henough, ← exists_and_right]
    refine (recordsFailure_lift_bind hstate).trans (exists_congr fun approval => ?_)
    exact and_congr_right fun _ => recordsFailure_bind_pure.trans
      (recordsFailure_finalize hstate hnobody)

theorem recordsFailure_distributedRounds {kind : String} :
    RecordsFailure draws.sessionId
      ((c.distributedRounds C draws request response kind peers groupKey registryEpoch).run w) ↔
      c.SettledByPeers C groupKey registryEpoch peers p w.outside := by
  obtain ⟨s, hrun, hid, hstate, hnobody⟩ :=
    exists_run_collecting (w := w) hnew hp _
  rw [distributedRounds_eq, hrun]
  rw [← hid] at hstate hnobody ⊢
  unfold CoordinatorNode.SettledByPeers
  split
  case isTrue hfew =>
    obtain ⟨s', hfail, hfailed⟩ := exists_run_failSession (w := { w with store := s }) hstate rfl
    rw [hfail, recordsFailure_error hfailed]
    exact iff_of_true rfl (.inl hfew)
  case isFalse henough =>
    rw [or_iff_right henough]
    exact recordsFailure_roundOne (w := { w with store := s }) hstate hnobody

end Peers

/-! ### All calls -/

inductive AttestPath (VerifyingKey F G N : Type) [Zero F] where
  /-- `attest`, with these signers. -/
  | approvals (verifierPublicKeys : List (VerifierId × VerifyingKey))
      (auxSigners : List (ThresholdSigner (Outside F G N)))
  /-- The ways to a FROST signature. -/
  | frost (groupKey : FrostGroupKey F G) (path : SigningPath F G N)

namespace AttestPath

variable [Verifier VerifyingKey]

omit [LawfulSessionStore S] [LawfulSessionStates S] [ReliableSessionStore S] in
def run (C : NodeCrates F G) (c : CoordinatorNode) (draws : Draws) (request : AttestationRequest)
    (response : RVec UInt8) : AttestPath VerifyingKey F G N → NodeM S F G N
      (AttestationResponse ⊕ FrostAttestationEnvelope × List VerifierId)
  | approvals keys auxSigners => do
    return .inl (← c.attest keys draws request response auxSigners)
  | frost groupKey path => do
    return .inr (← path.run C c draws request response groupKey)

/-- A call with a new session that fails leaves it in a state of failure. -/
def FailureRecorded (C : NodeCrates F G) (c : CoordinatorNode) (draws : Draws)
    (request : AttestationRequest) (response : RVec UInt8) (path : AttestPath VerifyingKey F G N)
    (w : World S F G N) : Prop :=
  stateOf w.store draws.sessionId = none →
    ∀ e w', (path.run C c draws request response).run w = .error e w' →
      ∃ state, stateOf w'.store draws.sessionId = some state ∧ state.isFailure = true

def Settled (C : NodeCrates F G) (c : CoordinatorNode) (draws : Draws) (p : PreparedSession)
    (o : Outside F G N) : AttestPath VerifyingKey F G N → Prop
  | approvals keys auxSigners =>
    ∃ approval, aggregateSignatures (answers p.signedDigest.asBytes.toList auxSigners [] o)
      c.config.quorum p.envelopeDigest keys = .ok approval
  | frost groupKey (.keyShares frostSigners) => c.SettledByKeyShares C draws groupKey frostSigners p
  | frost groupKey (.nodes auxNodes) =>
    c.SettledByPeers C groupKey .genesis (auxNodes.map (inProcess C o.host)) p o
  | frost groupKey (.transports ts) => c.SettledByPeers C groupKey .genesis ts p o

variable {path : AttestPath VerifyingKey F G N}

theorem recordsFailure_run (hnew : stateOf w.store draws.sessionId = none)
    (hp : c.prepared draws request response = .ok p) :
    RecordsFailure draws.sessionId ((path.run C c draws request response).run w) ↔
      path.Settled C c draws p w.outside := by
  rcases path with ⟨keys, auxSigners⟩ | ⟨groupKey, frostSigners | auxNodes | ts⟩
  · exact recordsFailure_bind_pure.trans (recordsFailure_attest hnew hp)
  · exact recordsFailure_bind_pure.trans (recordsFailure_attestFrost hnew hp)
  · exact recordsFailure_bind_pure.trans (recordsFailure_distributedRounds hnew hp)
  · exact recordsFailure_bind_pure.trans (recordsFailure_distributedRounds hnew hp)

theorem not_recordsFailure_run {e : NodeError} (hnew : stateOf w.store draws.sessionId = none)
    (he : c.prepared draws request response = .error e) :
    ¬ RecordsFailure draws.sessionId ((path.run C c draws request response).run w) := by
  rcases path with ⟨keys, auxSigners⟩ | ⟨groupKey, frostSigners | auxNodes | ts⟩
  all_goals exact recordsFailure_bind_pure.not.2 (not_recordsFailure_of_prepared_error hnew he _)

/-- **Which failures are on record**: those of calls whose session both engines accept and the
signers settle, in a store that does not fail. -/
theorem failureRecorded_iff (C : NodeCrates F G) (c : CoordinatorNode) (draws : Draws)
    (request : AttestationRequest) (response : RVec UInt8) (path : AttestPath VerifyingKey F G N)
    (w : World S F G N) :
    path.FailureRecorded C c draws request response w ↔
      (stateOf w.store draws.sessionId = none → ∃ p, c.prepared draws request response = .ok p ∧
        path.Settled C c draws p w.outside) := by
  refine forall_congr' fun hnew => ?_
  rcases hp : c.prepared draws request response with e | p
  · refine iff_of_false (not_recordsFailure_run hnew hp) ?_
    rintro ⟨p, hok, -⟩
    cases hok
  · refine (recordsFailure_run hnew hp).trans ⟨fun h => ⟨p, rfl, h⟩, ?_⟩
    rintro ⟨p', hok, hsettled⟩
    rwa [Except.ok.inj hok]

end AttestPath

end Paths

namespace AttestPath

/-- `attest_frost` without signers is on record. -/
theorem failureRecorded_noKeyShares :
    (frost FrostDvRF.toyGroupKey (.keyShares []) :
        AttestPath AttestationEnvelope.DigestKey Toy Toy Unit).FailureRecorded toyNodeCrates
      (agreeableCoordinator ⟨toyMembers, 2⟩) toyDraws toyRequest (.ofList [1]) toyWorld :=
  (failureRecorded_iff _ _ _ _ _ _ _).2 fun _ => ⟨_, rfl, .inl Nat.zero_lt_two⟩

/-- **A call of `attest` without signers** leaves its session collecting. -/
theorem exists_collecting_noSigners :
    ∃ e w', ((approvals ([] : List (VerifierId × AttestationEnvelope.DigestKey)) [] :
          AttestPath AttestationEnvelope.DigestKey Toy Toy Unit).run toyNodeCrates
        (agreeableCoordinator ⟨toyMembers, 2⟩) toyDraws toyRequest (.ofList [1])).run toyWorld =
          .error e w' ∧
      stateOf w'.store toyDraws.sessionId = some .collecting := by
  have hnew : stateOf toyWorld.store toyDraws.sessionId = none := rfl
  obtain ⟨p, hp⟩ : ∃ p, (agreeableCoordinator ⟨toyMembers, 2⟩).prepared toyDraws toyRequest
      (.ofList [1]) = .ok p := ⟨_, rfl⟩
  have hrefused : aggregateSignatures
      (answers p.signedDigest.asBytes.toList ([] : List (ThresholdSigner (Outside Toy Toy Unit))) []
        toyWorld.outside) ⟨toyMembers, 2⟩ p.envelopeDigest
      ([] : List (VerifierId × AttestationEnvelope.DigestKey)) =
        .error (.insufficientSignatures 2 0) := rfl
  obtain ⟨w', hrun, hstate⟩ := run_attest_of_refused hnew hp hrefused
  exact ⟨_, w', run_bind_of_error _ hrun, hstate⟩

end AttestPath

end TlsAttestation
