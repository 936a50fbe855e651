import TlsAttestation.Attestation.Approval
import TlsAttestation.Node.Lifecycle
import TlsAttestation.Node.QuorumIntegrity
import Mathlib.Data.List.ReduceOption

/-!
# Attesting with the signatures of single verifiers

`CoordinatorNode::attest`: each signer is asked for a signature, unless it has approved before. A
signer that fails has no effect. Who has approved is recorded under the identity of the signer; the
signature counts under the identity that it names.
-/

namespace TlsAttestation

open ByteEncoding Effect
open SessionStore (hasApproved recordApproval)

inductive AttestationResponse where
  | success (envelope : AttestationEnvelope)
  | failure (sessionId : SessionId) (reason : String)
deriving DecidableEq

def PreparedSession.approvedEnvelope (p : PreparedSession) (thresholdApproval : ThresholdApproval) :
    AttestationEnvelope :=
  AttestationEnvelope.assemble p.sessionCtx p.randomnessBinding p.transcriptCommitments p.statement
    p.coordinatorEvidence thresholdApproval

section

variable {S F G N VerifyingKey : Type} [SessionStore S] [Zero F]
  (signer : ThresholdSigner (Outside F G N))

def askSigner (payload : Bytes) :
    NodeM S F G N (Except CryptoError PartialSignature) :=
  attempt (zoom World.outside (fun w o => { w with outside := o }) id (signer.signPartial payload))

def collectPartial (p : PreparedSession) (signer : ThresholdSigner (Outside F G N)) :
    NodeM S F G N (Option PartialSignature) := do
  let world ← get
  if hasApproved world.store p.sessionId signer.verifierId then
    return none
  else
    match ← askSigner signer p.signedDigest.asBytes.toList with
    | .ok signature =>
      -- The approval is recorded first, so that no signature is used without it.
      onStore (recordApproval p.sessionId signer.verifierId)
      return some signature
    | .error _ => return none

/-- A session, one signature by each signer that answers, and their aggregation. -/
def CoordinatorNode.attest [Verifier VerifyingKey] (c : CoordinatorNode)
    (verifierPublicKeys : List (VerifierId × VerifyingKey)) (draws : Draws)
    (request : AttestationRequest) (response : RVec UInt8)
    (auxSigners : List (ThresholdSigner (Outside F G N))) :
    NodeM S F G N AttestationResponse := do
  let p ← c.prepareSession draws request response
  let session ← advance p.sessionId p.session .collecting
  let partials ← forEach (collectPartial p) auxSigners
  let thresholdApproval ← lift .crypto (aggregateSignatures partials.reduceOption c.config.quorum
    p.envelopeDigest verifierPublicKeys)
  let envelope := p.approvedEnvelope thresholdApproval
  let _ ← advance p.sessionId session .finalized
  return .success envelope

/-! ### Calls that end well -/

variable {w w' : World S F G N} {c : CoordinatorNode} {draws : Draws} {request : AttestationRequest}
  {response : RVec UInt8} {p : PreparedSession}

omit [SessionStore S] in
theorem run_askSigner (payload : Bytes) :
    (askSigner signer payload : NodeM S F G N _).run w =
      .ok (resultOf ((signer.signPartial payload).run w.outside)).1
        { w with outside := (resultOf ((signer.signPartial payload).run w.outside)).2 } := by
  simp only [askSigner, attempt, zoom, EStateM.run]
  rcases signer.signPartial payload w.outside with ⟨a, o⟩ | ⟨e, o⟩ <;> rfl

variable {signer : ThresholdSigner (Outside F G N)}

theorem run_collectPartial_of_approved
    (h : hasApproved w.store p.sessionId signer.verifierId = true) :
    (collectPartial p signer).run w = .ok none w :=
  congrFun (if_pos h) w

theorem run_collectPartial_of_failed {e : CryptoError} {o : Outside F G N}
    (h : hasApproved w.store p.sessionId signer.verifierId = false)
    (hsign : (signer.signPartial p.signedDigest.asBytes.toList).run w.outside = .error e o) :
    (collectPartial p signer).run w = .ok none { w with outside := o } := by
  have hask := run_askSigner (w := w) signer p.signedDigest.asBytes.toList
  rw [hsign] at hask
  refine (congrFun (if_neg (ne_of_eq_of_ne h Bool.false_ne_true)) w).trans ?_
  exact run_bind_of_ok _ hask

theorem run_collectPartial_of_signed {signature : PartialSignature} {o : Outside F G N}
    (h : hasApproved w.store p.sessionId signer.verifierId = false)
    (hsign : (signer.signPartial p.signedDigest.asBytes.toList).run w.outside = .ok signature o) :
    (collectPartial p signer).run w =
      (onStore (recordApproval p.sessionId signer.verifierId) >>= fun _ =>
        pure (some signature)).run { w with outside := o } := by
  have hask := run_askSigner (w := w) signer p.signedDigest.asBytes.toList
  rw [hsign] at hask
  refine (congrFun (if_neg (ne_of_eq_of_ne h Bool.false_ne_true)) w).trans ?_
  exact run_bind_of_ok _ hask

section Lawful

variable [LawfulSessionStates S]

theorem run_attest_ok [Verifier VerifyingKey] {keys : List (VerifierId × VerifyingKey)}
    {auxSigners : List (ThresholdSigner (Outside F G N))} {r : AttestationResponse}
    (h : (c.attest keys draws request response auxSigners).run w = .ok r w') :
    ∃ p partials approval, c.prepared draws request response = .ok p ∧
      aggregateSignatures partials c.config.quorum p.envelopeDigest keys = .ok approval ∧
      r = .success (p.approvedEnvelope approval) ∧
      stateOf w'.store draws.sessionId = some .finalized := by
  simp only [CoordinatorNode.attest, run_bind_ok, run_lift_ok, run_pure_ok] at h
  obtain ⟨p, w₁, hprep, _, w₂, hcoll, partials, w₃, hloop, approval, _,
    ⟨happroval, rfl⟩, _, w₄, hfinal, rfl, rfl⟩ := h
  obtain ⟨-, -, hp⟩ := states_of_run_prepareSession_ok hprep
  obtain ⟨hstates, -⟩ := states_of_run_advance_ok hfinal
  refine ⟨p, partials.reduceOption, approval, hp, happroval, rfl, ?_⟩
  obtain ⟨_, _, _, rfl⟩ := CoordinatorNode.exists_preparedFrom hp
  rw [hstates]
  exact Function.update_self ..

end Lawful

/-! ### In a store that does not fail -/

/-- **The answers of the signers**; who has approved is not asked. -/
def answers {σ : Type} (payload : Bytes) :
    List (ThresholdSigner σ) → List VerifierId → σ → List PartialSignature
  | [], _, _ => []
  | signer :: rest, approved, outside =>
    if signer.verifierId ∈ approved then answers payload rest approved outside
    else
      match (signer.signPartial payload).run outside with
      | .ok signature outside =>
        signature :: answers payload rest (signer.verifierId :: approved) outside
      | .error _ outside => answers payload rest approved outside

section Reliable

variable [LawfulSessionStore S] [LawfulSessionStates S] [ReliableSessionStore S]

/-- **The loop** comes to its end and collects the answers. -/
theorem exists_run_collectPartials (signers : List (ThresholdSigner (Outside F G N)))
    {approved : List VerifierId} {now : SessionState}
    (hnow : stateOf w.store p.sessionId = some now) (hopen : now.isTerminal = false)
    (happ : ∀ v, hasApproved w.store p.sessionId v = true ↔ v ∈ approved) :
    ∃ partials w', (forEach (collectPartial p) signers).run w = .ok partials w' ∧
      partials.reduceOption = answers p.signedDigest.asBytes.toList signers approved w.outside ∧
      stateOf w'.store = stateOf w.store := by
  induction signers generalizing w approved with
  | nil => exact ⟨[], w, rfl, rfl, rfl⟩
  | cons signer signers ih =>
    -- In each case the turn ends well, and the rest of the loop runs from where it ended.
    have hgo : ∀ r (t : World S F G N), (collectPartial p signer).run w = .ok r t →
        ∀ rs w', (forEach (collectPartial p) signers).run t = .ok rs w' →
          (forEach (collectPartial p) (signer :: signers)).run w = .ok (r :: rs) w' := by
      intro r t hturn rs w' hrest
      exact (run_bind_of_ok _ hturn).trans (run_bind_of_ok _ hrest)
    by_cases hseen : signer.verifierId ∈ approved
    · obtain ⟨rs, w', hrest, hrs, hstates⟩ := ih hnow happ
      refine ⟨none :: rs, w',
        hgo _ _ (run_collectPartial_of_approved ((happ _).2 hseen)) _ _ hrest, ?_, hstates⟩
      rw [answers, if_pos hseen, List.reduceOption_cons_of_none]
      exact hrs
    · have hfresh : hasApproved w.store p.sessionId signer.verifierId = false :=
        Bool.eq_false_iff.2 fun htrue => hseen ((happ _).1 htrue)
      rcases hsign : (signer.signPartial p.signedDigest.asBytes.toList).run w.outside with
        ⟨signature, o⟩ | ⟨e, o⟩
      · obtain ⟨s, hs⟩ := ReliableSessionStore.recordApproval hnow hopen hfresh
        have hstates := LawfulSessionStates.stateOf_recordApproval hs
        have hturn : (collectPartial p signer).run w = .ok (some signature) ⟨s, o⟩ := by
          rw [run_collectPartial_of_signed hfresh hsign]
          exact run_bind_of_ok _ (run_onStore_ok.2 ⟨s, hs, rfl⟩)
        have hnow' : stateOf s p.sessionId = some now := by
          rw [hstates]
          exact hnow
        have happroved' : ∀ v, hasApproved s p.sessionId v = true ↔
            v ∈ signer.verifierId :: approved := by
          intro v
          rw [LawfulSessionStore.hasApproved_recordApproval hs, happ, List.mem_cons, or_comm]
          simp
        obtain ⟨rs, w', hrest, hrs, hstates'⟩ := ih (w := ⟨s, o⟩) hnow' happroved'
        refine ⟨some signature :: rs, w', hgo _ _ hturn _ _ hrest, ?_, hstates'.trans hstates⟩
        rw [answers, if_neg hseen, hsign, List.reduceOption_cons_of_some]
        exact congrArg _ hrs
      · obtain ⟨rs, w', hrest, hrs, hstates⟩ := ih (w := { w with outside := o }) hnow happ
        refine ⟨none :: rs, w', hgo _ _ (run_collectPartial_of_failed hfresh hsign) _ _ hrest, ?_,
          hstates⟩
        rw [answers, if_neg hseen, hsign, List.reduceOption_cons_of_none]
        exact hrs

variable [Verifier VerifyingKey] (keys : List (VerifierId × VerifyingKey))
  (auxSigners : List (ThresholdSigner (Outside F G N)))
  (hnew : stateOf w.store draws.sessionId = none) (hp : c.prepared draws request response = .ok p)

include hnew hp

theorem exists_run_attest :
    ∃ w' : World S F G N, stateOf w'.store draws.sessionId = some .collecting ∧
      (c.attest keys draws request response auxSigners).run w = (lift .crypto (aggregateSignatures
            (answers p.signedDigest.asBytes.toList auxSigners [] w.outside) c.config.quorum
            p.envelopeDigest keys) >>= fun approval =>
          advance draws.sessionId ⟨p.sessionCtx, .collecting⟩ .finalized >>= fun _ =>
            pure (.success (p.approvedEnvelope approval))).run w' := by
  obtain ⟨s, hrun, hid, hstate, hnobody⟩ :=
    CoordinatorNode.exists_run_collecting (w := w) hnew hp _
  have hnobody' : ∀ v, hasApproved s draws.sessionId v = true ↔ v ∈ ([] : List VerifierId) := by
    intro v
    rw [hnobody v]
    simp
  rw [← hid] at hstate hnobody' ⊢
  obtain ⟨partials, w', hloop, hparts, hstates⟩ := exists_run_collectPartials
    (w := { w with store := s }) auxSigners hstate rfl hnobody'
  refine ⟨w', by rw [hstates]; exact hstate, ?_⟩
  rw [← hparts, CoordinatorNode.attest, hrun]
  exact run_bind_of_ok _ hloop

variable {keys auxSigners}

/-- **If the answers are enough**, the call ends well. -/
theorem run_attest_of_aggregated {approval : ThresholdApproval}
    (happroval : aggregateSignatures (answers p.signedDigest.asBytes.toList auxSigners [] w.outside)
      c.config.quorum p.envelopeDigest keys = .ok approval) :
    ∃ w', (c.attest keys draws request response auxSigners).run w =
      .ok (.success (p.approvedEnvelope approval)) w' := by
  obtain ⟨w₃, hstate, hrun⟩ := exists_run_attest keys auxSigners hnew hp
  obtain ⟨s₄, hfinal, -⟩ := exists_run_advance (w := w₃) ⟨p.sessionCtx, .collecting⟩ .finalized
    hstate rfl rfl
  refine ⟨{ w₃ with store := s₄ }, hrun.trans ?_⟩
  rw [happroval]
  exact run_bind_of_ok _ hfinal

/-- **If they are not**, the aggregation fails, and the session goes on collecting. -/
theorem run_attest_of_refused {e : CryptoError}
    (he : aggregateSignatures (answers p.signedDigest.asBytes.toList auxSigners [] w.outside)
      c.config.quorum p.envelopeDigest keys = .error e) :
    ∃ w', (c.attest keys draws request response auxSigners).run w = .error (.crypto e) w' ∧
      stateOf w'.store draws.sessionId = some .collecting := by
  obtain ⟨w₃, hstate, hrun⟩ := exists_run_attest keys auxSigners hnew hp
  refine ⟨w₃, hrun.trans ?_, hstate⟩
  rw [he]
  rfl

end Reliable

end

/-! ### What a session takes from the request -/

section

variable {S F G N : Type} [SessionStore S] [Zero F]

/-- Another nonce of the client makes another session nonce, and another envelope. -/
def ClientNonceMatters (c : CoordinatorNode) (draws : Draws) (request : AttestationRequest)
    (response : RVec UInt8) (w : World S F G N) : Prop :=
  ∀ (nonce nonce' : Nonce) (p p' : PreparedSession) (w₁ w₂ : World S F G N), nonce ≠ nonce' →
    (c.prepareSession draws { request with clientNonce := nonce } response).run w = .ok p w₁ →
    (c.prepareSession draws { request with clientNonce := nonce' } response).run w = .ok p' w₂ →
      p.sessionCtx.nonce ≠ p'.sessionCtx.nonce ∧ p.envelopeDigest ≠ p'.envelopeDigest

/-- **When it matters**: only if no session is prepared at all. -/
theorem clientNonceMatters_iff (c : CoordinatorNode) (draws : Draws) (request : AttestationRequest)
    (response : RVec UInt8) (w : World S F G N) :
    ClientNonceMatters c draws request response w ↔
      ∀ p w', (c.prepareSession draws request response).run w ≠ .ok p w' := by
  constructor
  · intro h p w' hrun
    have hne : Nonce.fromBytes (.replicate 32 0) ≠ .fromBytes (.replicate 32 1) := by decide
    exact (h _ _ p p w' w' hne hrun hrun).1 rfl
  · intro h nonce nonce' p p' w₁ w₂ _ hrun
    exact absurd hrun (h p w₁)

end

/-! ### Small calls -/

def agreeableCoordinator (quorum : QuorumSpec) : CoordinatorNode where
  config := ⟨toyVerifier 7, ⟨0⟩, quorum, 3600⟩
  generate sessionId _ epoch _ :=
    .ok ⟨.fromBytes (.replicate 16 0), sessionId, epoch, .zero, [], .zero⟩
  execute sessionCtx value query response :=
    .ok (.build sessionCtx.sessionId value query response, ⟨.ofString "toy", .ofList [], .zero⟩)

/-- **Two requests, one session** nonce and digest. -/
theorem exists_sameSession :
    ∃ p w', ((agreeableCoordinator ⟨toyMembers, 2⟩).prepareSession toyDraws
        { toyRequest with clientNonce := .fromBytes (.replicate 32 0) } (.ofList [1])).run
          toyWorld = .ok p w' ∧
      ((agreeableCoordinator ⟨toyMembers, 2⟩).prepareSession toyDraws
        { toyRequest with clientNonce := .fromBytes (.replicate 32 1) } (.ofList [1])).run
          toyWorld = .ok p w' := by
  have hnew : stateOf toyWorld.store toyDraws.sessionId = none := rfl
  obtain ⟨s', hrun, -⟩ := CoordinatorNode.run_prepareSession_of_ok
    (c := agreeableCoordinator ⟨toyMembers, 2⟩) hnew rfl
  exact ⟨_, _, hrun, hrun⟩

end TlsAttestation
