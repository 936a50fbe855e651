import TlsAttestation.Node.Failures

/-!
# Nodes behind transports

A coordinator calls the nodes of its own process, or is given an `InProcessTransport` for each; the
source has a function for each way. The runs agree up to the texts of failures (`AgreeUpToReasons`),
on every store that does not look at these texts (`ForgetsReasons`).
-/

namespace TlsAttestation

open Effect Fallible Frost SessionStore

/-! ### Stores up to the texts of failures -/

def Session.withoutReason (session : Session) : Session :=
  { session with
    state := match session.state with
      | .failed _ => .failed ""
      | state => state }

section

variable {S : Type} [SessionStore S]

/-- Two stores that answer alike, up to the reasons of failures. -/
structure SameContents (s s' : S) : Prop where
  get : ∀ id, (SessionStore.get s id).map Session.withoutReason =
    (SessionStore.get s' id).map Session.withoutReason
  hasApproved : ∀ id v, SessionStore.hasApproved s id v = SessionStore.hasApproved s' id v
  contains : ∀ id, SessionStore.contains s id = SessionStore.contains s' id

theorem SameContents.refl (s : S) : SameContents s s :=
  ⟨fun _ => rfl, fun _ _ => rfl, fun _ => rfl⟩

variable (S) in
/-- The store does not look at the reason of a failure. -/
class ForgetsReasons : Prop where
  updateState_failed : ∀ (id : SessionId) (r r' : String) (s : S),
    (resultOf ((updateState id (.failed r)).run s)).1 =
        (resultOf ((updateState id (.failed r')).run s)).1 ∧
      SameContents (resultOf ((updateState id (.failed r)).run s)).2
        (resultOf ((updateState id (.failed r')).run s)).2

end

/-- **The store in memory** copies the text. -/
instance : ForgetsReasons InMemorySessionStore where
  updateState_failed id r r' s := by
    simp only [updateState, InMemorySessionStore.updateState, EStateM.run]
    split
    · exact ⟨rfl, .refl s⟩
    · split
      · exact ⟨rfl, .refl s⟩
      · refine ⟨rfl, fun i => ?_, fun _ _ => rfl, fun i => ?_⟩
        · simp only [resultOf, SessionStore.get, InMemorySessionStore.get]
          by_cases hi : i = id
          · rw [hi, Finmap.lookup_insert, Finmap.lookup_insert]
            rfl
          · rw [Finmap.lookup_insert_of_ne _ hi, Finmap.lookup_insert_of_ne _ hi]
        · simp only [resultOf, SessionStore.contains, InMemorySessionStore.contains,
            Finmap.mem_insert]

/-! ### Runs up to the texts of failures -/

section

variable {S F G N : Type} [SessionStore S] [Zero F] {α β : Type} {w : World S F G N}

/-- **Two runs agree** up to the texts of failures. -/
structure AgreeUpToReasons (r r' : EStateM.Result NodeError (World S F G N) α) : Prop where
  result : (resultOf r).1 = (resultOf r').1
  outside : (resultOf r).2.outside = (resultOf r').2.outside
  store : SameContents (resultOf r).2.store (resultOf r').2.store

theorem AgreeUpToReasons.refl (r : EStateM.Result NodeError (World S F G N) α) :
    AgreeUpToReasons r r := ⟨rfl, rfl, .refl _⟩

theorem AgreeUpToReasons.bind {x : NodeM S F G N α} {f g : α → NodeM S F G N β}
    (h : ∀ a t, AgreeUpToReasons ((f a).run t) ((g a).run t)) :
    AgreeUpToReasons ((x >>= f).run w) ((x >>= g).run w) := by
  rcases hx : x.run w with ⟨a, t⟩ | ⟨e, t⟩
  · rw [run_bind_of_ok f hx, run_bind_of_ok g hx]
    exact h a t
  · rw [run_bind_of_error f hx, run_bind_of_error g hx]
    exact .refl _

theorem agreeUpToReasons_failSession [ForgetsReasons S] (id : SessionId) (r r' : String)
    (e : NodeError) :
    AgreeUpToReasons ((failSession id r e : NodeM S F G N α).run w)
      ((failSession id r' e).run w) := by
  obtain ⟨hres, hstore⟩ := ForgetsReasons.updateState_failed id r r' w.store
  unfold failSession
  rcases hr : (updateState id (.failed r)).run w.store with ⟨u, s⟩ | ⟨e₁, s⟩ <;>
    rcases hr' : (updateState id (.failed r')).run w.store with ⟨u', s'⟩ | ⟨e₂, s'⟩ <;>
    rw [hr, hr'] at hres hstore
  · rw [run_bind_of_ok _ (run_onStore_ok.2 ⟨s, hr, rfl⟩),
      run_bind_of_ok _ (run_onStore_ok.2 ⟨s', hr', rfl⟩)]
    exact ⟨rfl, rfl, hstore⟩
  · cases hres
  · cases hres
  · obtain rfl := Except.error.inj hres
    rw [run_bind_of_error _ (run_onStore_error.2 ⟨_, s, hr, rfl, rfl⟩),
      run_bind_of_error _ (run_onStore_error.2 ⟨_, s', hr', rfl, rfl⟩)]
    exact ⟨rfl, rfl, hstore⟩

end

namespace CoordinatorNode

variable {S F G N : Type} [SessionStore S] [Field F] [AddCommGroup G] [Module F G]
  [DecidableEq F] [DecidableEq G] (C : NodeCrates F G) (c : CoordinatorNode)

/-! ### The nodes themselves -/

def callNode {α : Type} (p : PreparedSession) (round : String) (verifierId : VerifierId) (i : ℕ)
    (x : Ambient → EStateM NodeError (FrostAuxiliaryNode F G) α) :
    NodeM S F G N α :=
  orElse
    (zoom (fun w => w.outside.host) (fun w h => { w with outside := { w.outside with host := h } })
      id (Host.call i x))
    fun e =>
      failSession p.sessionId s!"{round} failed for verifier {verifierId.display}: {e.display}" e

/-- Both rounds with the nodes themselves. -/
def roundsOnNodes (draws : Draws) (request : AttestationRequest) (response : RVec UInt8)
    (auxNodes : List ℕ) (groupKey : FrostGroupKey F G) (registryEpoch : RegistryEpoch) :
    NodeM S F G N (FrostAttestationEnvelope × List VerifierId) := do
  let world ← get
  let verifierId := fun i => (world.outside.host.nodes i).verifierId
  let p ← c.prepareSession draws request response
  let session ← advance p.sessionId p.session .collecting
  let threshold := c.config.quorum.threshold.toNat
  if auxNodes.length < threshold then
    failSession p.sessionId s!"insufficient aux nodes: need {threshold}, got {auxNodes.length}"
      (.quorumNotMet auxNodes.length threshold)
  else
    let signerSet := auxNodes.map verifierId
    let round1Responses ← forEach (fun i => callNode p "round-1" (verifierId i) i fun ambient =>
      FrostAuxiliaryNode.frostRound1 C ambient (c.round1Request p signerSet registryEpoch) p.now)
      auxNodes
    let (signingPackage, signingPackageBytes) ← lift id
      (assembleSigningPackageFromResponses C round1Responses p.signedDigest groupKey)
    let round2Req : FrostRound2Request :=
      ⟨p.sessionId, c.config.coordinatorId, signingPackageBytes, signerSet⟩
    let round2Responses ← forEach (fun i => callNode p "round-2" (verifierId i) i fun _ =>
      FrostAuxiliaryNode.frostRound2 C round2Req) auxNodes
    let shareEntries := round2Responses.map fun r => (r.verifierId, r.signatureShareBytes)
    let frostApproval ← lift .crypto (aggregateSignatureShares C.toFrostCrates signingPackage
      shareEntries groupKey p.signedDigest)
    let envelope ← finalize p session signerSet frostApproval
    return (envelope, shareEntries.map Prod.fst)

variable {C c} {draws : Draws} {request : AttestationRequest} {response : RVec UInt8}
  {auxNodes : List ℕ} {groupKey : FrostGroupKey F G} {w : World S F G N}

theorem forEach_exchange_inProcess {α : Type} {p : PreparedSession} {round : String}
    {host : Host F G} {x : FrostNodeTransport F G N → EStateM NodeError (Outside F G N) α}
    {y : Ambient → EStateM NodeError (FrostAuxiliaryNode F G) α}
    (h : ∀ i, x (inProcess C host i) =
      zoom Outside.host (fun o h => { o with host := h }) id (Host.call i y)) :
    (forEach (fun peer => exchange p round peer (x peer)) (auxNodes.map (inProcess C host)) :
      NodeM S F G N (List α)) =
      forEach (fun i => callNode p round (host.nodes i).verifierId i y) auxNodes := by
  rw [forEach_map]
  refine congrArg (forEach · auxNodes) (funext fun i => ?_)
  rw [h i, exchange, callNode, onOutside, zoom_zoom]
  rfl

/-- Both forms of the direct path are one. -/
theorem attestFrostDistributedInner_eq {registryEpoch : RegistryEpoch} :
    (c.attestFrostDistributedInner C draws request response auxNodes groupKey registryEpoch :
      NodeM S F G N _) =
      c.roundsOnNodes C draws request response auxNodes groupKey registryEpoch := by
  have hround1 : ∀ (p : PreparedSession) (host : Host F G) (req : FrostRound1Request),
      (forEach (fun peer => exchange p "round-1" peer (peer.frostRound1 req p.now))
        (auxNodes.map (inProcess C host)) : NodeM S F G N _) = _ :=
    fun _ _ _ => forEach_exchange_inProcess fun _ => rfl
  have hround2 : ∀ (p : PreparedSession) (host : Host F G) (req : FrostRound2Request),
      (forEach (fun peer => exchange p "round-2" peer (peer.frostRound2 req))
        (auxNodes.map (inProcess C host)) : NodeM S F G N _) = _ :=
    fun _ _ _ => forEach_exchange_inProcess fun _ => rfl
  unfold attestFrostDistributedInner roundsOnNodes distributedRounds
  simp only [hround1, hround2, List.length_map, List.map_map]
  rfl

/-- **Transports are transparent**: over `InProcessTransport` and on the nodes, an attestation is
the same, but for the text of a failure. -/
theorem overTransport_agrees_onNodes [ForgetsReasons S] :
    AgreeUpToReasons ((c.attestFrostDistributedOverTransport C draws request response
        (auxNodes.map (inProcess C w.outside.host)) groupKey).run w)
      ((c.roundsOnNodes C draws request response auxNodes groupKey .genesis).run w) := by
  rw [← attestFrostDistributedInner_eq]
  change AgreeUpToReasons
    ((c.distributedRounds C draws request response "transports" _ groupKey .genesis).run w)
    ((c.distributedRounds C draws request response "aux nodes" _ groupKey .genesis).run w)
  -- The word for the peers is only in the text of a failure.
  rw [distributedRounds_eq, distributedRounds_eq]
  refine .bind fun p w₁ => .bind fun session w₂ => ?_
  split
  · exact agreeUpToReasons_failSession _ _ _ _
  · exact .refl _

theorem overTransport_agrees_onNodes_single :
    AgreeUpToReasons
      (((toyCoordinator toyMembers).attestFrostDistributedOverTransport toyNodeCrates toyDraws
        toyRequest (.ofList [1]) ([0].map (inProcess toyNodeCrates toyWorld.outside.host))
        FrostDvRF.toyGroupKey).run toyWorld)
      (((toyCoordinator toyMembers).roundsOnNodes toyNodeCrates toyDraws toyRequest
        (.ofList [1]) [0] FrostDvRF.toyGroupKey .genesis).run toyWorld) :=
  overTransport_agrees_onNodes

end CoordinatorNode

end TlsAttestation
