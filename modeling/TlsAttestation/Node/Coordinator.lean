import TlsAttestation.Attestation.Envelope
import TlsAttestation.Crypto.Randomness
import TlsAttestation.Node.FrostAux

/-!
# The coordinator

`tls_attestation_node::coordinator`, the paths that end in a FROST signature; they differ in who
signs, key shares of the process, auxiliary nodes, or whoever answers on a transport. A session that
fails keeps what was stored, so the programs are in `EStateM`. Next to the envelope, each path
returns the verifiers under whose identity a share came in, which the source does not.
-/

namespace TlsAttestation

open ByteEncoding Effect Fallible Frost

/-! ### Data -/

structure AttestationRequest where
  proverId : ProverId
  clientNonce : Nonce
  statementTag : RString
  query : RVec UInt8
  requestedTtlSecs : UInt64
deriving DecidableEq

structure CoordinatorConfig where
  coordinatorId : VerifierId
  epoch : Epoch
  quorum : QuorumSpec
  defaultTtlSecs : UInt64
deriving DecidableEq

structure CoordinatorNode where
  config : CoordinatorConfig
  /-- `RandomnessEngine::generate`. -/
  generate : SessionId → Nonce → Epoch → List VerifierId → Except CryptoError RandomnessOutput
  /-- `AttestationEngine::execute`. -/
  execute : SessionContext → DigestBytes → Bytes → Bytes →
    Except AttestationError (TranscriptCommitments × ExportableEvidence)

/-- What a call reads from its surroundings: the time and random values. -/
structure Draws where
  now : UnixTimestamp
  sessionId : SessionId
  nonce : Nonce
  random : ℕ → Bytes32 × Bytes32

/-- A session whose digest can be signed. -/
structure PreparedSession where
  sessionId : SessionId
  sessionCtx : SessionContext
  session : Session
  (now expiresAt : UnixTimestamp)
  transcriptCommitments : TranscriptCommitments
  statement : StatementPayload
  randomnessBinding : RandomnessBinding
  coordinatorEvidence : CoordinatorEvidence
  (envelopeDigest signedDigest : DigestBytes)
deriving DecidableEq

structure FrostAttestationEnvelope where
  session : SessionContext
  randomness : RandomnessBinding
  transcript : TranscriptCommitments
  statement : StatementPayload
  coordinatorEvidence : CoordinatorEvidence
  frostApproval : FrostThresholdApproval
  envelopeDigest : DigestBytes
deriving DecidableEq

def PreparedSession.envelope (p : PreparedSession) (frostApproval : FrostThresholdApproval) :
    FrostAttestationEnvelope :=
  ⟨p.sessionCtx, p.randomnessBinding, p.transcriptCommitments, p.statement, p.coordinatorEvidence,
    frostApproval, p.envelopeDigest⟩

/-- The nodes of this process, and the network. -/
structure Outside (F G N : Type) [Zero F] where
  host : Host F G
  network : N

structure FrostNodeTransport (F G N : Type) [Zero F] where
  verifierId : VerifierId
  frostRound1 : FrostRound1Request → UnixTimestamp →
    EStateM NodeError (Outside F G N) FrostRound1Response
  frostRound2 : FrostRound2Request → EStateM NodeError (Outside F G N) FrostRound2Response

structure World (S F G N : Type) [Zero F] where
  store : S
  outside : Outside F G N

/-- A call of the coordinator on its store and on whatever is outside. -/
abbrev NodeM (S F G N : Type) [Zero F] := EStateM NodeError (World S F G N)

/-! ### Preparing a session -/

section

variable {S F G N : Type} [SessionStore S]

section

variable [Zero F] {α : Type}

def onStore (x : EStateM StorageError S α) : NodeM S F G N α :=
  zoom World.store (fun w s => { w with store := s }) .storage x

def onOutside (x : EStateM NodeError (Outside F G N) α) : NodeM S F G N α :=
  zoom World.outside (fun w o => { w with outside := o }) id x

/-- A step of the session, here and in the store. -/
def advance (sessionId : SessionId) (session : Session) (state : SessionState) :
    NodeM S F G N Session := do
  let session ← lift .attestation (session.transition state)
  onStore (SessionStore.updateState sessionId state)
  return session

/-- The store learns the reason, the caller the error. -/
def failSession (sessionId : SessionId) (reason : String) (e : NodeError) :
    NodeM S F G N α := do
  onStore (SessionStore.updateState sessionId (.failed reason))
  throw e

end

namespace CoordinatorNode

variable (c : CoordinatorNode)

/-- From the session's creation to the digest that is to be signed. The nonce is drawn here: the
client's is not used. -/
def prepareSession [Zero F] (draws : Draws) (request : AttestationRequest)
    (response : RVec UInt8) : NodeM S F G N PreparedSession := do
  let expiresAt : UnixTimestamp :=
    ⟨draws.now.secs + min request.requestedTtlSecs c.config.defaultTtlSecs⟩
  let sessionId := draws.sessionId
  let sessionCtx := SessionContext.new sessionId request.proverId c.config.coordinatorId
    c.config.quorum c.config.epoch draws.now expiresAt draws.nonce
  let session := Session.new sessionCtx
  onStore (SessionStore.insert session)
  let session ← advance sessionId session .active
  let randomnessOutput ← lift .crypto
    (c.generate sessionId draws.nonce c.config.epoch c.config.quorum.verifiers.1)
  let session ← advance sessionId session .attesting
  let (transcriptCommitments, evidence) ← lift .attestation
    (c.execute sessionCtx randomnessOutput.value request.query.1 response.1)
  let package := AttestationPackage.build sessionCtx randomnessOutput.value transcriptCommitments
    evidence
  let statement := StatementPayload.new response request.statementTag
    transcriptCommitments.sessionTranscriptDigest
  let randomnessBinding : RandomnessBinding :=
    ⟨randomnessOutput.id, randomnessOutput.value, randomnessOutput.epoch,
      randomnessOutput.sessionBinding⟩
  let coordinatorEvidence : CoordinatorEvidence :=
    ⟨evidence.engineTag, evidence.evidenceDigest, package.packageDigest⟩
  let envelopeDigest := AttestationEnvelope.computeDigest sessionCtx randomnessBinding
    transcriptCommitments statement coordinatorEvidence
  return {
    sessionId, sessionCtx, session, expiresAt, transcriptCommitments, statement
    randomnessBinding, coordinatorEvidence, envelopeDigest
    now := draws.now
    signedDigest := approvalSignedDigest envelopeDigest }

/-- The approvals are recorded, the session is finalized, and the envelope is complete. -/
def finalize [Zero F] (p : PreparedSession) (session : Session) (approvers : List VerifierId)
    (frostApproval : FrostThresholdApproval) :
    NodeM S F G N FrostAttestationEnvelope := do
  onStore (recordApprovals p.sessionId approvers)
  let _ ← advance p.sessionId session .finalized
  return p.envelope frostApproval

variable [Field F] [AddCommGroup G] [Module F G] [DecidableEq F] [DecidableEq G]
  (C : NodeCrates F G)

/-! ### The key shares in one process -/

variable (draws : Draws) (request : AttestationRequest) (response : RVec UInt8)

/-- All key shares in one process. A failed signing leaves the session where it is. -/
def attestFrost (frostSigners : List (FrostParticipant F G)) (groupKey : FrostGroupKey F G) :
    NodeM S F G N (FrostAttestationEnvelope × List VerifierId) := do
  let p ← c.prepareSession draws request response
  let session ← advance p.sessionId p.session .collecting
  let threshold := c.config.quorum.threshold.toNat
  if frostSigners.length < threshold then
    failSession p.sessionId
      s!"insufficient FROST signers: need {threshold}, got {frostSigners.length}"
      (.quorumNotMet frostSigners.length threshold)
  else
    let frostApproval ← lift .crypto (frostCollectApproval C.toFrostCrates frostSigners
      p.signedDigest groupKey c.config.quorum draws.random)
    let signerIds := frostSigners.map FrostParticipant.verifierId
    let envelope ← finalize p session signerIds frostApproval
    return (envelope, signerIds)

/-! ### The key shares elsewhere -/

def assembleSigningPackageFromResponses (responses : List FrostRound1Response)
    (signedDigest : DigestBytes) (groupKey : FrostGroupKey F G) :
    Except NodeError (SigningPackage F G × Bytes) :=
  (buildSigningPackage C.toFrostCrates
    (responses.map fun r => (r.verifierId, r.commitmentBytes)) signedDigest groupKey).mapError
      .crypto

def exchange {α : Type} (p : PreparedSession) (round : String) (peer : FrostNodeTransport F G N)
    (x : EStateM NodeError (Outside F G N) α) : NodeM S F G N α :=
  orElse (onOutside x) fun e =>
    failSession p.sessionId s!"{round} failed for verifier {peer.verifierId.display}: {e.display}" e

/-- **Both rounds with peers**, which errors call `kind`. -/
def distributedRounds (kind : String) (peers : List (FrostNodeTransport F G N))
    (groupKey : FrostGroupKey F G) (registryEpoch : RegistryEpoch) :
    NodeM S F G N (FrostAttestationEnvelope × List VerifierId) := do
  let p ← c.prepareSession draws request response
  let session ← advance p.sessionId p.session .collecting
  let threshold := c.config.quorum.threshold.toNat
  if peers.length < threshold then
    failSession p.sessionId s!"insufficient {kind}: need {threshold}, got {peers.length}"
      (.quorumNotMet peers.length threshold)
  else
    let signerSet := peers.map FrostNodeTransport.verifierId
    let round1Req : FrostRound1Request :=
      { sessionId := p.sessionId
        coordinatorId := c.config.coordinatorId
        signedDigest := p.signedDigest
        envelopeDigest := p.envelopeDigest
        signerSet
        roundExpiresAt := p.expiresAt
        registryEpoch
        hspProofBytes := []
        hspPvkBytes := []
        dctlsEvidenceBytes := []
        randValueBytes := []
        serverCertHashBytes := [] }
    let round1Responses ← forEach
      (fun peer => exchange p "round-1" peer (peer.frostRound1 round1Req p.now)) peers
    let (signingPackage, signingPackageBytes) ← lift id
      (assembleSigningPackageFromResponses C round1Responses p.signedDigest groupKey)
    let round2Req : FrostRound2Request :=
      ⟨p.sessionId, c.config.coordinatorId, signingPackageBytes, signerSet⟩
    let round2Responses ← forEach
      (fun peer => exchange p "round-2" peer (peer.frostRound2 round2Req)) peers
    let shareEntries := round2Responses.map fun r => (r.verifierId, r.signatureShareBytes)
    let frostApproval ← lift .crypto (aggregateSignatureShares C.toFrostCrates signingPackage
      shareEntries groupKey p.signedDigest)
    let envelope ← finalize p session signerSet frostApproval
    return (envelope, shareEntries.map Prod.fst)

/-- Both rounds with peers behind transports, in the first epoch. -/
def attestFrostDistributedOverTransport (transports : List (FrostNodeTransport F G N))
    (groupKey : FrostGroupKey F G) :
    NodeM S F G N (FrostAttestationEnvelope × List VerifierId) :=
  c.distributedRounds C draws request response "transports" transports groupKey .genesis

def inProcess (host : Host F G) (i : ℕ) : FrostNodeTransport F G N where
  verifierId := (host.nodes i).verifierId
  frostRound1 request now := zoom Outside.host (fun o h => { o with host := h }) id
    (Host.call i fun ambient => FrostAuxiliaryNode.frostRound1 C ambient request now)
  frostRound2 request := zoom Outside.host (fun o h => { o with host := h }) id
    (Host.call i fun _ => FrostAuxiliaryNode.frostRound2 C request)

/-- **Attest with nodes** of the process, by their places. -/
def attestFrostDistributedInner (auxNodes : List ℕ) (groupKey : FrostGroupKey F G)
    (registryEpoch : RegistryEpoch) :
    NodeM S F G N (FrostAttestationEnvelope × List VerifierId) := do
  let world ← get
  c.distributedRounds C draws request response "aux nodes"
    (auxNodes.map (inProcess C world.outside.host)) groupKey registryEpoch

/-- Both rounds with nodes of the process, in the first epoch. -/
def attestFrostDistributed (auxNodes : List ℕ) (groupKey : FrostGroupKey F G) :
    NodeM S F G N (FrostAttestationEnvelope × List VerifierId) :=
  c.attestFrostDistributedInner C draws request response auxNodes groupKey .genesis

end CoordinatorNode

end

/-! ### What a success means -/

section

open SessionStore (hasApproved)

variable {S F G N : Type} [SessionStore S] [LawfulSessionStore S]

section

variable [Zero F] {w w' : World S F G N}

variable {α : Type} {session : Session} {p : PreparedSession} {a : α}

omit [SessionStore S] [LawfulSessionStore S] in
theorem run_onStore_ok {x : EStateM StorageError S α} :
    (onStore x : NodeM S F G N α).run w = .ok a w' ↔
      ∃ s, x.run w.store = .ok a s ∧ { w with store := s } = w' :=
  run_zoom_ok

omit [SessionStore S] [LawfulSessionStore S] in
theorem run_onOutside_ok {x : EStateM NodeError (Outside F G N) α} :
    (onOutside x : NodeM S F G N α).run w = .ok a w' ↔
      ∃ o, x.run w.outside = .ok a o ∧ { w with outside := o } = w' :=
  run_zoom_ok

omit [LawfulSessionStore S] in
theorem not_run_failSession_ok {sessionId : SessionId} {reason : String} {e : NodeError} :
    ¬ (failSession sessionId reason e : NodeM S F G N α).run w = .ok a w' := by
  intro h
  obtain ⟨_, _, _, hthrow⟩ := run_bind_ok.1 h
  exact not_run_throw_ok hthrow

theorem run_advance_ok {sessionId : SessionId} {session' : Session} {state : SessionState}
    (h : (advance sessionId session state).run w = .ok session' w') :
    (∀ id v, hasApproved w'.store id v = hasApproved w.store id v) ∧ w'.outside = w.outside := by
  simp only [advance, run_bind_ok, run_lift_ok, run_onStore_ok, run_pure_ok] at h
  obtain ⟨_, _, ⟨-, rfl⟩, _, _, ⟨s, hs, rfl⟩, -, rfl⟩ := h
  exact ⟨LawfulSessionStore.hasApproved_updateState hs, rfl⟩

structure PreparedSession.Ready (p : PreparedSession) (c : CoordinatorNode) (store : S) : Prop where
  sessionId : p.sessionCtx.sessionId = p.sessionId
  quorum : p.sessionCtx.quorum = c.config.quorum
  envelopeDigest : p.envelopeDigest = AttestationEnvelope.computeDigest p.sessionCtx
    p.randomnessBinding p.transcriptCommitments p.statement p.coordinatorEvidence
  signedDigest : p.signedDigest = approvalSignedDigest p.envelopeDigest
  hasApproved : ∀ v, hasApproved store p.sessionId v = false

/-- **A prepared session** has the configured quorum and no approvals. -/
theorem ready_prepareSession {c : CoordinatorNode} {draws : Draws} {request : AttestationRequest}
    {response : RVec UInt8} (h : (c.prepareSession draws request response).run w = .ok p w') :
    p.Ready c w'.store ∧ w'.outside = w.outside := by
  simp only [CoordinatorNode.prepareSession, run_bind_ok, run_onStore_ok, run_lift_ok,
    run_pure_ok] at h
  obtain ⟨_, _, ⟨s₁, hins, rfl⟩, _, w₂, hact, _, _, ⟨-, rfl⟩, _, w₄, hatt, _, _,
    ⟨-, rfl⟩, rfl, rfl⟩ := h
  obtain ⟨happ₂, hout₂⟩ := run_advance_ok hact
  obtain ⟨happ₄, hout₄⟩ := run_advance_ok hatt
  refine ⟨⟨rfl, rfl, rfl, rfl, fun v => ?_⟩, hout₄.trans hout₂⟩
  rw [happ₄, happ₂, LawfulSessionStore.hasApproved_insert hins]
  exact if_pos rfl

theorem PreparedSession.Ready.advance {c : CoordinatorNode} {session' : Session}
    {state : SessionState} {id : SessionId} (hready : p.Ready c w.store)
    (h : (TlsAttestation.advance id session state).run w = .ok session' w') :
    p.Ready c w'.store := by
  obtain ⟨hsame, -⟩ := run_advance_ok h
  exact ⟨hready.sessionId, hready.quorum, hready.envelopeDigest, hready.signedDigest,
    fun v => (hsame _ v).trans (hready.hasApproved v)⟩

/-- **A finalized session** has the given approvals, too. -/
theorem run_finalize_ok {approvers : List VerifierId} {frostApproval : FrostThresholdApproval}
    {env : FrostAttestationEnvelope}
    (h : (CoordinatorNode.finalize p session approvers frostApproval).run w = .ok env w') :
    env = p.envelope frostApproval ∧ approvers.Nodup ∧
      ∀ v, hasApproved w'.store p.sessionId v = true ↔
        hasApproved w.store p.sessionId v = true ∨ v ∈ approvers := by
  simp only [CoordinatorNode.finalize, run_bind_ok, run_onStore_ok, run_pure_ok] at h
  obtain ⟨_, _, ⟨s, hrecord, rfl⟩, _, w₂, hfinal, rfl, rfl⟩ := h
  obtain ⟨hnodup, -, hrec⟩ := hasApproved_recordApprovals hrecord
  obtain ⟨happ, -⟩ := run_advance_ok hfinal
  refine ⟨rfl, hnodup, fun v => ?_⟩
  rw [happ]
  exact hrec v

end

omit [LawfulSessionStore S] in
theorem run_exchange_ok [Field F] {w w' : World S F G N} {α : Type} {p : PreparedSession}
    {round : String}
    {peer : FrostNodeTransport F G N} {x : EStateM NodeError (Outside F G N) α} {a : α} :
    (CoordinatorNode.exchange p round peer x : NodeM S F G N α).run w = .ok a w' ↔
      ∃ o, x.run w.outside = .ok a o ∧ { w with outside := o } = w' :=
  (run_orElse_ok fun _ _ => not_run_failSession_ok).trans run_onOutside_ok

end

end TlsAttestation
