import TlsAttestation.Attestation.Dctls
import TlsAttestation.Crypto.FrostAdapter
import TlsAttestation.Crypto.ParticipantRegistry
import TlsAttestation.Storage.Store

/-!
# Auxiliary nodes

`tls_attestation_node::frost_aux`: a node with one key share answers the two rounds of a signature.
It keeps the nonces of a session; round two takes them out, whatever happens afterwards. What a call
reads of the system is `Ambient`; a `Host` is a process with several nodes.
-/

namespace TlsAttestation

open ByteEncoding Effect Fallible Frost Function

/-! ### Errors of the crate -/

inductive NodeError where
  | attestation (e : AttestationError)
  | crypto (e : CryptoError)
  | network (reason : String)
  | storage (e : StorageError)
  | quorumNotMet (received required : ℕ)
  | noResponse (verifier : String)
  | sessionNotFound (session : String)
  | frostProtocol (reason : String)
  | dkgProtocol (reason : String)
  | dkgKeyAnnouncement (reason : String)
  | signingAdmission (reason : String)
deriving DecidableEq

def NodeError.display : NodeError → String
  | .attestation e => s!"attestation error: {e.display}"
  | .crypto e => s!"crypto error: {e.display}"
  | .network reason => s!"network error: {reason}"
  | .storage e => s!"storage error: {e.display}"
  | .quorumNotMet received required =>
    s!"quorum not met: received {received} of {required} approvals"
  | .noResponse verifier => s!"no response from verifier: {verifier}"
  | .sessionNotFound session => s!"session not found: {session}"
  | .frostProtocol reason => s!"FROST protocol violation: {reason}"
  | .dkgProtocol reason => s!"DKG protocol error: {reason}"
  | .dkgKeyAnnouncement reason => s!"DKG key-announcement error: {reason}"
  | .signingAdmission reason => s!"signing admission error: {reason}"

/-! ### Messages -/

structure FrostRound1Request where
  sessionId : SessionId
  coordinatorId : VerifierId
  (signedDigest envelopeDigest : DigestBytes)
  signerSet : List VerifierId
  roundExpiresAt : UnixTimestamp
  registryEpoch : RegistryEpoch
  (hspProofBytes hspPvkBytes dctlsEvidenceBytes randValueBytes serverCertHashBytes : Bytes)
deriving DecidableEq

structure FrostRound1Response where
  sessionId : SessionId
  verifierId : VerifierId
  commitmentBytes : Bytes
deriving DecidableEq

structure FrostRound2Request where
  sessionId : SessionId
  coordinatorId : VerifierId
  signingPackageBytes : Bytes
  signerSet : List VerifierId
deriving DecidableEq

structure FrostRound2Response where
  sessionId : SessionId
  verifierId : VerifierId
  signatureShareBytes : Bytes
deriving DecidableEq

/-! The same for the binding of a handshake. -/

structure HandshakeBindingRound1Request where
  sessionId : SessionId
  coordinatorId : VerifierId
  bindingInput : DigestBytes
  signerSet : List VerifierId
  roundExpiresAt : UnixTimestamp
  registryEpoch : RegistryEpoch
deriving DecidableEq

structure HandshakeBindingRound1Response where
  sessionId : SessionId
  verifierId : VerifierId
  commitmentBytes : Bytes
deriving DecidableEq

structure HandshakeBindingRound2Request where
  sessionId : SessionId
  coordinatorId : VerifierId
  signingPackageBytes : Bytes
  signerSet : List VerifierId
deriving DecidableEq

structure HandshakeBindingRound2Response where
  sessionId : SessionId
  verifierId : VerifierId
  signatureShareBytes : Bytes
deriving DecidableEq

/-! ### Nodes -/

structure NodeCrates (F G : Type) [Field F] [AddCommGroup G] [Module F G] extends
    FrostCrates F G where
  parsePackage : Bytes → Except String (SigningPackage F G)
  /-- The first check of a handshake proof that fails, as a text. -/
  verifyHspZk : SessionId → Bytes → Bytes → Except String Unit
  parseEvidence : Bytes → Except String DctlsEvidence

/-- What a node keeps between the two rounds. -/
structure PendingRound (F : Type) where
  nonces : SigningNonces F
  signerSet : List VerifierId
  signedDigest : DigestBytes
  registryEpoch : RegistryEpoch
  insertedAt : ℕ
deriving DecidableEq

/-- A key share, and one cache of pending rounds for each protocol. -/
structure FrostAuxiliaryNode (F G : Type) [Zero F] where
  participant : FrostParticipant F G
  registry : Option ParticipantRegistry
  (pending hbPending : SessionId → Option (PendingRound F))

/-- What a call reads: random bytes, the time of day, and the monotonic clock at the eviction and at
the insertion. -/
structure Ambient where
  random : Bytes32 × Bytes32
  systemSecs : UInt64
  evictedAt : ℕ
  insertedAt : ℕ

def pendingTtl : ℕ := 300 * 10 ^ 9

def evictExpired {F : Type} (now : ℕ) (cache : SessionId → Option (PendingRound F)) :
    SessionId → Option (PendingRound F) :=
  fun id => (cache id).filter fun p => now - p.insertedAt < pendingTtl

def digestFromSlice (bytes : Bytes) : Option DigestBytes :=
  if h : bytes.length = 32 then some (.fromBytes ⟨bytes.toArray, size_toArray_of_length h⟩)
  else none

namespace FrostAuxiliaryNode

variable {F G : Type}

def new [Zero F] (participant : FrostParticipant F G) : FrostAuxiliaryNode F G :=
  ⟨participant, none, fun _ => none, fun _ => none⟩

def withRegistry [Zero F] (participant : FrostParticipant F G) (registry : ParticipantRegistry) :
    FrostAuxiliaryNode F G :=
  ⟨participant, some registry, fun _ => none, fun _ => none⟩

def verifierId [Zero F] (n : FrostAuxiliaryNode F G) : VerifierId := n.participant.verifierId

variable (registry : Option ParticipantRegistry)

/-- The registry's epoch and active signers; a request of the first epoch is not checked. -/
def checkAdmission (registryEpoch : RegistryEpoch)
    (signerSet : List VerifierId) (epochMismatch : RegistryEpoch → String)
    (denied : VerifierId → RegistryError → String) : Except NodeError Unit :=
  match registry with
  | none => pure ()
  | some registry => do
    ensure (registryEpoch = .genesis ∨ registryEpoch = registry.epoch)
      (.signingAdmission (epochMismatch registry.epoch))
    if registryEpoch ≠ .genesis then
      signerSet.forM fun vid => do
        let _ ← (registry.getActive vid).mapError fun e => .signingAdmission (denied vid e)

def checkRegistry (req : FrostRound1Request) :
    Except NodeError Unit :=
  let session := req.sessionId.display
  checkAdmission registry req.registryEpoch req.signerSet
    (fun epoch => s!"registry epoch mismatch for session {session}: " ++
      s!"request carries epoch {req.registryEpoch.debug}, registry is at epoch {epoch.debug}")
    (fun vid e => s!"signing admission denied for session {session}: " ++
      s!"signer {vid.display} rejected by registry: {e.display}")

def checkHandshakeBindingRegistry (req : HandshakeBindingRound1Request) : Except NodeError Unit :=
  let session := req.sessionId.display
  checkAdmission registry req.registryEpoch req.signerSet
    (fun epoch => s!"registry epoch mismatch in handshake-binding for session {session}:" ++
      s!"                      request={req.registryEpoch.debug}, registry={epoch.debug}")
    (fun vid e => s!"handshake-binding admission denied for session {session}:" ++
      s!"                              signer {vid.display} rejected: {e.display}")

variable [Field F] [AddCommGroup G] [Module F G] (C : NodeCrates F G) (systemSecs : UInt64)

/-- The evidence of a request. The query record is not checked. -/
def checkEvidence (req : FrostRound1Request) : Except NodeError Unit := do
  let session := req.sessionId.display
  if req.hspProofBytes ≠ [] ∧ req.hspPvkBytes ≠ [] then
    (C.verifyHspZk req.sessionId req.hspProofBytes req.hspPvkBytes).mapError .frostProtocol
  if req.dctlsEvidenceBytes ≠ [] then
    let evidence ← (C.parseEvidence req.dctlsEvidenceBytes).mapError fun e =>
      .frostProtocol s!"DctlsEvidence deserialization failed for session {session}: {e}"
    let randValue ← okOr (digestFromSlice req.randValueBytes)
      (.frostProtocol s!"rand_value_bytes must be 32 bytes for session {session}")
    let serverCertHash ← okOr (digestFromSlice req.serverCertHashBytes)
      (.frostProtocol s!"server_cert_hash_bytes must be 32 bytes for session {session}")
    (verifyHspProof C.debugStr systemSecs evidence.hspProof randValue
      serverCertHash).mapError fun e =>
      .frostProtocol (s!"ZKP.Verify(π_DCTLS, rand): verify_hsp_proof failed for session " ++
        s!"{session}: {e.display}")
    (verifyPgpProof evidence.pgpProof randValue evidence.hspProof).mapError fun e =>
      .frostProtocol (s!"ZKP.Verify(π_pgp, b): verify_pgp_proof failed for session " ++
        s!"{session}: {e.display}")
    let _ ← (verifyTranscriptConsistency evidence.hspProof evidence.queryRecord
      evidence.pgpProof).mapError fun e =>
        .frostProtocol (s!"ZKP.Verify(π_DCTLS): transcript consistency failed for session " ++
          s!"{session}: {e.display}")

def frostRound1Checks (node : FrostAuxiliaryNode F G)
    (req : FrostRound1Request) (now : UnixTimestamp) : Except NodeError Unit := do
  let session := req.sessionId.display
  ensure (now.secs ≤ req.roundExpiresAt.secs)
    (.frostProtocol (s!"round-1 request expired for session {session}: " ++
      s!"expires_at={req.roundExpiresAt.secs} now={now.secs}"))
  ensure (node.verifierId ∈ req.signerSet)
    (.frostProtocol (s!"verifier {node.verifierId.display} is not in the signer set " ++
      s!"for session {session}"))
  checkRegistry node.registry req
  ensure (req.signedDigest = approvalSignedDigest req.envelopeDigest)
    (.frostProtocol (s!"signed_digest mismatch in round-1 for session {session}: " ++
      "coordinator-supplied value does not equal approval_signed_digest(envelope_digest)"))
  checkEvidence C systemSecs req

variable (ambient : Ambient) (node : FrostAuxiliaryNode F G)

def frostRound1Pending (req : FrostRound1Request) : PendingRound F :=
  ⟨(node.participant.round1 C.toFrostCrates ambient.random).1, req.signerSet,
    req.signedDigest, req.registryEpoch, ambient.insertedAt⟩

variable (cache : SessionId → Option (PendingRound F))

def frostRound1Guard (req : FrostRound1Request) :
    Except NodeError Unit :=
  ensure (cache req.sessionId = none)
    (.frostProtocol (s!"round-1 already completed for session {req.sessionId.display} — " ++
      "refusing duplicate nonce generation"))

def frostRound1Response (req : FrostRound1Request) : FrostRound1Response :=
  ⟨req.sessionId, node.verifierId,
    C.commitmentsJson (node.participant.round1 C.toFrostCrates ambient.random).2.inner⟩

/-- The checks, the eviction of old rounds, and fresh nonces under the session. -/
def frostRound1 (req : FrostRound1Request) (now : UnixTimestamp) :
    EStateM NodeError (FrostAuxiliaryNode F G) FrostRound1Response := do
  let node ← get
  lift id (frostRound1Checks C ambient.systemSecs node req now)
  let cache := evictExpired ambient.evictedAt node.pending
  -- The eviction stays even when the request is refused.
  set { node with pending := cache }
  lift id (frostRound1Guard cache req)
  set { node with
    pending := update cache req.sessionId (some (frostRound1Pending C ambient node req)) }
  return frostRound1Response C ambient node req

def handshakeBindingRound1Checks
    (req : HandshakeBindingRound1Request) (now : UnixTimestamp) : Except NodeError Unit := do
  let session := req.sessionId.display
  ensure (now.secs ≤ req.roundExpiresAt.secs)
    (.frostProtocol (s!"handshake-binding round-1 expired for session {session}: " ++
      s!"expires_at={req.roundExpiresAt.secs} now={now.secs}"))
  ensure (node.verifierId ∈ req.signerSet)
    (.frostProtocol (s!"verifier {node.verifierId.display} not in signer set " ++
      s!"for handshake-binding session {session}"))
  checkHandshakeBindingRegistry node.registry req

def handshakeBindingPending (req : HandshakeBindingRound1Request) : PendingRound F :=
  ⟨(node.participant.round1 C.toFrostCrates ambient.random).1, req.signerSet,
    req.bindingInput, req.registryEpoch, ambient.insertedAt⟩

def handshakeBindingGuard (req : HandshakeBindingRound1Request) : Except NodeError Unit :=
  ensure (cache req.sessionId = none)
    (.frostProtocol ("handshake-binding round-1 already completed for session " ++
      req.sessionId.display))

def handshakeBindingRound1Response
    (req : HandshakeBindingRound1Request) : HandshakeBindingRound1Response :=
  ⟨req.sessionId, node.verifierId,
    C.commitmentsJson (node.participant.round1 C.toFrostCrates ambient.random).2.inner⟩

/-- As round one, for the digest of a handshake. Nothing is evicted. -/
def handshakeBindingRound1 (req : HandshakeBindingRound1Request) (now : UnixTimestamp) :
    EStateM NodeError (FrostAuxiliaryNode F G) HandshakeBindingRound1Response := do
  let node ← get
  lift id (handshakeBindingRound1Checks node req now)
  lift id (handshakeBindingGuard node.hbPending req)
  set { node with
    hbPending := update (evictExpired ambient.evictedAt node.hbPending) req.sessionId
      (some (handshakeBindingPending C ambient node req)) }
  return handshakeBindingRound1Response C ambient node req

variable [DecidableEq F] [DecidableEq G]

/-- Same signers, same digest; the epoch is not compared. -/
def signPending (participant : FrostParticipant F G) (pending : PendingRound F)
    (signerSet : List VerifierId) (signingPackageBytes : Bytes)
    (signerSetMismatch messageMismatch : String) : Except NodeError (FrostSignatureShare F) := do
  ensure (signerSet = pending.signerSet) (.frostProtocol signerSetMismatch)
  let package ← (C.parsePackage signingPackageBytes).mapError fun e =>
    .crypto (.aggregationFailed s!"signing package deserialization failed: {e}")
  ensure (package.message = pending.signedDigest.asBytes.toList) (.frostProtocol messageMismatch)
  (participant.round2 C.toFrostCrates package pending.nonces).mapError .crypto

def frostRound2Take (req : FrostRound2Request) :
    Except NodeError (PendingRound F) :=
  okOr (cache req.sessionId)
    (.frostProtocol (s!"nonces missing for session {req.sessionId.display} — " ++
      "round-1 may not have run, or the node restarted between rounds"))

def frostRound2Sign (pending : PendingRound F)
    (req : FrostRound2Request) : Except NodeError (FrostSignatureShare F) :=
  let session := req.sessionId.display
  signPending C node.participant pending req.signerSet req.signingPackageBytes
    (s!"signer-set mismatch for session {session}: " ++
      "round-2 signer set differs from round-1 commitment")
    (s!"signing package message mismatch for session {session}: " ++
      "the message embedded in the signing package does not match " ++
      "the signed_digest committed to in round-1")

/-- The nonces are taken out before the checks: a refused call has spent them. -/
def frostRound2 (req : FrostRound2Request) :
    EStateM NodeError (FrostAuxiliaryNode F G) FrostRound2Response := do
  let node ← get
  let pending ← lift id (frostRound2Take node.pending req)
  set { node with pending := update node.pending req.sessionId none }
  let share ← lift id (frostRound2Sign C node pending req)
  return ⟨req.sessionId, node.verifierId, C.shareJson share.inner⟩

def handshakeBindingTake
    (req : HandshakeBindingRound2Request) : Except NodeError (PendingRound F) :=
  okOr (cache req.sessionId) (.frostProtocol (s!"handshake-binding nonces missing for session " ++
      s!"{req.sessionId.display} —                      " ++
      "round-1 may not have run or node restarted"))

def handshakeBindingSign (pending : PendingRound F)
    (req : HandshakeBindingRound2Request) : Except NodeError (FrostSignatureShare F) :=
  let session := req.sessionId.display
  signPending C node.participant pending req.signerSet req.signingPackageBytes
    s!"handshake-binding signer-set mismatch for session {session}"
    (s!"handshake-binding message mismatch for session {session}:                  " ++
      "signing package does not embed the binding_input from round-1")

/-- As round two, with the cache of handshake bindings. -/
def handshakeBindingRound2 (req : HandshakeBindingRound2Request) :
    EStateM NodeError (FrostAuxiliaryNode F G) HandshakeBindingRound2Response := do
  let node ← get
  let pending ← lift id (handshakeBindingTake node.hbPending req)
  set { node with hbPending := update node.hbPending req.sessionId none }
  let share ← lift id (handshakeBindingSign C node pending req)
  return ⟨req.sessionId, node.verifierId, C.shareJson share.inner⟩

/-! What a call does, in terms of its checks. -/

variable {C}

theorem signPending_eq_ok {participant : FrostParticipant F G} {pending : PendingRound F}
    {signerSet : List VerifierId} {bytes : Bytes} {s t : String} {share : FrostSignatureShare F} :
    signPending C participant pending signerSet bytes s t = .ok share ↔
      signerSet = pending.signerSet ∧ ∃ package, C.parsePackage bytes = .ok package ∧
        package.message = pending.signedDigest.asBytes.toList ∧
        participant.round2 C.toFrostCrates package pending.nonces = .ok share := by
  simp only [signPending, do_eq_ok, exists_and_left, exists_const]

variable {ambient : Ambient} {now : UnixTimestamp} {n n' : FrostAuxiliaryNode F G}
  {req : FrostRound1Request} {resp : FrostRound1Response}

omit [DecidableEq F] [DecidableEq G] in
theorem run_frostRound1_eq_ok :
    (frostRound1 C ambient req now).run n = .ok resp n' ↔
      frostRound1Checks C ambient.systemSecs n req now = .ok () ∧
      evictExpired ambient.evictedAt n.pending req.sessionId = none ∧
      resp = frostRound1Response C ambient n req ∧
      n' = { n with pending := (update (evictExpired ambient.evictedAt n.pending)
        req.sessionId (some (frostRound1Pending C ambient n req))) } := by
  simp only [frostRound1, run_get_bind, run_lift_bind_ok, run_set_bind, run_pure_ok,
    frostRound1Guard, ensure_eq_ok, exists_const, exists_and_right, exists_eq_ok,
    eq_comm (a := resp), eq_comm (a := n')]

omit [DecidableEq F] [DecidableEq G] in
theorem run_handshakeBindingRound1_eq_ok {req : HandshakeBindingRound1Request}
    {resp : HandshakeBindingRound1Response} :
    (handshakeBindingRound1 C ambient req now).run n = .ok resp n' ↔
      handshakeBindingRound1Checks n req now = .ok () ∧
      n.hbPending req.sessionId = none ∧
      resp = handshakeBindingRound1Response C ambient n req ∧
      n' = { n with hbPending := (update (evictExpired ambient.evictedAt n.hbPending)
        req.sessionId (some (handshakeBindingPending C ambient n req))) } := by
  simp only [handshakeBindingRound1, run_get_bind, run_lift_bind_ok, run_set_bind, run_pure_ok,
    handshakeBindingGuard, ensure_eq_ok, exists_const, exists_and_right, exists_eq_ok,
    eq_comm (a := resp), eq_comm (a := n')]

theorem run_frostRound2_eq_ok {req : FrostRound2Request} {resp : FrostRound2Response} :
    (frostRound2 C req).run n = .ok resp n' ↔
      ∃ pending share, n.pending req.sessionId = some pending ∧
        frostRound2Sign C n pending req = .ok share ∧
        resp = ⟨req.sessionId, n.verifierId, C.shareJson share.inner⟩ ∧
        n' = { n with pending := update n.pending req.sessionId none } := by
  simp only [frostRound2, run_get_bind, run_lift_bind_ok, run_set_bind, run_pure_ok,
    frostRound2Take, okOr_eq_ok, exists_and_left, eq_comm (a := resp), eq_comm (a := n')]

theorem run_handshakeBindingRound2_eq_ok {req : HandshakeBindingRound2Request}
    {resp : HandshakeBindingRound2Response} :
    (handshakeBindingRound2 C req).run n = .ok resp n' ↔
      ∃ pending share, n.hbPending req.sessionId = some pending ∧
        handshakeBindingSign C n pending req = .ok share ∧
        resp = ⟨req.sessionId, n.verifierId, C.shareJson share.inner⟩ ∧
        n' = { n with hbPending := update n.hbPending req.sessionId none } := by
  simp only [handshakeBindingRound2, run_get_bind, run_lift_bind_ok, run_set_bind, run_pure_ok,
    handshakeBindingTake, okOr_eq_ok, exists_and_left, eq_comm (a := resp), eq_comm (a := n')]

/-! What a node answers, and what it keeps. -/

omit [DecidableEq F] [DecidableEq G] in
theorem run_frostRound1_ok (h : (frostRound1 C ambient req now).run n = .ok resp n') :
    resp.verifierId = n.verifierId ∧ n'.participant = n.participant := by
  obtain ⟨-, -, rfl, rfl⟩ := run_frostRound1_eq_ok.1 h
  exact ⟨rfl, rfl⟩

/-- A node answers under its own identity. -/
theorem run_frostRound2_ok {req : FrostRound2Request} {resp : FrostRound2Response}
    (h : (frostRound2 C req).run n = .ok resp n') :
    resp.verifierId = n.verifierId ∧ n'.participant = n.participant := by
  obtain ⟨_, _, -, -, rfl, rfl⟩ := run_frostRound2_eq_ok.1 h
  exact ⟨rfl, rfl⟩

end FrostAuxiliaryNode

/-! ### Several nodes in one process -/

/-- The nodes of one process, and what their next calls read. -/
structure Host (F G : Type) [Zero F] where
  nodes : ℕ → FrostAuxiliaryNode F G
  ambient : ℕ → Ambient
  calls : ℕ

namespace Host

variable {F G : Type} [Zero F] {α : Type}

def call (i : ℕ) (f : Ambient → EStateM NodeError (FrostAuxiliaryNode F G) α) :
    EStateM NodeError (Host F G) α := fun h =>
  match (f (h.ambient h.calls)).run (h.nodes i) with
  | .ok a n => .ok a { h with nodes := update h.nodes i n, calls := h.calls + 1 }
  | .error e n => .error e { h with nodes := update h.nodes i n, calls := h.calls + 1 }

def SameParticipants (h h' : Host F G) : Prop :=
  ∀ i, (h'.nodes i).participant = (h.nodes i).participant

theorem run_call_ok {i : ℕ} {f : Ambient → EStateM NodeError (FrostAuxiliaryNode F G) α}
    {P : FrostParticipant F G → α → Prop}
    (hf : ∀ ambient n a n', (f ambient).run n = .ok a n' →
      P n.participant a ∧ n'.participant = n.participant)
    {h₀ h h' : Host F G} {a : α} (hsame : h₀.SameParticipants h)
    (hrun : (call i f).run h = .ok a h') :
    P (h₀.nodes i).participant a ∧ h₀.SameParticipants h' := by
  simp only [call, EStateM.run] at hrun
  rcases hcall : f (h.ambient h.calls) (h.nodes i) with ⟨b, n⟩ | ⟨e, n⟩
  · rw [hcall] at hrun
    obtain ⟨rfl, rfl⟩ := EStateM.Result.ok.inj hrun
    obtain ⟨hP, hn⟩ := hf _ _ _ _ hcall
    refine ⟨hsame i ▸ hP, fun j => ?_⟩
    show (update h.nodes i n j).participant = _
    by_cases hj : j = i
    · subst hj
      rw [update_self, hn, hsame j]
    · rw [update_of_ne hj, hsame j]
  · rw [hcall] at hrun
    cases hrun

end Host

/-! ### Small crates to run nodes with -/

def toyNodeCrates : NodeCrates Toy Toy where
  toFrostCrates := toyCrates
  parsePackage _ := .error "unexpected package"
  verifyHspZk _ _ _ := .ok ()
  parseEvidence _ := .error "unexpected evidence"

def soloParticipant : FrostParticipant Toy Toy where
  keyPackage := ⟨ToyMember.alice.id, 1, 1, 1, 1⟩
  identifier := ToyMember.alice.id
  verifierId := .fromBytes (.replicate 32 1)

def soloAmbient (b : UInt8) : Ambient :=
  ⟨((Vector.replicate 32 0).set 31 b thirtyOne_lt, (Vector.replicate 32 0).set 31 b thirtyOne_lt),
    0, 0, 0⟩

def soloPackage (message : Bytes) : SigningPackage Toy Toy :=
  ⟨(∅ : Finmap fun _ : Identifier Toy => SigningCommitments Toy).insert soloParticipant.identifier
    (soloParticipant.round1 toyCrates (soloAmbient 0).random).2.inner, message⟩

def soloCrates : NodeCrates Toy Toy where
  toFrostCrates := toyCrates
  parsePackage bytes := .ok (soloPackage bytes)
  verifyHspZk _ _ _ := .ok ()
  parseEvidence _ := .error "unexpected evidence"

def soloRequest (sessionId : SessionId) (envelopeDigest : DigestBytes)
    (registryEpoch : RegistryEpoch) : FrostRound1Request where
  sessionId := sessionId
  coordinatorId := .fromBytes (.replicate 32 9)
  signedDigest := approvalSignedDigest envelopeDigest
  envelopeDigest := envelopeDigest
  signerSet := [soloParticipant.verifierId]
  roundExpiresAt := ⟨0⟩
  registryEpoch := registryEpoch
  hspProofBytes := []
  hspPvkBytes := []
  dctlsEvidenceBytes := []
  randValueBytes := []
  serverCertHashBytes := []

end TlsAttestation
