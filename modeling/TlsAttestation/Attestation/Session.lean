import TlsAttestation.Core.CanonicalRuns

/-!
# Sessions

`tls_attestation_attestation::session`: the context of a session, fixed at creation and committed to
by a digest, and the state machine of its life, in which no terminal state is left.
-/

namespace TlsAttestation

open ByteEncoding Fallible

/-! ### Errors of the crate -/

inductive AttestationError where
  | core (e : CoreError)
  | invalidTransition (origin target : String)
  | sessionExpired
  | randomnessBindingMismatch (reason : String)
  | transcriptMismatch (reason : String)
  | statementDigestMismatch
  | packageDigestMismatch
  | evidenceVerificationFailed (reason : String)
  | quorumNotSatisfied (need have_ : ℕ)
  | unknownSession
  | duplicateSession
  | sessionAlreadyTerminal
  | duplicateVerifierApproval (verifierId : String)
  | tlsConnection (reason : String)
  | crypto (reason : String)
deriving DecidableEq

def AttestationError.display : AttestationError → String
  | .core e => s!"session error: {e.display}"
  | .invalidTransition origin target =>
    s!"invalid state transition: cannot move from {origin} to {target}"
  | .sessionExpired => "session expired"
  | .randomnessBindingMismatch reason => s!"randomness binding mismatch: {reason}"
  | .transcriptMismatch reason => s!"transcript commitment mismatch: {reason}"
  | .statementDigestMismatch => "statement digest mismatch"
  | .packageDigestMismatch => "package digest mismatch"
  | .evidenceVerificationFailed reason => s!"evidence verification failed: {reason}"
  | .quorumNotSatisfied need have_ => s!"quorum not satisfied: need {need}, have {have_}"
  | .unknownSession => "unknown session"
  | .duplicateSession => "replay detected: session ID already exists"
  | .sessionAlreadyTerminal => "replay detected: session is already in a terminal state"
  | .duplicateVerifierApproval verifierId =>
    s!"replay detected: verifier '{verifierId}' already approved this session"
  | .tlsConnection reason => s!"TLS connection error: {reason}"
  | .crypto reason => s!"cryptographic operation failed: {reason}"

/-! ### The context of a session -/

/-- A session. A context that was received may carry any digest. -/
structure SessionContext where
  sessionId : SessionId
  proverId : ProverId
  coordinatorId : VerifierId
  quorum : QuorumSpec
  epoch : Epoch
  createdAt : UnixTimestamp
  expiresAt : UnixTimestamp
  nonce : Nonce
  sessionDigest : DigestBytes
deriving DecidableEq

def CanonicalHasher.updateSession (h : CanonicalHasher) (sessionId : SessionId)
    (proverId : ProverId) (coordinatorId : VerifierId) (quorum : QuorumSpec) (epoch : Epoch)
    (createdAt expiresAt : UnixTimestamp) (nonce : Nonce) : CanonicalHasher :=
  let h := h
    |>.updateFixed sessionId.asBytes
    |>.updateFixed proverId.asBytes
    |>.updateFixed coordinatorId.asBytes
    |>.updateU64 epoch.val
    |>.updateU64 createdAt.secs
    |>.updateU64 expiresAt.secs
    |>.updateFixed nonce.asBytes
    |>.updateU64 quorum.threshold
    |>.updateU64 (.ofNat quorum.verifiers.1.length)
  quorum.verifiers.1.foldl (fun h v => h.updateFixed v.asBytes) h

namespace SessionContext

def computeDigest (sessionId : SessionId) (proverId : ProverId) (coordinatorId : VerifierId)
    (quorum : QuorumSpec) (epoch : Epoch) (createdAt expiresAt : UnixTimestamp) (nonce : Nonce) :
    DigestBytes :=
  (CanonicalHasher.new "tls-attestation/session-context/v1")
    |>.updateSession sessionId proverId coordinatorId quorum epoch createdAt expiresAt nonce
    |>.finalize

/-- An expiry not after the creation is moved one second behind it. -/
def new (sessionId : SessionId) (proverId : ProverId) (coordinatorId : VerifierId)
    (quorum : QuorumSpec) (epoch : Epoch) (createdAt expiresAt : UnixTimestamp) (nonce : Nonce) :
    SessionContext :=
  let expiresAt :=
    if expiresAt.secs ≤ createdAt.secs then
      -- `saturating_add(1)`
      ⟨if createdAt.secs = UInt64.ofNat (2 ^ 64 - 1) then createdAt.secs else createdAt.secs + 1⟩
    else expiresAt
  { sessionId, proverId, coordinatorId, quorum, epoch, createdAt, expiresAt, nonce
    sessionDigest :=
      computeDigest sessionId proverId coordinatorId quorum epoch createdAt expiresAt nonce }

def isExpired (s : SessionContext) (now : UnixTimestamp) : Bool := s.expiresAt.hasExpired now

end SessionContext

/-! ### The life of a session -/

inductive SessionState where
  | pending
  | active
  | attesting
  | collecting
  | finalized
  | expired
  | failed (reason : String)
deriving DecidableEq

namespace SessionState

def isTerminal : SessionState → Bool
  | finalized | expired | failed _ => true
  | _ => false

theorem isTerminal_iff {s : SessionState} :
    s.isTerminal = true ↔ s = finalized ∨ s = expired ∨ ∃ reason, s = failed reason := by
  cases s <;> simp [isTerminal]

def name : SessionState → String
  | pending => "Pending"
  | active => "Active"
  | attesting => "Attesting"
  | collecting => "Collecting"
  | finalized => "Finalized"
  | expired => "Expired"
  | failed _ => "Failed"

/-- One step forward, expiry or failure; nothing follows a terminal state. -/
def canTransitionTo (s next : SessionState) : Bool :=
  if s.isTerminal then false
  else match s, next with
    | pending, active => true
    | active, attesting => true
    | attesting, collecting => true
    | collecting, finalized => true
    | _, expired => true
    | _, failed _ => true
    | _, _ => false

end SessionState

structure Session where
  context : SessionContext
  state : SessionState
deriving DecidableEq

namespace Session

def new (context : SessionContext) : Session := ⟨context, .pending⟩

def transition (s : Session) (nextState : SessionState) : Except AttestationError Session := do
  ensure (s.state.canTransitionTo nextState) (.invalidTransition s.state.name nextState.name)
  return { s with state := nextState }

end Session

/-! ### What the digest determines -/

def sessionBytes (sessionId : SessionId) (proverId : ProverId) (coordinatorId : VerifierId)
    (quorum : QuorumSpec) (epoch : Epoch) (createdAt expiresAt : UnixTimestamp) (nonce : Nonce) :
    Bytes :=
  sessionId.asBytes.toList ++ (proverId.asBytes.toList ++ (coordinatorId.asBytes.toList ++
    (beBytes 8 epoch.val.toNat ++ (beBytes 8 createdAt.secs.toNat ++
    (beBytes 8 expiresAt.secs.toNat ++ (nonce.asBytes.toList ++
    (beBytes 8 quorum.threshold.toNat ++
      counted 8 (fun v : VerifierId => v.asBytes.toList) quorum.verifiers.1)))))))

variable (s : SessionContext)

def SessionContext.bytes : Bytes :=
  sessionBytes s.sessionId s.proverId s.coordinatorId s.quorum s.epoch s.createdAt s.expiresAt
    s.nonce

def SessionContext.updates : List Update :=
  [⟨.fixed 16, s.sessionId.asBytes⟩, ⟨.fixed 32, s.proverId.asBytes⟩,
    ⟨.fixed 32, s.coordinatorId.asBytes⟩, ⟨.u64, s.epoch.val⟩, ⟨.u64, s.createdAt.secs⟩,
    ⟨.u64, s.expiresAt.secs⟩, ⟨.fixed 32, s.nonce.asBytes⟩, ⟨.u64, s.quorum.threshold⟩,
    ⟨.verifiers, s.quorum.verifiers⟩]

theorem SessionContext.flatMap_updates :
    s.updates.flatMap Update.encode = s.bytes := by
  simp [updates, Update.encode, bytes, sessionBytes]

theorem CanonicalHasher.inner_updateSession (h : CanonicalHasher) (s : SessionContext) :
    (h.updateSession s.sessionId s.proverId s.coordinatorId s.quorum s.epoch s.createdAt s.expiresAt
      s.nonce).inner = h.inner ++ s.bytes := by
  rw [← s.flatMap_updates]
  exact inner_foldl_update s.updates h

/-- **The bytes of a context determine it**, but for the digest. -/
theorem SessionContext.bytes_append_inj {s t : SessionContext} {xs ys : Bytes}
    (h : s.bytes ++ xs = t.bytes ++ ys) :
    { s with sessionDigest := t.sessionDigest } = t ∧ xs = ys := by
  rw [← s.flatMap_updates, ← t.flatMap_updates] at h
  obtain ⟨hupd, htail⟩ := Update.flatMap_encode_inj h rfl
  refine ⟨?_, htail⟩
  obtain ⟨⟨_⟩, ⟨_⟩, ⟨_⟩, ⟨_, _⟩, ⟨_⟩, ⟨_⟩, ⟨_⟩, ⟨_⟩, _⟩ := s
  obtain ⟨⟨_⟩, ⟨_⟩, ⟨_⟩, ⟨_, _⟩, ⟨_⟩, ⟨_⟩, ⟨_⟩, ⟨_⟩, _⟩ := t
  simp only [updates, List.cons.injEq, Sigma.mk.injEq, heq_eq_eq, true_and, and_true] at hupd
  obtain ⟨rfl, rfl, rfl, rfl, rfl, rfl, rfl, rfl, rfl⟩ := hupd
  rfl

end TlsAttestation
