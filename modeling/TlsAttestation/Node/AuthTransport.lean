import TlsAttestation.Network.SignedEnvelope
import TlsAttestation.Node.Runs

/-!
# The authenticated transport

`tls_attestation_node::transport`: each side seals what it sends and opens what it gets with a
registry of keys. The identities of envelopes are compared with no other. So **some** registered
peer has sealed a message (`sealedBy_registered`), and any will do (`exists_sealedBy_other`).
-/

namespace TlsAttestation

open ByteEncoding Effect Fallible Frost

/-! ### Messages -/

namespace Codec

inductive NodeRequest where
  | frostRound1 (request : FrostRound1Request)
  | frostRound2 (request : FrostRound2Request)
  | handshakeBindingRound1 (request : HandshakeBindingRound1Request)
  | handshakeBindingRound2 (request : HandshakeBindingRound2Request)

def NodeRequest.coordinatorId : NodeRequest → VerifierId
  | .frostRound1 request => request.coordinatorId
  | .frostRound2 request => request.coordinatorId
  | .handshakeBindingRound1 request => request.coordinatorId
  | .handshakeBindingRound2 request => request.coordinatorId

def NodeRequest.call (ambient : Ambient) (now : UnixTimestamp) : NodeRequest → NodeCall
  | .frostRound1 request => .frostRound1 ambient request now
  | .frostRound2 request => .frostRound2 request
  | .handshakeBindingRound1 request => .handshakeBindingRound1 ambient request now
  | .handshakeBindingRound2 request => .handshakeBindingRound2 request

inductive NodeResponse where
  | frostRound1 (response : FrostRound1Response)
  | frostRound2 (response : FrostRound2Response)
  | handshakeBindingRound1 (response : HandshakeBindingRound1Response)
  | handshakeBindingRound2 (response : HandshakeBindingRound2Response)
  | error (reason : String)

def NodeResponse.ofResult : Except NodeError TlsAttestation.NodeResponse → NodeResponse
  | .ok (.frostRound1 response) => .frostRound1 response
  | .ok (.frostRound2 response) => .frostRound2 response
  | .ok (.handshakeBindingRound1 response) => .handshakeBindingRound1 response
  | .ok (.handshakeBindingRound2 response) => .handshakeBindingRound2 response
  | .error e => .error e.display

structure Formats where
  request : Json NodeRequest
  response : Json NodeResponse
  envelope : Json SignedEnvelope
  debug : NodeResponse → String

end Codec

/-! ### Identities and keys -/

structure NodeIdentity (SigningKey : Type) where
  verifierId : VerifierId
  signingKey : SigningKey

structure NodeKeyRegistry (VerifyingKey : Type) where
  asEnvelopeRegistry : EnvelopeKeyRegistry VerifyingKey

def NodeKeyRegistry.new {VerifyingKey : Type} (entries : List (VerifierId × VerifyingKey)) :
    NodeKeyRegistry VerifyingKey :=
  ⟨.new entries⟩

variable {SigningKey VerifyingKey : Type}

/-! ### The coordinator's side -/

structure TcpNodeTransport where
  verifierId : VerifierId
  addr : String

/-- A coordinator's connection to a node, with its identity and the keys it knows. -/
structure AuthTcpNodeTransport (SigningKey VerifyingKey : Type) where
  inner : TcpNodeTransport
  identity : NodeIdentity SigningKey
  registry : NodeKeyRegistry VerifyingKey

structure Exchange where
  sealedAt : UInt64
  (connect setReadTimeout tryClone : Except String Unit)
  stream : Codec.Stream
  openedAt : UInt64

def TcpNodeTransport.connect (t : TcpNodeTransport) (x : Exchange) :
    Except NodeError Codec.Stream := do
  x.connect.mapError fun e => .frostProtocol s!"TCP connect to {t.addr}: {e}"
  x.setReadTimeout.mapError fun e => .frostProtocol s!"set_read_timeout: {e}"
  return x.stream

namespace AuthTcpNodeTransport

variable [Signer SigningKey] [Verifier VerifyingKey] (W : Codec.Formats)
  (t : AuthTcpNodeTransport SigningKey VerifyingKey)

def verifierId (t : AuthTcpNodeTransport SigningKey VerifyingKey) : VerifierId :=
  t.inner.verifierId

variable (request : Codec.NodeRequest)

/-- The request under the coordinator's seal, and the response of any registered sender. -/
def sendRecv (x : Exchange) :
    Except NodeError Codec.NodeResponse := do
  let envelope ← (SignedEnvelope.sealMessage W.request t.identity.verifierId t.identity.signingKey
    request x.sealedAt).mapError fun e => .frostProtocol s!"sign request: {e.display}"
  let stream ← t.inner.connect x
  x.tryClone.mapError fun e => .frostProtocol s!"stream clone: {e}"
  let _ ← (Codec.writeFrame W.envelope envelope stream).mapError fun e =>
    .frostProtocol s!"write envelope: {e.display}"
  let respEnv ← (Codec.readFrame W.envelope stream).mapError fun e =>
    .frostProtocol s!"read response envelope: {e.display}"
  (respEnv.openEnvelope W.response t.registry.asEnvelopeRegistry x.openedAt).mapError fun e =>
    .frostProtocol s!"verify response: {e.display}"

def callRound {α : Type} (pick : Codec.NodeResponse → Option α) (rejected unexpected : String)
    (request : Codec.NodeRequest) (x : Exchange) : Except NodeError α := do
  match ← t.sendRecv W request x with
  | .error reason => throw (.frostProtocol (rejected ++ reason))
  | other => okOr (pick other) (.frostProtocol (unexpected ++ W.debug other))

def frostRound1 (request : FrostRound1Request) (x : Exchange) :
    Except NodeError FrostRound1Response :=
  t.callRound W (fun | .frostRound1 response => some response | _ => none)
    "auth aux node rejected round-1: " "unexpected response for round-1: " (.frostRound1 request) x

def frostRound2 (request : FrostRound2Request) (x : Exchange) :
    Except NodeError FrostRound2Response :=
  t.callRound W (fun | .frostRound2 response => some response | _ => none)
    "auth aux node rejected round-2: " "unexpected response for round-2: " (.frostRound2 request) x

def handshakeBindingRound1 (request : HandshakeBindingRound1Request) (x : Exchange) :
    Except NodeError HandshakeBindingRound1Response :=
  t.callRound W (fun | .handshakeBindingRound1 response => some response | _ => none)
    "auth aux node rejected hb-round1: " "unexpected auth response for hb-round1: "
    (.handshakeBindingRound1 request) x

def handshakeBindingRound2 (request : HandshakeBindingRound2Request) (x : Exchange) :
    Except NodeError HandshakeBindingRound2Response :=
  t.callRound W (fun | .handshakeBindingRound2 response => some response | _ => none)
    "auth aux node rejected hb-round2: " "unexpected auth response for hb-round2: "
    (.handshakeBindingRound2 request) x

/-- **The call of a round**, any of the four. -/
def call (x : Exchange) : Except NodeError NodeResponse :=
  match request with
  | .frostRound1 request => .frostRound1 <$> t.frostRound1 W request x
  | .frostRound2 request => .frostRound2 <$> t.frostRound2 W request x
  | .handshakeBindingRound1 request =>
    .handshakeBindingRound1 <$> t.handshakeBindingRound1 W request x
  | .handshakeBindingRound2 request =>
    .handshakeBindingRound2 <$> t.handshakeBindingRound2 W request x

end AuthTcpNodeTransport

/-! ### The node's side -/

/-- **The server of a node**, with the keys it knows. -/
structure AuthTcpAuxServer (SigningKey VerifyingKey : Type) where
  identity : NodeIdentity SigningKey
  registry : NodeKeyRegistry VerifyingKey

structure Arrival where
  stream : Codec.Stream
  openedAt : UInt64
  now : UnixTimestamp
  ambient : Ambient
  sealedAt : UInt64

namespace AuthTcpAuxServer

variable [Verifier VerifyingKey] (W : Codec.Formats)
  (server : AuthTcpAuxServer SigningKey VerifyingKey)

def receive (a : Arrival) : Except NetworkError (Option Codec.NodeRequest) :=
  match Codec.readFrame W.envelope a.stream with
  | .error .channelClosed => return none
  | .error e => throw e
  | .ok env => do
    let request ← (env.openEnvelope W.request server.registry.asEnvelopeRegistry
      a.openedAt).mapError fun e => .authFailed s!"request auth failed: {e.display}"
    return some request

/-- **The call that a connection is taken for**, if its envelope is opened. -/
def accepted (a : Arrival) : Option NodeCall :=
  match server.receive W a with
  | .ok (some request) => some (request.call a.ambient a.now)
  | _ => none

section

variable [Signer SigningKey] {F G : Type} [Field F] [AddCommGroup G] [Module F G]
  [DecidableEq F] [DecidableEq G] (C : NodeCrates F G)

def respond (a : Arrival) (request : Codec.NodeRequest) :
    EStateM NetworkError (FrostAuxiliaryNode F G) Bytes := do
  let result ← attempt ((request.call a.ambient a.now).exec C)
  let envelope ← lift id (SignedEnvelope.sealMessage W.response server.identity.verifierId
    server.identity.signingKey (.ofResult result) a.sealedAt)
  lift id (Codec.writeFrame W.envelope envelope a.stream)

/-- **Handle a connection**: one request and one response. -/
def handleConnection (a : Arrival) :
    EStateM NetworkError (FrostAuxiliaryNode F G) (Option Bytes) := do
  match ← lift id (server.receive W a) with
  | none => return none
  | some request => some <$> server.respond W C a request

variable (n : FrostAuxiliaryNode F G)

/-- **The node after a connection**, however it ends. -/
def afterConnection (a : Arrival) : FrostAuxiliaryNode F G :=
  (resultOf ((server.handleConnection W C a).run n)).2

theorem afterConnection_eq (a : Arrival) :
    server.afterConnection W C n a =
      (server.accepted W a).elim n fun call => (resultOf ((call.exec C).run n)).2 := by
  rw [afterConnection, handleConnection, run_lift_bind, accepted]
  rcases server.receive W a with e | _ | request
  · rfl
  · rfl
  · -- whatever becomes of the answer, the call was made
    simp only [respond, map_eq_pure_bind, bind_assoc]
    rw [run_bind_of_ok (x := attempt _) _ rfl, run_lift_bind]
    split
    · rw [run_lift_bind]
      split <;> rfl
    · rfl

/-- **Connections are calls**: after any, one by one, also forged or broken ones, the node is where
the calls leave it whose envelopes were opened. -/
theorem foldl_afterConnection (arrivals : List Arrival) :
    arrivals.foldl (server.afterConnection W C) n =
      (n.serve C (arrivals.filterMap (server.accepted W))).node := by
  suffices h : ∀ s : NodeRun F G, arrivals.foldl (server.afterConnection W C) s.node =
      ((arrivals.filterMap (server.accepted W)).foldl (NodeRun.step C) s).node from h ⟨n, []⟩
  induction arrivals with
  | nil => exact fun _ => rfl
  | cons a arrivals ih =>
    intro s
    rw [List.foldl_cons, afterConnection_eq]
    rcases hacc : server.accepted W a with _ | call
    · rw [List.filterMap_cons_none hacc]
      exact ih s
    · rw [List.filterMap_cons_some hacc, List.foldl_cons, ← ih, NodeRun.step]
      dsimp only [Option.elim]
      cases (call.exec C).run s.node <;> rfl

end

end AuthTcpAuxServer

/-! ### Who the peer is -/

section

variable [Signer SigningKey] [Verifier VerifyingKey] {W : Codec.Formats}

namespace AuthTcpNodeTransport

variable {t : AuthTcpNodeTransport SigningKey VerifyingKey} {request : Codec.NodeRequest}
  {x : Exchange}

theorem exists_openEnvelope_of_sendRecv {response : Codec.NodeResponse}
    (h : t.sendRecv W request x = .ok response) :
    ∃ env, Codec.readFrame W.envelope x.stream = .ok env ∧
      env.openEnvelope W.response t.registry.asEnvelopeRegistry x.openedAt = .ok response := by
  simp only [sendRecv, TcpNodeTransport.connect, do_eq_ok] at h
  obtain ⟨_, -, stream, ⟨-, -, -, -, rfl⟩, -, -, -, -, env, hread, hopen⟩ := h
  exact ⟨env, hread, hopen⟩

theorem exists_sendRecv_of_callRound {α : Type} {pick : Codec.NodeResponse → Option α}
    {rejected unexpected : String} {a : α}
    (h : t.callRound W pick rejected unexpected request x = .ok a) :
    ∃ response, t.sendRecv W request x = .ok response := by
  obtain ⟨response, hresp, -⟩ := bind_eq_ok.1 h
  exact ⟨response, hresp⟩

theorem exists_sendRecv_of_call {response : NodeResponse} (h : t.call W request x = .ok response) :
    ∃ response, t.sendRecv W request x = .ok response := by
  cases request
  all_goals
    obtain ⟨_, h, -⟩ := map_eq_ok.1 h
    exact exists_sendRecv_of_callRound h

end AuthTcpNodeTransport

omit [Signer SigningKey] in
theorem AuthTcpAuxServer.receive_eq_some {server : AuthTcpAuxServer SigningKey VerifyingKey}
    {a : Arrival} {request : Codec.NodeRequest} :
    server.receive W a = .ok (some request) ↔ ∃ env, Codec.readFrame W.envelope a.stream = .ok env ∧
        env.openEnvelope W.request server.registry.asEnvelopeRegistry a.openedAt = .ok request := by
  unfold receive
  split
  · next hread => simp [hread, pure, Except.pure]
  · next hread => simp [hread, throw, throwThe, MonadExceptOf.throw]
  · next env hread => simp [hread]

/-- **Some registered peer**: if nothing is forged, what arrives was sealed with the key that is
registered for the sender it names. -/
theorem sealedBy_registered {log : SigningLog VerifyingKey} (hlog : Unforgeable log) :
    (∀ (t : AuthTcpNodeTransport SigningKey VerifyingKey) (request : Codec.NodeRequest)
        (x : Exchange) (response : NodeResponse), t.call W request x = .ok response →
      ∃ env, Codec.readFrame W.envelope x.stream = .ok env ∧
        env.SealedBy log t.registry.asEnvelopeRegistry env.senderId) ∧
    ∀ (server : AuthTcpAuxServer SigningKey VerifyingKey) (a : Arrival)
        (request : Codec.NodeRequest), server.receive W a = .ok (some request) →
      ∃ env, Codec.readFrame W.envelope a.stream = .ok env ∧
        env.SealedBy log server.registry.asEnvelopeRegistry env.senderId := by
  constructor
  · intro t request x response h
    obtain ⟨_, hresp⟩ := AuthTcpNodeTransport.exists_sendRecv_of_call h
    obtain ⟨env, hread, hopen⟩ := AuthTcpNodeTransport.exists_openEnvelope_of_sendRecv hresp
    exact ⟨env, hread, SignedEnvelope.sealedBy_of_openEnvelope hlog hopen⟩
  · intro server a request h
    obtain ⟨env, hread, hopen⟩ := AuthTcpAuxServer.receive_eq_some.1 h
    exact ⟨env, hread, SignedEnvelope.sealedBy_of_openEnvelope hlog hopen⟩

end

/-! ### The messages of a small run -/

namespace Codec

/-- Bytes are written as an array of numbers. -/
def byteArray (bs : Bytes) : JsonValue := .array (bs.map fun b => .number (toString b.toNat))

/-- A request of the second round as it is written; the other rounds do not occur here. -/
def NodeRequest.toJson : NodeRequest → Option JsonValue
  | .frostRound2 request => some (.object [("type", .string "FrostRound2"), ("payload", .object [
      ("session_id", byteArray request.sessionId.asBytes.toList),
      ("coordinator_id", byteArray request.coordinatorId.asBytes.toList),
      ("signing_package_bytes", byteArray request.signingPackageBytes),
      ("signer_set", .array (request.signerSet.map fun id => byteArray id.asBytes.toList))])])
  | _ => none

/-- The response to it as it is written. -/
def NodeResponse.toJson : NodeResponse → Option JsonValue
  | .frostRound2 response => some (.object [("type", .string "FrostRound2"), ("payload", .object [
      ("session_id", byteArray response.sessionId.asBytes.toList),
      ("verifier_id", byteArray response.verifierId.asBytes.toList),
      ("signature_share_bytes", byteArray response.signatureShareBytes)])])
  | _ => none

/-- A library that writes messages as `toJson` says, and reads what it writes of `known` ones. -/
def Json.ofTexts {α : Type} (toJson : α → Option JsonValue) (known : List α) : Json α where
  toVec message := okOr ((toJson message).map fun v => strBytes v.text) "not supported"
  fromSlice text := okOr
    (known.find? fun message => (toJson message).map (fun v => strBytes v.text) = some text)
    "expected value at line 1 column 1"

end Codec

/-! ### Another registered peer -/

inductive PeerKey where
  | first
  | second
deriving DecidableEq

namespace PeerKey

def id : PeerKey → VerifierId
  | .first => .fromBytes (.replicate 32 1)
  | .second => .fromBytes (.replicate 32 2)

def request : FrostRound2Request := ⟨⟨.replicate 16 0⟩, first.id, [], []⟩

def response : FrostRound2Response := ⟨⟨.replicate 16 0⟩, first.id, []⟩

variable (ofRequest : Bool)

/-- What is in an envelope: the text of the request, or of the response. -/
def payload : Bytes :=
  ((if ofRequest then (Codec.NodeRequest.frostRound2 request).toJson
    else (Codec.NodeResponse.frostRound2 response).toJson).map fun v => strBytes v.text).getD []

/-- The envelope of the second peer, who signs with zeros. -/
def envelope : SignedEnvelope := ⟨second.id, 0, payload ofRequest, .replicate 64 0⟩

def signed : Bytes := SignedEnvelope.signingBytes second.id 0 (payload ofRequest)

instance signer : Signer PeerKey where
  sign _ _ := .replicate 64 0

/-- Nothing passes but what the second peer has signed. -/
instance verifier : Verifier PeerKey where
  verify key message _ := decide (key = .second ∧ (message = signed true ∨ message = signed false))

def log : SigningLog PeerKey := {x | x.1 = .second ∧ ∃ ofRequest, x.2 = signed ofRequest}

theorem unforgeable_log : Unforgeable log := by
  intro key message signature h
  obtain ⟨hkey, hmessage | hmessage⟩ := of_decide_eq_true h
  · exact ⟨hkey, true, hmessage⟩
  · exact ⟨hkey, false, hmessage⟩

def registry : NodeKeyRegistry PeerKey := .new [(first.id, .first), (second.id, .second)]

def formats : Codec.Formats where
  request := .ofTexts Codec.NodeRequest.toJson [.frostRound2 request]
  response := .ofTexts Codec.NodeResponse.toJson [.frostRound2 response]
  envelope := .ofTexts (fun env => some env.toJson) [envelope true, envelope false]
  debug _ := "NodeResponse"

/-- The frame with the envelope. -/
def stream : Codec.Stream :=
  let body := strBytes (envelope ofRequest).toJson.text
  ⟨none, beBytes 4 body.length ++ body, none⟩

def transport : AuthTcpNodeTransport PeerKey PeerKey :=
  ⟨⟨first.id, "127.0.0.1:9000"⟩, ⟨first.id, .first⟩, registry⟩

def exchange : Exchange := ⟨0, .ok (), .ok (), .ok (), stream false, 0⟩

def arrival : Arrival := ⟨stream true, 0, ⟨0⟩, soloAmbient 0, 0⟩

theorem lookup_registry (key : PeerKey) : registry.asEnvelopeRegistry.lookup key.id = some key := by
  have hne : first.id ≠ second.id := by decide
  refine Collect.lookup_collect_of_mem ?_ fun key' hmem => ?_
  · cases key <;> simp
  · cases key <;> cases key' <;> simp_all [hne.symm]

theorem openEnvelope_envelope {α : Type} {json : Codec.Json α} {message : α} {ofRequest : Bool}
    (h : json.fromSlice (payload ofRequest) = .ok message) :
    (envelope ofRequest).openEnvelope json registry.asEnvelopeRegistry 0 = .ok message := by
  refine SignedEnvelope.openEnvelope_eq_ok.2
    ⟨.second, lookup_registry .second, (by decide : (0 : ℕ) ≤ 30 ∧ (0 : ℕ) ≤ 30), ?_, h⟩
  refine decide_eq_true ⟨rfl, ?_⟩
  cases ofRequest
  · exact .inr rfl
  · exact .inl rfl

theorem fromSlice_envelope :
    formats.envelope.fromSlice (strBytes (envelope ofRequest).toJson.text) =
      .ok (envelope ofRequest) := by
  have hne : strBytes (envelope true).toJson.text ≠ strBytes (envelope false).toJson.text := by
    decide +kernel
  cases ofRequest
  · simp [formats, Codec.Json.ofTexts, hne, okOr]
  · simp [formats, Codec.Json.ofTexts, okOr]

theorem readFrame_stream :
    Codec.readFrame formats.envelope (stream ofRequest) = .ok (envelope ofRequest) :=
  Codec.readFrame_frame (fromSlice_envelope ofRequest) (by cases ofRequest <;> decide +kernel)

theorem openEnvelope_response : (envelope false).openEnvelope formats.response
    registry.asEnvelopeRegistry 0 = .ok (.frostRound2 response) :=
  openEnvelope_envelope (by simp [formats, Codec.Json.ofTexts, payload, okOr,
    Codec.NodeResponse.toJson])

theorem openEnvelope_request : (envelope true).openEnvelope formats.request
    registry.asEnvelopeRegistry 0 = .ok (.frostRound2 request) :=
  openEnvelope_envelope (by simp [formats, Codec.Json.ofTexts, payload, okOr,
    Codec.NodeRequest.toJson])

/-- What the coordinator sends is short enough for a frame. -/
theorem exists_writeFrame : ∃ frame, Codec.writeFrame formats.envelope
    ⟨first.id, 0, payload true, .replicate 64 0⟩ (stream false) = .ok frame := by
  simp only [Codec.writeFrame, do_eq_ok]
  exact ⟨_, _, rfl, (), by decide +kernel, rfl⟩

theorem call_transport :
    transport.call formats (.frostRound2 request) exchange = .ok (.frostRound2 response) := by
  have hrecv : transport.sendRecv formats (.frostRound2 request) exchange =
      .ok (.frostRound2 response) := by
    obtain ⟨frame, hframe⟩ := exists_writeFrame
    simp only [AuthTcpNodeTransport.sendRecv, TcpNodeTransport.connect, do_eq_ok]
    exact ⟨_, rfl, stream false, ⟨(), rfl, (), rfl, rfl⟩, (), rfl, frame, hframe, envelope false,
      readFrame_stream false, openEnvelope_response⟩
  refine map_eq_ok.2 ⟨response, bind_eq_ok.2 ⟨_, hrecv, rfl⟩, rfl⟩

theorem receive_arrival : (AuthTcpAuxServer.mk (⟨first.id, .first⟩ : NodeIdentity PeerKey)
    registry).receive formats arrival = .ok (some (.frostRound2 request)) :=
  AuthTcpAuxServer.receive_eq_some.2 ⟨_, readFrame_stream true, openEnvelope_request⟩

end PeerKey

open PeerKey

/-- The second node's envelope arrives. -/
theorem sealedBy_registered_second :
    (∃ env, Codec.readFrame formats.envelope exchange.stream = .ok env ∧
      env.SealedBy log registry.asEnvelopeRegistry env.senderId) ∧
    ∃ env, Codec.readFrame formats.envelope arrival.stream = .ok env ∧
      env.SealedBy log registry.asEnvelopeRegistry env.senderId :=
  ⟨(sealedBy_registered unforgeable_log).1 _ _ _ _ call_transport,
    (sealedBy_registered unforgeable_log).2 _ _ _ receive_arrival⟩

/-- **Another registered peer** than the one of the transport, or of the request, is taken. -/
theorem exists_sealedBy_other :
    ∃ (W : Codec.Formats) (log : SigningLog PeerKey), Unforgeable log ∧
      (∃ (t : AuthTcpNodeTransport PeerKey PeerKey) (request : Codec.NodeRequest) (x : Exchange)
          (response : NodeResponse) (env : SignedEnvelope), t.call W request x = .ok response ∧
        Codec.readFrame W.envelope x.stream = .ok env ∧
        (t.registry.asEnvelopeRegistry.lookup t.verifierId).isSome ∧
        ¬ env.SealedBy log t.registry.asEnvelopeRegistry t.verifierId) ∧
      ∃ (server : AuthTcpAuxServer PeerKey PeerKey) (a : Arrival) (request : Codec.NodeRequest)
          (env : SignedEnvelope), server.receive W a = .ok (some request) ∧
        Codec.readFrame W.envelope a.stream = .ok env ∧ env.senderId ≠ request.coordinatorId := by
  refine ⟨formats, log, unforgeable_log, ⟨transport, .frostRound2 request, exchange, _,
      envelope false, call_transport, readFrame_stream false, ?_, ?_⟩,
    ⟨_, arrival, .frostRound2 request, envelope true, receive_arrival, readFrame_stream true,
      (by decide : second.id ≠ first.id)⟩⟩
  · have hlookup := lookup_registry .first
    exact Option.isSome_iff_exists.2 ⟨_, hlookup⟩
  · rintro ⟨key, hkey, hsealed⟩
    obtain rfl : first = key :=
      Option.some.inj ((lookup_registry .first).symm.trans hkey)
    cases hsealed.1

end TlsAttestation
