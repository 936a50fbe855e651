import TlsAttestation.Core.Hex
import TlsAttestation.Crypto.Threshold
import TlsAttestation.Lib.Collect
import TlsAttestation.Lib.Json

/-!
# Frames and signed envelopes

`tls_attestation_network::codec` and `tls_attestation_network::signed_envelope`: JSON in an envelope
with sender, time and signature, in a frame with its length in front. An envelope that is opened was
sealed with the key that is registered **for the sender it names**
(`SignedEnvelope.sealedBy_of_openEnvelope`), as far as Ed25519 is `Unforgeable`.
-/

namespace TlsAttestation

open ByteEncoding Fallible

inductive NetworkError where
  | recipientNotFound (recipient : String)
  | channelClosed
  | serialization (reason : String)
  | timeout
  | authFailed (reason : String)
deriving DecidableEq

def NetworkError.display : NetworkError → String
  | .recipientNotFound recipient => s!"recipient not found: {recipient}"
  | .channelClosed => "channel closed"
  | .serialization reason => s!"serialization error: {reason}"
  | .timeout => "send timeout"
  | .authFailed reason => s!"authentication failed: {reason}"

/-! ### Frames -/

namespace Codec

variable {α : Type}

def maxFrameBytes : ℕ := 4 * 1024 * 1024

structure Json (α : Type) where
  toVec : α → Except String Bytes
  fromSlice : Bytes → Except String α

/-- One end of a connection: a failure to write, what arrives, and what follows. -/
structure Stream where
  writeFailure : Option String
  incoming : Bytes
  readFailure : Option String

inductive ReadError where
  | unexpectedEof
  | other (reason : String)

def ReadError.display : ReadError → String
  | .unexpectedEof => "failed to fill whole buffer"
  | .other reason => reason

namespace Stream

def readExact (s : Stream) (n : ℕ) : Except ReadError (Bytes × Stream) :=
  if n ≤ s.incoming.length then
    .ok (s.incoming.take n, { s with incoming := s.incoming.drop n })
  else
    .error (match s.readFailure with
      | some reason => .other reason
      | none => .unexpectedEof)

theorem readExact_append (s : Stream) (bs : Bytes) {r : Bytes} (h : s.incoming = bs ++ r) :
    s.readExact bs.length = .ok (bs, { s with incoming := r }) := by
  rw [readExact, h, if_pos (by simp), List.take_left, List.drop_left]

end Stream

/-- **Write a frame**; the length is cast to 32 bits. -/
def writeFrame (json : Json α) (value : α) (s : Stream) : Except NetworkError Bytes := do
  let body ← (json.toVec value).mapError .serialization
  let len := body.length % 2 ^ 32
  ensure (len ≤ maxFrameBytes)
    (.serialization s!"frame too large: {len} bytes (max {maxFrameBytes})")
  match s.writeFailure with
  | some reason => throw (.serialization reason)
  | none => return beBytes 4 len ++ body

/-- A length of four bytes, and a body of that length; an oversized one is refused. -/
def readFrame (json : Json α) (s : Stream) : Except NetworkError α := do
  let (lenBuf, s) ← (s.readExact 4).mapError fun
    | .unexpectedEof => .channelClosed
    | .other reason => .serialization reason
  let len := ofBeBytes lenBuf
  ensure (len ≤ maxFrameBytes)
    (.serialization s!"incoming frame too large: {len} bytes (max {maxFrameBytes})")
  let (body, _) ← (s.readExact len).mapError fun e => .serialization e.display
  (json.fromSlice body).mapError fun e => .serialization s!"JSON decode: {e}"

theorem readFrame_frame {json : Json α} {body : Bytes} {value : α}
    (h : json.fromSlice body = .ok value) (hlen : body.length ≤ maxFrameBytes) :
    readFrame json ⟨none, beBytes 4 body.length ++ body, none⟩ = .ok value := by
  have hhead := Stream.readExact_append ⟨none, _, none⟩ (beBytes 4 body.length) (r := body) rfl
  have hbody := Stream.readExact_append ⟨none, body, none⟩ body (List.append_nil body).symm
  have hvalue : ofBeBytes (beBytes 4 body.length) = body.length := by
    rw [ofBeBytes_beBytes, Nat.mod_eq_of_lt (hlen.trans_lt (by decide))]
  rw [length_beBytes] at hhead
  simp only [readFrame, hhead, hvalue, hbody, h, do_eq_ok, Except.ok.injEq, exists_eq_left', hlen,
    exists_const, true_and]

end Codec

/-! ### Envelopes -/

/-- A payload with its sender, time and signature. -/
structure SignedEnvelope where
  senderId : VerifierId
  timestamp : UInt64
  payload : Bytes
  signature : Signature

/-- Base64 with padding: three bytes make four characters. -/
def base64 : Bytes → List Char
  | [] => []
  | [a] => [digit (a.toNat / 4), digit (a.toNat % 4 * 16), '=', '=']
  | [a, b] => [digit (a.toNat / 4), digit (a.toNat % 4 * 16 + b.toNat / 16),
      digit (b.toNat % 16 * 4), '=']
  | a :: b :: c :: rest => digit (a.toNat / 4) :: digit (a.toNat % 4 * 16 + b.toNat / 16) ::
      digit (b.toNat % 16 * 4 + c.toNat / 64) :: digit (c.toNat % 64) :: base64 rest
where
  digit (n : ℕ) : Char :=
    "ABCDEFGHIJKLMNOPQRSTUVWXYZabcdefghijklmnopqrstuvwxyz0123456789+/".toList.getD n '='

/-- An envelope as it is written: identity in hexadecimal, payload and signature in base64. -/
def SignedEnvelope.toJson (env : SignedEnvelope) : JsonValue :=
  .object [("sender_id", .string (hexEncode env.senderId.asBytes.toList)),
    ("timestamp", .number (toString env.timestamp.toNat)),
    ("payload", .string (.ofList (base64 env.payload))),
    ("signature", .string (.ofList (base64 env.signature.toList)))]

structure EnvelopeKeyRegistry (VerifyingKey : Type) where
  keys : Finmap fun _ : VerifierId => VerifyingKey

namespace EnvelopeKeyRegistry

variable {VerifyingKey : Type}

def new (entries : List (VerifierId × VerifyingKey)) : EnvelopeKeyRegistry VerifyingKey :=
  ⟨Collect.collect entries⟩

def lookup (registry : EnvelopeKeyRegistry VerifyingKey) (id : VerifierId) : Option VerifyingKey :=
  registry.keys.lookup id

end EnvelopeKeyRegistry

namespace SignedEnvelope

variable {SigningKey VerifyingKey α : Type}

def timestampToleranceSecs : ℕ := 30

def domain : Bytes := strBytes "tls-attestation/signed-envelope/v1\x00"

/-- What is signed: a domain, the sender, the time and the payload. No recipient is named. -/
def signingBytes (senderId : VerifierId) (timestamp : UInt64) (payload : Bytes) : Bytes :=
  domain ++ senderId.asBytes.toList ++ beBytes 8 timestamp.toNat ++ payload

/-- The payload is serialized, and signed with the sender and the time. -/
def sealMessage [Signer SigningKey] (json : Codec.Json α) (senderId : VerifierId)
    (signingKey : SigningKey) (message : α) (timestamp : UInt64) :
    Except NetworkError SignedEnvelope := do
  let payload ← (json.toVec message).mapError fun e =>
    .serialization s!"seal: serialize payload: {e}"
  let signature := Signer.sign signingKey (signingBytes senderId timestamp payload)
  return { senderId, timestamp, payload, signature }

def InWindow (env : SignedEnvelope) (now : UInt64) : Prop :=
  now.toNat - env.timestamp.toNat ≤ timestampToleranceSecs ∧
    env.timestamp.toNat - now.toNat ≤ timestampToleranceSecs

instance decidableInWindow (env : SignedEnvelope) (now : UInt64) : Decidable (env.InWindow now) :=
  inferInstanceAs (Decidable (_ ∧ _))

/-- A known sender, a time within the window, a valid signature; then the payload is read. -/
def openEnvelope [Verifier VerifyingKey] (json : Codec.Json α) (env : SignedEnvelope)
    (registry : EnvelopeKeyRegistry VerifyingKey) (now : UInt64) : Except NetworkError α := do
  let verifyingKey ← okOr (registry.lookup env.senderId)
    (.authFailed s!"unknown sender: {env.senderId.display}")
  ensure (env.InWindow now)
    (.authFailed (s!"timestamp out of range: envelope_ts={env.timestamp} now={now} " ++
      s!"(tolerance={timestampToleranceSecs}s)"))
  let toSign := signingBytes env.senderId env.timestamp env.payload
  ensure (Verifier.verify verifyingKey toSign env.signature = true)
    (.authFailed "signature verification failed")
  (json.fromSlice env.payload).mapError fun e =>
    .serialization s!"open: deserialize payload: {e}"

theorem signingBytes_inj {id id' : VerifierId} {t t' : UInt64} {payload payload' : Bytes}
    (h : signingBytes id t payload = signingBytes id' t' payload') :
    id = id' ∧ t = t' ∧ payload = payload' := by
  unfold signingBytes at h
  obtain ⟨hhead, hpayload⟩ := List.append_inj h (by simp)
  obtain ⟨hid, htime⟩ := List.append_inj' hhead (by simp)
  refine ⟨VerifierId.asBytes_injective (Vector.toList_inj.1 (List.append_cancel_left hid)), ?_,
    hpayload⟩
  exact UInt64.toNat_inj.1 (beBytes_inj t.toNat_lt t'.toNat_lt htime)

end SignedEnvelope

/-! ### Who sealed an envelope -/

section

variable {VerifyingKey α : Type}

abbrev SigningLog (VerifyingKey : Type) := Set (VerifyingKey × Bytes)

/-- What is verified under a key was signed with it: it is in the log. -/
def Unforgeable [Verifier VerifyingKey] (log : SigningLog VerifyingKey) : Prop :=
  ∀ key message signature, Verifier.verify key message signature = true → (key, message) ∈ log

namespace SignedEnvelope

def SealedWith (log : SigningLog VerifyingKey) (key : VerifyingKey) (env : SignedEnvelope) : Prop :=
  (key, signingBytes env.senderId env.timestamp env.payload) ∈ log

def SealedBy (log : SigningLog VerifyingKey) (registry : EnvelopeKeyRegistry VerifyingKey)
    (id : VerifierId) (env : SignedEnvelope) : Prop :=
  ∃ key, registry.lookup id = some key ∧ env.SealedWith log key

variable [Verifier VerifyingKey] {json : Codec.Json α} {env : SignedEnvelope}
  {registry : EnvelopeKeyRegistry VerifyingKey} {now : UInt64} {message : α}

theorem openEnvelope_eq_ok :
    env.openEnvelope json registry now = .ok message ↔
      ∃ key, registry.lookup env.senderId = some key ∧ env.InWindow now ∧
        Verifier.verify key (signingBytes env.senderId env.timestamp env.payload) env.signature =
          true ∧
        json.fromSlice env.payload = .ok message := by
  simp only [openEnvelope, do_eq_ok, exists_and_left, exists_const]

/-- **An opened envelope** was sealed with the key of its sender. -/
theorem sealedBy_of_openEnvelope {log : SigningLog VerifyingKey} (hlog : Unforgeable log)
    (h : env.openEnvelope json registry now = .ok message) :
    env.SealedBy log registry env.senderId := by
  obtain ⟨key, hkey, -, hver, -⟩ := openEnvelope_eq_ok.1 h
  exact ⟨key, hkey, hlog _ _ _ hver⟩

end SignedEnvelope

end

end TlsAttestation
