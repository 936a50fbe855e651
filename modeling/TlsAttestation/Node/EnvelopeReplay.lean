import TlsAttestation.Node.AuthTransport

/-!
# What an envelope protects, and what not

What gets past the signature was sealed by the holder of the sender's key, less than half a minute
ago (`SignedEnvelope.authentic_of_openEnvelope`). But an envelope does not name whom it is for, and
a server does not remember it (`AuthTcpAuxServer.replayProtected_iff`).
-/

namespace TlsAttestation

open Fallible PeerKey

/-! ### Authenticity -/

namespace SignedEnvelope

variable {SigningKey VerifyingKey α : Type}

structure Sealing (SigningKey : Type) [Signer SigningKey] where
  signingKey : SigningKey
  envelope : SignedEnvelope
  seal_eq : ∃ (β : Type) (json : Codec.Json β) (message : β),
    sealMessage json envelope.senderId signingKey message envelope.timestamp = .ok envelope

/-- Nothing but the sealed envelopes is signed under their domain. -/
def SealsOnly [Signer SigningKey] (publicKey : SigningKey → VerifyingKey)
    (sealings : Set (Sealing SigningKey)) (log : SigningLog VerifyingKey) : Prop :=
  ∀ key message, (key, message) ∈ log → domain <+: message → ∃ x ∈ sealings,
    publicKey x.signingKey = key ∧
      message = signingBytes x.envelope.senderId x.envelope.timestamp x.envelope.payload

variable [Verifier VerifyingKey] {json : Codec.Json α} {env : SignedEnvelope}
  {registry : EnvelopeKeyRegistry VerifyingKey} {now : UInt64}

theorem exists_verify_of_openEnvelope
    (h : ∀ reason, env.openEnvelope json registry now ≠ .error (.authFailed reason)) :
    ∃ key, registry.lookup env.senderId = some key ∧ env.InWindow now ∧
      Verifier.verify key (signingBytes env.senderId env.timestamp env.payload) env.signature =
        true := by
  unfold openEnvelope at h
  cases hkey : registry.lookup env.senderId with
  | none =>
    rw [hkey] at h
    exact absurd rfl (h _)
  | some key =>
    rw [hkey] at h
    by_cases hwindow : env.InWindow now
    · refine ⟨key, rfl, hwindow, ?_⟩
      by_contra hver
      refine h "signature verification failed" ?_
      simp [okOr, ensure, hwindow, hver, bind, Except.bind]
    · rw [ensure, if_neg hwindow] at h
      exact absurd rfl (h _)

/-- **Authenticity**: what gets past the signature check was sealed as it is, not long ago, with the
key of its sender. -/
theorem authentic_of_openEnvelope [Signer SigningKey] {publicKey : SigningKey → VerifyingKey}
    {sealings : Set (Sealing SigningKey)} {log : SigningLog VerifyingKey} (hlog : Unforgeable log)
    (hseals : SealsOnly publicKey sealings log)
    (h : ∀ reason, env.openEnvelope json registry now ≠ .error (.authFailed reason)) :
    |(now.toNat : ℤ) - env.timestamp.toNat| ≤ 30 ∧ ∃ x ∈ sealings,
      registry.lookup env.senderId = some (publicKey x.signingKey) ∧
        (env.senderId, env.timestamp, env.payload) =
          (x.envelope.senderId, x.envelope.timestamp, x.envelope.payload) := by
  obtain ⟨key, hkey, ⟨hage, hskew⟩, hver⟩ := exists_verify_of_openEnvelope h
  have hdomain : domain <+: signingBytes env.senderId env.timestamp env.payload := by
    rw [signingBytes, List.append_assoc, List.append_assoc]
    exact List.prefix_append ..
  obtain ⟨x, hx, rfl, hbytes⟩ := hseals _ _ (hlog _ _ _ hver) hdomain
  obtain ⟨hid, htime, hpayload⟩ := signingBytes_inj hbytes
  rw [timestampToleranceSecs] at hage hskew
  refine ⟨abs_le.2 ⟨by omega, by omega⟩, x, hx, hkey, ?_⟩
  rw [hid, htime, hpayload]

theorem authentic_of_openEnvelope_second :
    |((0 : UInt64).toNat : ℤ) - (envelope true).timestamp.toNat| ≤ 30 ∧
      ∃ x ∈ {x : Sealing PeerKey | x.signingKey = .second},
        PeerKey.registry.asEnvelopeRegistry.lookup (envelope true).senderId = some x.signingKey ∧
        ((envelope true).senderId, (envelope true).timestamp, (envelope true).payload) =
          (x.envelope.senderId, x.envelope.timestamp, x.envelope.payload) := by
  have hseals : SealsOnly (fun key : PeerKey => key) {x | x.signingKey = .second} log := by
    rintro key message ⟨rfl, _ | _, rfl⟩ -
    · exact ⟨⟨.second, envelope false, _, formats.response, .frostRound2 response, rfl⟩, rfl, rfl,
        rfl⟩
    · exact ⟨⟨.second, envelope true, _, formats.request, .frostRound2 request, rfl⟩, rfl, rfl, rfl⟩
  have hopen (reason : String) : (envelope true).openEnvelope formats.request
      registry.asEnvelopeRegistry 0 ≠ .error (.authFailed reason) := by
    intro h
    cases openEnvelope_request.symm.trans h
  exact authentic_of_openEnvelope unforgeable_log hseals hopen

end SignedEnvelope

/-! ### Replay -/

namespace AuthTcpAuxServer

variable {SigningKey VerifyingKey ι : Type} [Verifier VerifyingKey] (W : Codec.Formats)
  (servers : ι → AuthTcpAuxServer SigningKey VerifyingKey)

def Dispatches (x : ι × Arrival) (env : SignedEnvelope) : Prop :=
  Codec.readFrame W.envelope x.2.stream = .ok env ∧
    ∃ request, (servers x.1).receive W x.2 = .ok (some request)

/-- **Every envelope is dispatched once**, by the server that it is for. -/
def ReplayProtected (recipient : SignedEnvelope → ι) (xs : List (ι × Arrival)) : Prop :=
  (∀ x ∈ xs, ∀ env, Dispatches W servers x env → x.1 = recipient env) ∧
    xs.Pairwise fun x y => ∀ env, Dispatches W servers x env → ¬ Dispatches W servers y env

def Openable (x : ι × Arrival) (env : SignedEnvelope) : Prop :=
  Codec.readFrame W.envelope x.2.stream = .ok env ∧
    ∃ key, (servers x.1).registry.asEnvelopeRegistry.lookup env.senderId = some key ∧
      env.InWindow x.2.openedAt ∧
      Verifier.verify key (SignedEnvelope.signingBytes env.senderId env.timestamp env.payload)
        env.signature = true ∧
      ∃ request, W.request.fromSlice env.payload = .ok request

variable {W servers}

/-- A server has no memory. -/
theorem dispatches_iff {x : ι × Arrival} {env : SignedEnvelope} :
    Dispatches W servers x env ↔ Openable W servers x env := by
  refine and_congr_right fun hread => ?_
  simp only [receive_eq_some, SignedEnvelope.openEnvelope_eq_ok, hread, Except.ok.injEq,
    exists_eq_left']
  constructor
  · rintro ⟨request, key, hkey, hwindow, hver, hrequest⟩
    exact ⟨key, hkey, hwindow, hver, request, hrequest⟩
  · rintro ⟨key, hkey, hwindow, hver, request, hrequest⟩
    exact ⟨request, key, hkey, hwindow, hver, hrequest⟩

/-- **When envelopes are dispatched once**: if none arrives where it can be opened again, or at
another server. -/
theorem replayProtected_iff {recipient : SignedEnvelope → ι} {xs : List (ι × Arrival)} :
    ReplayProtected W servers recipient xs ↔
      (∀ x ∈ xs, ∀ env, Openable W servers x env → x.1 = recipient env) ∧
        xs.Pairwise fun x y => ∀ env, Openable W servers x env → ¬ Openable W servers y env := by
  simp only [ReplayProtected, dispatches_iff]

def twoServers : PeerKey → AuthTcpAuxServer PeerKey PeerKey :=
  fun _ => ⟨⟨PeerKey.first.id, .first⟩, PeerKey.registry⟩

/-- **The same envelope again**, and at another server. -/
theorem not_replayProtected_again : ¬ ReplayProtected formats twoServers (fun _ => .first)
        [(.first, arrival), (.first, arrival)] ∧
      ¬ ReplayProtected formats twoServers (fun _ => .first) [(.second, PeerKey.arrival)] := by
  have hdisp (x : PeerKey) : Dispatches formats twoServers (x, arrival)
      (envelope true) := ⟨readFrame_stream true, _, receive_arrival⟩
  constructor
  · intro h
    exact List.rel_of_pairwise_cons h.2 (List.mem_singleton_self _) _ (hdisp _) (hdisp _)
  · intro h
    cases h.1 _ (List.mem_singleton_self _) _ (hdisp .second)

end AuthTcpAuxServer

end TlsAttestation
