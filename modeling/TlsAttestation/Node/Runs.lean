import TlsAttestation.Attestation.Tls2pc
import TlsAttestation.Node.Admission

/-!
# A node over many calls

What a call can do to the two caches is said once for the four calls (`NodeCall.Turn`). So every
share goes back to an earlier request of round one for the same session (`NodeRun.Traced`). A node
signs one digest in a session **if** nobody asks for another one after it has signed; it signs
whatever it is sent as the binding input, with the key for approvals.
-/

namespace TlsAttestation

open ByteEncoding Effect Fallible Frost Function
open List hiding Vector

/-! ### Calls -/

inductive Protocol where
  | attestation
  | handshakeBinding
deriving DecidableEq

inductive NodeCall where
  | frostRound1 (ambient : Ambient) (req : FrostRound1Request) (now : UnixTimestamp)
  | frostRound2 (req : FrostRound2Request)
  | handshakeBindingRound1 (ambient : Ambient) (req : HandshakeBindingRound1Request)
      (now : UnixTimestamp)
  | handshakeBindingRound2 (req : HandshakeBindingRound2Request)

inductive NodeResponse where
  | frostRound1 (resp : FrostRound1Response)
  | frostRound2 (resp : FrostRound2Response)
  | handshakeBindingRound1 (resp : HandshakeBindingRound1Response)
  | handshakeBindingRound2 (resp : HandshakeBindingRound2Response)
deriving DecidableEq

abbrev Caches (F : Type) := Protocol × SessionId → Option (PendingRound F)

def Dropped {F : Type} (c c' : Caches F) : Prop :=
  ∀ k p, c' k = some p → c k = some p

theorem evictExpired_eq_some {F : Type} {now : ℕ} {cache : SessionId → Option (PendingRound F)}
    {id : SessionId} {p : PendingRound F} (h : evictExpired now cache id = some p) :
    cache id = some p :=
  (Option.filter_eq_some_iff.1 h).1

theorem eq_some_of_update_none {F : Type} {cache : SessionId → Option (PendingRound F)}
    {id id' : SessionId} {p : PendingRound F} (h : update cache id none id' = some p) :
    cache id' = some p := by
  rcases eq_or_ne id' id with rfl | hne
  · rw [update_self] at h
    cases h
  · rwa [update_of_ne hne] at h

namespace FrostAuxiliaryNode

variable {F G : Type} [Zero F] {n : FrostAuxiliaryNode F G}
  {cache : SessionId → Option (PendingRound F)}

def caches (n : FrostAuxiliaryNode F G) : Caches F
  | (.attestation, id) => n.pending id
  | (.handshakeBinding, id) => n.hbPending id

theorem dropped_pending (h : ∀ id p, cache id = some p → n.pending id = some p) :
    Dropped n.caches { n with pending := cache }.caches := by
  rintro ⟨_ | _, id⟩ p hp
  · exact h id p hp
  · exact hp

theorem dropped_hbPending (h : ∀ id p, cache id = some p → n.hbPending id = some p) :
    Dropped n.caches { n with hbPending := cache }.caches := by
  rintro ⟨_ | _, id⟩ p hp
  · exact hp
  · exact h id p hp

def Kept (n n' : FrostAuxiliaryNode F G) : Prop :=
  n'.participant = n.participant ∧ n'.registry = n.registry

end FrostAuxiliaryNode

def NodeCall.asked : NodeCall → Option ((Protocol × SessionId) × List VerifierId × Bytes)
  | .frostRound2 req =>
    some ((.attestation, req.sessionId), req.signerSet, req.signingPackageBytes)
  | .handshakeBindingRound2 req =>
    some ((.handshakeBinding, req.sessionId), req.signerSet, req.signingPackageBytes)
  | _ => none

variable {F G : Type} [Field F] [AddCommGroup G] [Module F G] (C : NodeCrates F G)

def NodeCall.drawn (n : FrostAuxiliaryNode F G) :
    NodeCall → Option ((Protocol × SessionId) × PendingRound F)
  | .frostRound1 ambient req _ =>
    some ((.attestation, req.sessionId), n.frostRound1Pending C ambient req)
  | .handshakeBindingRound1 ambient req _ =>
    some ((.handshakeBinding, req.sessionId), n.handshakeBindingPending C ambient req)
  | _ => none

def SignedOver (signingPackageBytes : Bytes) (digest : DigestBytes) : Prop :=
  ∃ package, C.parsePackage signingPackageBytes = .ok package ∧
    package.message = digest.asBytes.toList

theorem SignedOver.unique {C : NodeCrates F G} {bytes : Bytes} {d d' : DigestBytes}
    (h : SignedOver C bytes d) (h' : SignedOver C bytes d') : d = d' := by
  obtain ⟨package, hparse, hmessage⟩ := h
  obtain ⟨package', hparse', hmessage'⟩ := h'
  obtain rfl : package = package' := Except.ok.inj (hparse.symm.trans hparse')
  exact DigestBytes.asBytes_injective (Vector.toList_inj.1 (hmessage.symm.trans hmessage'))

theorem SignedOver.exists_message_ne {C : NodeCrates F G} {bytes : Bytes} {d d' : DigestBytes}
    (h : SignedOver C bytes d) (hne : d ≠ d') :
    ∃ package, C.parsePackage bytes = .ok package ∧ package.message ≠ d'.asBytes.toList := by
  obtain ⟨package, hparse, hmessage⟩ := h
  refine ⟨package, hparse, fun hmessage' => hne ?_⟩
  exact SignedOver.unique ⟨package, hparse, hmessage⟩ ⟨package, hparse, hmessage'⟩

namespace NodeCall

variable {C : NodeCrates F G} {n n' : FrostAuxiliaryNode F G}

theorem drawn_congr (h : n'.participant = n.participant) (call : NodeCall) :
    call.drawn C n' = call.drawn C n := by
  cases call with
  | frostRound1 ambient req now => simp only [drawn, FrostAuxiliaryNode.frostRound1Pending, h]
  | frostRound2 req => rfl
  | handshakeBindingRound1 ambient req now =>
    simp only [drawn, FrostAuxiliaryNode.handshakeBindingPending, h]
  | handshakeBindingRound2 req => rfl

theorem drawn_eq_attestation {call : NodeCall} {id : SessionId} {p : PendingRound F}
    (h : call.drawn C n = some ((.attestation, id), p)) :
    ∃ ambient req now, call = frostRound1 ambient req now ∧ req.sessionId = id ∧
      p.signedDigest = req.signedDigest := by
  cases call with
  | frostRound1 ambient req now =>
    obtain ⟨hkey, rfl⟩ := Prod.mk.inj (Option.some.inj h)
    exact ⟨ambient, req, now, rfl, (Prod.mk.inj hkey).2, rfl⟩
  | frostRound2 req => cases h
  | handshakeBindingRound1 ambient req now =>
    obtain ⟨hkey, -⟩ := Prod.mk.inj (Option.some.inj h)
    cases (Prod.mk.inj hkey).1
  | handshakeBindingRound2 req => cases h

theorem drawn_eq_handshakeBinding {call : NodeCall} {id : SessionId} {p : PendingRound F}
    (h : call.drawn C n = some ((.handshakeBinding, id), p)) :
    ∃ ambient req now, call = handshakeBindingRound1 ambient req now ∧
      req.sessionId = id ∧ p.signedDigest = req.bindingInput := by
  cases call with
  | frostRound1 ambient req now =>
    obtain ⟨hkey, -⟩ := Prod.mk.inj (Option.some.inj h)
    cases (Prod.mk.inj hkey).1
  | frostRound2 req => cases h
  | handshakeBindingRound1 ambient req now =>
    obtain ⟨hkey, rfl⟩ := Prod.mk.inj (Option.some.inj h)
    exact ⟨ambient, req, now, rfl, (Prod.mk.inj hkey).2, rfl⟩
  | handshakeBindingRound2 req => cases h

/-! ### What a call can do -/

variable (C n) in
/-- **What a call can do** to the caches. -/
inductive Turn (call : NodeCall) (c c' : Caches F) : Option (PendingRound F) → Prop
  | drops (hrest : Dropped c c') : Turn call c c' none
  | puts {k : Protocol × SessionId} {p : PendingRound F} (hdrawn : call.drawn C n = some (k, p))
    (hk : c' k = some p) (hrest : ∀ k' p', k' ≠ k → c' k' = some p' → c k' = some p') :
    Turn call c c' none
  | takes {k : Protocol × SessionId} {p : PendingRound F} {signerSet : List VerifierId}
    {bytes : Bytes} (hasked : call.asked = some (k, signerSet, bytes)) (hk : c k = some p)
    (hk' : c' k = none) (hrest : Dropped c c') (hset : signerSet = p.signerSet)
    (hover : SignedOver C bytes p.signedDigest) : Turn call c c' (some p)

variable (C) in
def exec [DecidableEq F] [DecidableEq G] :
    NodeCall → EStateM NodeError (FrostAuxiliaryNode F G) NodeResponse
  | .frostRound1 ambient req now =>
    .frostRound1 <$> FrostAuxiliaryNode.frostRound1 C ambient req now
  | .frostRound2 req => .frostRound2 <$> FrostAuxiliaryNode.frostRound2 C req
  | .handshakeBindingRound1 ambient req now =>
    .handshakeBindingRound1 <$> FrostAuxiliaryNode.handshakeBindingRound1 C ambient req now
  | .handshakeBindingRound2 req =>
    .handshakeBindingRound2 <$> FrostAuxiliaryNode.handshakeBindingRound2 C req

variable [DecidableEq F] [DecidableEq G] {call : NodeCall}

open FrostAuxiliaryNode

/-- **A call that fails** only drops entries. -/
theorem dropped_of_exec_error {e : NodeError} (h : (call.exec C).run n = .error e n') :
    Dropped n.caches n'.caches ∧ n.Kept n' := by
  cases call <;> simp only [exec, run_map_error, FrostAuxiliaryNode.frostRound1,
    FrostAuxiliaryNode.frostRound2, FrostAuxiliaryNode.handshakeBindingRound1,
    FrostAuxiliaryNode.handshakeBindingRound2, run_get_bind, run_set_bind, run_bind_error,
    run_lift_error, run_lift_ok, not_run_pure_error, exists_false, and_false, or_false] at h
  case frostRound1 ambient req now =>
    obtain ⟨-, rfl⟩ | ⟨_, _, -, -, rfl⟩ := h
    · exact ⟨fun _ _ hp => hp, rfl, rfl⟩
    · -- Refused by the guard, after the eviction.
      exact ⟨dropped_pending fun _ _ => evictExpired_eq_some, rfl, rfl⟩
  case frostRound2 req =>
    obtain ⟨-, rfl⟩ | ⟨_, _, -, -, rfl⟩ := h
    · exact ⟨fun _ _ hp => hp, rfl, rfl⟩
    · -- The nonces were taken before the checks.
      exact ⟨dropped_pending fun _ _ => eq_some_of_update_none, rfl, rfl⟩
  case handshakeBindingRound1 ambient req now =>
    obtain ⟨-, rfl⟩ | ⟨_, _, ⟨-, rfl⟩, -, rfl⟩ := h <;> exact ⟨fun _ _ hp => hp, rfl, rfl⟩
  case handshakeBindingRound2 req =>
    obtain ⟨-, rfl⟩ | ⟨_, _, -, -, rfl⟩ := h
    · exact ⟨fun _ _ hp => hp, rfl, rfl⟩
    · exact ⟨dropped_hbPending fun _ _ => eq_some_of_update_none, rfl, rfl⟩

/-- **A call that is answered** takes its turn. -/
theorem turn_of_exec_ok {resp : NodeResponse} (h : (call.exec C).run n = .ok resp n') :
    ∃ signed, Turn C n call n.caches n'.caches signed ∧ (call.asked.isSome → signed.isSome) ∧
      n.Kept n' := by
  cases call with
  | frostRound1 ambient req now =>
    obtain ⟨_, hrun, -⟩ := run_map_ok.1 h
    obtain ⟨-, -, -, rfl⟩ := run_frostRound1_eq_ok.1 hrun
    refine ⟨none, .puts rfl (update_self ..) ?_, nofun, rfl, rfl⟩
    rintro ⟨_ | _, id⟩ p hne hp
    · have hid : id ≠ req.sessionId := fun hid => hne (by rw [hid])
      exact evictExpired_eq_some ((update_of_ne hid ..).symm.trans hp)
    · exact hp
  | frostRound2 req =>
    obtain ⟨_, hrun, -⟩ := run_map_ok.1 h
    obtain ⟨pending, share, hpend, hsign, -, rfl⟩ := run_frostRound2_eq_ok.1 hrun
    obtain ⟨hset, package, hparse, hmessage, -⟩ := signPending_eq_ok.1 hsign
    exact ⟨some pending, .takes rfl hpend (update_self ..)
      (dropped_pending fun _ _ => eq_some_of_update_none) hset ⟨package, hparse, hmessage⟩,
      fun _ => rfl, rfl, rfl⟩
  | handshakeBindingRound1 ambient req now =>
    obtain ⟨_, hrun, -⟩ := run_map_ok.1 h
    obtain ⟨-, -, -, rfl⟩ := run_handshakeBindingRound1_eq_ok.1 hrun
    refine ⟨none, .puts rfl (update_self ..) ?_, nofun, rfl, rfl⟩
    rintro ⟨_ | _, id⟩ p hne hp
    · exact hp
    · have hid : id ≠ req.sessionId := fun hid => hne (by rw [hid])
      exact evictExpired_eq_some ((update_of_ne hid ..).symm.trans hp)
  | handshakeBindingRound2 req =>
    obtain ⟨_, hrun, -⟩ := run_map_ok.1 h
    obtain ⟨pending, share, hpend, hsign, -, rfl⟩ := run_handshakeBindingRound2_eq_ok.1 hrun
    obtain ⟨hset, package, hparse, hmessage, -⟩ := signPending_eq_ok.1 hsign
    exact ⟨some pending, .takes rfl hpend (update_self ..)
      (dropped_hbPending fun _ _ => eq_some_of_update_none) hset ⟨package, hparse, hmessage⟩,
      fun _ => rfl, rfl, rfl⟩

end NodeCall

open NodeCall

/-! ### Runs -/

structure NodeRun (F G : Type) [Zero F] where
  node : FrostAuxiliaryNode F G
  log : List (NodeCall × NodeResponse)

variable [DecidableEq F] [DecidableEq G] (C : NodeCrates F G)

def NodeRun.step (s : NodeRun F G) (call : NodeCall) : NodeRun F G :=
  match (call.exec C).run s.node with
  | .ok resp n => ⟨n, s.log ++ [(call, resp)]⟩
  | .error _ n => ⟨n, s.log⟩

/-- A node over a sequence of calls, with a log of what it answered. -/
def FrostAuxiliaryNode.serve (n : FrostAuxiliaryNode F G) (calls : List NodeCall) : NodeRun F G :=
  calls.foldl (NodeRun.step C) ⟨n, []⟩

def FrostAuxiliaryNode.Fresh (n : FrostAuxiliaryNode F G) : Prop :=
  n = .new n.participant ∨ ∃ registry, n = .withRegistry n.participant registry

omit [DecidableEq F] [DecidableEq G] [AddCommGroup G] [Module F G] in
theorem FrostAuxiliaryNode.Fresh.caches_eq_none {n : FrostAuxiliaryNode F G} (hn : n.Fresh)
    (k : Protocol × SessionId) : n.caches k = none := by
  rcases hn with hn | ⟨registry, hn⟩ <;> rcases k with ⟨_ | _, id⟩
  all_goals
    rw [hn]
    rfl

namespace NodeRun

variable {C} {n : FrostAuxiliaryNode F G} {calls : List NodeCall} {s : NodeRun F G}

theorem step_turn (s : NodeRun F G) (call : NodeCall) :
    ∃ signed, NodeCall.Turn C s.node call s.node.caches (s.step C call).node.caches signed ∧
      s.node.Kept (s.step C call).node ∧
      ∀ q resp, (q, resp) ∈ (s.step C call).log → q.asked.isSome →
        (q, resp) ∈ s.log ∨ q = call ∧ signed.isSome := by
  rcases hrun : (call.exec C).run s.node with ⟨resp, n⟩ | ⟨e, n⟩
  · obtain ⟨signed, hturn, hsigned, hkept⟩ := turn_of_exec_ok hrun
    rw [step, hrun]
    refine ⟨signed, hturn, hkept, fun q resp' hmem hasked => ?_⟩
    rcases mem_append.1 hmem with hold | hnew
    · exact .inl hold
    · obtain ⟨rfl, -⟩ := Prod.mk.inj (mem_singleton.1 hnew)
      exact .inr ⟨rfl, hsigned hasked⟩
  · obtain ⟨hdrop, hkept⟩ := dropped_of_exec_error hrun
    rw [step, hrun]
    exact ⟨none, .drops hdrop, hkept, fun _ _ hmem _ => .inl hmem⟩

theorem foldl_step_pair {call call' : NodeCall} {resp resp' : NodeResponse}
    {n n' : FrostAuxiliaryNode F G} (h : (call.exec C).run s.node = .ok resp n)
    (h' : (call'.exec C).run n = .ok resp' n') :
    [call, call'].foldl (step C) s = ⟨n', s.log ++ [(call, resp)] ++ [(call', resp')]⟩ := by
  rw [foldl_cons, step, h, foldl_cons, step, h', foldl_nil]

variable (C n) in
/-- Every share and every pending round goes back to a request of round one. -/
structure Traced (calls : List NodeCall) (s : NodeRun F G) : Prop where
  kept : n.Kept s.node
  returned : ∀ {q resp k signerSet bytes}, (q, resp) ∈ s.log →
    q.asked = some (k, signerSet, bytes) →
    ∃ r p, [r, q].Sublist calls ∧ r.drawn C n = some (k, p) ∧ SignedOver C bytes p.signedDigest
  waiting : ∀ {k p}, s.node.caches k = some p → ∃ r ∈ calls, r.drawn C n = some (k, p) ∧
    ∀ {q resp signerSet bytes}, (q, resp) ∈ s.log → q.asked = some (k, signerSet, bytes) →
      ∃ r' p', [r', q, r].Sublist calls ∧ r'.drawn C n = some (k, p') ∧
        SignedOver C bytes p'.signedDigest

omit [DecidableEq F] [DecidableEq G] in
theorem traced_nil (hn : n.Fresh) : Traced C n [] ⟨n, []⟩ where
  kept := ⟨rfl, rfl⟩
  returned h := by cases h
  waiting {k p} h := by
    rw [hn.caches_eq_none] at h
    cases h

omit [DecidableEq F] [DecidableEq G] in
theorem Traced.carry (hs : Traced C n calls s) {call : NodeCall}
    {log : List (NodeCall × NodeResponse)}
    {k : Protocol × SessionId} {p : PendingRound F} (hold : s.node.caches k = some p)
    (hlog : ∀ q resp signerSet bytes, (q, resp) ∈ log → q.asked = some (k, signerSet, bytes) →
      (q, resp) ∈ s.log) :
    ∃ r ∈ calls ++ [call], r.drawn C n = some (k, p) ∧
      ∀ {q resp signerSet bytes}, (q, resp) ∈ log → q.asked = some (k, signerSet, bytes) →
        ∃ r' p', [r', q, r].Sublist (calls ++ [call]) ∧ r'.drawn C n = some (k, p') ∧
          SignedOver C bytes p'.signedDigest := by
  obtain ⟨r, hr, hrdrawn, hshares⟩ := hs.waiting hold
  refine ⟨r, mem_append_left _ hr, hrdrawn, fun hmem hasked => ?_⟩
  obtain ⟨r', p', hsublist, hr', hover⟩ := hshares (hlog _ _ _ _ hmem hasked) hasked
  exact ⟨r', p', hsublist.trans (sublist_append_left ..), hr', hover⟩

theorem Traced.step (hs : Traced C n calls s) (call : NodeCall) :
    Traced C n (calls ++ [call]) (s.step C call) := by
  obtain ⟨signed, hturn, hkept, hlog⟩ := step_turn (C := C) s call
  have hdrawn : call.drawn C s.node = call.drawn C n := drawn_congr hs.kept.1 call
  refine ⟨⟨hkept.1.trans hs.kept.1, hkept.2.trans hs.kept.2⟩, ?_, ?_⟩
  · intro q resp k signerSet bytes hmem hasked
    rcases hlog q resp hmem (by rw [hasked]; rfl) with hold | ⟨rfl, hsigned⟩
    · obtain ⟨r, p, hsublist, hr, hover⟩ := hs.returned hold hasked
      exact ⟨r, p, hsublist.trans (sublist_append_left ..), hr, hover⟩
    · cases hturn with
      | drops _ => cases hsigned
      | puts _ _ _ => cases hsigned
      | takes hasked' hk _ _ _ hover =>
        obtain ⟨rfl, -, rfl⟩ : _ ∧ _ ∧ _ := by simpa using hasked'.symm.trans hasked
        obtain ⟨r, hr, hrdrawn, -⟩ := hs.waiting hk
        exact ⟨r, _, (singleton_sublist.2 hr).append (List.Sublist.refl _), hrdrawn, hover⟩
  · intro k p hp
    cases hturn with
    | drops hrest =>
      refine hs.carry (hrest k p hp) fun q resp _ _ hmem hasked => ?_
      rcases hlog q resp hmem (by rw [hasked]; rfl) with hold | ⟨-, hsigned⟩
      · exact hold
      · cases hsigned
    | @puts k₀ p₀ hdraws hk₀ hrest =>
      have hold : ∀ q resp signerSet bytes, (q, resp) ∈ (s.step C call).log →
          q.asked = some (k, signerSet, bytes) → (q, resp) ∈ s.log := by
        intro q resp _ _ hmem hasked
        rcases hlog q resp hmem (by rw [hasked]; rfl) with hold | ⟨-, hsigned⟩
        · exact hold
        · cases hsigned
      rcases eq_or_ne k k₀ with rfl | hne
      · -- The entry is that of the call, and all shares were returned before.
        obtain rfl : p₀ = p := Option.some.inj (hk₀.symm.trans hp)
        refine ⟨call, by simp, hdrawn.symm.trans hdraws, fun hmem hasked => ?_⟩
        obtain ⟨r, p, hsublist, hr, hover⟩ := hs.returned (hold _ _ _ _ hmem hasked) hasked
        exact ⟨r, p, hsublist.append (List.Sublist.refl [call]), hr, hover⟩
      · exact hs.carry (hrest k p hne hp) hold
    | @takes k₀ p₀ _ _ hasks _ hk₀ hrest _ _ =>
      have hne : k ≠ k₀ := by
        rintro rfl
        rw [hk₀] at hp
        cases hp
      refine hs.carry (hrest k p hp) fun q resp _ _ hmem hasked => ?_
      rcases hlog q resp hmem (by rw [hasked]; rfl) with hold | ⟨rfl, -⟩
      · exact hold
      · exact absurd (congrArg Prod.fst (Option.some.inj (hasked.symm.trans hasks))) hne

end NodeRun

namespace FrostAuxiliaryNode

open NodeRun

variable {C} {n : FrostAuxiliaryNode F G}

theorem serve_concat (n : FrostAuxiliaryNode F G) (calls : List NodeCall) (call : NodeCall) :
    n.serve C (calls ++ [call]) = (n.serve C calls).step C call := by
  rw [serve, foldl_append]
  rfl

/-- Every run is traced. -/
theorem traced_serve (hn : n.Fresh) (calls : List NodeCall) :
    Traced C n calls (n.serve C calls) := by
  induction calls using List.reverseRecOn with
  | nil => exact traced_nil hn
  | append_singleton calls call ih =>
    rw [serve_concat]
    exact ih.step call

/-! ### One digest in a session -/

/-- Rounds one around a round two of the session have one digest. -/
def SameDigest (calls : List NodeCall) : Prop :=
  ∀ ambient₁ r₁ now₁ q ambient₂ r₂ now₂,
    [.frostRound1 ambient₁ r₁ now₁, .frostRound2 q, .frostRound1 ambient₂ r₂ now₂].Sublist calls →
    r₁.sessionId = q.sessionId → r₂.sessionId = q.sessionId → r₁.signedDigest = r₂.signedDigest

variable {calls : List NodeCall} {resp : NodeResponse}

theorem SameDigest.of_sublist {calls' : List NodeCall} (h : SameDigest calls')
    (hsub : calls.Sublist calls') : SameDigest calls :=
  fun ambient₁ r₁ now₁ q ambient₂ r₂ now₂ hsublist =>
    h ambient₁ r₁ now₁ q ambient₂ r₂ now₂ (hsublist.trans hsub)

omit [DecidableEq F] [DecidableEq G] in
theorem SameDigest.signedOver_of_waiting (hcalls : SameDigest calls) {s : NodeRun F G}
    (hs : Traced C n calls s) {q : FrostRound2Request} {p : PendingRound F}
    (hp : s.node.caches (.attestation, q.sessionId) = some p)
    (hq : (.frostRound2 q, resp) ∈ s.log) : SignedOver C q.signingPackageBytes p.signedDigest := by
  obtain ⟨r, -, hr, hshares⟩ := hs.waiting hp
  obtain ⟨r', p', hsublist, hr', hover⟩ := hshares hq rfl
  obtain ⟨ambient, req, now, rfl, hid, hdig⟩ := drawn_eq_attestation hr
  obtain ⟨ambient', request', now', rfl, hid', hdigest'⟩ := drawn_eq_attestation hr'
  have hsame := hcalls _ _ _ _ _ _ _ hsublist hid' hid
  rwa [hdig, ← hsame, ← hdigest']

theorem agree_of_sameDigest (hn : n.Fresh) (hcalls : SameDigest calls) {q q' : FrostRound2Request}
    {resp' : NodeResponse} (hq : (.frostRound2 q, resp) ∈ (n.serve C calls).log)
    (hq' : (.frostRound2 q', resp') ∈ (n.serve C calls).log) (hid : q.sessionId = q'.sessionId) :
    ∃ d, SignedOver C q.signingPackageBytes d ∧ SignedOver C q'.signingPackageBytes d := by
  induction calls using List.reverseRecOn generalizing q q' resp resp' with
  | nil => cases hq
  | append_singleton calls call ih =>
    rw [serve_concat] at hq hq'
    have hprev := hcalls.of_sublist (sublist_append_left calls [call])
    have hs := traced_serve (C := C) hn calls
    obtain ⟨signed, hturn, -, hlog⟩ := step_turn (C := C) (n.serve C calls) call
    -- A share that the call returns is over the digest that waited.
    have hnew : ∀ {q : FrostRound2Request}, .frostRound2 q = call → signed.isSome →
        ∃ p, (n.serve C calls).node.caches (.attestation, q.sessionId) = some p ∧
          SignedOver C q.signingPackageBytes p.signedDigest := by
      rintro q rfl hsigned
      cases hturn with
      | drops _ => cases hsigned
      | puts _ _ _ => cases hsigned
      | takes hasked hk _ _ _ hover =>
        obtain ⟨rfl, -, rfl⟩ : _ ∧ _ ∧ _ := by simpa [asked] using hasked
        exact ⟨_, hk, hover⟩
    rcases hlog _ _ hq rfl with hold | ⟨hcall, hsigned⟩
    · rcases hlog _ _ hq' rfl with hold' | ⟨hcall', hsigned'⟩
      · exact ih hprev hold hold' hid
      · obtain ⟨p, hp, hover⟩ := hnew hcall' hsigned'
        rw [← hid] at hp
        exact ⟨_, hprev.signedOver_of_waiting hs hp hold, hover⟩
    · obtain ⟨p, hp, hover⟩ := hnew hcall hsigned
      rcases hlog _ _ hq' rfl with hold' | ⟨hcall', -⟩
      · rw [hid] at hp
        exact ⟨_, hover, hprev.signedOver_of_waiting hs hp hold'⟩
      · obtain rfl := frostRound2.inj (hcall.trans hcall'.symm)
        exact ⟨_, hover, hover⟩

/-- **One digest in a session**: all shares of a node are over it, if a round one after a round two
repeats the digest. -/
theorem singleDigest_of_sameDigest (hn : n.Fresh) {calls : List NodeCall}
    (hcalls : SameDigest calls) (id : SessionId) :
    ∃ d, ∀ q resp, (.frostRound2 q, resp) ∈ (n.serve C calls).log → q.sessionId = id →
      SignedOver C q.signingPackageBytes d := by
  by_cases hany : ∃ q resp, (.frostRound2 q, resp) ∈ (n.serve C calls).log ∧ q.sessionId = id
  · obtain ⟨q, resp, hq, rfl⟩ := hany
    obtain ⟨d, hd, -⟩ := agree_of_sameDigest hn hcalls hq hq rfl
    refine ⟨d, fun q' resp' hq' hid => ?_⟩
    obtain ⟨d', hd', hover'⟩ := agree_of_sameDigest hn hcalls hq hq' hid.symm
    rwa [hd.unique hd']
  · exact ⟨.zero, fun q resp hq hid => absurd ⟨q, resp, hq, hid⟩ hany⟩

/-! A group of one, with two approvals of one session. -/

theorem exists_round2_soloPackage (message : Bytes) :
    ∃ share, soloParticipant.round2 soloCrates.toFrostCrates (soloPackage message)
      (soloParticipant.round1 soloCrates.toFrostCrates (soloAmbient 0).random).1 = .ok share := by
  -- The commitments of the package do not depend on its message.
  have hcard : soloParticipant.keyPackage.minSigners ≤
      (soloPackage []).signingCommitments.entries.card := by decide
  have hnonzero : ∀ e ∈ (soloPackage []).signingCommitments.entries,
      e.2.hidingCommitment ≠ 0 ∧ e.2.bindingCommitment ≠ 0 := by decide
  simp only [FrostParticipant.round2, Ciphersuite.sign, Ciphersuite.groupCommitment, do_eq_ok]
  exact ⟨_, _, ⟨(), hcard, _, Finmap.lookup_insert _, (), rfl, _, ⟨(), hnonzero, rfl⟩, rfl⟩, rfl⟩

def soloSession : SessionId := ⟨.replicate 16 0⟩

def soloRound2Request (digest : DigestBytes) : FrostRound2Request where
  sessionId := soloSession
  coordinatorId := .fromBytes (.replicate 32 9)
  signingPackageBytes := digest.asBytes.toList
  signerSet := [soloParticipant.verifierId]

def approvalCalls (envelopeDigest : DigestBytes) : List NodeCall :=
  [.frostRound1 (soloAmbient 0) (soloRequest soloSession envelopeDigest .genesis) ⟨0⟩,
    .frostRound2 (soloRound2Request (approvalSignedDigest envelopeDigest))]

structure Idle (n : FrostAuxiliaryNode Toy Toy) : Prop where
  participant : n.participant = soloParticipant
  registry : n.registry = none
  pending : n.pending soloSession = none

/-- **The two rounds** are answered, and nothing waits again. -/
theorem exists_exec_approvalCalls {n : FrostAuxiliaryNode Toy Toy} (hn : Idle n)
    (envelopeDigest : DigestBytes) :
    ∃ resp n₁ resp' n₂,
      ((NodeCall.frostRound1 (soloAmbient 0) (soloRequest soloSession envelopeDigest .genesis)
        ⟨0⟩).exec soloCrates).run n = .ok resp n₁ ∧
      ((NodeCall.frostRound2 (soloRound2Request (approvalSignedDigest envelopeDigest))).exec
        soloCrates).run n₁ = .ok resp' n₂ ∧ Idle n₂ := by
  have hreg : checkRegistry n.registry (soloRequest soloSession envelopeDigest .genesis) =
      .ok () := by
    rw [hn.registry]
    rfl
  have hround1 := run_frostRound1_solo soloCrates n
    (soloRequest soloSession envelopeDigest .genesis) hn.participant hn.pending rfl rfl hreg
    (checkEvidence_eq_ok.2 ⟨by simp [soloRequest], by simp [soloRequest]⟩)
  obtain ⟨share, hshare⟩ :=
    exists_round2_soloPackage (approvalSignedDigest envelopeDigest).asBytes.toList
  have hsign : frostRound2Sign soloCrates n
      (frostRound1Pending soloCrates (soloAmbient 0) n (soloRequest soloSession envelopeDigest
        .genesis)) (soloRound2Request (approvalSignedDigest envelopeDigest)) = .ok share := by
    refine signPending_eq_ok.2 ⟨rfl, soloPackage _, rfl, rfl, ?_⟩
    rw [frostRound1Pending, hn.participant]
    exact hshare
  have hwaiting : update (evictExpired 0 n.pending) soloSession
      (some (frostRound1Pending soloCrates (soloAmbient 0) n
        (soloRequest soloSession envelopeDigest .genesis))) soloSession = some _ :=
    update_self soloSession _ (evictExpired 0 n.pending)
  refine ⟨_, _, _, _, run_map_ok.2 ⟨_, hround1, rfl⟩,
    run_map_ok.2 ⟨_, run_frostRound2_eq_ok.2 ⟨_, share, hwaiting, hsign, rfl, rfl⟩, rfl⟩,
    hn.participant, hn.registry, ?_⟩
  simp [soloRound2Request]

theorem exists_foldl_approvalCalls {s : NodeRun Toy Toy} (hs : Idle s.node)
    (envelopeDigest : DigestBytes) :
    ∃ n entry resp, (approvalCalls envelopeDigest).foldl (NodeRun.step soloCrates) s =
        ⟨n, s.log ++ [entry] ++
          [(.frostRound2 (soloRound2Request (approvalSignedDigest envelopeDigest)), resp)]⟩ ∧
      Idle n := by
  obtain ⟨_, _, _, n, hround1, hround2, hidle⟩ := exists_exec_approvalCalls hs envelopeDigest
  exact ⟨n, _, _, foldl_step_pair hround1 hround2, hidle⟩

theorem exists_mem_log_approvalCalls (d d' : DigestBytes) :
    ∃ resp resp', (.frostRound2 (soloRound2Request (approvalSignedDigest d)), resp) ∈
        ((new soloParticipant).serve soloCrates (approvalCalls d ++ approvalCalls d')).log ∧
      (.frostRound2 (soloRound2Request (approvalSignedDigest d')), resp') ∈
        ((new soloParticipant).serve soloCrates (approvalCalls d ++ approvalCalls d')).log := by
  have hnew : Idle (⟨new soloParticipant, []⟩ : NodeRun Toy Toy).node := ⟨rfl, rfl, rfl⟩
  obtain ⟨n, _, resp, hfirst, hidle⟩ := exists_foldl_approvalCalls hnew d
  obtain ⟨n', _, resp', hsecond, -⟩ := exists_foldl_approvalCalls (s := ⟨n, _⟩) hidle d'
  refine ⟨resp, resp', ?_⟩
  rw [serve, foldl_append, hfirst, hsecond]
  simp

theorem sameDigest_approvalCalls (d : DigestBytes) :
    SameDigest (approvalCalls d ++ approvalCalls d) := by
  intro ambient₁ r₁ now₁ q ambient₂ r₂ now₂ hsublist _ _
  have hdig : ∀ ambient r now, .frostRound1 ambient r now ∈ approvalCalls d ++ approvalCalls d →
      r.signedDigest = approvalSignedDigest d := by
    intro ambient r now hmem
    rw [mem_append, or_self, approvalCalls, mem_cons, mem_singleton] at hmem
    rcases hmem with h | h
    · obtain ⟨-, rfl, -⟩ := frostRound1.inj h
      rfl
    · cases h
  rw [hdig ambient₁ r₁ now₁ (hsublist.subset (by simp)),
    hdig ambient₂ r₂ now₂ (hsublist.subset (by simp))]

theorem singleDigest_of_sameDigest_approvalCalls :
    (∃ resp, (.frostRound2 (soloRound2Request (approvalSignedDigest .zero)), resp) ∈
      ((new soloParticipant).serve soloCrates (approvalCalls .zero ++ approvalCalls .zero)).log) ∧
    ∃ d, ∀ q resp, (.frostRound2 q, resp) ∈
        ((new soloParticipant).serve soloCrates (approvalCalls .zero ++ approvalCalls .zero)).log →
      q.sessionId = soloSession → SignedOver soloCrates q.signingPackageBytes d := by
  obtain ⟨resp, _, hmem, -⟩ := exists_mem_log_approvalCalls .zero .zero
  exact ⟨⟨resp, hmem⟩,
    singleDigest_of_sameDigest (.inl rfl) (sameDigest_approvalCalls .zero) soloSession⟩

set_option maxRecDepth 100000 in
/-- **Two digests in one session**, which is opened again. -/
theorem not_singleDigest_approvalCalls :
    ¬ ∃ d, ∀ q resp, (.frostRound2 q, resp) ∈ ((new soloParticipant).serve soloCrates
        (approvalCalls .zero ++ approvalCalls (.fromBytes (.replicate 32 1)))).log →
      q.sessionId = soloSession → SignedOver soloCrates q.signingPackageBytes d := by
  rintro ⟨d, hd⟩
  obtain ⟨resp, resp', hmem, hmem'⟩ :=
    exists_mem_log_approvalCalls .zero (.fromBytes (.replicate 32 1))
  have hover : ∀ d, SignedOver soloCrates (soloRound2Request d).signingPackageBytes d :=
    fun d => ⟨_, rfl, rfl⟩
  have hfirst := (hd _ _ hmem rfl).unique (hover _)
  have hsecond := (hd _ _ hmem' rfl).unique (hover _)
  have hne : approvalSignedDigest .zero ≠ approvalSignedDigest (.fromBytes (.replicate 32 1)) := by
    decide +kernel
  exact hne (hfirst.symm.trans hsecond)

/-! ### Bindings and approvals -/

variable {q : HandshakeBindingRound2Request}

theorem exists_bindingInput_of_mem_log (hn : n.Fresh)
    (hq : (.handshakeBindingRound2 q, resp) ∈ (n.serve C calls).log) :
    ∃ ambient req now, .handshakeBindingRound1 ambient req now ∈ calls ∧
      req.sessionId = q.sessionId ∧
      SignedOver C q.signingPackageBytes req.bindingInput := by
  obtain ⟨r, p, hsublist, hr, hover⟩ := (traced_serve hn calls).returned hq rfl
  obtain ⟨ambient, req, now, rfl, hid, hdig⟩ := drawn_eq_handshakeBinding hr
  rw [hdig] at hover
  exact ⟨ambient, req, now, hsublist.subset (by simp), hid, hover⟩

/-- **Bindings are not approvals**, of an envelope that nobody has sent as a binding input. -/
theorem message_ne_approvalSignedDigest (hn : n.Fresh) {calls : List NodeCall}
    {envelopeDigest : DigestBytes}
    (hcalls : ∀ ambient req now, .handshakeBindingRound1 ambient req now ∈ calls →
      req.bindingInput ≠ approvalSignedDigest envelopeDigest)
    {resp : NodeResponse}
    (hq : (.handshakeBindingRound2 q, resp) ∈ (n.serve C calls).log) :
    ∃ package, C.parsePackage q.signingPackageBytes = .ok package ∧
      package.message ≠ (approvalSignedDigest envelopeDigest).asBytes.toList := by
  obtain ⟨ambient, req, now, hmem, -, hover⟩ := exists_bindingInput_of_mem_log hn hq
  exact hover.exists_message_ne (hcalls ambient req now hmem)

variable (bindingInput : DigestBytes)

def bindingRequest : HandshakeBindingRound1Request where
  sessionId := soloSession
  coordinatorId := .fromBytes (.replicate 32 9)
  bindingInput := bindingInput
  signerSet := [soloParticipant.verifierId]
  roundExpiresAt := ⟨0⟩
  registryEpoch := .genesis

def bindingRound2Request : HandshakeBindingRound2Request where
  sessionId := soloSession
  coordinatorId := .fromBytes (.replicate 32 9)
  signingPackageBytes := bindingInput.asBytes.toList
  signerSet := [soloParticipant.verifierId]

def bindingCalls : List NodeCall :=
  [.handshakeBindingRound1 (soloAmbient 0) (bindingRequest bindingInput) ⟨0⟩,
    .handshakeBindingRound2 (bindingRound2Request bindingInput)]

theorem exists_mem_log_bindingCalls :
    ∃ resp, (.handshakeBindingRound2 (bindingRound2Request bindingInput), resp) ∈
      ((new soloParticipant).serve soloCrates (bindingCalls bindingInput)).log := by
  have hchk : handshakeBindingRound1Checks (new soloParticipant) (bindingRequest bindingInput)
      ⟨0⟩ = .ok () :=
    handshakeBindingRound1Checks_eq_ok.2 ⟨UInt64.zero_le, mem_singleton_self _, rfl⟩
  obtain ⟨share, hshare⟩ := exists_round2_soloPackage bindingInput.asBytes.toList
  have hsign : handshakeBindingSign soloCrates (new soloParticipant)
      (handshakeBindingPending soloCrates (soloAmbient 0) (new soloParticipant)
        (bindingRequest bindingInput)) (bindingRound2Request bindingInput) = .ok share :=
    signPending_eq_ok.2 ⟨rfl, soloPackage _, rfl, rfl, hshare⟩
  have hwaiting : update (evictExpired 0 fun _ => none) soloSession
      (some (handshakeBindingPending soloCrates (soloAmbient 0) (new soloParticipant)
        (bindingRequest bindingInput))) soloSession = some _ :=
    update_self soloSession _ _
  have hfold : ∃ n entry resp, (bindingCalls bindingInput).foldl (NodeRun.step soloCrates)
      ⟨new soloParticipant, []⟩ = ⟨n, [] ++ [entry] ++
        [(.handshakeBindingRound2 (bindingRound2Request bindingInput), resp)]⟩ :=
    ⟨_, _, _, foldl_step_pair
      (run_map_ok.2 ⟨_, run_handshakeBindingRound1_eq_ok.2 ⟨hchk, rfl, rfl, rfl⟩, rfl⟩)
      (run_map_ok.2 ⟨_, run_handshakeBindingRound2_eq_ok.2
        ⟨_, share, hwaiting, hsign, rfl, rfl⟩, rfl⟩)⟩
  obtain ⟨n, entry, resp, hfold⟩ := hfold
  refine ⟨resp, ?_⟩
  rw [serve, hfold]
  simp

set_option maxRecDepth 100000 in
theorem message_ne_approvalSignedDigest_zero :
    ∃ package,
      soloCrates.parsePackage (bindingRound2Request .zero).signingPackageBytes = .ok package ∧
        package.message ≠ (approvalSignedDigest .zero).asBytes.toList := by
  obtain ⟨resp, hmem⟩ := exists_mem_log_bindingCalls .zero
  refine message_ne_approvalSignedDigest (.inl rfl) (fun ambient req now hcall => ?_) hmem
  rw [bindingCalls, List.mem_cons, List.mem_singleton] at hcall
  rcases hcall with h | h
  · obtain ⟨-, rfl, -⟩ := handshakeBindingRound1.inj h
    have hne : DigestBytes.zero ≠ approvalSignedDigest .zero := by decide +kernel
    exact hne
  · cases h

/-- **An approval through the other door**, without a check of the envelope. -/
theorem exists_approval_of_bindingCalls :
    ∃ resp, (.handshakeBindingRound2 (bindingRound2Request (approvalSignedDigest .zero)), resp) ∈
        ((new soloParticipant).serve soloCrates (bindingCalls (approvalSignedDigest .zero))).log ∧
      SignedOver soloCrates (bindingRound2Request (approvalSignedDigest .zero)).signingPackageBytes
        (approvalSignedDigest .zero) := by
  obtain ⟨resp, hmem⟩ := exists_mem_log_bindingCalls (approvalSignedDigest .zero)
  exact ⟨resp, hmem, _, rfl, rfl⟩

end FrostAuxiliaryNode

end TlsAttestation
