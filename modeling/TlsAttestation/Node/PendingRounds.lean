import TlsAttestation.Node.Interleaving

/-!
# How long a round waits, and how often it is opened

Old entries are dropped only when a new one is inserted, so a share can be made from an entry of any
age (`FrostAuxiliaryNode.signsInTime_of_timely`). A node looks for a session before it inserts it;
in the binding of a handshake a second call may look in between
(`Interleaving.atMostOneOpened_of_exclusive`).
-/

namespace TlsAttestation

open Frost Function Threads

/-! ### Calls at a time -/

structure TimedCall where
  call : NodeCall
  clock : ℕ
  time : UnixTimestamp

def NodeCall.opens : NodeCall → Option ((Protocol × SessionId) × ℕ × UnixTimestamp)
  | .frostRound1 ambient req _ =>
    some ((.attestation, req.sessionId), ambient.insertedAt, req.roundExpiresAt)
  | .handshakeBindingRound1 ambient req _ =>
    some ((.handshakeBinding, req.sessionId), ambient.insertedAt, req.roundExpiresAt)
  | _ => none

/-- **Every round two is in time** for all earlier rounds one of its session. -/
def Timely (calls : List TimedCall) : Prop :=
  ∀ r q k insertedAt expiresAt signerSet bytes, [r, q].Sublist calls →
    r.call.opens = some (k, insertedAt, expiresAt) → q.call.asked = some (k, signerSet, bytes) →
    q.clock - insertedAt ≤ pendingTtl ∧ q.time.secs ≤ expiresAt.secs

section

variable {F G : Type} [Field F] [AddCommGroup G] [Module F G] {C : NodeCrates F G}
  {n : FrostAuxiliaryNode F G}

theorem NodeCall.exists_opens_of_drawn {call : NodeCall} {k : Protocol × SessionId}
    {p : PendingRound F} (h : call.drawn C n = some (k, p)) :
    ∃ expiresAt, call.opens = some (k, p.insertedAt, expiresAt) := by
  cases call with
  | frostRound1 ambient req now =>
    obtain ⟨rfl, rfl⟩ := Prod.mk.inj (Option.some.inj h)
    exact ⟨_, rfl⟩
  | frostRound2 req => cases h
  | handshakeBindingRound1 ambient req now =>
    obtain ⟨rfl, rfl⟩ := Prod.mk.inj (Option.some.inj h)
    exact ⟨_, rfl⟩
  | handshakeBindingRound2 req => cases h

namespace FrostAuxiliaryNode

variable [DecidableEq F] [DecidableEq G]

/-- A share is made before its round expires, and before its nonces are to be evicted. -/
def SignsInTime (C : NodeCrates F G) (n : FrostAuxiliaryNode F G) (calls : List TimedCall) : Prop :=
  ∀ before q after k signerSet bytes resp n', calls = before ++ q :: after →
    q.call.asked = some (k, signerSet, bytes) →
    (q.call.exec C).run (n.serve C (before.map TimedCall.call)).node = .ok resp n' →
    ∃ p r expiresAt, (n.serve C (before.map TimedCall.call)).node.caches k = some p ∧
      r ∈ before ∧ r.call.drawn C n = some (k, p) ∧
      r.call.opens = some (k, p.insertedAt, expiresAt) ∧
      q.clock - p.insertedAt ≤ pendingTtl ∧ q.time.secs ≤ expiresAt.secs

/-- Shares are made in time if they are asked for in time. -/
theorem signsInTime_of_timely (hn : n.Fresh) {calls : List TimedCall} (h : Timely calls) :
    SignsInTime C n calls := by
  rintro before q after k signerSet bytes resp n' rfl hasked hrun
  obtain ⟨signed, hturn, hsigned, -⟩ := NodeCall.turn_of_exec_ok hrun
  have hsome : signed.isSome := hsigned (by rw [hasked]; rfl)
  cases hturn with
  | drops _ => cases hsome
  | puts _ _ _ => cases hsome
  | takes hasked' hk _ _ _ _ =>
    obtain ⟨rfl, -⟩ := Prod.mk.inj (Option.some.inj (hasked'.symm.trans hasked))
    -- What waits goes back to a call of round one.
    obtain ⟨call, hcall, hdrawn, -⟩ := (traced_serve hn _).waiting hk
    obtain ⟨r, hr, rfl⟩ := List.mem_map.1 hcall
    obtain ⟨expiresAt, hopens⟩ := NodeCall.exists_opens_of_drawn hdrawn
    have hsub : [r, q].Sublist (before ++ q :: after) :=
      (List.singleton_sublist.2 hr).append (List.singleton_sublist.2 (List.mem_cons_self ..))
    exact ⟨_, r, expiresAt, hk, hr, hdrawn, hopens, h r q _ _ _ _ _ hsub hopens hasked⟩

end FrostAuxiliaryNode

end

namespace FrostAuxiliaryNode

def timedApproval (clock : ℕ) (time : UnixTimestamp) : List TimedCall :=
  [⟨.frostRound1 (soloAmbient 0) (soloRequest soloSession .zero .genesis) ⟨0⟩, 0, ⟨0⟩⟩,
    ⟨.frostRound2 (soloRound2Request (approvalSignedDigest .zero)), clock, time⟩]

theorem signsInTime_of_timely_approval :
    Timely (timedApproval 0 ⟨0⟩) ∧
      SignsInTime soloCrates (new soloParticipant) (timedApproval 0 ⟨0⟩) := by
  have htimely : Timely (timedApproval 0 ⟨0⟩) := by
    intro r q k insertedAt expiresAt signerSet bytes hsub hopens hasked
    have hq : q ∈ timedApproval 0 ⟨0⟩ := hsub.subset (by simp)
    rw [timedApproval, List.mem_cons, List.mem_singleton] at hq
    rcases hq with rfl | rfl
    · cases hasked
    · exact ⟨Nat.sub_le_of_le_add (Nat.zero_le _), UInt64.zero_le⟩
  exact ⟨htimely, signsInTime_of_timely (.inl rfl) htimely⟩

/-- **A share from an old entry**, after the request has expired. -/
theorem not_signsInTime_lateCalls :
    ¬ SignsInTime soloCrates (new soloParticipant) (timedApproval (pendingTtl + 1) ⟨1⟩) := by
  intro h
  obtain ⟨_, n₁, resp, n₂, hround1, hround2, -⟩ :=
    exists_exec_approvalCalls (n := new soloParticipant) ⟨rfl, rfl, rfl⟩ .zero
  have hserve : ((new soloParticipant).serve soloCrates [.frostRound1 (soloAmbient 0)
      (soloRequest soloSession .zero .genesis) ⟨0⟩]).node = n₁ := by
    rw [serve, List.foldl_cons, NodeRun.step, hround1]
    rfl
  obtain ⟨p, r, expiresAt, -, hr, -, hopens, hage, -⟩ :=
    h [_] _ [] _ _ _ resp n₂ rfl rfl (by rw [List.map_singleton, hserve]; exact hround2)
  obtain rfl := List.mem_singleton.1 hr
  have hinserted : 0 = p.insertedAt := (Prod.mk.inj (Prod.mk.inj (Option.some.inj hopens)).2).1
  rw [← hinserted] at hage
  exact absurd hage (by decide)

end FrostAuxiliaryNode

/-! ### Calls at the same time -/

namespace Interleaving

open NodeCall FrostAuxiliaryNode

variable {F G : Type} [Field F] [AddCommGroup G] [Module F G] {ι : Type} (C : NodeCrates F G)
  (n : FrostAuxiliaryNode F G) (ambient : ι → Ambient)
  (req : ι → HandshakeBindingRound1Request) (now : ι → UnixTimestamp)

def bindingCalls (i : ι) : NodeCall := .handshakeBindingRound1 (ambient i) (req i) (now i)

def insertion (i : ι) : Prog (Caches F) (CallResult F) :=
  .locked (fun c => c.replace .handshakeBinding <|
      update (evictExpired (ambient i).evictedAt (c.part .handshakeBinding))
        (req i).sessionId (some (handshakeBindingPending C (ambient i) n (req i))))
    (fun _ => .done (.ok (.handshakeBindingRound1
      (handshakeBindingRound1Response C (ambient i) n (req i)), none)))

variable (pool : Pool ι (Caches F) (CallResult F))

def Exclusive (i : ι) : Prop :=
  ∀ j, j ≠ i → pool.threads j ≠ insertion C n ambient req j

/-- Of all calls of round one for a session, one is answered at most. -/
def AtMostOneOpened : Prop :=
  ∀ i j, Opened (pool.threads i) → Opened (pool.threads j) → i = j

variable [DecidableEq F] [DecidableEq G]

/-- Only the `active` call is past its look at the cache: it inserts next, or has been answered. -/
structure Guarded (id : SessionId) (pool : Pool ι (Caches F) (CallResult F)) (active : Option ι) :
    Prop where
  idle : ∀ i, active ≠ some i → pool.threads i = (bindingCalls ambient req now i).prog C n ∨
    ∃ e, pool.threads i = .done (.error e)
  busy : ∀ i, active = some i → pool.threads i = insertion C n ambient req i ∨
    Opened (pool.threads i) ∧ pool.shared (.handshakeBinding, id) ≠ none

variable {C n ambient req now} {id : SessionId} {pool : Pool ι (Caches F) (CallResult F)}
  {active : Option ι} {i : ι}

theorem Guarded.eq_of_opened (h : Guarded C n ambient req now id pool active)
    (hi : Opened (pool.threads i)) : active = some i := by
  by_contra hne
  obtain ⟨resp, hresp⟩ := hi
  rcases h.idle i hne with hprog | ⟨e, he⟩
  · rw [hresp, bindingCalls, prog, handshakeBindingRound1Prog] at hprog
    split at hprog <;> cases hprog
  · cases hresp.symm.trans he

variable [DecidableEq ι]

theorem Guarded.look (h : Guarded C n ambient req now id pool active)
    (hid : (req i).sessionId = id) (hexcl : Exclusive C n ambient req pool i)
    (hne : active ≠ some i) (hi : pool.threads i = (bindingCalls ambient req now i).prog C n) :
    ∃ active, Guarded C n ambient req now id (pool.step i) active := by
  rw [bindingCalls, prog, handshakeBindingRound1Prog] at hi
  split at hi
  · rw [Pool.step_of_done hi]
    exact ⟨active, h⟩
  rw [Pool.step_of_locked hi]
  split
  · -- The session is there.
    refine ⟨active, fun j => ?_, fun j hj => ?_⟩
    · exact (Function.forall_update_iff pool.threads fun j p => active ≠ some j →
        p = (bindingCalls ambient req now j).prog C n ∨ ∃ e, p = .done (.error e)).2
        ⟨fun _ => .inr ⟨_, rfl⟩, fun j _ => h.idle j⟩ j
    · dsimp only
      rw [update_of_ne (by rintro rfl; exact hne hj)]
      exact h.busy j hj
  · next hguard =>
    -- It is not there, so that no call has inserted it, and none is about to.
    have hnone : ∀ j, active ≠ some j := by
      intro j hj
      rcases h.busy j hj with hins | ⟨-, hseen⟩
      · exact hexcl j (by rintro rfl; exact hne hj) hins
      · rw [← hid] at hseen
        exact hseen (Fallible.ensure_eq_ok.1 hguard)
    refine ⟨some i, fun j hj => ?_, fun j hj => ?_⟩
    · dsimp only
      rw [update_of_ne (by rintro rfl; exact hj rfl)]
      exact h.idle j (hnone j)
    · obtain rfl := Option.some.inj hj
      exact .inl (update_self ..)

theorem Guarded.step (h : Guarded C n ambient req now id pool active)
    (hid : (req i).sessionId = id) (hexcl : Exclusive C n ambient req pool i) :
    ∃ active, Guarded C n ambient req now id (pool.step i) active := by
  rcases eq_or_ne active (some i) with hi | hne
  · rcases h.busy i hi with hins | ⟨⟨resp, hresp⟩, -⟩
    · rw [Pool.step_of_locked hins]
      refine ⟨active, fun j hj => ?_, fun j hj => ?_⟩
      · dsimp only
        rw [update_of_ne (by rintro rfl; exact hj hi)]
        exact h.idle j hj
      · obtain rfl : i = j := Option.some.inj (hi.symm.trans hj)
        refine .inr ⟨⟨_, update_self ..⟩, ?_⟩
        dsimp only
        rw [Caches.replace_self, hid, update_self]
        exact Option.some_ne_none _
    · rw [Pool.step_of_done hresp]
      exact ⟨active, h⟩
  · rcases h.idle i hne with hprog | ⟨e, he⟩
    · exact h.look hid hexcl hne hprog
    · rw [Pool.step_of_done he]
      exact ⟨active, h⟩

/-- **The duplicate guard**: one call is answered at most, if none looks while another is about to
insert. -/
theorem atMostOneOpened_of_exclusive (hid : ∀ i, (req i).sessionId = id) {schedule : List ι}
    (h : Pool.Meets (Exclusive C n ambient req)
      ⟨n.caches, fun i => (bindingCalls ambient req now i).prog C n⟩ schedule) :
    AtMostOneOpened (interleave C n (bindingCalls ambient req now) schedule) := by
  have hrun : ∀ (schedule : List ι) (pool : Pool ι (Caches F) (CallResult F)) (active : Option ι),
      Guarded C n ambient req now id pool active →
      Pool.Meets (Exclusive C n ambient req) pool schedule →
      ∃ active, Guarded C n ambient req now id (pool.run schedule) active := by
    intro schedule
    induction schedule with
    | nil => exact fun pool active hpool _ => ⟨active, hpool⟩
    | cons i schedule ih =>
      rintro pool active hpool ⟨hi, hrest⟩
      obtain ⟨active', hpool'⟩ := hpool.step (hid i) hi
      exact ih _ _ hpool' hrest
  obtain ⟨active, hact⟩ :=
    hrun schedule _ none ⟨fun i _ => .inl rfl, fun i hi => absurd hi.symm (Option.some_ne_none i)⟩ h
  intro i j hi hj
  exact Option.some.inj ((hact.eq_of_opened hi).symm.trans (hact.eq_of_opened hj))

def twoBindings : Fin 2 → NodeCall :=
  bindingCalls (fun i => soloAmbient i.val.toUInt8) (fun _ => bindingRequest .zero) fun _ => ⟨0⟩

theorem atMostOneOpened_of_exclusive_serial :
    AtMostOneOpened (interleave soloCrates (new soloParticipant) twoBindings [0, 0, 1]) := by
  have hlook (j : Fin 2) : (twoBindings j).prog soloCrates (new soloParticipant) ≠
      insertion soloCrates (new soloParticipant) (fun i => soloAmbient i.val.toUInt8)
        (fun _ => bindingRequest .zero) j := by
    intro h
    cases congrFun (Prog.locked.inj h).2 (new soloParticipant).caches
  refine atMostOneOpened_of_exclusive (fun _ => rfl) ⟨fun j _ => hlook j, fun j hj => ?_,
    fun j hj => ?_, trivial⟩
  · exact (update_of_ne hj ..).trans_ne (hlook j)
  · obtain rfl : j = 0 := by omega
    intro h
    cases h

/-- **The race**: both calls look first, and both are answered. -/
theorem not_atMostOneOpened_race :
    ¬ AtMostOneOpened (interleave soloCrates (new soloParticipant) twoBindings [0, 1, 0, 1]) :=
  fun h => absurd (h 0 1 ⟨_, rfl⟩ ⟨_, rfl⟩) (by decide)

end Interleaving

end TlsAttestation
