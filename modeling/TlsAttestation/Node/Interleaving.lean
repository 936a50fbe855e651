import TlsAttestation.Lib.OneTime
import TlsAttestation.Lib.Threads
import TlsAttestation.Node.Runs

/-!
# Calls of a node at the same time

The critical sections of several calls may come in any order. `handshake_binding_round1` looks for
the session in one section and inserts in **another**, so a call in between may have its entry
replaced. Still the calls are steps of a ledger (`Interleaving.exists_refines`), so nonces are used
in one share (`Interleaving.nonces_used_once`).
-/

namespace TlsAttestation

open ByteEncoding Effect Fallible Frost Function Threads

/-! ### Calls as programs -/

namespace Caches

variable {F : Type}

def part (c : Caches F) (protocol : Protocol) : SessionId → Option (PendingRound F) :=
  fun id => c (protocol, id)

def replace (c : Caches F) (protocol : Protocol) (cache : SessionId → Option (PendingRound F)) :
    Caches F :=
  fun k => if k.1 = protocol then cache k.2 else c k

variable {c : Caches F} {protocol : Protocol} {cache : SessionId → Option (PendingRound F)}

theorem replace_self (id : SessionId) : c.replace protocol cache (protocol, id) = cache id :=
  if_pos rfl

theorem replace_eq_some {k : Protocol × SessionId} {p : PendingRound F}
    (h : c.replace protocol cache k = some p) :
    k.1 = protocol ∧ cache k.2 = some p ∨ k.1 ≠ protocol ∧ c k = some p := by
  unfold replace at h
  split_ifs at h with hk
  · exact .inl ⟨hk, h⟩
  · exact .inr ⟨hk, h⟩

theorem dropped_replace (h : ∀ id p, cache id = some p → c.part protocol id = some p) :
    Dropped c (c.replace protocol cache) := by
  rintro ⟨protocol', id⟩ p hp
  rcases replace_eq_some hp with ⟨hprot, hcache⟩ | ⟨-, hc⟩
  · obtain rfl : protocol' = protocol := hprot
    exact h id p hcache
  · exact hc

theorem dropped_remove {id : SessionId} :
    Dropped c (c.replace protocol (update (c.part protocol) id none)) :=
  dropped_replace fun _ _ => eq_some_of_update_none

/-- **Removing what is not there** changes nothing. -/
theorem replace_remove {id : SessionId} (h : c.part protocol id = none) :
    c.replace protocol (update (c.part protocol) id none) = c := by
  rw [← h, update_eq_self]
  funext ⟨protocol', id'⟩
  exact ite_eq_right_iff.2 fun hprot => by rw [part, ← hprot]

end Caches

open Caches

abbrev CallResult (F : Type) := Except NodeError (NodeResponse × Option (PendingRound F))

namespace NodeCall

section Result

variable {F : Type}

def signedWith : Prog (Caches F) (CallResult F) → Option (PendingRound F)
  | .done (.ok (_, signed)) => signed
  | _ => none

theorem isDone_of_signedWith {p : Prog (Caches F) (CallResult F)} {pending : PendingRound F}
    (h : signedWith p = some pending) : p.IsDone := by
  cases p with
  | done _ => trivial
  | locked _ _ => cases h

def Opened (p : Prog (Caches F) (CallResult F)) : Prop :=
  ∃ resp, p = .done (.ok (resp, none))

end Result

open FrostAuxiliaryNode

variable {F G : Type} [Field F] [AddCommGroup G] [Module F G] (C : NodeCrates F G)
  (n : FrostAuxiliaryNode F G) (ambient : Ambient)

def frostRound1Prog (req : FrostRound1Request) (now : UnixTimestamp) :
    Prog (Caches F) (CallResult F) :=
  match frostRound1Checks C ambient.systemSecs n req now with
  | .error e => .done (.error e)
  | .ok _ =>
    let guard (c : Caches F) :=
      frostRound1Guard (evictExpired ambient.evictedAt (c.part .attestation)) req
    .locked (fun c =>
        let cache := evictExpired ambient.evictedAt (c.part .attestation)
        c.replace .attestation <|
          match guard c with
          | .error _ => cache
          | .ok _ => update cache req.sessionId (some (frostRound1Pending C ambient n req)))
      (fun c =>
        match guard c with
        | .error e => .done (.error e)
        | .ok _ => .done (.ok (.frostRound1 (frostRound1Response C ambient n req), none)))

/-- The checks, a section that looks, and one that inserts. -/
def handshakeBindingRound1Prog (req : HandshakeBindingRound1Request)
    (now : UnixTimestamp) : Prog (Caches F) (CallResult F) :=
  match handshakeBindingRound1Checks n req now with
  | .error e => .done (.error e)
  | .ok _ =>
    .locked id fun c =>
      match handshakeBindingGuard (c.part .handshakeBinding) req with
      | .error e => .done (.error e)
      | .ok _ =>
        .locked (fun c => c.replace .handshakeBinding <|
            update (evictExpired ambient.evictedAt (c.part .handshakeBinding))
              req.sessionId (some (handshakeBindingPending C ambient n req)))
          (fun _ => .done (.ok
            (.handshakeBindingRound1 (handshakeBindingRound1Response C ambient n req), none)))

variable [DecidableEq F] [DecidableEq G]

/-- **The call signs with a pending round**: the share in its response is made with the nonces that
were drawn for that round. -/
def Signs (p : PendingRound F) : NodeCall → NodeResponse → Prop
  | .frostRound2 req, resp => ∃ share, frostRound2Sign C n p req = .ok share ∧
      resp = .frostRound2 ⟨req.sessionId, n.verifierId, C.shareJson share.inner⟩
  | .handshakeBindingRound2 req, resp =>
    ∃ share, handshakeBindingSign C n p req = .ok share ∧
      resp = .handshakeBindingRound2 ⟨req.sessionId, n.verifierId, C.shareJson share.inner⟩
  | _, _ => False

/-- **Each section takes a turn**; one that inserts is the last. Where the program ends with a
pending round, it has signed with it. -/
def TakesTurns (call : NodeCall) : Prog (Caches F) (CallResult F) → Prop
  | .done (.ok (resp, some p)) => Signs C n p call resp
  | .done _ => True
  | .locked update next => ∀ c, Turn C n call c (update c) (signedWith (next c)) ∧
      (Dropped c (update c) ∨ Opened (next c)) ∧ TakesTurns call (next c)

def frostRound2Prog (req : FrostRound2Request) : Prog (Caches F) (CallResult F) :=
  .locked (fun c => c.replace .attestation <|
      update (c.part .attestation) req.sessionId none)
    (fun c =>
      match frostRound2Take (c.part .attestation) req with
      | .error e => .done (.error e)
      | .ok pending =>
        match frostRound2Sign C n pending req with
        | .error e => .done (.error e)
        | .ok share => .done (.ok
          (.frostRound2 ⟨req.sessionId, n.verifierId, C.shareJson share.inner⟩, some pending)))

def handshakeBindingRound2Prog (req : HandshakeBindingRound2Request) :
    Prog (Caches F) (CallResult F) :=
  .locked (fun c => c.replace .handshakeBinding <|
      update (c.part .handshakeBinding) req.sessionId none)
    (fun c =>
      match handshakeBindingTake (c.part .handshakeBinding) req with
      | .error e => .done (.error e)
      | .ok pending =>
        match handshakeBindingSign C n pending req with
        | .error e => .done (.error e)
        | .ok share => .done (.ok
          (.handshakeBindingRound2 ⟨req.sessionId, n.verifierId, C.shareJson share.inner⟩,
            some pending)))

/-- The critical sections of a call on a node, in their order. -/
def prog : NodeCall → Prog (Caches F) (CallResult F)
  | .frostRound1 ambient req now => frostRound1Prog C n ambient req now
  | .frostRound2 req => frostRound2Prog C n req
  | .handshakeBindingRound1 ambient req now =>
    handshakeBindingRound1Prog C n ambient req now
  | .handshakeBindingRound2 req => handshakeBindingRound2Prog C n req

/-! A call that is alone. -/

def callResult : EStateM.Result NodeError (FrostAuxiliaryNode F G) NodeResponse →
    Except NodeError NodeResponse × Caches F
  | .ok resp n => (.ok resp, n.caches)
  | .error e n => (.error e, n.caches)

variable {C n}

section

omit [AddCommGroup G] [Module F G] [DecidableEq F] [DecidableEq G]

variable (n : FrostAuxiliaryNode F G) (cache : SessionId → Option (PendingRound F))

theorem caches_with_pending :
    { n with pending := cache }.caches = n.caches.replace .attestation cache := by
  funext ⟨protocol, id⟩
  cases protocol <;> rfl

theorem caches_with_hbPending :
    { n with hbPending := cache }.caches = n.caches.replace .handshakeBinding cache := by
  funext ⟨protocol, id⟩
  cases protocol <;> rfl

end

/-- **A call that is alone** does what the sequential one does. -/
theorem alone_prog (call : NodeCall) (n : FrostAuxiliaryNode F G) :
    Prod.map (Except.map Prod.fst) id ((call.prog C n).alone n.caches) =
      callResult ((call.exec C).run n) := by
  have hpart : n.caches.part .attestation = n.pending := rfl
  have hbPart : n.caches.part .handshakeBinding = n.hbPending := rfl
  cases call with
  | frostRound1 ambient req now =>
    rw [exec, map_eq_pure_bind, EStateM.run_bind, prog, frostRound1Prog]
    simp only [FrostAuxiliaryNode.frostRound1, run_get_bind, run_lift_bind, run_set_bind]
    rcases frostRound1Checks C ambient.systemSecs n req now with e | _
    · rfl
    · dsimp only [Prog.alone]
      rw [hpart]
      rcases frostRound1Guard (evictExpired ambient.evictedAt n.pending) req with e | _
      · exact Prod.ext rfl (caches_with_pending n _).symm
      · exact Prod.ext rfl (caches_with_pending n _).symm
  | frostRound2 req =>
    rw [exec, map_eq_pure_bind, EStateM.run_bind, prog, frostRound2Prog]
    simp only [FrostAuxiliaryNode.frostRound2, run_get_bind, run_lift_bind, run_set_bind]
    dsimp only [Prog.alone]
    rw [hpart]
    rcases htake : frostRound2Take n.pending req with e | pending
    · exact Prod.ext rfl (replace_remove (okOr_eq_error.1 htake).1)
    · dsimp only
      rcases frostRound2Sign C n pending req with e | share
      · exact Prod.ext rfl (caches_with_pending n _).symm
      · exact Prod.ext rfl (caches_with_pending n _).symm
  | handshakeBindingRound1 ambient req now =>
    rw [exec, map_eq_pure_bind, EStateM.run_bind, prog, handshakeBindingRound1Prog]
    simp only [FrostAuxiliaryNode.handshakeBindingRound1, run_get_bind, run_lift_bind, run_set_bind]
    rcases handshakeBindingRound1Checks n req now with e | _
    · rfl
    · dsimp only [Prog.alone, id_eq]
      rw [hbPart]
      rcases handshakeBindingGuard n.hbPending req with e | _
      · rfl
      · exact Prod.ext rfl (caches_with_hbPending n _).symm
  | handshakeBindingRound2 req =>
    rw [exec, map_eq_pure_bind, EStateM.run_bind, prog, handshakeBindingRound2Prog]
    simp only [FrostAuxiliaryNode.handshakeBindingRound2, run_get_bind, run_lift_bind, run_set_bind]
    dsimp only [Prog.alone]
    rw [hbPart]
    rcases htake : handshakeBindingTake n.hbPending req with e | pending
    · exact Prod.ext rfl (replace_remove (okOr_eq_error.1 htake).1)
    · dsimp only
      rcases handshakeBindingSign C n pending req with e | share
      · exact Prod.ext rfl (caches_with_hbPending n _).symm
      · exact Prod.ext rfl (caches_with_hbPending n _).symm

/-! ### What a section can do -/

omit [DecidableEq F] [DecidableEq G] in
theorem puts_replace {call : NodeCall} {protocol : Protocol} {id : SessionId} {p : PendingRound F}
    (hdrawn : call.drawn C n = some ((protocol, id), p)) {now : ℕ} {c : Caches F} :
    Turn C n call c (c.replace protocol
      (update (evictExpired now (c.part protocol)) id (some p))) none := by
  refine .puts hdrawn ((replace_self id).trans (update_self ..)) ?_
  rintro ⟨protocol', id'⟩ p' hne hp'
  rcases replace_eq_some hp' with ⟨hprot, hcache⟩ | ⟨-, hc⟩
  · obtain rfl : protocol' = protocol := hprot
    have hid : id' ≠ id := fun hid => hne (by rw [hid])
    exact evictExpired_eq_some ((update_of_ne hid ..).symm.trans hcache)
  · exact hc

theorem takes_replace {call : NodeCall} {protocol : Protocol} {id : SessionId} {p : PendingRound F}
    {signerSet : List VerifierId} {bytes : Bytes} {s t : String} {share : FrostSignatureShare F}
    {c : Caches F} (hasked : call.asked = some ((protocol, id), signerSet, bytes))
    (hp : c.part protocol id = some p)
    (hsign : signPending C n.participant p signerSet bytes s t = .ok share) :
    Turn C n call c (c.replace protocol (update (c.part protocol) id none)) (some p) := by
  obtain ⟨hset, package, hparse, hmessage, -⟩ := signPending_eq_ok.1 hsign
  exact .takes hasked hp ((replace_self id).trans (update_self ..))
    dropped_remove hset ⟨package, hparse, hmessage⟩

/-- The program of a call takes turns for it. -/
theorem takesTurns_prog (call : NodeCall) : TakesTurns C n call (call.prog C n) := by
  cases call with
  | frostRound1 ambient req now =>
    rw [prog, frostRound1Prog]
    rcases frostRound1Checks C ambient.systemSecs n req now with e | _
    · trivial
    · intro c
      dsimp only
      have hdrop : Dropped c (c.replace .attestation
          (evictExpired ambient.evictedAt (c.part .attestation))) :=
        dropped_replace fun _ _ => evictExpired_eq_some
      rcases frostRound1Guard (evictExpired ambient.evictedAt (c.part .attestation)) req with
        e | _
      · exact ⟨.drops hdrop, .inl hdrop, trivial⟩
      · exact ⟨puts_replace rfl, .inr ⟨_, rfl⟩, trivial⟩
  | frostRound2 req =>
    intro c
    dsimp only
    rcases htake : frostRound2Take (c.part .attestation) req with e | pending
    · exact ⟨.drops dropped_remove, .inl dropped_remove, trivial⟩
    · dsimp only
      rcases hsign : frostRound2Sign C n pending req with e | share
      · exact ⟨.drops dropped_remove, .inl dropped_remove, trivial⟩
      · exact ⟨takes_replace rfl (okOr_eq_ok.1 htake) hsign, .inl dropped_remove, share, hsign, rfl⟩
  | handshakeBindingRound1 ambient req now =>
    rw [prog, handshakeBindingRound1Prog]
    rcases handshakeBindingRound1Checks n req now with e | _
    · trivial
    · intro c
      dsimp only
      have hsame : Dropped c (id c) := fun _ _ hp => hp
      rcases handshakeBindingGuard (c.part .handshakeBinding) req with e | _
      · exact ⟨.drops hsame, .inl hsame, trivial⟩
      · refine ⟨.drops hsame, .inl hsame, fun c' => ?_⟩
        exact ⟨puts_replace rfl, .inr ⟨_, rfl⟩, trivial⟩
  | handshakeBindingRound2 req =>
    intro c
    dsimp only
    rcases htake : handshakeBindingTake (c.part .handshakeBinding) req with e | pending
    · exact ⟨.drops dropped_remove, .inl dropped_remove, trivial⟩
    · dsimp only
      rcases hsign : handshakeBindingSign C n pending req with e | share
      · exact ⟨.drops dropped_remove, .inl dropped_remove, trivial⟩
      · exact ⟨takes_replace rfl (okOr_eq_ok.1 htake) hsign, .inl dropped_remove, share, hsign, rfl⟩

theorem signedWith_prog (call : NodeCall) : signedWith (call.prog C n) = none := by
  cases call with
  | frostRound1 ambient req now =>
    rw [prog, frostRound1Prog]
    rcases frostRound1Checks C ambient.systemSecs n req now with e | _ <;> rfl
  | frostRound2 req => rfl
  | handshakeBindingRound1 ambient req now =>
    rw [prog, handshakeBindingRound1Prog]
    rcases handshakeBindingRound1Checks n req now with e | _ <;> rfl
  | handshakeBindingRound2 req => rfl

end NodeCall

/-! ### All interleavings -/

namespace Interleaving

open NodeCall OneTime

variable {F G : Type} [Field F] [AddCommGroup G] [Module F G] [DecidableEq F] [DecidableEq G]
  {ι : Type} (C : NodeCrates F G) (n : FrostAuxiliaryNode F G) (calls : ι → NodeCall)

/-- The caches are a ledger: entries were issued by calls, and each is spent once. -/
structure Refines (pool : Pool ι (Caches F) (CallResult F))
    (l : Ledger (Protocol × SessionId) ι ι) : Prop where
  takesTurns : ∀ i, TakesTurns C n (calls i) (pool.threads i)
  opened : ∀ i ∈ l.issued, Opened (pool.threads i)
  unspent : ∀ j, ¬ (pool.threads j).IsDone → l.spent j = none
  waiting : ∀ {k p}, pool.shared k = some p →
    ∃ i, l.store k = some i ∧ (calls i).drawn C n = some (k, p)
  signed : ∀ {j p}, signedWith (pool.threads j) = some p → ∃ i k bytes, l.spent j = some i ∧
    (calls i).drawn C n = some (k, p) ∧ (calls j).asked = some (k, p.signerSet, bytes) ∧
    SignedOver C bytes p.signedDigest

variable {C n calls}

section Step

variable {s : Caches F} {threads : ι → Prog (Caches F) (CallResult F)}
  {l : Ledger (Protocol × SessionId) ι ι} {i : ι} {update : Caches F → Caches F}
  {next : Caches F → Prog (Caches F) (CallResult F)} (h : Refines C n calls ⟨s, threads⟩ l)
  (hi : threads i = .locked update next)

include h hi

theorem Refines.turn :
    Turn C n (calls i) s (update s) (signedWith (next s)) ∧
      (Dropped s (update s) ∨ Opened (next s)) ∧ TakesTurns C n (calls i) (next s) := by
  have hturns : TakesTurns C n (calls i) (threads i) := h.takesTurns i
  rw [hi] at hturns
  exact hturns s

variable [DecidableEq ι]

theorem Refines.takesTurns_update (j : ι) :
    TakesTurns C n (calls j) (Function.update threads i (next s) j) :=
  (forall_update_iff threads fun j p => TakesTurns C n (calls j) p).2
    ⟨(h.turn hi).2.2, fun j _ => h.takesTurns j⟩ j

theorem Refines.opened_update {j : ι} (hj : j ∈ l.issued) :
    Opened (Function.update threads i (next s) j) := by
  have hopened : Opened (threads j) := h.opened j hj
  have hne : j ≠ i := by
    rintro rfl
    obtain ⟨resp, hdone⟩ := hopened
    rw [hi] at hdone
    cases hdone
  rwa [update_of_ne hne]

theorem Refines.unspent_update {j : ι}
    (hj : ¬ (Function.update threads i (next s) j).IsDone) : l.spent j = none := by
  rcases eq_or_ne j i with rfl | hne
  · exact h.unspent j (Prog.not_isDone hi)
  · rw [update_of_ne hne] at hj
    exact h.unspent j hj

theorem Refines.drops (hdrop : Dropped s (update s)) (hsigned : signedWith (next s) = none) :
    Refines C n calls ⟨update s, Function.update threads i (next s)⟩ l where
  takesTurns := h.takesTurns_update hi
  opened _ := h.opened_update hi
  unspent _ := h.unspent_update hi
  waiting hp := h.waiting (hdrop _ _ hp)
  signed {j p} hp := by
    dsimp only at hp
    rcases eq_or_ne j i with rfl | hne
    · rw [update_self, hsigned] at hp
      cases hp
    · rw [update_of_ne hne] at hp
      exact h.signed hp

theorem Refines.puts (hopened : Opened (next s)) {k : Protocol × SessionId} {p : PendingRound F}
    (hdrawn : (calls i).drawn C n = some (k, p)) (hk : update s k = some p)
    (hrest : ∀ k' p', k' ≠ k → update s k' = some p' → s k' = some p') :
    Refines C n calls ⟨update s, Function.update threads i (next s)⟩ (l.put k i) where
  takesTurns := h.takesTurns_update hi
  opened j hj := by
    dsimp only
    rcases hj with rfl | hj
    · rwa [update_self]
    · exact h.opened_update hi hj
  unspent _ := h.unspent_update hi
  waiting {k' p'} hp' := by
    rcases eq_or_ne k' k with rfl | hne
    · obtain rfl : p = p' := Option.some.inj (hk.symm.trans hp')
      exact ⟨i, store_put.2 (.inl ⟨rfl, rfl⟩), hdrawn⟩
    · obtain ⟨i', hstore, hdrawn'⟩ := h.waiting (hrest k' p' hne hp')
      exact ⟨i', store_put.2 (.inr ⟨hne, hstore⟩), hdrawn'⟩
  signed {j p} hp := by
    dsimp only at hp
    rcases eq_or_ne j i with rfl | hne
    · obtain ⟨resp, hnext⟩ := hopened
      rw [update_self, hnext] at hp
      cases hp
    · rw [update_of_ne hne] at hp
      exact h.signed hp

theorem Refines.takes {k : Protocol × SessionId} {p : PendingRound F} {bytes : Bytes} {i₀ : ι}
    (hsigned : signedWith (next s) = some p)
    (hasked : (calls i).asked = some (k, p.signerSet, bytes))
    (hdrawn : (calls i₀).drawn C n = some (k, p)) (hk : update s k = none)
    (hrest : Dropped s (update s)) (hover : SignedOver C bytes p.signedDigest) :
    Refines C n calls ⟨update s, Function.update threads i (next s)⟩ (l.take k i₀ i) where
  takesTurns := h.takesTurns_update hi
  opened _ := h.opened_update hi
  unspent j hj := by
    dsimp only at hj
    rcases eq_or_ne j i with rfl | hne
    · rw [update_self] at hj
      exact absurd (isDone_of_signedWith hsigned) hj
    · exact (update_of_ne hne ..).trans (h.unspent_update hi hj)
  waiting {k' p'} hp' := by
    have hne : k' ≠ k := by
      rintro rfl
      cases hk.symm.trans hp'
    obtain ⟨i', hstore', hdrawn'⟩ := h.waiting (hrest k' p' hp')
    exact ⟨i', store_take.2 ⟨hne, hstore'⟩, hdrawn'⟩
  signed {j p'} hp' := by
    dsimp only at hp'
    rcases eq_or_ne j i with rfl | hne
    · rw [update_self, hsigned] at hp'
      obtain rfl := Option.some.inj hp'
      exact ⟨i₀, k, bytes, spent_take.2 (.inl ⟨rfl, rfl⟩), hdrawn, hasked, hover⟩
    · rw [update_of_ne hne] at hp'
      obtain ⟨i', k', bytes', hspent, hdrawn', hasked', hover'⟩ := h.signed hp'
      exact ⟨i', k', bytes', spent_take.2 (.inr ⟨hne, hspent⟩), hdrawn', hasked', hover'⟩

theorem Refines.step : ∃ l', (l' = l ∨ Step l l') ∧
    Refines C n calls ⟨update s, Function.update threads i (next s)⟩ l' := by
  obtain ⟨hturn, hlast, -⟩ := h.turn hi
  rcases hsigned : signedWith (next s) with _ | p
  · rw [hsigned] at hturn
    rcases hlast with hdrop | hopened
    · exact ⟨l, .inl rfl, h.drops hi hdrop hsigned⟩
    · cases hturn with
      | drops hrest => exact ⟨l, .inl rfl, h.drops hi hrest hsigned⟩
      | puts hdrawn hk hrest =>
        have hfresh : i ∉ l.issued := by
          intro hmem
          obtain ⟨resp, hdone⟩ : Opened (threads i) := h.opened i hmem
          rw [hi] at hdone
          cases hdone
        exact ⟨_, .inr (.put hfresh), h.puts hi hopened hdrawn hk hrest⟩
  · rw [hsigned] at hturn
    cases hturn with
    | takes hasked hk hk' hrest hset hover =>
      obtain ⟨i₀, hstore, hdrawn⟩ := h.waiting hk
      rw [hset] at hasked
      exact ⟨_, .inr (.take hstore (h.unspent i (Prog.not_isDone hi))),
        h.takes hi hsigned hasked hdrawn hk' hrest hover⟩

end Step

theorem refines_empty (hn : n.Fresh) :
    Refines C n calls ⟨n.caches, fun i => (calls i).prog C n⟩ .empty where
  takesTurns i := takesTurns_prog (calls i)
  opened i h := by cases h
  unspent j _ := rfl
  waiting {k p} h := by cases (hn.caches_eq_none k).symm.trans h
  signed {j p} h := by cases (signedWith_prog (calls j)).symm.trans h

variable [DecidableEq ι]

variable (C n calls) in
/-- **The calls of the threads**, after the sections of a schedule. -/
def interleave (schedule : List ι) : Pool ι (Caches F) (CallResult F) :=
  Pool.run ⟨n.caches, fun i => (calls i).prog C n⟩ schedule

/-- **A call that nobody interrupts** is the sequential one. -/
theorem exists_interleave_eq_exec (i : ι) :
    ∃ turns result, (interleave C n calls (List.replicate turns i)).threads i = .done result ∧
      (result.map Prod.fst, (interleave C n calls (List.replicate turns i)).shared) =
        callResult (((calls i).exec C).run n) := by
  obtain ⟨turns, hturns⟩ := Pool.exists_run_eq_alone n.caches (fun i => (calls i).prog C n) i
  refine ⟨turns, (((calls i).prog C n).alone n.caches).1, ?_, ?_⟩
  · rw [interleave, hturns]
    simp only [update_self]
  · rw [interleave, hturns, ← alone_prog]
    rfl

/-- Every interleaving is a run of the ledger. -/
theorem exists_refines (hn : n.Fresh) (schedule : List ι) :
    ∃ l, Reachable l ∧ Refines C n calls (interleave C n calls schedule) l := by
  refine Pool.run_invariant (fun pool => ∃ l, Reachable l ∧ Refines C n calls pool l) ?_
    ⟨.empty, .refl, refines_empty hn⟩ schedule
  rintro ⟨s, threads⟩ i update next ⟨l, hreach, hrefines⟩ hi
  obtain ⟨l', hstep, hrefines'⟩ := hrefines.step hi
  rcases hstep with rfl | hstep
  · exact ⟨l', hreach, hrefines'⟩
  · exact ⟨l', hreach.tail hstep, hrefines'⟩

/-- **Nonces are used once**: if those of round one are different, calls that signed with the same
are one call; and a share, made with the nonces of a pending round, is for what was recorded when
they were drawn. -/
theorem nonces_used_once (hn : n.Fresh) (schedule : List ι)
    (hdistinct : ∀ i i' k k' p p', Opened ((interleave C n calls schedule).threads i) →
      Opened ((interleave C n calls schedule).threads i') →
      (calls i).drawn C n = some (k, p) → (calls i').drawn C n = some (k', p') →
      p.nonces = p'.nonces → i = i') :
    (∀ j j' resp resp' p p',
      (interleave C n calls schedule).threads j = .done (.ok (resp, some p)) →
      (interleave C n calls schedule).threads j' = .done (.ok (resp', some p')) →
      p.nonces = p'.nonces → j = j') ∧
    ∀ j resp p, (interleave C n calls schedule).threads j = .done (.ok (resp, some p)) →
      ∃ i k bytes, (calls i).drawn C n = some (k, p) ∧
        (calls j).asked = some (k, p.signerSet, bytes) ∧ SignedOver C bytes p.signedDigest ∧
        Signs C n p (calls j) resp := by
  obtain ⟨l, hreach, h⟩ : ∃ l, Reachable l ∧
    Refines C n calls (interleave C n calls schedule) l := exists_refines hn schedule
  constructor
  · intro j j' resp resp' p p' hj hj' hnonces
    obtain ⟨i, k, _, hspent, hdrawn, -, -⟩ := h.signed (j := j) (p := p) (by rw [hj]; rfl)
    obtain ⟨i', k', _, hspent', hdrawn', -, -⟩ := h.signed (j := j') (p := p') (by rw [hj']; rfl)
    have hsound := hreach.sound
    obtain rfl : i = i' := hdistinct i i' k k' p p' (h.opened i (hsound.issued_of_spent hspent))
      (h.opened i' (hsound.issued_of_spent hspent')) hdrawn hdrawn' hnonces
    exact hreach.spent_inj hspent hspent'
  · intro j resp p hj
    obtain ⟨i, k, bytes, -, hdrawn, hasked, hover⟩ := h.signed (j := j) (p := p) (by rw [hj]; rfl)
    have hsigns := h.takesTurns j
    rw [hj] at hsigns
    exact ⟨i, k, bytes, hdrawn, hasked, hover, hsigns⟩

open FrostAuxiliaryNode in
def bindingThreads : Fin 3 → NodeCall
  | 0 => .handshakeBindingRound1 (soloAmbient 0) (bindingRequest .zero) ⟨0⟩
  | 1 => .handshakeBindingRound2 (bindingRound2Request .zero)
  | 2 => .handshakeBindingRound1 (soloAmbient 1)
      { bindingRequest .zero with sessionId := ⟨.replicate 16 1⟩ } ⟨0⟩

theorem nonces_ne_bindingThreads {i i' : Fin 3} {k k' : Protocol × SessionId}
    {p p' : PendingRound Toy}
    (h : (bindingThreads i).drawn soloCrates (.new soloParticipant) = some (k, p))
    (h' : (bindingThreads i').drawn soloCrates (.new soloParticipant) = some (k', p'))
    (hnonces : p.nonces = p'.nonces) : i = i' := by
  have hdrawn : ∀ {i : Fin 3} {k : Protocol × SessionId} {p : PendingRound Toy},
      (bindingThreads i).drawn soloCrates (.new soloParticipant) = some (k, p) →
        i = 0 ∧ p.nonces = ⟨1, 1⟩ ∨ i = 2 ∧ p.nonces = ⟨2, 2⟩ := by
    intro i k p hi
    fin_cases i
    · obtain ⟨-, rfl⟩ := Prod.mk.inj (Option.some.inj hi)
      exact .inl ⟨rfl, by decide⟩
    · cases hi
    · obtain ⟨-, rfl⟩ := Prod.mk.inj (Option.some.inj hi)
      exact .inr ⟨rfl, by decide⟩
  have hne : (⟨1, 1⟩ : SigningNonces Toy) ≠ ⟨2, 2⟩ := by decide
  rcases hdrawn h with ⟨rfl, hp⟩ | ⟨rfl, hp⟩
  · rcases hdrawn h' with ⟨rfl, -⟩ | ⟨rfl, hp'⟩
    · rfl
    · exact absurd (hp.symm.trans (hnonces.trans hp')) hne
  · rcases hdrawn h' with ⟨rfl, hp'⟩ | ⟨rfl, -⟩
    · exact absurd (hp'.symm.trans (hnonces.symm.trans hp)) hne
    · rfl

theorem exists_signed_bindingThreads :
    ∃ resp p,
      (interleave soloCrates (.new soloParticipant) bindingThreads [0, 2, 2, 0, 1]).threads 1 =
        .done (.ok (resp, some p)) :=
  ⟨_, _, rfl⟩

theorem nonces_used_once_bindingThreads :
    ∃ resp p,
      (interleave soloCrates (.new soloParticipant) bindingThreads [0, 2, 2, 0, 1]).threads 1 =
        .done (.ok (resp, some p)) ∧
      ∃ i k bytes, (bindingThreads i).drawn soloCrates (.new soloParticipant) = some (k, p) ∧
        (bindingThreads 1).asked = some (k, p.signerSet, bytes) ∧
        SignedOver soloCrates bytes p.signedDigest ∧
        Signs soloCrates (.new soloParticipant) p (bindingThreads 1) resp := by
  obtain ⟨resp, p, hsigned⟩ := exists_signed_bindingThreads
  refine ⟨resp, p, hsigned, ?_⟩
  exact (nonces_used_once (.inl rfl) _ fun _ _ _ _ _ _ _ _ => nonces_ne_bindingThreads).2 1 resp p
    hsigned

end Interleaving

end TlsAttestation
