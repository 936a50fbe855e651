import TlsAttestation.Attestation.Session
import TlsAttestation.Lib.Effect
import Mathlib.Data.Finmap

/-!
# Session stores

`tls_attestation_storage`: the trait `SessionStore` and its implementation in memory. What the trait
says about approvals is `LawfulSessionStore`, so a loop that records a list of verifiers succeeds
only on a list without repetitions (`hasApproved_recordApprovals`).
-/

namespace TlsAttestation

open Effect Fallible Function

inductive StorageError where
  | notFound
  | alreadyExists
  | sessionTerminated
  | duplicateApproval (verifierId : String)
  | io (reason : String)
deriving DecidableEq

def StorageError.display : StorageError → String
  | .notFound => "session not found"
  | .alreadyExists => "session already exists (replay protection)"
  | .sessionTerminated => "session is in a terminal state and cannot be modified"
  | .duplicateApproval verifierId =>
    s!"verifier '{verifierId}' has already approved this session"
  | .io reason => s!"storage I/O error: {reason}"

/-- The operations of the trait, over a state `S`. -/
class SessionStore (S : Type) where
  insert : Session → EStateM StorageError S Unit
  get : S → SessionId → Except StorageError Session
  updateState : SessionId → SessionState → EStateM StorageError S Unit
  recordApproval : SessionId → VerifierId → EStateM StorageError S Unit
  hasApproved : S → SessionId → VerifierId → Bool
  remove : SessionId → EStateM StorageError S Unit
  contains : S → SessionId → Bool

open SessionStore (updateState recordApproval hasApproved)

/-- What callers rely on of approvals. -/
class LawfulSessionStore (S : Type) [SessionStore S] : Prop where
  hasApproved_insert : ∀ {session : Session} {s s' : S} {u : Unit},
    (SessionStore.insert session).run s = .ok u s' → ∀ id v, hasApproved s' id v =
      if id = session.context.sessionId then false else hasApproved s id v
  hasApproved_updateState : ∀ {id : SessionId} {state : SessionState} {s s' : S} {u : Unit},
    (updateState id state).run s = .ok u s' → ∀ i v, hasApproved s' i v = hasApproved s i v
  hasApproved_of_recordApproval : ∀ {id : SessionId} {v : VerifierId} {s s' : S} {u : Unit},
    (recordApproval id v).run s = .ok u s' → hasApproved s id v = false
  hasApproved_recordApproval : ∀ {id : SessionId} {v : VerifierId} {s s' : S} {u : Unit},
    (recordApproval id v).run s = .ok u s' → ∀ i w, hasApproved s' i w = true ↔
      hasApproved s i w = true ∨ i = id ∧ w = v

/-! ### The states of sessions -/

def stateOf {S : Type} [SessionStore S] (s : S) (id : SessionId) : Option SessionState :=
  (SessionStore.get s id).toOption.map Session.state

class LawfulSessionStates (S : Type) [SessionStore S] : Prop where
  stateOf_insert : ∀ {session : Session} {s s' : S} {u : Unit},
    (SessionStore.insert session).run s = .ok u s' →
      stateOf s session.context.sessionId = none ∧
        stateOf s' = update (stateOf s) session.context.sessionId (some session.state)
  stateOf_insert_error : ∀ {session : Session} {s s' : S} {e : StorageError},
    (SessionStore.insert session).run s = .error e s' → stateOf s' = stateOf s
  stateOf_updateState : ∀ {id : SessionId} {state : SessionState} {s s' : S} {u : Unit},
    (updateState id state).run s = .ok u s' →
      stateOf s' = update (stateOf s) id (some state)
  stateOf_updateState_error : ∀ {id : SessionId} {state : SessionState} {s s' : S}
    {e : StorageError}, (updateState id state).run s = .error e s' → stateOf s' = stateOf s
  stateOf_recordApproval : ∀ {id : SessionId} {v : VerifierId} {s s' : S} {u : Unit},
    (recordApproval id v).run s = .ok u s' → stateOf s' = stateOf s
  stateOf_recordApproval_error : ∀ {id : SessionId} {v : VerifierId} {s s' : S}
    {e : StorageError}, (recordApproval id v).run s = .error e s' → stateOf s' = stateOf s

/-- **A store that does not fail** but for the reasons of the trait. -/
class ReliableSessionStore (S : Type) [SessionStore S] : Prop where
  insert : ∀ {session : Session} {s : S}, stateOf s session.context.sessionId = none →
    ∃ s', (SessionStore.insert session).run s = .ok () s'
  updateState : ∀ {id : SessionId} {state now : SessionState} {s : S}, stateOf s id = some now →
    now.isTerminal = false → ∃ s', (SessionStore.updateState id state).run s = .ok () s'
  recordApproval : ∀ {id : SessionId} {v : VerifierId} {now : SessionState} {s : S},
    stateOf s id = some now → now.isTerminal = false → hasApproved s id v = false →
      ∃ s', (SessionStore.recordApproval id v).run s = .ok () s'

/-! ### A list of approvals -/

section

variable {S : Type} [SessionStore S]

def recordApprovals (id : SessionId) : List VerifierId → EStateM StorageError S Unit
  | [] => pure ()
  | v :: vs => do
    recordApproval id v
    recordApprovals id vs

variable [LawfulSessionStore S]

variable {id : SessionId} {vs : List VerifierId} {s : S}

theorem hasApproved_recordApprovals {s' : S} {u : Unit}
    (h : (recordApprovals id vs).run s = .ok u s') :
    vs.Nodup ∧ (∀ v ∈ vs, hasApproved s id v = false) ∧
      ∀ v, hasApproved s' id v = true ↔ hasApproved s id v = true ∨ v ∈ vs := by
  induction vs generalizing s with
  | nil =>
    obtain ⟨-, rfl⟩ := run_pure_ok.1 h
    simp
  | cons v vs ih =>
    obtain ⟨_, t, hv, hvs⟩ := run_bind_ok.1 h
    obtain ⟨hnodup, hfresh, happ⟩ := ih hvs
    have hstep := LawfulSessionStore.hasApproved_recordApproval hv id
    have hvfresh := LawfulSessionStore.hasApproved_of_recordApproval hv
    -- The first one has approved when the rest is recorded, so it is not among the rest.
    have hnotin : v ∉ vs := fun hmem => by
      have htrue := (hstep v).2 (.inr ⟨rfl, rfl⟩)
      rw [hfresh v hmem] at htrue
      exact Bool.false_ne_true htrue
    refine ⟨List.nodup_cons.2 ⟨hnotin, hnodup⟩, fun w hw => ?_, fun w => ?_⟩
    · rcases List.mem_cons.1 hw with rfl | hw
      · exact hvfresh
      · by_contra hne
        have htrue := (hstep w).2 (.inl (Bool.eq_true_of_not_eq_false hne))
        rw [hfresh w hw] at htrue
        exact Bool.false_ne_true htrue
    · rw [happ w, hstep w, List.mem_cons]
      simp only [true_and, or_assoc]

omit [LawfulSessionStore S] in
theorem stateOf_recordApprovals [LawfulSessionStates S] :
    (∀ u s', (recordApprovals id vs).run s = .ok u s' → stateOf s' = stateOf s) ∧
      ∀ e s', (recordApprovals id vs).run s = .error e s' → stateOf s' = stateOf s := by
  induction vs generalizing s with
  | nil =>
    refine ⟨fun u s' h => ?_, fun e s' h => absurd h not_run_pure_error⟩
    obtain ⟨-, rfl⟩ := run_pure_ok.1 h
    rfl
  | cons v vs ih =>
    refine ⟨fun u s' h => ?_, fun e s' h => ?_⟩
    · obtain ⟨_, t, hv, hvs⟩ := run_bind_ok.1 h
      exact (ih.1 u s' hvs).trans (LawfulSessionStates.stateOf_recordApproval hv)
    · rcases run_bind_error.1 h with hv | ⟨_, t, hv, hvs⟩
      · exact LawfulSessionStates.stateOf_recordApproval_error hv
      · exact (ih.2 e s' hvs).trans (LawfulSessionStates.stateOf_recordApproval hv)

/-- New approvals are recorded. -/
theorem exists_run_recordApprovals [LawfulSessionStates S] [ReliableSessionStore S]
    {now : SessionState} (hnow : stateOf s id = some now) (hopen : now.isTerminal = false)
    (hnodup : vs.Nodup) (hnew : ∀ v ∈ vs, hasApproved s id v = false) :
    ∃ s', (recordApprovals id vs).run s = .ok () s' := by
  induction vs generalizing s with
  | nil => exact ⟨s, rfl⟩
  | cons v vs ih =>
    obtain ⟨hv, hvs⟩ := List.nodup_cons.1 hnodup
    obtain ⟨t, ht⟩ := ReliableSessionStore.recordApproval hnow hopen (hnew v List.mem_cons_self)
    have hstate : stateOf t id = some now := by
      rw [LawfulSessionStates.stateOf_recordApproval ht]
      exact hnow
    have hrest : ∀ u ∈ vs, hasApproved t id u = false := by
      intro u hu
      by_contra hne
      rcases (LawfulSessionStore.hasApproved_recordApproval ht id u).1
        (Bool.eq_true_of_not_eq_false hne) with hold | ⟨-, rfl⟩
      · rw [hnew u (List.mem_cons_of_mem v hu)] at hold
        exact Bool.false_ne_true hold
      · exact hv hu
    obtain ⟨s', hs'⟩ := ih hstate hvs hrest
    exact ⟨s', (run_bind_of_ok _ ht).trans hs'⟩

end

/-! ### The store in memory -/

/-- Every session has its set of approvals. -/
structure InMemorySessionStore where
  sessions : Finmap fun _ : SessionId => Session
  approvals : Finmap fun _ : SessionId => Finset VerifierId
  mem_approvals : ∀ id, id ∈ approvals ↔ id ∈ sessions

namespace InMemorySessionStore

def new : InMemorySessionStore := ⟨∅, ∅, fun _ => Iff.rfl⟩

def entryOrDefault (approvals : Finmap fun _ : SessionId => Finset VerifierId) (id : SessionId) :
    Finmap fun _ : SessionId => Finset VerifierId :=
  match approvals.lookup id with
  | some _ => approvals
  | none => approvals.insert id ∅

variable {id : SessionId} {session : Session} {s s' : InMemorySessionStore} {u : Unit}
  {e : StorageError} {state : SessionState} {v : VerifierId}

theorem mem_entryOrDefault {approvals : Finmap fun _ : SessionId => Finset VerifierId}
    {i : SessionId} : i ∈ entryOrDefault approvals id ↔ i = id ∨ i ∈ approvals := by
  unfold entryOrDefault
  rcases h : approvals.lookup id with _ | vs
  · exact Finmap.mem_insert
  · refine ⟨.inr, ?_⟩
    rintro (rfl | hi)
    · exact Finmap.mem_of_lookup_eq_some h
    · exact hi

def insert (session : Session) : EStateM StorageError InMemorySessionStore Unit := fun s =>
  if session.context.sessionId ∈ s.sessions then .error .alreadyExists s
  else .ok ()
    { sessions := s.sessions.insert session.context.sessionId session
      approvals := entryOrDefault s.approvals session.context.sessionId
      mem_approvals := fun id => by rw [mem_entryOrDefault, Finmap.mem_insert, s.mem_approvals] }

def get (s : InMemorySessionStore) (id : SessionId) : Except StorageError Session :=
  okOr (s.sessions.lookup id) .notFound

theorem mem_insert_of_lookup {V : Type} {m : Finmap fun _ : SessionId => V} {i : SessionId}
    {v w : V} (h : m.lookup id = some v) : i ∈ m.insert id w ↔ i ∈ m := by
  rw [Finmap.mem_insert]
  refine ⟨?_, .inr⟩
  rintro (rfl | hi)
  · exact Finmap.mem_of_lookup_eq_some h
  · exact hi

def updateState (id : SessionId) (state : SessionState) :
    EStateM StorageError InMemorySessionStore Unit := fun s =>
  match h : s.sessions.lookup id with
  | none => .error .notFound s
  | some session =>
    if session.state.isTerminal then .error .sessionTerminated s
    else .ok ()
      { s with
        sessions := s.sessions.insert id { session with state }
        mem_approvals := fun i => by rw [mem_insert_of_lookup h, s.mem_approvals] }

/-- Unless it is there, or the session has ended. -/
def recordApproval (id : SessionId) (v : VerifierId) :
    EStateM StorageError InMemorySessionStore Unit := fun s =>
  match s.sessions.lookup id with
  | none => .error .notFound s
  | some session =>
    if session.state.isTerminal then .error .sessionTerminated s
    else match h : s.approvals.lookup id with
      | none => .error .notFound s
      | some set =>
        if v ∈ set then .error (.duplicateApproval v.display) s
        else .ok ()
          { s with
            approvals := s.approvals.insert id (Insert.insert v set)
            mem_approvals := fun i => by rw [mem_insert_of_lookup h, s.mem_approvals] }

def hasApproved (s : InMemorySessionStore) (id : SessionId) (v : VerifierId) : Bool :=
  match s.approvals.lookup id with
  | some set => v ∈ set
  | none => false

def remove (id : SessionId) : EStateM StorageError InMemorySessionStore Unit := fun s =>
  .ok ()
    { sessions := s.sessions.erase id
      approvals := s.approvals.erase id
      mem_approvals := fun i => by rw [Finmap.mem_erase, Finmap.mem_erase, s.mem_approvals] }

def contains (s : InMemorySessionStore) (id : SessionId) : Bool := id ∈ s.sessions

instance : SessionStore InMemorySessionStore where
  insert := insert
  get := get
  updateState := updateState
  recordApproval := recordApproval
  hasApproved := hasApproved
  remove := remove
  contains := contains

/-! What the operations have done. One that is refused has done nothing. -/

theorem run_insert_ok (h : (insert session).run s = .ok u s') :
    session.context.sessionId ∉ s.sessions ∧
      s'.sessions = s.sessions.insert session.context.sessionId session ∧
      s'.approvals = s.approvals.insert session.context.sessionId ∅ := by
  simp only [insert, EStateM.run] at h
  split at h
  · cases h
  · rename_i hnew
    have happs := (s.mem_approvals _).not.2 hnew
    obtain ⟨-, rfl⟩ := EStateM.Result.ok.inj h
    refine ⟨hnew, rfl, ?_⟩
    simp [entryOrDefault, Finmap.lookup_eq_none.2 happs]

theorem run_insert_error (h : (insert session).run s = .error e s') : s' = s := by
  simp only [insert, EStateM.run] at h
  split at h
  · exact (EStateM.Result.error.inj h).2.symm
  · cases h

theorem run_updateState_ok (h : (updateState id state).run s = .ok u s') :
    (∃ session : Session, s'.sessions = s.sessions.insert id { session with state }) ∧
      s'.approvals = s.approvals := by
  simp only [updateState, EStateM.run] at h
  split at h
  · cases h
  · split at h
    · cases h
    · obtain ⟨-, rfl⟩ := EStateM.Result.ok.inj h
      exact ⟨⟨_, rfl⟩, rfl⟩

theorem run_updateState_error (h : (updateState id state).run s = .error e s') : s' = s := by
  simp only [updateState, EStateM.run] at h
  split at h
  · exact (EStateM.Result.error.inj h).2.symm
  · split at h
    · exact (EStateM.Result.error.inj h).2.symm
    · cases h

theorem exists_run_updateState (h : s.sessions.lookup id = some session)
    (hopen : session.state.isTerminal = false) :
    ∃ s', (updateState id state).run s = .ok () s' := by
  simp only [updateState, EStateM.run]
  split
  · next hnone =>
    rw [h] at hnone
    cases hnone
  · next session' hsome =>
    rw [h] at hsome
    obtain rfl := Option.some.inj hsome
    rw [if_neg (by simp [hopen])]
    exact ⟨_, rfl⟩

theorem run_recordApproval_ok (h : (recordApproval id v).run s = .ok u s') :
    s'.sessions = s.sessions ∧ ∃ set, s.approvals.lookup id = some set ∧ v ∉ set ∧
      s'.approvals = s.approvals.insert id (Insert.insert v set) := by
  simp only [recordApproval, EStateM.run] at h
  split at h
  · cases h
  · split at h
    · cases h
    · split at h
      · cases h
      · rename_i set hset
        split at h
        · cases h
        · rename_i hv
          obtain ⟨-, rfl⟩ := EStateM.Result.ok.inj h
          exact ⟨rfl, set, hset, hv, rfl⟩

theorem run_recordApproval_error (h : (recordApproval id v).run s = .error e s') : s' = s := by
  simp only [recordApproval, EStateM.run] at h
  split at h
  · exact (EStateM.Result.error.inj h).2.symm
  · split at h
    · exact (EStateM.Result.error.inj h).2.symm
    · split at h
      · exact (EStateM.Result.error.inj h).2.symm
      · split at h
        · exact (EStateM.Result.error.inj h).2.symm
        · cases h

theorem exists_run_recordApproval (h : s.sessions.lookup id = some session)
    (hopen : session.state.isTerminal = false) (hv : hasApproved s id v = false) :
    ∃ s', (recordApproval id v).run s = .ok () s' := by
  obtain ⟨set, hset⟩ := Finmap.mem_iff.1 ((s.mem_approvals id).2 (Finmap.mem_of_lookup_eq_some h))
  have hnew : v ∉ set := by
    simpa [hasApproved, hset] using hv
  simp only [recordApproval, EStateM.run, h]
  rw [if_neg (by simp [hopen])]
  split
  · next hnone =>
    rw [hset] at hnone
    cases hnone
  · next set' hsome =>
    rw [hset] at hsome
    obtain rfl := Option.some.inj hsome
    rw [if_neg hnew]
    exact ⟨_, rfl⟩

/-- The store in memory keeps the trait's promises. -/
instance : LawfulSessionStore InMemorySessionStore where
  hasApproved_insert {session s s' u} h id v := by
    obtain ⟨-, -, happs⟩ := run_insert_ok h
    show hasApproved s' id v = if _ then false else hasApproved s id v
    unfold hasApproved
    by_cases hid : id = session.context.sessionId
    · subst hid
      rw [happs, Finmap.lookup_insert]
      simp
    · rw [happs, Finmap.lookup_insert_of_ne _ hid, if_neg hid]
  hasApproved_updateState {id state s s' u} h i v := by
    show hasApproved s' i v = hasApproved s i v
    simp only [hasApproved, (run_updateState_ok h).2]
  hasApproved_of_recordApproval {id v s s' u} h := by
    obtain ⟨-, set, hset, hv, -⟩ := run_recordApproval_ok h
    show hasApproved s id v = false
    simp only [hasApproved, hset, hv, decide_false]
  hasApproved_recordApproval {id v s s' u} h i w := by
    obtain ⟨-, set, hset, hv, happs⟩ := run_recordApproval_ok h
    show hasApproved s' i w = true ↔ hasApproved s i w = true ∨ i = id ∧ w = v
    unfold hasApproved
    by_cases hi : i = id
    · subst hi
      rw [happs, Finmap.lookup_insert, hset]
      simp only [Finset.mem_insert, decide_eq_true_eq, true_and]
      exact or_comm
    · rw [happs, Finmap.lookup_insert_of_ne _ hi]
      simp [hi]

theorem stateOf_eq (s : InMemorySessionStore) (id : SessionId) :
    stateOf s id = (s.sessions.lookup id).map Session.state := by
  show ((get s id).toOption.map Session.state) = _
  unfold get
  rcases s.sessions.lookup id with _ | session <;> rfl

theorem stateOf_insert (h : s'.sessions = s.sessions.insert id session) :
    stateOf s' = update (stateOf s) id (some session.state) := by
  funext i
  by_cases hi : i = id
  · subst hi
    rw [update_self, stateOf_eq, h, Finmap.lookup_insert]
    rfl
  · rw [update_of_ne hi, stateOf_eq, stateOf_eq, h, Finmap.lookup_insert_of_ne _ hi]

theorem stateOf_congr (h : s'.sessions = s.sessions) :
    stateOf s' = stateOf s := by
  funext i
  rw [stateOf_eq, stateOf_eq, h]

instance : LawfulSessionStates InMemorySessionStore where
  stateOf_insert h := by
    obtain ⟨hnew, hses, -⟩ := run_insert_ok h
    refine ⟨?_, stateOf_insert hses⟩
    rw [stateOf_eq, Finmap.lookup_eq_none.2 hnew]
    rfl
  stateOf_insert_error h := by
    rw [run_insert_error h]
  stateOf_updateState h := by
    obtain ⟨⟨session, hses⟩, -⟩ := run_updateState_ok h
    exact stateOf_insert hses
  stateOf_updateState_error h := by
    rw [run_updateState_error h]
  stateOf_recordApproval h := stateOf_congr (run_recordApproval_ok h).1
  stateOf_recordApproval_error h := by
    rw [run_recordApproval_error h]

instance : ReliableSessionStore InMemorySessionStore where
  insert {session s} h := by
    rw [stateOf_eq, Option.map_eq_none_iff, Finmap.lookup_eq_none] at h
    exact ⟨_, if_neg h⟩
  updateState {id state now s} h hnow := by
    rw [stateOf_eq, Option.map_eq_some_iff] at h
    obtain ⟨session, hsession, rfl⟩ := h
    exact exists_run_updateState hsession hnow
  recordApproval {id v now s} h hnow hv := by
    rw [stateOf_eq, Option.map_eq_some_iff] at h
    obtain ⟨session, hsession, rfl⟩ := h
    exact exists_run_recordApproval hsession hnow hv

end InMemorySessionStore

end TlsAttestation
