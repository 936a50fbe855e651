import TlsAttestation.Lib.Calls
import TlsAttestation.Storage.Store

/-!
# Sequences of operations on a store

`perform` runs an `Operation` on any store; `InMemorySessionStore.Performed` says once what each
method does. As long as nothing is removed, a known identifier is not inserted again, a session that
has ended is never changed, and a verifier does not approve twice.
-/

namespace TlsAttestation

open Effect Fallible Finmap

/-! ### Calls and answers -/

inductive Operation where
  | insert (session : Session)
  | get (id : SessionId)
  | updateState (id : SessionId) (state : SessionState)
  | recordApproval (id : SessionId) (v : VerifierId)
  | hasApproved (id : SessionId) (v : VerifierId)
  | remove (id : SessionId)
  | contains (id : SessionId)
deriving DecidableEq

inductive Response where
  | done (r : Except StorageError Unit)
  | session (r : Except StorageError Session)
  | flag (b : Bool)
deriving DecidableEq

section

variable {S : Type} [SessionStore S]

def answer (x : EStateM StorageError S Unit) (s : S) : Response × S :=
  (.done (resultOf (x.run s)).1, (resultOf (x.run s)).2)

def perform (s : S) : Operation → Response × S
  | .insert session => answer (SessionStore.insert session) s
  | .get id => (.session (SessionStore.get s id), s)
  | .updateState id state => answer (SessionStore.updateState id state) s
  | .recordApproval id v => answer (SessionStore.recordApproval id v) s
  | .hasApproved id v => (.flag (SessionStore.hasApproved s id v), s)
  | .remove id => answer (SessionStore.remove id) s
  | .contains id => (.flag (SessionStore.contains s id), s)

end

def Inserted (id : SessionId) : Operation × Response → Bool
  | (.insert session, .done (.ok ())) => session.context.sessionId = id
  | _ => false

def Approved (id : SessionId) (v : VerifierId) (e : Operation × Response) : Bool :=
  e = (.recordApproval id v, .done (.ok ()))

def Operation.Keeps (op : Operation) : Prop := ∀ id, op ≠ .remove id

theorem inserted_iff {id : SessionId} {e : Operation × Response} :
    Inserted id e = true ↔ ∃ session : Session, session.context.sessionId = id ∧
        e = (.insert session, .done (.ok ())) := by
  obtain ⟨op, r⟩ := e
  constructor
  · intro h
    unfold Inserted at h
    split at h
    · next session he => exact ⟨session, of_decide_eq_true h, he⟩
    · cases h
  · rintro ⟨session, rfl, he⟩
    rw [he]
    exact decide_eq_true rfl

/-! ### What the store in memory does -/

namespace InMemorySessionStore

/-- **One call on the store in memory**, case by case. -/
inductive Performed (s : InMemorySessionStore) :
    Operation → Response → InMemorySessionStore → Prop
  | insertKnown {session : Session} (h : session.context.sessionId ∈ s.sessions) :
    Performed s (.insert session) (.done (.error .alreadyExists)) s
  | insertNew {session : Session} {s' : InMemorySessionStore}
    (h : session.context.sessionId ∉ s.sessions)
    (hses : s'.sessions = s.sessions.insert session.context.sessionId session)
    (happs : s'.approvals = s.approvals.insert session.context.sessionId ∅) :
    Performed s (.insert session) (.done (.ok ())) s'
  | get {id : SessionId} : Performed s (.get id) (.session (s.get id)) s
  | updateMissing {id : SessionId} {state : SessionState} (h : s.sessions.lookup id = none) :
    Performed s (.updateState id state) (.done (.error .notFound)) s
  | updateEnded {id : SessionId} {state : SessionState} {session : Session}
    (h : s.sessions.lookup id = some session) (hend : session.state.isTerminal = true) :
    Performed s (.updateState id state) (.done (.error .sessionTerminated)) s
  | updateOpen {id : SessionId} {state : SessionState} {session : Session}
    {s' : InMemorySessionStore} (h : s.sessions.lookup id = some session)
    (hopen : session.state.isTerminal = false)
    (hses : s'.sessions = s.sessions.insert id { session with state })
    (happs : s'.approvals = s.approvals) :
    Performed s (.updateState id state) (.done (.ok ())) s'
  | approveMissing {id : SessionId} {v : VerifierId} (h : s.sessions.lookup id = none) :
    Performed s (.recordApproval id v) (.done (.error .notFound)) s
  | approveEnded {id : SessionId} {v : VerifierId} {session : Session}
    (h : s.sessions.lookup id = some session) (hend : session.state.isTerminal = true) :
    Performed s (.recordApproval id v) (.done (.error .sessionTerminated)) s
  | approveAgain {id : SessionId} {v : VerifierId} {session : Session}
    {set : Finset VerifierId} (h : s.sessions.lookup id = some session)
    (hopen : session.state.isTerminal = false) (hset : s.approvals.lookup id = some set)
    (hv : v ∈ set) :
    Performed s (.recordApproval id v) (.done (.error (.duplicateApproval v.display))) s
  | approve {id : SessionId} {v : VerifierId} {session : Session} {set : Finset VerifierId}
    {s' : InMemorySessionStore} (h : s.sessions.lookup id = some session)
    (hopen : session.state.isTerminal = false) (hset : s.approvals.lookup id = some set)
    (hv : v ∉ set) (hses : s'.sessions = s.sessions)
    (happs : s'.approvals = s.approvals.insert id (Insert.insert v set)) :
    Performed s (.recordApproval id v) (.done (.ok ())) s'
  | hasApproved {id : SessionId} {v : VerifierId} :
    Performed s (.hasApproved id v) (.flag (s.hasApproved id v)) s
  | remove {id : SessionId} {s' : InMemorySessionStore}
    (hses : s'.sessions = s.sessions.erase id)
    (happs : s'.approvals = s.approvals.erase id) :
    Performed s (.remove id) (.done (.ok ())) s'
  | contains {id : SessionId} : Performed s (.contains id) (.flag (s.contains id)) s

variable {s s' : InMemorySessionStore} {op : Operation} {r : Response}

theorem performed_insert (s : InMemorySessionStore) (session : Session) :
    Performed s (.insert session) (answer (insert session) s).1 (answer (insert session) s).2 := by
  unfold answer
  rcases hrun : (insert session).run s with ⟨u, s'⟩ | ⟨e, s'⟩
  · obtain ⟨hnew, hses, happs⟩ := run_insert_ok hrun
    exact .insertNew hnew hses happs
  · simp only [insert, EStateM.run] at hrun
    split at hrun
    · next h =>
      obtain ⟨rfl, rfl⟩ := EStateM.Result.error.inj hrun
      exact .insertKnown h
    · cases hrun

theorem performed_updateState (s : InMemorySessionStore) (id : SessionId) (state : SessionState) :
    Performed s (.updateState id state) (answer (updateState id state) s).1
      (answer (updateState id state) s).2 := by
  simp only [answer, updateState, EStateM.run]
  split
  · next h => exact .updateMissing h
  · next session h =>
    split
    · next hend => exact .updateEnded h hend
    · next hopen => exact .updateOpen h (Bool.eq_false_of_not_eq_true hopen) rfl rfl

theorem performed_recordApproval (s : InMemorySessionStore) (id : SessionId) (v : VerifierId) :
    Performed s (.recordApproval id v) (answer (recordApproval id v) s).1
      (answer (recordApproval id v) s).2 := by
  simp only [answer, recordApproval, EStateM.run]
  split
  · next h => exact .approveMissing h
  · next session h =>
    split
    · next hend => exact .approveEnded h hend
    · next hopen =>
      have hopen := Bool.eq_false_of_not_eq_true hopen
      split
      · next hnone =>
        -- a session has a set of approvals
        have hmem := (s.mem_approvals id).2 (mem_of_lookup_eq_some h)
        exact absurd hmem (lookup_eq_none.1 hnone)
      · next set hset =>
        split
        · next hv => exact .approveAgain h hopen hset hv
        · next hv => exact .approve h hopen hset hv rfl rfl

theorem performed_perform (s : InMemorySessionStore) (op : Operation) :
    Performed s op (perform s op).1 (perform s op).2 := by
  cases op with
  | insert session => exact performed_insert s session
  | get id => exact .get
  | updateState id state => exact performed_updateState s id state
  | recordApproval id v => exact performed_recordApproval s id v
  | hasApproved id v => exact .hasApproved
  | remove id => exact .remove rfl rfl
  | contains id => exact .contains

/-! ### What is never undone -/

variable {id : SessionId} {session : Session} {v : VerifierId}

theorem Performed.mem_sessions (h : Performed s op r s') (hop : op.Keeps) (hid : id ∈ s.sessions) :
    id ∈ s'.sessions := by
  cases h with
  | insertNew _ hses _ =>
    rw [hses, mem_insert]
    exact .inr hid
  | updateOpen _ _ hses _ =>
    rw [hses, mem_insert]
    exact .inr hid
  | approve _ _ _ _ hses _ => rwa [hses]
  | remove _ _ => exact absurd rfl (hop _)
  | _ => exact hid

theorem Performed.lookup_of_isTerminal (h : Performed s op r s') (hop : op.Keeps)
    (hid : s.sessions.lookup id = some session) (hend : session.state.isTerminal = true) :
    s'.sessions.lookup id = some session := by
  cases h with
  | @insertNew session' _ hnew hses _ =>
    -- what is inserted is another session
    have hne : id ≠ session'.context.sessionId :=
      fun heq => hnew (heq ▸ mem_of_lookup_eq_some hid)
    rwa [hses, lookup_insert_of_ne _ hne]
  | @updateOpen i _ session' _ hlookup hopen hses _ =>
    have hne : id ≠ i := by
      rintro rfl
      obtain rfl := Option.some.inj (hid.symm.trans hlookup)
      rw [hend] at hopen
      cases hopen
    rwa [hses, lookup_insert_of_ne _ hne]
  | approve _ _ _ _ hses _ => rwa [hses]
  | remove _ _ => exact absurd rfl (hop _)
  | _ => exact hid

theorem hasApproved_eq_true :
    s.hasApproved id v = true ↔ ∃ set, s.approvals.lookup id = some set ∧ v ∈ set := by
  unfold InMemorySessionStore.hasApproved
  rcases s.approvals.lookup id with _ | set <;> simp

theorem Performed.hasApproved_eq_true (h : Performed s op r s') (hop : op.Keeps)
    (hv : s.hasApproved id v = true) :
    s'.hasApproved id v = true := by
  obtain ⟨set, hset, hmem⟩ := InMemorySessionStore.hasApproved_eq_true.1 hv
  refine InMemorySessionStore.hasApproved_eq_true.2 ?_
  cases h with
  | @insertNew session' _ hnew _ happs =>
    have hknown : id ∈ s.sessions := (s.mem_approvals id).1 (mem_of_lookup_eq_some hset)
    have hne : id ≠ session'.context.sessionId := fun heq => hnew (heq ▸ hknown)
    exact ⟨set, by rwa [happs, lookup_insert_of_ne _ hne], hmem⟩
  | updateOpen _ _ _ happs => exact ⟨set, by rwa [happs], hmem⟩
  | @approve i w _ set' _ _ _ hset' _ _ happs =>
    by_cases hid : id = i
    · subst hid
      obtain rfl := Option.some.inj (hset.symm.trans hset')
      refine ⟨Insert.insert w set, ?_, Finset.mem_insert_of_mem hmem⟩
      rw [happs, lookup_insert]
    · exact ⟨set, by rwa [happs, lookup_insert_of_ne _ hid], hmem⟩
  | remove _ _ => exact absurd rfl (hop _)
  | _ => exact ⟨set, hset, hmem⟩

/-! ### What follows for the answers -/

theorem Performed.mem_of_inserted (h : Performed s op r s') (hr : Inserted id (op, r) = true) :
    id ∈ s'.sessions := by
  obtain ⟨session, rfl, he⟩ := inserted_iff.1 hr
  obtain ⟨rfl, rfl⟩ := Prod.mk.inj he
  cases h with
  | insertNew _ hses _ =>
    rw [hses, mem_insert]
    exact .inl rfl

theorem Performed.not_inserted (h : Performed s op r s') (hid : id ∈ s.sessions) :
    Inserted id (op, r) = false := by
  by_contra hr
  obtain ⟨session, rfl, he⟩ := inserted_iff.1 (Bool.eq_true_of_not_eq_false hr)
  obtain ⟨rfl, rfl⟩ := Prod.mk.inj he
  cases h with
  | insertNew hnew _ _ => exact hnew hid

def AnswersEnded (id : SessionId) (session : Session) (op : Operation) (r : Response) : Prop :=
  (op = .get id → r = .session (.ok session)) ∧
    (∀ state, op = .updateState id state → r = .done (.error .sessionTerminated)) ∧
    ∀ v, op = .recordApproval id v → r = .done (.error .sessionTerminated)

theorem Performed.answersEnded (h : Performed s op r s') (hid : s.sessions.lookup id = some session)
    (hend : session.state.isTerminal = true) :
    AnswersEnded id session op r := by
  -- The other cases of the two methods need a session that is missing or open.
  have hmissing : s.sessions.lookup id ≠ none := by simp [hid]
  have hopen : ∀ session', s.sessions.lookup id = some session' →
      session'.state.isTerminal ≠ false := by
    rintro session' hid'
    obtain rfl := Option.some.inj (hid.symm.trans hid')
    simp [hend]
  refine ⟨?_, ?_, ?_⟩
  · rintro rfl
    cases h
    simp only [InMemorySessionStore.get, hid]
    rfl
  · rintro state rfl
    cases h with
    | updateMissing h => exact absurd h hmissing
    | updateEnded _ _ => rfl
    | updateOpen h ho => exact absurd ho (hopen _ h)
  · rintro v rfl
    cases h with
    | approveMissing h => exact absurd h hmissing
    | approveEnded _ _ => rfl
    | approveAgain h ho => exact absurd ho (hopen _ h)
    | approve h ho => exact absurd ho (hopen _ h)

theorem Performed.hasApproved_of_approved
    (h : Performed s (.recordApproval id v) (.done (.ok ())) s') :
    s'.hasApproved id v = true := by
  cases h with
  | @approve _ _ _ set _ _ _ _ _ _ happs =>
    refine InMemorySessionStore.hasApproved_eq_true.2
      ⟨Insert.insert v set, ?_, Finset.mem_insert_self v set⟩
    rw [happs, lookup_insert]

theorem Performed.not_approved (h : Performed s op r s') (hv : s.hasApproved id v = true) :
    Approved id v (op, r) = false := by
  by_contra hr
  obtain ⟨rfl, rfl⟩ := Prod.mk.inj (of_decide_eq_true (Bool.eq_true_of_not_eq_false hr))
  obtain ⟨set, hset, hmem⟩ := InMemorySessionStore.hasApproved_eq_true.1 hv
  cases h with
  | approve _ _ hset' hnot =>
    obtain rfl := Option.some.inj (hset.symm.trans hset')
    exact hnot hmem

theorem Performed.flag_of_hasApproved (h : Performed s op r s') (hv : s.hasApproved id v = true)
    (hop : op = .hasApproved id v) :
    r = .flag true := by
  subst hop
  cases h
  rw [hv]

/-! ### Whole runs -/

structure ReplayProtected (s : InMemorySessionStore) (ops : List Operation) : Prop where
  /-- An identifier is inserted at most once. -/
  inserted_once : ∀ id, (Calls.events perform s ops).countP (Inserted id) ≤ 1
  /-- A session that is finalized, expired or failed stays as it is. -/
  ended : ∀ before later, ops = before ++ later → ∀ id session,
    (Calls.after perform s before).get id = .ok session →
      (session.state = .finalized ∨ session.state = .expired ∨
        ∃ reason, session.state = .failed reason) →
      ∀ e ∈ Calls.events perform (Calls.after perform s before) later,
        AnswersEnded id session e.1 e.2
  /-- A verifier approves a session at most once. -/
  approved_once : ∀ id v, (Calls.events perform s ops).countP (Approved id v) ≤ 1
  /-- When it has approved, it is said to have approved. -/
  approved_after : ∀ id v before later,
    Calls.events perform s ops = before ++ (.recordApproval id v, .done (.ok ())) :: later →
      ∀ e ∈ later, e.1 = .hasApproved id v → e.2 = .flag true

theorem get_eq_ok :
    s.get id = .ok session ↔ s.sessions.lookup id = some session := by
  unfold InMemorySessionStore.get
  exact okOr_eq_ok

/-- **Replay protection.** As long as nothing is removed, identifiers, ended sessions and approvals
are final. -/
theorem replayProtected (s : InMemorySessionStore) (ops : List Operation)
    (hops : ∀ op ∈ ops, op.Keeps) : ReplayProtected s ops where
  inserted_once id := by
    refine Calls.countP_events_le_one (A := Operation.Keeps) (fun s => id ∈ s.sessions)
      ?_ ?_ ?_ hops
    · intro s op _ hr
      exact (performed_perform s op).mem_of_inserted hr
    · intro s op hop hid
      exact (performed_perform s op).mem_sessions hop hid
    · intro s op _ hid
      exact (performed_perform s op).not_inserted hid
  ended := by
    rintro before later rfl id session hget hstate
    have hend := SessionState.isTerminal_iff.2 hstate
    refine Calls.forall_events (A := Operation.Keeps)
      (fun s => s.sessions.lookup id = some session) ?_ ?_
      (fun op hop => hops op (List.mem_append_right before hop)) (get_eq_ok.1 hget)
    · intro s op hop hid
      exact (performed_perform s op).lookup_of_isTerminal hop hid hend
    · intro s op _ hid
      exact (performed_perform s op).answersEnded hid hend
  approved_once id v := by
    refine Calls.countP_events_le_one (A := Operation.Keeps)
      (fun s => s.hasApproved id v = true) ?_ ?_ ?_ hops
    · intro s op _ hr
      obtain ⟨rfl, hdone⟩ := Prod.mk.inj (of_decide_eq_true hr)
      have hperf := performed_perform s (.recordApproval id v)
      rw [hdone] at hperf
      exact hperf.hasApproved_of_approved
    · intro s op hop hv
      exact (performed_perform s op).hasApproved_eq_true hop hv
    · intro s op _ hv
      exact (performed_perform s op).not_approved hv
  approved_after id v before later hevents := by
    refine Calls.forall_events_after (A := Operation.Keeps)
      (R := fun op r => op = .hasApproved id v → r = .flag true)
      (fun s => s.hasApproved id v = true) ?_ ?_ ?_ hops hevents
    · intro s hdone
      have hperf := performed_perform s (.recordApproval id v)
      rw [hdone] at hperf
      exact hperf.hasApproved_of_approved
    · intro s op hop hv
      exact (performed_perform s op).hasApproved_eq_true hop hv
    · intro s op _ hv
      exact (performed_perform s op).flag_of_hasApproved hv

def plainVerifier : VerifierId := .fromBytes (.replicate 32 1)

def plainSession (id : UInt8) (state : SessionState) : Session where
  context :=
    { sessionId := .fromBytes (.replicate 16 id)
      proverId := .fromBytes (.replicate 32 2)
      coordinatorId := .fromBytes (.replicate 32 3)
      quorum := ⟨.ofList [plainVerifier], 1⟩
      epoch := ⟨0⟩
      createdAt := ⟨1000⟩
      expiresAt := ⟨1060⟩
      nonce := .fromBytes (.replicate 32 4)
      sessionDigest := .fromBytes (.replicate 32 0) }
  state := state

def plainId (id : UInt8) : SessionId := .fromBytes (.replicate 16 id)

def replayedCalls : List Operation :=
  [.insert (plainSession 7 .collecting), .recordApproval (plainId 7) plainVerifier,
    .updateState (plainId 7) .finalized, .recordApproval (plainId 7) plainVerifier,
    .insert (plainSession 7 .pending), .hasApproved (plainId 7) plainVerifier]

theorem keeps_replayedCalls : ∀ op ∈ replayedCalls, op.Keeps := by
  simp [replayedCalls, Operation.Keeps]

theorem replayProtected_replayedCalls :
    ReplayProtected new replayedCalls ∧ (Calls.events perform new replayedCalls).map Prod.snd =
        [.done (.ok ()), .done (.ok ()), .done (.ok ()), .done (.error .sessionTerminated),
          .done (.error .alreadyExists), .flag true] :=
  ⟨replayProtected new replayedCalls keeps_replayedCalls, by decide +kernel⟩

end InMemorySessionStore

end TlsAttestation
