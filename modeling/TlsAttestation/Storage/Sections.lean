import TlsAttestation.Lib.Threads
import TlsAttestation.Storage.Operations

/-!
# Calls of the store at the same time

Two maps, each under a lock of its own. Every method is one critical section but `record_approval`:
it looks at the session under the first lock and adds the approval under the second. So a session
may be approved after it has ended (`InMemorySessionStore.approves_only_open`).
-/

namespace TlsAttestation

open Effect Finmap Threads

namespace InMemorySessionStore

/-! ### Methods as critical sections -/

variable (id : SessionId)

def approvalCheck : EStateM StorageError InMemorySessionStore Unit := fun s =>
  match s.sessions.lookup id with
  | none => .error .notFound s
  | some session => if session.state.isTerminal then .error .sessionTerminated s else .ok () s

theorem mem_approvals_insert (s : InMemorySessionStore) {id : SessionId} {set : Finset VerifierId}
    (h : s.approvals.lookup id = some set) (v : VerifierId) (i : SessionId) :
    i ∈ s.approvals.insert id (Insert.insert v set) ↔ i ∈ s.sessions := by
  rw [mem_insert_of_lookup h, s.mem_approvals]

def approvalWrite (v : VerifierId) :
    EStateM StorageError InMemorySessionStore Unit := fun s =>
  match h : s.approvals.lookup id with
  | none => .error .notFound s
  | some set =>
    if v ∈ set then .error (.duplicateApproval v.display) s
    else .ok () { s with
        approvals := s.approvals.insert id (Insert.insert v set)
        mem_approvals := s.mem_approvals_insert h v }

def answered (p : Prog InMemorySessionStore (Except StorageError Unit)) :
    Prog InMemorySessionStore Response :=
  p.bind fun r => .done (.done r)

def writing (v : VerifierId) : Prog InMemorySessionStore Response :=
  answered (.atomic (approvalWrite id v))

def oneSection (op : Operation) : Prog InMemorySessionStore Response :=
  .locked (fun s => (perform s op).2) fun s => .done (perform s op).1

def sections : Operation → Prog InMemorySessionStore Response
  | .recordApproval id v =>
    answered ((Prog.atomic (approvalCheck id)).andThen fun _ => .atomic (approvalWrite id v))
  | op => oneSection op

theorem approvalCheck_bind_approvalWrite (v : VerifierId) :
    (approvalCheck id >>= fun _ => approvalWrite id v) = recordApproval id v := by
  funext s
  change EStateM.bind _ _ s = recordApproval id v s
  unfold EStateM.bind approvalCheck recordApproval
  rcases hid : s.sessions.lookup id with _ | session
  · rfl
  · rcases hend : session.state.isTerminal with _ | _
    · simp only [hend]
      rfl
    · simp only [hend]
      rfl

/-- **The sections make up the method**, if nobody interferes. -/
theorem alone_sections (op : Operation) (s : InMemorySessionStore) :
    (sections op).alone s = perform s op := by
  cases op with
  | recordApproval id v =>
    have hrepresents : Represents ((Prog.atomic (approvalCheck id)).andThen fun _ =>
        .atomic (approvalWrite id v)) (recordApproval id v) := by
      rw [← approvalCheck_bind_approvalWrite]
      exact (represents_atomic _).andThen fun _ => represents_atomic _
    rw [sections, answered, Prog.alone_bind, hrepresents s]
    rfl
  | _ => rfl

theorem sections_recordApproval (v : VerifierId) :
    sections (.recordApproval id v) =
      .locked (fun s => (resultOf ((approvalCheck id).run s)).2) fun s =>
        match (resultOf ((approvalCheck id).run s)).1 with
        | .ok _ => writing id v
        | .error e => .done (.done (.error e)) := by
  rw [sections, answered, Prog.andThen, Prog.atomic]
  simp only [Prog.bind]
  congr 1
  funext s
  rcases (resultOf ((approvalCheck id).run s)).1 with e | _ <;> rfl

/-! ### What the sections do -/

variable {s s' : InMemorySessionStore} {id : SessionId} {v : VerifierId} {op : Operation}
  {r : Response}

def IsOpen (s : InMemorySessionStore) (id : SessionId) : Prop :=
  ∀ session, s.sessions.lookup id = some session → session.state.isTerminal = false

/-- Approvals are added only to sessions that have not ended. -/
def ApprovesOpen (s s' : InMemorySessionStore) : Prop :=
  ∀ id v, s.hasApproved id v = false → s'.hasApproved id v = true → s.IsOpen id

theorem ApprovesOpen.refl (s : InMemorySessionStore) : ApprovesOpen s s := by
  intro id v hbefore hafter
  rw [hbefore] at hafter
  cases hafter

def EndsSession (s : InMemorySessionStore) (id : SessionId) : Operation → Prop
  | .updateState i state => i = id ∧ state.isTerminal = true ∧
    ∃ session, s.sessions.lookup id = some session ∧ session.state.isTerminal = false
  | .insert session => session.context.sessionId = id ∧ session.state.isTerminal = true ∧
    id ∉ s.sessions
  | _ => False

theorem Performed.isOpen (h : Performed s op r s') (hid : s.IsOpen id)
    (hends : ¬ s.EndsSession id op) : s'.IsOpen id := by
  intro session' hsession'
  cases h with
  | @insertNew session _ hnew hses =>
    rw [hses] at hsession'
    by_cases hi : id = session.context.sessionId
    · subst hi
      rw [lookup_insert] at hsession'
      obtain rfl := Option.some.inj hsession'
      exact Bool.eq_false_iff.2 fun hend => hends ⟨rfl, hend, hnew⟩
    · rw [lookup_insert_of_ne _ hi] at hsession'
      exact hid session' hsession'
  | @updateOpen i state session _ hi hopen hses =>
    rw [hses] at hsession'
    by_cases heq : id = i
    · subst heq
      rw [lookup_insert] at hsession'
      obtain rfl := Option.some.inj hsession'
      exact Bool.eq_false_iff.2 fun hend => hends ⟨rfl, hend, session, hi, hopen⟩
    · rw [lookup_insert_of_ne _ heq] at hsession'
      exact hid session' hsession'
  | approve _ _ _ _ hses =>
    rw [hses] at hsession'
    exact hid session' hsession'
  | @remove i _ hses =>
    rw [hses] at hsession'
    by_cases heq : id = i
    · subst heq
      rw [lookup_erase] at hsession'
      cases hsession'
    · rw [lookup_erase_ne heq] at hsession'
      exact hid session' hsession'
  | _ => exact hid session' hsession'

theorem Performed.approvesOpen (h : Performed s op r s')
    (hop : ∀ id v, op ≠ .recordApproval id v) : ApprovesOpen s s' := by
  intro id v hbefore hafter
  -- the approval was there before
  refine absurd ?_ (Bool.eq_false_iff.1 hbefore)
  rw [InMemorySessionStore.hasApproved_eq_true] at hafter ⊢
  obtain ⟨set, hset, hv⟩ := hafter
  cases h with
  | @insertNew session _ _ _ happs =>
    rw [happs] at hset
    by_cases hi : id = session.context.sessionId
    · subst hi
      rw [lookup_insert] at hset
      obtain rfl := Option.some.inj hset
      cases hv
    · rw [lookup_insert_of_ne _ hi] at hset
      exact ⟨set, hset, hv⟩
  | updateOpen _ _ _ happs =>
    rw [happs] at hset
    exact ⟨set, hset, hv⟩
  | approve => exact absurd rfl (hop _ _)
  | @remove i _ _ happs =>
    rw [happs] at hset
    by_cases hi : id = i
    · subst hi
      rw [lookup_erase] at hset
      cases hset
    · rw [lookup_erase_ne hi] at hset
      exact ⟨set, hset, hv⟩
  | _ => exact ⟨set, hset, hv⟩

theorem resultOf_approvalCheck (s : InMemorySessionStore) (id : SessionId) :
    (resultOf ((approvalCheck id).run s)).2 = s ∧
      ((resultOf ((approvalCheck id).run s)).1 = .ok () → s.IsOpen id) := by
  simp only [approvalCheck, EStateM.run]
  rcases hid : s.sessions.lookup id with _ | session
  · exact ⟨rfl, fun h => by cases h⟩
  · rcases hend : session.state.isTerminal with _ | _
    · refine ⟨by simp [hend, resultOf], fun _ session' hsession' => ?_⟩
      obtain rfl := Option.some.inj (hid.symm.trans hsession')
      exact hend
    · refine ⟨by simp [hend, resultOf], fun h => ?_⟩
      simp [hend, resultOf] at h

theorem resultOf_approvalWrite (s : InMemorySessionStore) (id : SessionId) (v : VerifierId) :
    (resultOf ((approvalWrite id v).run s)).2.sessions = s.sessions ∧
      ∀ i w, (resultOf ((approvalWrite id v).run s)).2.hasApproved i w = true →
        s.hasApproved i w = true ∨ i = id := by
  simp only [approvalWrite, EStateM.run]
  split
  · exact ⟨rfl, fun i w h => .inl h⟩
  · next set hset =>
    split
    · exact ⟨rfl, fun i w h => .inl h⟩
    · refine ⟨rfl, fun i w h => ?_⟩
      by_cases hi : i = id
      · exact .inr hi
      · rw [InMemorySessionStore.hasApproved_eq_true] at h ⊢
        simp only [resultOf, lookup_insert_of_ne _ hi] at h
        exact .inl h

/-! ### All interleavings -/

section

variable {ι : Type} [DecidableEq ι] {calls : ι → Operation}
  {c : Pool ι InMemorySessionStore Response} {i : ι} (s : InMemorySessionStore)

def start (calls : ι → Operation) :
    Pool ι InMemorySessionStore Response :=
  ⟨s, fun i => sections (calls i)⟩

def HalfApproved (calls : ι → Operation) (c : Pool ι InMemorySessionStore Response)
    (id : SessionId) : Prop :=
  ∃ j v, calls j = .recordApproval id v ∧ c.threads j = writing id v

/-- No session ends while an approval of it is half done. -/
def EndsUndisturbed (calls : ι → Operation) (c : Pool ι InMemorySessionStore Response) (i : ι) :
    Prop :=
  ∀ id, c.threads i = sections (calls i) → c.shared.EndsSession id (calls i) →
    ¬ HalfApproved calls c id

inductive AtPoint (s : InMemorySessionStore) (op : Operation) :
    Prog InMemorySessionStore Response → Prop
  | beginning : AtPoint s op (sections op)
  | middle {id : SessionId} {v : VerifierId} (hop : op = .recordApproval id v)
    (hopen : s.IsOpen id) : AtPoint s op (writing id v)
  | finished (r : Response) : AtPoint s op (.done r)

def Orderly (calls : ι → Operation) (c : Pool ι InMemorySessionStore Response) : Prop :=
  ∀ i, AtPoint c.shared (calls i) (c.threads i)

theorem Orderly.update (h : Orderly calls c) {p : Prog InMemorySessionStore Response}
    (hp : AtPoint s' (calls i) p)
    (hopen : ∀ id, HalfApproved calls c id → c.shared.IsOpen id → s'.IsOpen id) :
    Orderly calls ⟨s', Function.update c.threads i p⟩ := by
  intro j
  by_cases hj : j = i
  · subst hj
    simpa using hp
  · simp only [Function.update_of_ne hj]
    have hat := h j
    generalize hq : c.threads j = q at hat
    cases hat with
    | beginning => exact .beginning
    | middle hop hid => exact .middle hop (hopen _ ⟨j, _, hop, hq⟩ hid)
    | finished r => exact .finished r

theorem Orderly.step (h : Orderly calls c) (hi : EndsUndisturbed calls c i) :
    Orderly calls (c.step i) ∧ ApprovesOpen c.shared (c.step i).shared := by
  have hat := h i
  generalize hp : c.threads i = p at hat
  cases hat with
  | beginning =>
    by_cases hop : ∃ id v, calls i = .recordApproval id v
    · -- the first section of an approval
      obtain ⟨id, v, hop⟩ := hop
      rw [hop] at hp
      obtain ⟨hsame, hpass⟩ := resultOf_approvalCheck c.shared id
      rw [Pool.step_of_locked (hp.trans (sections_recordApproval id v)), hsame]
      refine ⟨h.update ?_ fun _ _ hid => hid, .refl c.shared⟩
      rcases hcheck : (resultOf ((approvalCheck id).run c.shared)).1 with e | _
      · exact .finished _
      · exact .middle hop (hpass hcheck)
    · -- a call that is one section
      have hone : sections (calls i) = oneSection (calls i) := by
        rcases hcall : calls i with _ | _ | _ | ⟨id, v⟩ | _ | _ | _
        case recordApproval => exact absurd ⟨id, v, hcall⟩ hop
        all_goals rfl
      have hdone := performed_perform c.shared (calls i)
      rw [Pool.step_of_locked (hp.trans hone)]
      refine ⟨h.update (.finished _) fun id hhalf hid => ?_, hdone.approvesOpen ?_⟩
      · exact hdone.isOpen hid fun hends => hi id hp hends hhalf
      · exact fun id v hcall => hop ⟨id, v, hcall⟩
  | @middle id v hop hopen =>
    rw [Pool.step_of_locked hp]
    obtain ⟨hses, happs⟩ := resultOf_approvalWrite c.shared id v
    refine ⟨h.update (.finished _) fun j _ hj => ?_, fun j w hbefore hafter => ?_⟩
    · exact fun session hsession => hj session (hses ▸ hsession)
    · rcases happs j w hafter with hthere | rfl
      · rw [hbefore] at hthere
        cases hthere
      · exact hopen
  | finished r =>
    rw [Pool.step_of_done hp]
    exact ⟨h, .refl c.shared⟩

/-- **Approvals are added only to sessions that have not ended**, if no session ends while an
approval of it is half done. -/
theorem approves_only_open (calls : ι → Operation) {schedule : List ι}
    (h : Pool.Meets (EndsUndisturbed calls) (start s calls) schedule) :
    Pool.Meets (fun c i => ApprovesOpen c.shared (c.step i).shared) (start s calls) schedule :=
  Pool.Meets.of_invariant (Orderly calls) (fun _ _ hc hi => (hc.step hi).1)
    (fun _ _ hc hi => (hc.step hi).2) (fun _ => .beginning) h

def racingCalls : Bool → Operation
  | false => .recordApproval (plainId 7) plainVerifier
  | true => .updateState (plainId 7) .finalized

def collectingStore : InMemorySessionStore :=
  (perform new (.insert (plainSession 7 .collecting))).2

/-- The approval comes before the end of the session. -/
theorem approves_only_open_racingCalls :
    Pool.Meets (fun c i => ApprovesOpen c.shared (c.step i).shared)
      (start collectingStore racingCalls) [false, false, true] := by
  refine approves_only_open collectingStore racingCalls ⟨?_, ?_, ?_, trivial⟩
  · exact fun _ _ hends => hends.elim
  · exact fun _ _ hends => hends.elim
  · rintro id - - ⟨_ | _, v, hcall, hwriting⟩
    · have hdone : ((((start collectingStore racingCalls).step false).step false).threads
          false).IsDone := by
        decide +kernel
      rw [hwriting] at hdone
      exact hdone.elim
    · cases hcall

/-- The session ends between the two sections. -/
theorem not_approves_only_open_racingCalls :
    ¬ Pool.Meets (fun c i => ApprovesOpen c.shared (c.step i).shared)
      (start collectingStore racingCalls) [false, true, false] := by
  rintro ⟨-, -, h, -⟩
  have hopen := h (plainId 7) plainVerifier (by decide +kernel) (by decide +kernel)
    (plainSession 7 .finalized) (by decide +kernel)
  cases hopen

end

end InMemorySessionStore

end TlsAttestation
