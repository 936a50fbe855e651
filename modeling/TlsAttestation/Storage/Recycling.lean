import TlsAttestation.Storage.Equivalence

/-!
# Session identifiers that are used again

The trait says that an identifier is never recycled, but both stores forget it when its session is
removed. It is true of a run exactly if no call after an insertion and a removal inserts the
identifier again or asks for it (`neverRecycled_iff`).
-/

namespace TlsAttestation

open Calls InMemorySessionStore List SqliteSessionStore

/-! ### What the trait says -/

/-- An identifier is inserted once at most, and known ever after. -/
structure NeverRecycled (events : List (Operation × Response)) : Prop where
  inserted_once : ∀ id, events.countP (Inserted id) ≤ 1
  contains_after : ∀ id, events.Pairwise fun e e' =>
    Inserted id e = true → ∀ r, e' = (.contains id, r) → r = .flag true

namespace Operation

def Inserts (id : SessionId) : Operation → Bool
  | .insert session => session.context.sessionId = id
  | _ => false

/-- The answer depends on whether the identifier has been used. -/
def Asks (id : SessionId) : Operation → Bool
  | .insert session => session.context.sessionId = id
  | .contains i => i = id
  | _ => false

end Operation

/-- **An identifier is used again** after a removal. -/
def Recycles (id : SessionId) (ops : List Operation) : Prop :=
  ∃ first again, [first, .remove id, again].Sublist ops ∧ first.Inserts id = true ∧
    again.Asks id = true

def Quiet (id : SessionId) (e : Operation × Response) : Prop :=
  Inserted id e = false ∧ ∀ r, e = (.contains id, r) → r = .flag true

theorem countP_le_one_iff {α : Type} {p : α → Bool} {l : List α} :
    l.countP p ≤ 1 ↔ l.Pairwise fun a b => p a = true → p b = false := by
  induction l with
  | nil => simp
  | cons a l ih =>
    rw [pairwise_cons, ← ih]
    rcases ha : p a with _ | _
    · simp [ha]
    · have hzero : l.countP p + 1 ≤ 1 ↔ ∀ b ∈ l, p b = false := by
        rw [show l.countP p + 1 ≤ 1 ↔ l.countP p = 0 by omega, countP_eq_zero]
        simp
      rw [countP_cons_of_pos ha, hzero]
      refine ⟨fun h => ⟨fun b hb _ => h b hb, ?_⟩, fun h b hb => h.1 b hb rfl⟩
      rw [countP_eq_zero.2 fun b hb => by simp [h b hb]]
      exact Nat.zero_le 1

theorem neverRecycled_iff_pairwise {events : List (Operation × Response)} :
    NeverRecycled events ↔
      ∀ id, events.Pairwise fun e e' => Inserted id e = true → Quiet id e' := by
  constructor
  · intro h id
    refine (List.Pairwise.and (countP_le_one_iff.1 (h.inserted_once id))
      (h.contains_after id)).imp ?_
    exact fun hee' hins => ⟨hee'.1 hins, hee'.2 hins⟩
  · intro h
    refine ⟨fun id => countP_le_one_iff.2 ?_, fun id => ?_⟩
    · exact (h id).imp fun hee' hins => (hee' hins).1
    · exact (h id).imp fun hee' hins => (hee' hins).2

/-! ### One identifier in the store in memory -/

namespace InMemorySessionStore

variable {s s' : InMemorySessionStore} {op : Operation} {r : Response} {id : SessionId}

section

attribute [local simp] Quiet Inserted Operation.Asks Operation.Inserts

theorem Performed.mem_sessions_iff (h : Performed s op r s') :
    id ∈ s'.sessions ↔ op.Inserts id = true ∨ id ∈ s.sessions ∧ op ≠ .remove id := by
  cases h with
  | @insertKnown session hknown =>
    simp only [Operation.Inserts, decide_eq_true_eq, ne_eq, reduceCtorEq, not_false_eq_true,
      and_true, iff_or_self]
    rintro rfl
    exact hknown
  | insertNew _ hses _ =>
    rw [hses, Finmap.mem_insert]
    simp [eq_comm]
  | @updateOpen i _ _ _ hi _ hses _ =>
    rw [hses, mem_insert_of_lookup hi]
    simp
  | approve _ _ _ _ hses _ =>
    rw [hses]
    simp
  | remove hses _ =>
    rw [hses, Finmap.mem_erase]
    simp [and_comm, eq_comm]
  | _ => simp

theorem Performed.quiet_iff (h : Performed s op r s') :
    Quiet id (op, r) ↔ op.Asks id = false ∨ id ∈ s.sessions := by
  cases h with
  | @insertKnown session hknown =>
    have hquiet : Quiet id (.insert session, .done (.error .alreadyExists)) :=
      ⟨rfl, fun r hr => by cases hr⟩
    refine iff_of_true hquiet ?_
    by_cases hid : session.context.sessionId = id
    · exact .inr (hid ▸ hknown)
    · exact .inl (by simp [hid])
  | @insertNew session _ hnew _ _ =>
    by_cases hid : session.context.sessionId = id
    · subst hid
      simp [hnew]
    · simp [hid]
  | @contains i =>
    by_cases hid : i = id
    · subst hid
      simp [InMemorySessionStore.contains]
    · simp [hid]
  | _ => simp

theorem Performed.inserted_iff (h : Performed s op r s') :
    Inserted id (op, r) = true ↔ op.Inserts id = true ∧ id ∉ s.sessions := by
  cases h with
  | @insertKnown session hknown =>
    simp only [Inserted, Operation.Inserts, Bool.false_eq_true, decide_eq_true_eq, false_iff,
      not_and, not_not]
    rintro rfl
    exact hknown
  | @insertNew session _ hnew _ _ =>
    simp only [Inserted, Operation.Inserts, decide_eq_true_eq, iff_self_and]
    rintro rfl
    exact hnew
  | _ => simp

end

/-! ### Runs -/

variable {ops : List Operation}

theorem quiet_of_not_asks (h : ∀ op ∈ ops, op.Asks id = false) :
    ∀ e ∈ events perform s ops, Quiet id e := by
  induction ops generalizing s with
  | nil => simp [events]
  | cons op ops ih =>
    intro e he
    rcases mem_cons.1 he with rfl | he
    · exact (performed_perform s op).quiet_iff.2 (.inl (h op mem_cons_self))
    · exact ih (fun op' hop' => h op' (mem_cons_of_mem op hop')) e he

theorem exists_not_quiet_of_not_mem (hid : id ∉ s.sessions) {again : Operation}
    (hmem : again ∈ ops) (hasks : again.Asks id = true) :
    ∃ e ∈ events perform s ops, ¬ Quiet id e := by
  induction ops generalizing s with
  | nil => cases hmem
  | cons op ops ih =>
    have hperf := performed_perform s op
    rcases hop : op.Asks id with _ | _
    · -- the call asks for another one, so there is still no session
      have hinserts : op.Inserts id = false := by
        cases op <;> simp_all [Operation.Asks, Operation.Inserts]
      have hid' : id ∉ (perform s op).2.sessions := by
        rw [hperf.mem_sessions_iff]
        simp [hinserts, hid]
      have hmem' : again ∈ ops := by
        rcases mem_cons.1 hmem with rfl | hmem
        · rw [hop] at hasks
          cases hasks
        · exact hmem
      obtain ⟨e, he, hquiet⟩ := ih hid' hmem'
      exact ⟨e, mem_cons_of_mem _ he, hquiet⟩
    · refine ⟨_, mem_cons_self, ?_⟩
      rw [hperf.quiet_iff]
      simp [hop, hid]

/-- **While there is a session**, all is quiet unless the identifier is asked for after a removal.
-/
theorem quiet_iff_of_mem (hid : id ∈ s.sessions) : (∀ e ∈ events perform s ops, Quiet id e) ↔
      ∀ again, [.remove id, again].Sublist ops → again.Asks id = false := by
  induction ops generalizing s with
  | nil => simp [events]
  | cons op ops ih =>
    have hperf := performed_perform s op
    have hhead : Quiet id (op, (perform s op).1) := hperf.quiet_iff.2 (.inr hid)
    rw [events, forall_mem_cons, and_iff_right hhead]
    by_cases hop : op = .remove id
    · subst hop
      have hid' : id ∉ (perform s (.remove id)).2.sessions := by
        rw [hperf.mem_sessions_iff]
        simp [Operation.Inserts]
      simp only [cons_sublist_cons, singleton_sublist]
      refine ⟨fun hquiet again hagain => ?_, quiet_of_not_asks⟩
      by_contra hasks
      obtain ⟨e, he, hnot⟩ :=
        exists_not_quiet_of_not_mem hid' hagain (Bool.eq_true_of_not_eq_false hasks)
      exact hnot (hquiet e he)
    · have hid' : id ∈ (perform s op).2.sessions :=
        hperf.mem_sessions_iff.2 (.inr ⟨hid, hop⟩)
      simp only [ih hid', cons_sublist_cons', Ne.symm hop, false_and, or_false]

theorem pairwise_iff_of_not_mem (hid : id ∉ s.sessions) :
    (events perform s ops).Pairwise (fun e e' => Inserted id e = true → Quiet id e') ↔
      ¬ Recycles id ops := by
  induction ops generalizing s with
  | nil => simp [events, Recycles]
  | cons op ops ih =>
    have hperf := performed_perform s op
    rw [events, pairwise_cons]
    rcases hop : op.Inserts id with _ | _
    · -- nothing is inserted yet, and the first of the three calls is still to come
      have hid' : id ∉ (perform s op).2.sessions := by
        rw [hperf.mem_sessions_iff]
        simp [hop, hid]
      have hhead : Inserted id (op, (perform s op).1) = false := by
        rw [Bool.eq_false_iff, Ne, hperf.inserted_iff]
        simp [hop]
      have hrecycles : Recycles id (op :: ops) ↔ Recycles id ops := by
        constructor
        · rintro ⟨first, again, hsub, hfirst, hagain⟩
          rcases cons_sublist_cons'.1 hsub with hsub | ⟨rfl, -⟩
          · exact ⟨first, again, hsub, hfirst, hagain⟩
          · rw [hop] at hfirst
            cases hfirst
        · rintro ⟨first, again, hsub, h⟩
          exact ⟨first, again, hsub.cons op, h⟩
      rw [hrecycles, ← ih hid', hhead]
      simp
    · have hid' : id ∈ (perform s op).2.sessions := hperf.mem_sessions_iff.2 (.inl hop)
      have hhead : Inserted id (op, (perform s op).1) = true :=
        hperf.inserted_iff.2 ⟨hop, hid⟩
      have hquiet : (∀ e ∈ events perform (perform s op).2 ops, Quiet id e) ↔
          ∀ again, [.remove id, again].Sublist ops → again.Asks id = false :=
        quiet_iff_of_mem hid'
      constructor
      · rintro ⟨hall, -⟩ ⟨first, again, hsub, -, hagain⟩
        have hafter : [.remove id, again].Sublist ops := by
          rcases cons_sublist_cons'.1 hsub with hsub | ⟨-, hsub⟩
          · exact (sublist_cons_self first _).trans hsub
          · exact hsub
        rw [hquiet.1 (fun e he => hall e he hhead) again hafter] at hagain
        cases hagain
      · intro hnot
        have hall : ∀ e ∈ events perform (perform s op).2 ops, Quiet id e := by
          refine hquiet.2 fun again hsub => ?_
          by_contra hagain
          exact hnot ⟨op, again, hsub.cons_cons op, hop, Bool.eq_true_of_not_eq_false hagain⟩
        exact ⟨fun e he _ => hall e he, pairwise_of_forall_mem_list fun e _ e' he' _ => hall e' he'⟩

end InMemorySessionStore

/-- **When no identifier is recycled**, in either store: without insertion, removal and new use in
this order. -/
theorem neverRecycled_iff (json : SessionJson) (hjson : json.RoundTrips) (ops : List Operation) :
    (NeverRecycled (events perform InMemorySessionStore.new ops) ↔ ∀ id, ¬ Recycles id ops) ∧
    (NeverRecycled (events perform (openNew : SqliteSessionStore json) ops) ↔
      ∀ id, ¬ Recycles id ops) := by
  have hnew : ∀ id, id ∉ InMemorySessionStore.new.sessions := fun id => Finmap.notMem_empty
  have hmemory : NeverRecycled (events perform InMemorySessionStore.new ops) ↔
      ∀ id, ¬ Recycles id ops := by
    rw [neverRecycled_iff_pairwise]
    exact forall_congr' fun id => pairwise_iff_of_not_mem (hnew id)
  have hsame : events perform (openNew : SqliteSessionStore json) ops =
        events perform InMemorySessionStore.new ops :=
    (events_eq_of_mirrors hjson mirrors_empty ops).symm
  exact ⟨hmemory, by rwa [hsame]⟩

def recycledCalls : List Operation :=
  [.insert (plainSession 7 .pending), .remove (plainId 7), .insert (plainSession 7 .pending)]

theorem not_neverRecycled_recycledCalls :
    ¬ NeverRecycled (events perform InMemorySessionStore.new recycledCalls) := by
  intro h
  have htwice : (events perform InMemorySessionStore.new recycledCalls).countP
      (Inserted (plainId 7)) = 2 := by decide +kernel
  have honce := h.inserted_once (plainId 7)
  rw [htwice] at honce
  exact absurd honce (by decide)

theorem not_recycles_replayedCalls (id : SessionId) : ¬ Recycles id replayedCalls := by
  rintro ⟨first, again, hsub, -⟩
  have hmem : .remove id ∈ replayedCalls := hsub.subset (by simp)
  simp [replayedCalls] at hmem

theorem neverRecycled_replayedCalls : hexJson.RoundTrips ∧
      NeverRecycled (events perform InMemorySessionStore.new replayedCalls) ∧
      NeverRecycled (events perform (openNew : SqliteSessionStore hexJson) replayedCalls) :=
  ⟨roundTrips_hexJson, (neverRecycled_iff hexJson roundTrips_hexJson _).1.2
      not_recycles_replayedCalls,
    (neverRecycled_iff hexJson roundTrips_hexJson _).2.2 not_recycles_replayedCalls⟩

end TlsAttestation
