import Mathlib.Data.List.Basic

/-!
# Objects that answer calls

A call is answered, and the state may change: `step : S → I → O × S`. A run is a list of calls,
`Calls.after` the state in which it ends, and `Calls.events` the calls with their answers. The rules
are about whole runs, their hypotheses about one call.
-/

namespace Calls

open List

variable {S T I O : Type*}

def after (step : S → I → O × S) (s : S) : List I → S
  | [] => s
  | i :: is => after step (step s i).2 is

def events (step : S → I → O × S) (s : S) : List I → List (I × O)
  | [] => []
  | i :: is => (i, (step s i).1) :: events step (step s i).2 is

variable {step : S → I → O × S} {s : S} {A : I → Prop}

theorem after_append (is js : List I) :
    after step s (is ++ js) = after step (after step s is) js := by
  induction is generalizing s with
  | nil => rfl
  | cons i is ih => exact ih

variable {is : List I} {before later : List (I × O)}

theorem exists_of_events_eq_append (h : events step s is = before ++ later) :
    ∃ js ks, is = js ++ ks ∧ events step s js = before ∧
      events step (after step s js) ks = later := by
  induction before generalizing s is with
  | nil => exact ⟨[], is, rfl, rfl, h⟩
  | cons e before ih =>
    rcases is with _ | ⟨i, is⟩
    · cases h
    · obtain ⟨rfl, hrest⟩ := List.cons.inj h
      obtain ⟨js, ks, rfl, hbefore, hlater⟩ := ih hrest
      refine ⟨i :: js, ks, rfl, ?_, hlater⟩
      exact congrArg (List.cons _) hbefore

theorem exists_call_of_events_eq_append {e : I × O} (h : events step s is = before ++ e :: later) :
    ∃ js i ks, is = js ++ i :: ks ∧ before = events step s js ∧
      e = (i, (step (after step s js) i).1) := by
  obtain ⟨js, ks, rfl, hbefore, hlater⟩ := exists_of_events_eq_append h
  rcases ks with _ | ⟨i, ks⟩
  · cases hlater
  · obtain ⟨rfl, -⟩ := List.cons.inj hlater
    exact ⟨js, i, ks, rfl, hbefore.symm, rfl⟩

/-! ### Invariants -/

variable (Inv : S → Prop)

/-- The invariant rule. -/
theorem after_invariant (hstep : ∀ s i, A i → Inv s → Inv (step s i).2)
    (hA : ∀ i ∈ is, A i) (hs : Inv s) : Inv (after step s is) := by
  induction is generalizing s with
  | nil => exact hs
  | cons i is ih =>
    refine ih (fun j hj => hA j (mem_cons_of_mem i hj)) ?_
    exact hstep s i (hA i mem_cons_self) hs

/-- The rule for answers. -/
theorem forall_events {R : I → O → Prop} (hstep : ∀ s i, A i → Inv s → Inv (step s i).2)
    (hR : ∀ s i, A i → Inv s → R i (step s i).1) (hA : ∀ i ∈ is, A i) (hs : Inv s) :
    ∀ e ∈ events step s is, R e.1 e.2 := by
  induction is generalizing s with
  | nil => simp [events]
  | cons i is ih =>
    have hi : A i := hA i mem_cons_self
    intro e he
    rcases mem_cons.1 he with rfl | he
    · exact hR s i hi hs
    · exact ih (fun j hj => hA j (mem_cons_of_mem i hj)) (hstep s i hi hs) e he

/-- **The rule for what follows an event** that leads to an invariant. -/
theorem forall_events_after {R : I → O → Prop} {i : I} {o : O}
    (hevent : ∀ s, (step s i).1 = o → Inv (step s i).2)
    (hstep : ∀ s i, A i → Inv s → Inv (step s i).2) (hR : ∀ s i, A i → Inv s → R i (step s i).1)
    (hA : ∀ i ∈ is, A i) (h : events step s is = before ++ (i, o) :: later) :
    ∀ e ∈ later, R e.1 e.2 := by
  obtain ⟨js, ks, rfl, -, hlater⟩ := exists_of_events_eq_append h
  rcases ks with _ | ⟨k, ks⟩
  · cases hlater
  · obtain ⟨hhead, rfl⟩ := List.cons.inj hlater
    obtain ⟨rfl, ho⟩ := Prod.mk.inj hhead
    refine forall_events Inv hstep hR (fun j hj => hA j ?_) (hevent _ ho)
    exact mem_append_right js (mem_cons_of_mem k hj)

/-- The rule for events that happen at most once. -/
theorem countP_events_le_one {P : I × O → Bool}
    (hevent : ∀ s i, A i → P (i, (step s i).1) = true → Inv (step s i).2)
    (hstep : ∀ s i, A i → Inv s → Inv (step s i).2)
    (hnot : ∀ s i, A i → Inv s → P (i, (step s i).1) = false) (hA : ∀ i ∈ is, A i) :
    (events step s is).countP P ≤ 1 := by
  induction is generalizing s with
  | nil => simp [events]
  | cons i is ih =>
    have hi : A i := hA i mem_cons_self
    have hrest : ∀ j ∈ is, A j := fun j hj => hA j (mem_cons_of_mem i hj)
    rcases hP : P (i, (step s i).1) with _ | _
    · rw [events, countP_cons_of_neg (by simp [hP])]
      exact ih hrest
    · -- from now on the invariant holds, and the event does not happen again
      have hnone : (events step (step s i).2 is).countP P = 0 := by
        rw [countP_eq_zero]
        intro e he
        have := forall_events Inv (R := fun i o => P (i, o) = false) hstep hnot hrest
          (hevent s i hi hP) e he
        simp [this]
      have hone : (events step s (i :: is)).countP P = 1 := by
        rw [events, countP_cons_of_pos hP, hnone]
      exact Nat.le_of_eq hone

/-- The rule for what must have happened. -/
theorem exists_event_of_not {P : I × O → Prop}
    (hstep : ∀ s i, Inv s → ¬ P (i, (step s i).1) → Inv (step s i).2) (hs : Inv s)
    (h : ¬ Inv (after step s is)) : ∃ e ∈ events step s is, P e := by
  induction is generalizing s with
  | nil => exact absurd hs h
  | cons i is ih =>
    by_cases hP : P (i, (step s i).1)
    · exact ⟨_, mem_cons_self, hP⟩
    · obtain ⟨e, he, hPe⟩ := ih (hstep s i hs hP) h
      exact ⟨e, mem_cons_of_mem _ he, hPe⟩

/-! ### Two objects -/

/-- The bisimulation rule. -/
theorem events_eq_of_bisimulation {step' : T → I → O × T} {t : T} (Rel : S → T → Prop)
    (hstep : ∀ s t i, Rel s t → (step s i).1 = (step' t i).1 ∧ Rel (step s i).2 (step' t i).2)
    (hst : Rel s t) (is : List I) : events step s is = events step' t is := by
  induction is generalizing s t with
  | nil => rfl
  | cons i is ih =>
    obtain ⟨hanswer, hrel⟩ := hstep s t i hst
    rw [events, events, hanswer, ih hrel]

end Calls
