/-!
# Scripts of statements that may fail

`Script.run` executes a program when the store works, `Script.runWith` in a world where statements
fail or are never reached. A script that reads, then writes in one statement and returns, is all or
nothing (`Script.WritesOnce.all_or_nothing`).
-/

inductive Script (Q : Type → Type) (E α : Type) : Type 1 where
  | done (a : α)
  | exec {β : Type} (q : Q β) (next : Except E β → Script Q E α)

namespace Script

variable {Q : Type → Type} {E ε σ α β γ : Type}

def andThen : Script Q E (Except ε α) → (α → Script Q E (Except ε γ)) → Script Q E (Except ε γ)
  | .done (.ok a), k => k a
  | .done (.error e), _ => .done (.error e)
  | .exec q next, k => .exec q fun r => (next r).andThen k

def map (f : α → γ) : Script Q E α → Script Q E γ
  | .done a => .done (f a)
  | .exec q next => .exec q fun r => (next r).map f

inductive Fate (E : Type) where
  | works
  | fails (e : E)
  /-- The program has stopped before it. -/
  | stops

section

variable (execute : ∀ {β : Type}, Q β → σ → Except E β × σ)

def run : Script Q E α → σ → α × σ
  | .done a, s => (a, s)
  | .exec q next, s => (next (execute q s).1).run (execute q s).2

/-- A run with given fates of the statements. Nothing is returned if the program stops. -/
def runWith : Script Q E α → List (Fate E) → σ → Option α × σ
  | .done a, _, s => (some a, s)
  | .exec q next, [], s => (next (execute q s).1).runWith [] (execute q s).2
  | .exec q next, .works :: fates, s => (next (execute q s).1).runWith fates (execute q s).2
  | .exec _ next, .fails e :: fates, s => (next (.error e)).runWith fates s
  | .exec _ _, .stops :: _, s => (none, s)

def Reads (q : Q β) : Prop := ∀ s, (execute q s).2 = s

/-- Reads, one write, and a return. -/
inductive WritesOnce : Script Q E α → Prop
  | done (a : α) : WritesOnce (.done a)
  | read {β : Type} {q : Q β} {next : Except E β → Script Q E α} (hq : Reads execute q)
    (herror : ∀ e, ∃ a, next (.error e) = .done a) (hok : ∀ b, WritesOnce (next (.ok b))) :
    WritesOnce (.exec q next)
  | write {β : Type} {q : Q β} {next : Except E β → Script Q E α}
    (hnext : ∀ r, ∃ a, next r = .done a) : WritesOnce (.exec q next)

variable {execute}

theorem run_map (f : α → γ) (p : Script Q E α) (s : σ) :
    (p.map f).run execute s = (f (p.run execute s).1, (p.run execute s).2) := by
  induction p generalizing s with
  | done a => rfl
  | exec q next ih => exact ih _ _

theorem runWith_done (a : α) (fates : List (Fate E)) (s : σ) :
    (Script.done a : Script Q E α).runWith execute fates s = (some a, s) := by
  rcases fates with _ | ⟨fate, fates⟩
  · rfl
  · cases fate <;> rfl

theorem runWith_map (f : α → γ) (p : Script Q E α) (fates : List (Fate E)) (s : σ) :
    (p.map f).runWith execute fates s =
      ((p.runWith execute fates s).1.map f, (p.runWith execute fates s).2) := by
  induction p generalizing fates s with
  | done a =>
    rw [map, runWith_done, runWith_done]
    rfl
  | exec q next ih =>
    rcases fates with _ | ⟨fate, fates⟩
    · exact ih _ _ _
    · cases fate with
      | works => exact ih _ _ _
      | fails e => exact ih _ _ _
      | stops => rfl

/-- All or nothing. -/
theorem WritesOnce.all_or_nothing {p : Script Q E α} (h : WritesOnce execute p)
    (fates : List (Fate E)) (s : σ) :
    (p.runWith execute fates s).2 = s ∨ (p.runWith execute fates s).2 = (p.run execute s).2 := by
  induction h generalizing fates with
  | done a =>
    rw [runWith_done]
    exact .inl rfl
  | @read _ q next hq herror hok ih =>
    -- What comes after a statement that was executed, in the same state.
    have hworks : ∀ fates, ((next (execute q s).1).runWith execute fates s).2 = s ∨
        ((next (execute q s).1).runWith execute fates s).2 =
          ((next (execute q s).1).run execute s).2 := by
      intro fates
      rcases (execute q s).1 with e | b
      · obtain ⟨a, ha⟩ := herror e
        rw [ha, runWith_done]
        exact .inl rfl
      · exact ih b fates
    have hrun : (Script.exec q next).run execute s = (next (execute q s).1).run execute s := by
      rw [run, hq s]
    rw [hrun]
    rcases fates with _ | ⟨fate, fates⟩
    · rw [runWith, hq s]
      exact hworks []
    · cases fate with
      | works =>
        rw [runWith, hq s]
        exact hworks fates
      | fails e =>
        obtain ⟨a, ha⟩ := herror e
        rw [runWith, ha, runWith_done]
        exact .inl rfl
      | stops => exact .inl rfl
  | @write _ q next hnext =>
    have hend : ∀ r fates s', ((next r).runWith execute fates s').2 = s' := by
      intro r fates s'
      obtain ⟨a, ha⟩ := hnext r
      rw [ha, runWith_done]
    have hrun : ((Script.exec q next).run execute s).2 = (execute q s).2 := by
      obtain ⟨a, ha⟩ := hnext (execute q s).1
      rw [run, ha, run]
    rw [hrun]
    rcases fates with _ | ⟨fate, fates⟩
    · exact .inr (hend _ _ _)
    · cases fate with
      | works => exact .inr (hend _ _ _)
      | fails e => exact .inl (hend _ _ _)
      | stops => exact .inl rfl

end

end Script
