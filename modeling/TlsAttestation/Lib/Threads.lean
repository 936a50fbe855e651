import TlsAttestation.Lib.Effect
import Mathlib.Logic.Function.Basic

/-!
# Threads that share a state under a lock

A method that takes a lock now and then is a tree (`Threads.Prog`), and a turn of a schedule is one
critical section (`Threads.Pool.step`). What every turn keeps is kept by all schedules
(`Threads.Pool.run_invariant`), and a method whose thread has all the turns behaves as if it were
alone (`Threads.Pool.exists_run_eq_alone`).
-/

namespace Threads

open Effect (resultOf)

universe u v w

/-- A program with critical sections on a state `σ`. -/
inductive Prog (σ : Type u) (α : Type v) where
  | done (a : α)
  | locked (update : σ → σ) (next : σ → Prog σ α)

namespace Prog

variable {σ : Type u} {α : Type v}

def alone : Prog σ α → σ → α × σ
  | done a, s => (a, s)
  | locked update next, s => (next s).alone (update s)

def IsDone : Prog σ α → Prop
  | done _ => True
  | locked _ _ => False

instance : DecidablePred (@IsDone σ α)
  | .done _ => .isTrue trivial
  | .locked _ _ => .isFalse id

theorem not_isDone {p : Prog σ α} {update : σ → σ} {next : σ → Prog σ α}
    (h : p = locked update next) : ¬ p.IsDone := by
  rw [h]
  exact id

def bind {β : Type w} : Prog σ α → (α → Prog σ β) → Prog σ β
  | done a, k => k a
  | locked update next, k => locked update fun s => (next s).bind k

theorem alone_bind {β : Type w} (p : Prog σ α) (k : α → Prog σ β) (s : σ) :
    (p.bind k).alone s = (k (p.alone s).1).alone (p.alone s).2 := by
  induction p generalizing s with
  | done a => rfl
  | locked update next ih => exact ih s (update s)

end Prog

/-! ### Programs with errors, cut into sections -/

section Errors

variable {ε σ α β γ : Type u}

namespace Prog

def atomic (x : EStateM ε σ α) : Prog σ (Except ε α) :=
  .locked (fun s => (resultOf (x.run s)).2) fun s => .done (resultOf (x.run s)).1

def andThen (p : Prog σ (Except ε α)) (k : α → Prog σ (Except ε β)) : Prog σ (Except ε β) :=
  p.bind fun r =>
    match r with
    | .ok a => k a
    | .error e => .done (.error e)

def forEach (f : γ → Prog σ (Except ε β)) : List γ → Prog σ (Except ε (List β))
  | [] => .done (.ok [])
  | a :: l => (f a).andThen fun b => (forEach f l).andThen fun bs => .done (.ok (b :: bs))

end Prog

/-- Run without interruption, the sections do what the program does. -/
def Represents (p : Prog σ (Except ε α)) (x : EStateM ε σ α) : Prop :=
  ∀ s, p.alone s = resultOf (x.run s)

theorem represents_atomic (x : EStateM ε σ α) : Represents (.atomic x) x := fun _ => rfl

theorem represents_pure (a : α) : Represents (.done (.ok a)) (pure a : EStateM ε σ α) :=
  fun _ => rfl

theorem represents_lift {ε' : Type u} (f : ε' → ε) (x : Except ε' α) :
    Represents (.done (x.mapError f)) (Effect.lift f x : EStateM ε σ α) := by
  intro s
  rcases x with e | a <;> rfl

theorem Represents.andThen {p : Prog σ (Except ε α)} {x : EStateM ε σ α}
    {k : α → Prog σ (Except ε β)} {f : α → EStateM ε σ β} (h : Represents p x)
    (hk : ∀ a, Represents (k a) (f a)) : Represents (p.andThen k) (x >>= f) := by
  intro s
  rw [Prog.andThen, Prog.alone_bind, h s, EStateM.run_bind]
  rcases x.run s with ⟨a, t⟩ | ⟨e, t⟩
  · exact hk a t
  · rfl

theorem Represents.forEach {g : γ → Prog σ (Except ε β)} {f : γ → EStateM ε σ β}
    (h : ∀ a, Represents (g a) (f a)) (l : List γ) :
    Represents (Prog.forEach g l) (Effect.forEach f l) := by
  induction l with
  | nil => exact represents_pure []
  | cons a l ih => exact (h a).andThen fun b => ih.andThen fun bs => represents_pure (b :: bs)

end Errors

structure Pool (ι : Type w) (σ : Type u) (α : Type v) where
  shared : σ
  threads : ι → Prog σ α

namespace Pool

variable {ι : Type w} {σ : Type u} {α : Type v} [DecidableEq ι]

def step (c : Pool ι σ α) (i : ι) : Pool ι σ α :=
  match c.threads i with
  | .done _ => c
  | .locked update next => ⟨update c.shared, Function.update c.threads i (next c.shared)⟩

def run (c : Pool ι σ α) (schedule : List ι) : Pool ι σ α :=
  schedule.foldl step c

variable {c : Pool ι σ α} {i : ι}

theorem step_of_done {a : α} (h : c.threads i = .done a) :
    c.step i = c := by
  rw [step, h]

theorem step_of_locked {update : σ → σ} {next : σ → Prog σ α}
    (h : c.threads i = .locked update next) :
    c.step i = ⟨update c.shared, Function.update c.threads i (next c.shared)⟩ := by
  rw [step, h]

/-- **The invariant rule**, for every schedule. -/
theorem run_invariant (Inv : Pool ι σ α → Prop)
    (hstep : ∀ c i update next, Inv c → c.threads i = .locked update next →
      Inv ⟨update c.shared, Function.update c.threads i (next c.shared)⟩) (hc : Inv c)
    (schedule : List ι) : Inv (c.run schedule) := by
  induction schedule generalizing c with
  | nil => exact hc
  | cons i schedule ih =>
    refine ih ?_
    rcases hi : c.threads i with a | ⟨update, next⟩
    · rwa [step_of_done hi]
    · rw [step_of_locked hi]
      exact hstep c i update next hc hi

def Meets (C : Pool ι σ α → ι → Prop) : Pool ι σ α → List ι → Prop
  | _, [] => True
  | c, i :: schedule => C c i ∧ Meets C (c.step i) schedule

/-- The invariant rule with a condition on the turns. -/
theorem Meets.of_invariant (Inv : Pool ι σ α → Prop) {C D : Pool ι σ α → ι → Prop}
    (hstep : ∀ c i, Inv c → C c i → Inv (c.step i)) (hD : ∀ c i, Inv c → C c i → D c i) (hc : Inv c)
    {schedule : List ι} (h : Meets C c schedule) :
    Meets D c schedule := by
  induction schedule generalizing c with
  | nil => trivial
  | cons i schedule ih =>
    obtain ⟨hi, hrest⟩ := h
    exact ⟨hD c i hc hi, ih (hstep c i hc hi) hrest⟩

theorem exists_run_of_eq (s : σ) {threads : ι → Prog σ α} {p : Prog σ α} (hp : threads i = p) :
    ∃ turns, run ⟨s, threads⟩ (List.replicate turns i) =
      ⟨(p.alone s).2, Function.update threads i (.done (p.alone s).1)⟩ := by
  -- The induction is on the program of the thread; the other threads do not move.
  induction p generalizing s threads with
  | done a =>
    refine ⟨0, ?_⟩
    change (⟨s, threads⟩ : Pool ι σ α) = ⟨s, Function.update threads i (.done a)⟩
    rw [← hp, Function.update_eq_self]
  | locked update next ih =>
    have hself : Function.update threads i (next s) i = next s := Function.update_self ..
    obtain ⟨turns, hturns⟩ := ih s (update s) hself
    refine ⟨turns + 1, ?_⟩
    rw [List.replicate_succ, run, List.foldl_cons, step_of_locked hp]
    refine hturns.trans ?_
    rw [Function.update_idem]
    rfl

/-- **A thread that is not interrupted** returns what it does alone. -/
theorem exists_run_eq_alone (s : σ) (threads : ι → Prog σ α) (i : ι) :
    ∃ turns, run ⟨s, threads⟩ (List.replicate turns i) =
      ⟨((threads i).alone s).2, Function.update threads i (.done ((threads i).alone s).1)⟩ :=
  exists_run_of_eq s rfl

end Pool

end Threads
