import Mathlib.Data.List.Basic
import Mathlib.Data.List.Forall2

/-!
# Code that returns early

A function with early returns is a chain of checks in `Except`: each `?` or `return Err(..)` is one
bind, and the whole returns `ok` exactly when every check passed. The theorems say so, for each way
of chaining.
-/

namespace Fallible

open List

universe u

variable {ε ε' : Type*} {α β : Type u}

def ensure (c : Prop) [Decidable c] (e : ε) : Except ε Unit :=
  if c then .ok () else .error e

def okOr (x : Option α) (e : ε) : Except ε α :=
  match x with
  | some a => .ok a
  | none => .error e

inductive Stop (ε : Type u) where
  | error (e : ε)
  | panic (message : String)
deriving DecidableEq

def Stop.map {ε ε' : Type*} (f : ε → ε') : Stop ε → Stop ε'
  | .error e => .error (f e)
  | .panic message => .panic message

def expect (x : Except ε' α) (message : String) : Except (Stop ε) α :=
  x.mapError fun _ => .panic message

/-! ### Single checks -/

variable {x : Except ε α} {f : α → Except ε β} {a : α} {e : ε} {step : β → α → Except ε β}
  {s s' : β} {l : List α} {ys : List β}

@[simp] theorem bind_eq_ok {b : β} :
    x >>= f = .ok b ↔ ∃ a, x = .ok a ∧ f a = .ok b := by
  cases x with
  | error e => simp [bind, Except.bind]
  | ok a => simp [bind, Except.bind]

@[simp] theorem pure_eq_ok {b : α} : (pure a : Except ε α) = .ok b ↔ a = b := by
  simp [pure, Except.pure]

@[simp] theorem map_eq_ok {f : α → β} {b : β} :
    f <$> x = .ok b ↔ ∃ a, x = .ok a ∧ f a = b := by
  cases x <;> simp [Functor.map, Except.map]

@[simp] theorem ensure_eq_ok {c : Prop} [Decidable c] {u : Unit} :
    ensure c e = .ok u ↔ c := by
  unfold ensure
  split <;> simp_all

@[simp] theorem okOr_eq_ok {x : Option α} :
    okOr x e = .ok a ↔ x = some a := by
  cases x <;> simp [okOr]

theorem okOr_eq_error {x : Option α} {e' : ε} : okOr x e = .error e' ↔ x = none ∧ e = e' := by
  cases x <;> simp [okOr]

@[simp] theorem mapError_eq_ok {f : ε → ε'} :
    Except.mapError f x = .ok a ↔ x = .ok a := by
  rcases x with e | b <;> simp [Except.mapError]

@[simp] theorem expect_eq_ok {x : Except ε' α} {message : String} :
    (expect x message : Except (Stop ε) α) = .ok a ↔ x = .ok a :=
  mapError_eq_ok

/-- **When a block of checks succeeds**: the rules above, for one `simp only`. -/
theorem do_eq_ok :
    (∀ {ε α β : Type} {x : Except ε α} {f : α → Except ε β} {b},
      x >>= f = .ok b ↔ ∃ a, x = .ok a ∧ f a = .ok b) ∧
    (∀ {ε α : Type} {a b : α}, (pure a : Except ε α) = .ok b ↔ a = b) ∧
    (∀ {ε : Type} {c : Prop} [Decidable c] {e : ε} {u}, ensure c e = .ok u ↔ c) ∧
    (∀ {ε α : Type} {x : Option α} {e : ε} {a}, okOr x e = .ok a ↔ x = some a) ∧
    ∀ {ε ε' α : Type} {f : ε → ε'} {x : Except ε α} {a}, x.mapError f = .ok a ↔ x = .ok a :=
  ⟨bind_eq_ok, pure_eq_ok, ensure_eq_ok, okOr_eq_ok, mapError_eq_ok⟩

theorem exists_eq_ok {x : Except ε Unit} : (∃ u, x = .ok u) ↔ x = .ok () :=
  ⟨fun ⟨_, h⟩ => h, fun h => ⟨(), h⟩⟩

theorem exists_ok_of_any {p : α → Bool} (h : x.toOption.any p = true) :
    ∃ a, x = .ok a ∧ p a = true := by
  rcases x with e | a
  · cases h
  · exact ⟨a, rfl, h⟩

/-! ### Loops -/

@[simp] theorem foldlM_nil_eq_ok :
    [].foldlM step s = .ok s' ↔ s = s' := by
  rw [foldlM_nil, pure_eq_ok]

@[simp] theorem foldlM_cons_eq_ok {x : α} :
    (x :: l).foldlM step s = .ok s' ↔ ∃ t, step s x = .ok t ∧ l.foldlM step t = .ok s' := by
  rw [foldlM_cons, bind_eq_ok]

/-- The loop rule. -/
theorem foldlM_eq_ok_iff {P : α → Prop} {g : β → α → β}
    (hstep : ∀ s x t, step s x = .ok t ↔ P x ∧ g s x = t) :
    l.foldlM step s = .ok s' ↔ (∀ x ∈ l, P x) ∧ l.foldl g s = s' := by
  induction l generalizing s with
  | nil => simp
  | cons x l ih => simp [hstep, ih, and_assoc]

theorem foldl_count (P : α → Prop) [DecidablePred P] (l : List α) (n : ℕ) :
    l.foldl (fun n x => if P x then n + 1 else n) n = n + l.countP fun x => P x := by
  induction l generalizing n with
  | nil => simp
  | cons x l ih =>
    by_cases hx : P x
    · simp only [foldl_cons, if_pos hx, ih, countP_cons, decide_eq_true hx, ite_true]
      omega
    · simp [ih, hx]

/-- The invariant rule. -/
theorem foldlM_invariant {Inv : β → Prop}
    (hstep : ∀ s, ∀ x ∈ l, ∀ t, Inv s → step s x = .ok t → Inv t) (hs : Inv s)
    (h : l.foldlM step s = .ok s') : Inv s' := by
  induction l generalizing s with
  | nil => simpa using foldlM_nil_eq_ok.1 h ▸ hs
  | cons x l ih =>
    obtain ⟨t, ht, hl⟩ := foldlM_cons_eq_ok.1 h
    exact ih (fun s y hy => hstep s y (mem_cons_of_mem x hy)) (hstep s x mem_cons_self t hs ht) hl

/-- The rule for sizes. -/
theorem foldlM_size_le (size : β → ℕ) (hstep : ∀ s x t, step s x = .ok t → size t ≤ size s + 1)
    (h : l.foldlM step s = .ok s') : size s' ≤ size s + l.length := by
  induction l generalizing s with
  | nil =>
    obtain rfl := foldlM_nil_eq_ok.1 h
    exact Nat.le_add_right _ _
  | cons x l ih =>
    obtain ⟨t, ht, hl⟩ := foldlM_cons_eq_ok.1 h
    have hlater := ih hl
    have hturn := hstep s x t ht
    rw [length_cons]
    omega

theorem foldlM_forall {P : α → Prop} (hstep : ∀ s x t, step s x = .ok t → P x)
    (h : l.foldlM step s = .ok s') : ∀ x ∈ l, P x := by
  induction l generalizing s with
  | nil => simp
  | cons x l ih =>
    obtain ⟨t, ht, hl⟩ := foldlM_cons_eq_ok.1 h
    exact forall_mem_cons.2 ⟨hstep s x t ht, ih hl⟩

theorem forM_eq_ok {f : α → Except ε PUnit} :
    l.forM f = .ok ⟨⟩ ↔ ∀ x ∈ l, f x = .ok ⟨⟩ := by
  induction l with
  | nil => simp [List.forM]
  | cons x l ih =>
    rw [List.forM, bind_eq_ok, forall_mem_cons]
    constructor
    · rintro ⟨_, hx, hl⟩
      exact ⟨hx, ih.1 hl⟩
    · rintro ⟨hx, hl⟩
      exact ⟨_, hx, ih.2 hl⟩

theorem mapM_eq_ok :
    l.mapM f = .ok ys ↔ Forall₂ (fun x y => f x = .ok y) l ys := by
  induction l generalizing ys with
  | nil => cases ys <;> simp
  | cons x l ih =>
    simp only [mapM_cons, bind_eq_ok, pure_eq_ok, ih]
    constructor
    · rintro ⟨y, hy, ys, hys, rfl⟩
      exact .cons hy hys
    · rintro (_ | ⟨hy, hys⟩)
      exact ⟨_, hy, _, hys, rfl⟩

theorem exists_mapM_eq_ok (h : ∀ x ∈ l, ∃ y, f x = .ok y) :
    ∃ ys, l.mapM f = .ok ys := by
  induction l with
  | nil => exact ⟨[], rfl⟩
  | cons x l ih =>
    obtain ⟨y, hy⟩ := h x mem_cons_self
    obtain ⟨ys, hys⟩ := ih fun z hz => h z (mem_cons_of_mem x hz)
    refine ⟨y :: ys, ?_⟩
    rw [mapM_cons, hy, hys]
    rfl

theorem nodup_of_mapM (h : l.mapM f = .ok ys) (hl : l.Nodup)
    (hf : ∀ x ∈ l, ∀ x' ∈ l, ∀ y, f x = .ok y → f x' = .ok y → x = x') :
    ys.Nodup := by
  rw [mapM_eq_ok] at h
  induction h with
  | nil => exact nodup_nil
  | @cons x y l ys hxy hrest ih =>
    obtain ⟨hx, hl⟩ := nodup_cons.1 hl
    refine nodup_cons.2 ⟨fun hy => ?_, ih hl fun a ha b hb =>
      hf a (mem_cons_of_mem x ha) b (mem_cons_of_mem x hb)⟩
    -- the item that has given `y` again would be the first one
    obtain ⟨i, hi, rfl⟩ := getElem_of_mem hy
    have hil : i < l.length := hrest.length_eq ▸ hi
    have hagain := hrest.get hil hi
    have heq := hf x mem_cons_self _ (mem_cons_of_mem x (get_mem l ⟨i, hil⟩)) _ hxy hagain
    exact hx (heq ▸ get_mem l ⟨i, hil⟩)

theorem exists_of_foldlM_error (h : l.foldlM step s = .error e) :
    ∃ t, ∃ x ∈ l, step t x = .error e := by
  induction l generalizing s with
  | nil => cases h
  | cons x l ih =>
    rw [foldlM_cons] at h
    rcases hstep : step s x with e' | t
    · rw [hstep] at h
      exact ⟨s, x, mem_cons_self, hstep.trans h⟩
    · rw [hstep] at h
      obtain ⟨t', y, hy, hfail⟩ := ih h
      exact ⟨t', y, mem_cons_of_mem x hy, hfail⟩

/-- **A loop that adds what it computes** is one that collects, and a fold. -/
theorem foldlM_bind_eq_ok {γ : Type u} {g : γ → β → γ} {s t : γ} :
    (l.foldlM (fun s x => do let y ← f x; return g s y) s : Except ε γ) = .ok t ↔
      ∃ ys, Forall₂ (fun x y => f x = .ok y) l ys ∧ ys.foldl g s = t := by
  induction l generalizing s with
  | nil => simp
  | cons x l ih =>
    simp only [foldlM_cons_eq_ok, bind_eq_ok, pure_eq_ok, ih]
    constructor
    · rintro ⟨_, ⟨y, hy, rfl⟩, ys, hys, hfold⟩
      exact ⟨y :: ys, .cons hy hys, hfold⟩
    · rintro ⟨_, _ | ⟨hy, hys⟩, hfold⟩
      exact ⟨_, ⟨_, hy, rfl⟩, _, hys, hfold⟩

def turns (f : α → Except ε β) : List α → List α
  | [] => []
  | x :: l =>
    match f x with
    | .ok _ => x :: turns f l
    | .error _ => []

theorem turns_subset (f : α → Except ε β) (l : List α) : turns f l ⊆ l := by
  induction l with
  | nil => simp [turns]
  | cons x l ih =>
    unfold turns
    split
    · exact cons_subset_cons x ih
    · simp

theorem exists_ok_of_mem_turns {x : α} (h : x ∈ turns f l) :
    ∃ y, f x = .ok y := by
  induction l with
  | nil => simp [turns] at h
  | cons a l ih =>
    unfold turns at h
    split at h
    · next y hy =>
      rcases mem_cons.1 h with rfl | h
      · exact ⟨y, hy⟩
      · exact ih h
    · simp at h

theorem turns_eq_self (h : l.mapM f = .ok ys) :
    turns f l = l := by
  rw [mapM_eq_ok] at h
  induction h with
  | nil => rfl
  | cons hx _ ih => simp [turns, hx, ih]

end Fallible
