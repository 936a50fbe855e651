import Mathlib.Algebra.Group.Basic
import Mathlib.Data.List.Basic

/-!
# Hashing one input after the other

The next input is **added** to the state, and a one-block function makes the next state
(`IteratedHash.absorb`). The last input can be chosen so that any value is absorbed last
(`IteratedHash.absorb_concat_sub`), so a collision need not be one of the function
(`IteratedHash.reduces_iff`).
-/

namespace IteratedHash

variable {S : Type*} [AddGroup S] (f : S → S) (s : S) (xs : List S)

def absorb : S := xs.foldl (fun s x => f (s + x)) s

def absorbed : S → List S → List S
  | _, [] => []
  | s, x :: xs => (s + x) :: absorbed (f (s + x)) xs

/-- A collision of the hash is one of the function. -/
def Reduces : Prop :=
  ∀ xs ys : List S, xs.length = ys.length → xs ≠ ys → absorb f s xs = absorb f s ys →
    ∃ z ∈ absorbed f s xs, ∃ z' ∈ absorbed f s ys, z ≠ z' ∧ f z = f z'

theorem absorb_concat (x : S) :
    absorb f s (xs ++ [x]) = f (absorb f s xs + x) := by
  simp only [absorb, List.foldl_append, List.foldl_cons, List.foldl_nil]

/-- Any value can be absorbed last. -/
theorem absorb_concat_sub (z : S) :
    absorb f s (xs ++ [-absorb f s xs + z]) = f z := by
  rw [absorb_concat, add_neg_cancel_left]

theorem absorbed_injective : Function.Injective (absorbed f s) := by
  intro xs
  induction xs generalizing s with
  | nil =>
    intro ys h
    cases ys with
    | nil => rfl
    | cons y ys => cases h
  | cons x xs ih =>
    intro ys h
    cases ys with
    | nil => cases h
    | cons y ys =>
      obtain ⟨hhead, htail⟩ := List.cons.inj h
      obtain rfl : x = y := add_left_cancel hhead
      rw [ih _ htail]

theorem length_absorbed : (absorbed f s xs).length = xs.length := by
  induction xs generalizing s with
  | nil => rfl
  | cons x xs ih => rw [absorbed, List.length_cons, ih, List.length_cons]

theorem exists_ne_of_ne {α : Type*} {l l' : List α} (hlen : l.length = l'.length) (hne : l ≠ l') :
    ∃ a ∈ l, ∃ b ∈ l', a ≠ b := by
  by_contra h
  push Not at h
  refine hne (List.ext_getElem hlen fun i hi hi' => ?_)
  exact h _ (List.getElem_mem hi) _ (List.getElem_mem hi')

/-! ### Two inputs -/

def pairTo (s c a : S) : List S := [-s + c, -f c + a]

theorem absorbed_pairTo (s c a : S) : absorbed f s (pairTo f s c a) = [c, a] := by
  simp only [pairTo, absorbed, add_neg_cancel_left]

theorem absorb_pairTo (s c a : S) : absorb f s (pairTo f s c a) = f a := by
  simp only [pairTo, absorb, List.foldl_cons, List.foldl_nil, add_neg_cancel_left]

variable {f}

/-- A collision of the hash that is none of the function. -/
theorem not_exists_collision_pairTo {s a b : S} (hab : f a ≠ f b) :
    ¬ ∃ z ∈ absorbed f s (pairTo f s a a), ∃ z' ∈ absorbed f s (pairTo f s b a),
      z ≠ z' ∧ f z = f z' := by
  rintro ⟨z, hz, z', hz', hne, hf⟩
  rw [absorbed_pairTo] at hz hz'
  obtain rfl : z = a := by simpa using hz
  rcases List.mem_cons.1 hz' with rfl | hz'
  · exact hab hf
  · exact hne (List.mem_singleton.1 hz').symm

theorem pairTo_ne_pairTo {s a b : S} (hab : f a ≠ f b) : pairTo f s a a ≠ pairTo f s b a := by
  intro h
  exact hab (congrArg f (add_left_cancel (List.cons.inj h).1))

/-- **A collision of the hash always gives one of the function** exactly if the function is
constant. -/
theorem reduces_iff {s : S} : Reduces f s ↔ ∀ z z', f z = f z' := by
  constructor
  · intro hreduces a b
    by_contra hab
    exact not_exists_collision_pairTo hab (hreduces _ _ rfl (pairTo_ne_pairTo hab)
      ((absorb_pairTo f s a a).trans (absorb_pairTo f s b a).symm))
  · intro hconst xs ys hlen hne _
    have hne' : absorbed f s xs ≠ absorbed f s ys := fun h => hne (absorbed_injective f s h)
    obtain ⟨z, hz, z', hz', hzz'⟩ := exists_ne_of_ne
      (by rw [length_absorbed, length_absorbed, hlen]) hne'
    exact ⟨z, hz, z', hz', hzz', hconst z z'⟩

end IteratedHash
