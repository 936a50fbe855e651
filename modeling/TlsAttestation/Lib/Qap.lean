import Mathlib.Algebra.Polynomial.OfFn
import Mathlib.LinearAlgebra.Lagrange

/-!
# Division on a coset

Three polynomials are given by their values on a domain, where `A B = C`. So the polynomial that
vanishes there divides `A B - C`. The quotient is computed on a coset, and transformed back
(`Qap.mul_nodal_quotient`). Of the transforms this needs only what they are for
(`Qap.EvaluationDomain.Correct`).
-/

namespace Qap

open Polynomial Finset Lagrange

def evalCoeffs {F : Type} [Field F] {n : ℕ} (p : Fin n → F) (x : F) : F := ∑ k, p k * x ^ (k : ℕ)

/-- The points of a domain and of a coset of it, with the transforms between them. -/
structure EvaluationDomain (F : Type) where
  size : ℕ
  (element cosetElement : Fin size → F)
  (ifft cosetFft cosetIfft divideByVanishingPolyOnCoset : (Fin size → F) → Fin size → F)

variable {F : Type} [Field F]

/-- The transforms interpolate and evaluate, and the coset is apart from the domain. -/
structure EvaluationDomain.Correct (D : EvaluationDomain F) : Prop where
  element_injective : Function.Injective D.element
  cosetElement_injective : Function.Injective D.cosetElement
  cosetElement_ne : ∀ i j, D.cosetElement i ≠ D.element j
  ifft : ∀ v i, evalCoeffs (D.ifft v) (D.element i) = v i
  cosetFft : ∀ p i, D.cosetFft p i = evalCoeffs p (D.cosetElement i)
  cosetIfft : ∀ v i, evalCoeffs (D.cosetIfft v) (D.cosetElement i) = v i
  divide : ∀ v i, D.divideByVanishingPolyOnCoset v i * ∏ j, (D.cosetElement i - D.element j) = v i

theorem eval_ofFn [DecidableEq F] {n : ℕ} (p : Fin n → F) (x : F) :
    (ofFn n p).eval x = evalCoeffs p x := by
  rw [ofFn_eq_sum_monomial, eval_finsetSum, evalCoeffs]
  exact sum_congr rfl fun k _ => eval_monomial

theorem eval_interpolate {n : ℕ} (points values : Fin n → F) (x : F) :
    (interpolate univ points values).eval x =
      ∑ i, values i * (Lagrange.basis univ points i).eval x := by
  rw [interpolate_apply, eval_finsetSum]
  exact sum_congr rfl fun i _ => by rw [eval_mul, eval_C]

theorem exists_mul_nodal {n : ℕ} (hn : 0 < n) {points : Fin n → F}
    (hinj : Function.Injective points) {a b c : Fin n → F} (h : ∀ i, a i * b i = c i) :
    ∃ q : F[X], q * nodal univ points = interpolate univ points a * interpolate univ points b -
      interpolate univ points c ∧ ∀ k, n ≤ k + 1 → q.coeff k = 0 := by
  have hinjOn : Set.InjOn points (univ : Finset (Fin n)) := hinj.injOn
  have hmonic : (nodal univ points).Monic := nodal_monic
  have hdegree : (nodal univ points).natDegree = n := by
    rw [natDegree_nodal, card_univ, Fintype.card_fin]
  have hlow (v : Fin n → F) : (interpolate univ points v).natDegree ≤ n - 1 := by
    refine natDegree_le_of_degree_le ((degree_interpolate_le v hinjOn).trans ?_)
    simp
  generalize hf : interpolate univ points a * interpolate univ points b -
    interpolate univ points c = f
  have hfdegree : f.natDegree ≤ 2 * (n - 1) := by
    have hmul := (natDegree_mul_le (p := interpolate univ points a)
      (q := interpolate univ points b)).trans (add_le_add (hlow a) (hlow b))
    have hsub := natDegree_sub_le (interpolate univ points a * interpolate univ points b)
      (interpolate univ points c)
    have hc := hlow c
    rw [hf] at hsub
    omega
  -- the remainder has low degree and vanishes on the domain
  have hrem : f %ₘ nodal univ points = 0 := by
    refine eq_zero_of_degree_lt_of_eval_index_eq_zero univ hinjOn ?_ fun i hi => ?_
    · exact (degree_modByMonic_lt f hmonic).trans_le degree_nodal.le
    · rw [modByMonic_eq_sub_mul_div, eval_sub, eval_mul, eval_nodal_at_node hi, zero_mul, sub_zero,
        ← hf, eval_sub, eval_mul, eval_interpolate_at_node _ hinjOn hi,
        eval_interpolate_at_node _ hinjOn hi, eval_interpolate_at_node _ hinjOn hi, h i, sub_self]
  have hq : f /ₘ nodal univ points * nodal univ points = f := by
    have hdiv := modByMonic_add_div f (nodal univ points)
    rwa [hrem, zero_add, mul_comm] at hdiv
  refine ⟨_, hq, fun k hk => by_contra fun hne => ?_⟩
  have hne0 : f /ₘ nodal univ points ≠ 0 := fun h0 => hne (by rw [h0, coeff_zero])
  have hprod := congrArg natDegree hq
  rw [mul_comm, hmonic.natDegree_mul' hne0, hdegree] at hprod
  have hle := le_natDegree_of_ne_zero hne
  omega

/-- The quotient on the coset is the quotient. -/
theorem mul_nodal_quotient [DecidableEq F] {D : EvaluationDomain F} (hD : D.Correct)
    (hsize : 0 < D.size) {a b c : Fin D.size → F} (h : ∀ i, a i * b i = c i) {q : Fin D.size → F}
    (hq : q = D.cosetIfft (D.divideByVanishingPolyOnCoset fun i =>
      D.cosetFft (D.ifft a) i * D.cosetFft (D.ifft b) i - D.cosetFft (D.ifft c) i)) :
    ofFn D.size q * nodal univ D.element = interpolate univ D.element a *
      interpolate univ D.element b - interpolate univ D.element c ∧
      ∀ i : Fin D.size, (i : ℕ) + 1 = D.size → q i = 0 := by
  have hcard : #(univ : Finset (Fin D.size)) = D.size := by rw [card_univ, Fintype.card_fin]
  have hlt (v : Fin D.size → F) : (ofFn D.size v).degree < #(univ : Finset (Fin D.size)) := by
    rw [hcard]
    exact ofFn_degree_lt v
  have hifft (v : Fin D.size → F) : ofFn D.size (D.ifft v) = interpolate univ D.element v :=
    eq_interpolate_of_eval_eq _ hD.element_injective.injOn (hlt _) fun i _ => by
      rw [eval_ofFn, hD.ifft]
  obtain ⟨p, hp, hcoeff⟩ := exists_mul_nodal hsize hD.element_injective h
  have hqp : ofFn D.size q = p := by
    refine eq_of_degrees_lt_of_eval_index_eq univ hD.cosetElement_injective.injOn (hlt _)
      ?_ fun i _ => ?_
    · rw [hcard]
      exact (degree_lt_iff_coeff_zero _ _).2 fun k hk => hcoeff k (by omega)
    · -- both are the values of the product, divided by those of the vanishing polynomial
      have hne : ∏ j, (D.cosetElement i - D.element j) ≠ 0 :=
        prod_ne_zero_iff.2 fun j _ => sub_ne_zero.2 (hD.cosetElement_ne i j)
      refine mul_right_cancel₀ hne ?_
      have hvalue := congrArg (eval (D.cosetElement i)) hp
      rw [eval_mul, eval_nodal, eval_sub, eval_mul, ← hifft, ← hifft, ← hifft, eval_ofFn, eval_ofFn,
        eval_ofFn] at hvalue
      rw [hvalue, eval_ofFn, hq, hD.cosetIfft, hD.divide, hD.cosetFft, hD.cosetFft, hD.cosetFft]
  refine ⟨by rw [hqp, hp], fun i hi => ?_⟩
  have hlast := hcoeff i hi.ge
  rwa [← hqp, ofFn_coeff_eq_val_of_lt q i.isLt] at hlast

end Qap
