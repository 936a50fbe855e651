import Mathlib.Algebra.Field.ZMod
import Mathlib.AlgebraicGeometry.EllipticCurve.Affine.Point
import Mathlib.GroupTheory.Perm.Cycle.Type
import Mathlib.Tactic.FieldSimp
import Mathlib.Tactic.LinearCombination

/-!
# Curves `y² = x³ + b`, and multiples that can be computed

In Jacobian coordinates no step divides; a run whose last `Z` is not zero never had a `Z` that was
(`ShortWeierstrass.represents_ladder`). Over `q` elements there are at most `2 q + 1` points; a
point of prime order `n` with `2 q + 1 < 3 n` leaves `n` or `2 n`
(`ShortWeierstrass.smul_eq_zero_of_card_lt`).
-/

namespace ShortWeierstrass

open Finset WeierstrassCurve.Affine

abbrev curve {R : Type*} [CommRing R] (b : R) : WeierstrassCurve.Affine R :=
  { a₁ := 0, a₂ := 0, a₃ := 0, a₄ := 0, a₆ := b }

theorem equation_iff {R : Type*} [CommRing R] {b x y : R} :
    (curve b).Equation x y ↔ y ^ 2 = x ^ 3 + b := by
  simp [WeierstrassCurve.Affine.equation_iff]

/-! ### Jacobian coordinates -/

@[ext]
structure Jacobian (R : Type*) where
  X : R
  Y : R
  Z : R

namespace Jacobian

section

variable {R : Type*} [CommRing R]

def double (J : Jacobian R) : Jacobian R :=
  let s := 4 * J.X * J.Y ^ 2
  let m := 3 * J.X ^ 2
  let x := m ^ 2 - 2 * s
  ⟨x, m * (s - x) - 8 * J.Y ^ 4, 2 * J.Y * J.Z⟩

def addAffine (x y : R) (J : Jacobian R) : Jacobian R :=
  let h := x * J.Z ^ 2 - J.X
  let r := y * J.Z ^ 3 - J.Y
  let x' := r ^ 2 - (h ^ 3 + 2 * (J.X * h ^ 2))
  ⟨x', r * (J.X * h ^ 2 - x') - J.Y * h ^ 3, J.Z * h⟩

end

variable {F : Type*} [Field F] {b : F}

/-- The triple stands for the point, unless its last coordinate is zero. -/
def Represents (J : Jacobian F) (Q : (curve b).Point) : Prop :=
  J.Z ≠ 0 → ∃ h, Q = .some (J.X / J.Z ^ 2) (J.Y / J.Z ^ 3) h

theorem exists_eq_of_coordinates {x y x' y' : F} {h : (curve b).Nonsingular x y}
    (hx : x = x') (hy : y = y') : ∃ h', (Point.some x y h : (curve b).Point) = .some x' y' h' := by
  subst hx hy
  exact ⟨h, rfl⟩

theorem represents_affine {x y : F} (h : (curve b).Nonsingular x y) :
    Represents ⟨x, y, 1⟩ (.some x y h) := by
  intro _
  have hx : x / 1 ^ 2 = x := by simp
  have hy : y / 1 ^ 3 = y := by simp
  exact exists_eq_of_coordinates hx.symm hy.symm

variable [DecidableEq F]

theorem Represents.double {J : Jacobian F} {Q : (curve b).Point} (hJ : Represents J Q) :
    Represents J.double (Q + Q) := by
  obtain ⟨X, Y, Z⟩ := J
  intro hZ'
  have hZ : Z ≠ 0 := right_ne_zero_of_mul hZ'
  have h2Y : 2 * Y ≠ 0 := left_ne_zero_of_mul hZ'
  have h2 : (2 : F) ≠ 0 := left_ne_zero_of_mul h2Y
  have hY : Y ≠ 0 := right_ne_zero_of_mul h2Y
  obtain ⟨h, rfl⟩ := hJ hZ
  have hne : Y / Z ^ 3 ≠ (curve b).negY (X / Z ^ 2) (Y / Z ^ 3) := by
    intro heq
    have hsum : 2 * (Y / Z ^ 3) = 0 := by
      simp only [negY] at heq
      linear_combination heq
    exact mul_ne_zero h2 (div_ne_zero hY (pow_ne_zero 3 hZ)) hsum
  rw [Point.add_self_of_Y_ne hne]
  have hslope : (curve b).slope (X / Z ^ 2) (X / Z ^ 2) (Y / Z ^ 3) (Y / Z ^ 3) =
      3 * X ^ 2 / (2 * Y * Z) := by
    have hden : Y / Z ^ 3 - (curve b).negY (X / Z ^ 2) (Y / Z ^ 3) = 2 * Y / Z ^ 3 := by
      simp only [negY]
      ring
    rw [slope_of_Y_ne rfl hne, hden]
    field_simp
    ring
  refine exists_eq_of_coordinates ?_ ?_
  · rw [hslope]
    simp only [addX, Jacobian.double]
    field_simp
    ring
  · rw [hslope]
    simp only [addY, negY, negAddY, addX, Jacobian.double]
    field_simp
    ring

theorem Represents.addAffine {J : Jacobian F} {Q : (curve b).Point} {x y : F}
    (h : (curve b).Nonsingular x y) (hJ : Represents J Q) :
    Represents (J.addAffine x y) (Q + .some x y h) := by
  obtain ⟨X, Y, Z⟩ := J
  intro hZ'
  have hZ : Z ≠ 0 := left_ne_zero_of_mul hZ'
  have hH : x * Z ^ 2 - X ≠ 0 := right_ne_zero_of_mul hZ'
  obtain ⟨h', rfl⟩ := hJ hZ
  -- The denominator of the slope gets a name, and `X` is expressed by it.
  obtain ⟨H, rfl⟩ : ∃ H, X = x * Z ^ 2 - H := ⟨x * Z ^ 2 - X, by ring⟩
  rw [sub_sub_cancel] at hH
  have hx : (x * Z ^ 2 - H) / Z ^ 2 - x = -(H / Z ^ 2) := by
    field_simp
    ring
  have hne : (x * Z ^ 2 - H) / Z ^ 2 ≠ x := by
    rw [← sub_ne_zero, hx]
    exact neg_ne_zero.2 (div_ne_zero hH (pow_ne_zero 2 hZ))
  rw [Point.add_of_X_ne hne]
  have hslope : (curve b).slope ((x * Z ^ 2 - H) / Z ^ 2) x (Y / Z ^ 3) y =
      (y * Z ^ 3 - Y) / (Z * H) := by
    rw [slope_of_X_ne hne, hx]
    field_simp
    ring
  refine exists_eq_of_coordinates ?_ ?_
  · rw [hslope]
    simp only [addX, Jacobian.addAffine, sub_sub_cancel]
    field_simp
    ring
  · rw [hslope]
    simp only [addY, negY, negAddY, addX, Jacobian.addAffine, sub_sub_cancel]
    field_simp
    ring

/-! ### The same on natural numbers -/

section

variable (p : ℕ)

def subMod (a b : ℕ) : ℕ := (a + (p - b % p)) % p

def doubleMod (J : Jacobian ℕ) : Jacobian ℕ :=
  let t := J.Y * J.Y % p
  let s := 4 * J.X * t % p
  let m := 3 * J.X * J.X % p
  let x := subMod p (m * m) (2 * s)
  ⟨x, subMod p (m * subMod p s x) (8 * t * t), 2 * J.Y * J.Z % p⟩

def addAffineMod (x y : ℕ) (J : Jacobian ℕ) : Jacobian ℕ :=
  let z := J.Z * J.Z % p
  let h := subMod p (x * z) J.X
  let r := subMod p (y * z % p * J.Z) J.Y
  let t := h * h % p
  let u := h * t % p
  let v := J.X * t % p
  let x' := subMod p (r * r) (u + 2 * v)
  ⟨x', subMod p (r * subMod p v x') (J.Y * u), J.Z * h % p⟩

def toZMod (J : Jacobian ℕ) : Jacobian (ZMod p) := ⟨J.X, J.Y, J.Z⟩

def ladder (x y k : ℕ) : ℕ → Jacobian ℕ → Jacobian ℕ
  | 0, J => J
  | i + 1, J =>
    let D := J.doubleMod p
    ladder x y k i (if k.testBit i then D.addAffineMod p x y else D)

variable {p}

theorem cast_subMod [NeZero p] (a b : ℕ) : (subMod p a b : ZMod p) = a - b := by
  have hle : b % p ≤ p := (Nat.mod_lt b (NeZero.pos p)).le
  rw [subMod, ZMod.natCast_mod, Nat.cast_add, Nat.cast_sub hle, ZMod.natCast_mod,
    ZMod.natCast_self, zero_sub, ← sub_eq_add_neg]

theorem toZMod_doubleMod [NeZero p] (J : Jacobian ℕ) :
    (J.doubleMod p).toZMod p = (J.toZMod p).double := by
  ext <;> simp only [toZMod, doubleMod, double, cast_subMod, ZMod.natCast_mod, Nat.cast_mul,
    Nat.cast_ofNat] <;> ring

theorem toZMod_addAffineMod [NeZero p] (x y : ℕ) (J : Jacobian ℕ) :
    (J.addAffineMod p x y).toZMod p = (J.toZMod p).addAffine (x : ZMod p) (y : ZMod p) := by
  ext <;> simp only [toZMod, addAffineMod, addAffine, cast_subMod, ZMod.natCast_mod, Nat.cast_mul,
    Nat.cast_add, Nat.cast_ofNat] <;> ring

end

theorem shiftRight_eq (k i : ℕ) :
    k >>> i = k >>> (i + 1) + k >>> (i + 1) + if k.testBit i then 1 else 0 := by
  rw [Nat.shiftRight_succ, Nat.testBit_eq_decide_div_mod_eq, ← Nat.shiftRight_eq_div_pow]
  simp only [decide_eq_true_eq]
  split <;> omega

theorem represents_ladder {p : ℕ} [Fact p.Prime] {b : ZMod p} {x y : ℕ}
    (h : (curve b).Nonsingular (x : ZMod p) (y : ZMod p)) (k : ℕ) :
    ∀ (i : ℕ) (J : Jacobian ℕ), Represents (J.toZMod p) ((k >>> i) • Point.some _ _ h) →
      Represents ((ladder p x y k i J).toZMod p) (k • Point.some _ _ h)
  | 0, J, hJ => hJ
  | i + 1, J, hJ => by
    refine represents_ladder h k i _ ?_
    have hdouble := hJ.double
    rw [← toZMod_doubleMod, ← add_nsmul] at hdouble
    rw [shiftRight_eq]
    split
    · have hadd := hdouble.addAffine h
      rw [← toZMod_addAffineMod, ← succ_nsmul] at hadd
      exact hadd
    · exact hdouble

theorem represents_multiple {p : ℕ} [Fact p.Prime] {b : ZMod p} {x y k : ℕ}
    (h : (curve b).Nonsingular (x : ZMod p) (y : ZMod p)) (hk : k ≠ 0) :
    Represents ((ladder p x y k k.log2 ⟨x, y, 1⟩).toZMod p) (k • Point.some _ _ h) := by
  have htop : k >>> k.log2 = 1 := by
    rw [Nat.shiftRight_eq_div_pow]
    refine Nat.div_eq_of_lt_le ?_ ?_
    · rw [one_mul]
      exact Nat.log2_self_le hk
    · rw [← Nat.pow_succ']
      exact Nat.lt_log2_self
  refine represents_ladder h k _ _ ?_
  rw [htop, one_nsmul, toZMod, Nat.cast_one]
  exact represents_affine h

end Jacobian

/-! ### The order of the group -/

section

variable {F : Type*} [Field F]

variable {W : WeierstrassCurve.Affine F}

instance finite_point [Finite F] : Finite W.Point :=
  have : Finite (WithZero {xy : F × F // W.Nonsingular xy.1 xy.2}) :=
    inferInstanceAs (Finite (Option _))
  Finite.of_equiv _ W.nonsingularPointEquiv.symm

def xCoord : W.Point → F
  | .zero => 0
  | .some x _ _ => x

theorem eq_or_eq_neg_of_xCoord_eq {Q R : W.Point} (hQ : Q ≠ 0) (hR : R ≠ 0)
    (h : xCoord Q = xCoord R) : Q = R ∨ Q = -R := by
  cases Q with
  | zero => exact absurd rfl hQ
  | some x y hxy =>
    cases R with
    | zero => exact absurd rfl hR
    | some x' y' hxy' => exact Point.X_eq_iff.1 h

/-- At most two points for each `x`. -/
theorem card_point_le [Fintype F] : Nat.card W.Point ≤ 2 * Fintype.card F + 1 := by
  classical
  have := Fintype.ofFinite W.Point
  have hfibre : ∀ x ∈ (Finset.univ : Finset F),
      ((Finset.univ.erase (0 : W.Point)).filter fun Q => xCoord Q = x).card ≤ 2 := by
    intro x _
    rcases eq_empty_or_nonempty
      ((Finset.univ.erase (0 : W.Point)).filter fun Q => xCoord Q = x) with hempty | ⟨R, hR⟩
    · rw [hempty]
      exact Nat.zero_le 2
    · rw [mem_filter, mem_erase] at hR
      refine (card_le_card (t := {R, -R}) fun Q hQ => ?_).trans card_le_two
      rw [mem_filter, mem_erase] at hQ
      rw [mem_insert, mem_singleton]
      exact eq_or_eq_neg_of_xCoord_eq hQ.1.1 hR.1.1 (hQ.2.trans hR.2.symm)
  have hcount := card_le_mul_card_image_of_maps_to (fun _ _ => mem_univ _) 2 hfibre
  rw [card_erase_of_mem (mem_univ _), card_univ, card_univ] at hcount
  rw [Nat.card_eq_fintype_card]
  omega

end

/-- **A group with an element of prime order `n`**, fewer than `3 n` elements, and none of order two
has `n` elements. -/
theorem smul_eq_zero_of_card_lt {A : Type*} [AddCommGroup A] [Finite A] {n : ℕ} (hn : n.Prime)
    {g : A} (hg : g ≠ 0) (hng : n • g = 0) (hcard : Nat.card A < 3 * n)
    (htwo : ∀ a : A, a + a = 0 → a = 0) (a : A) : n • a = 0 := by
  have horder : addOrderOf g = n := by
    have := Fact.mk hn
    exact addOrderOf_eq_prime hng hg
  obtain ⟨k, hk⟩ : n ∣ Nat.card A := horder ▸ addOrderOf_dvd_natCard g
  have hk0 : k ≠ 0 := by
    rintro rfl
    exact Nat.card_pos.ne' hk
  have hk3 : k < 3 := by
    rw [hk, mul_comm] at hcard
    exact Nat.lt_of_mul_lt_mul_right hcard
  have hk2 : k ≠ 2 := by
    rintro rfl
    obtain ⟨t, ht⟩ := exists_prime_addOrderOf_dvd_card' 2 (Dvd.intro_left n hk.symm)
    have hzero : t = 0 := by
      refine htwo t ?_
      rw [← two_nsmul, ← ht, addOrderOf_nsmul_eq_zero]
    rw [hzero, addOrderOf_zero] at ht
    exact absurd ht (by decide)
  obtain rfl : k = 1 := by omega
  rw [mul_one] at hk
  rw [← hk]
  exact card_nsmul_eq_zero'

end ShortWeierstrass
