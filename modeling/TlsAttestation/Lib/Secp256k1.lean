import TlsAttestation.Lib.PowMod
import TlsAttestation.Lib.ShortWeierstrass
import Mathlib.Algebra.Module.ZMod
import Mathlib.FieldTheory.Finite.Basic
import Mathlib.Tactic.NormNum.Prime

/-!
# The curve secp256k1

`y² = x³ + 7` over the field with `p = 2²⁵⁶ - 2³² - 977` elements. That `p` and `n` are prime is
shown by primitive roots, and that no other order occurs (`Secp256k1.n_smul`) by counting.
-/

namespace Secp256k1

open PowMod ShortWeierstrass WeierstrassCurve.Affine

def p : ℕ := 0xFFFFFFFFFFFFFFFFFFFFFFFFFFFFFFFFFFFFFFFFFFFFFFFFFFFFFFFEFFFFFC2F

def n : ℕ := 0xFFFFFFFFFFFFFFFFFFFFFFFFFFFFFFFEBAAEDCE6AF48A03BBFD25E8CD0364141

def gx : ℕ := 0x79BE667EF9DCBBAC55A06295CE870B07029BFCDB2DCE28D959F2815B16F81798

def gy : ℕ := 0x483ADA7726A3C4655DA4FBFC0E1108A8FD17B448A68554199C47D08FFB10D4B8

/-! ### Both orders are prime -/

/-- **The order of the field is prime**: `3` is a primitive root. -/
theorem prime_p : p.Prime := by
  have h₁ : Nat.Prime 173378833005251801 := by
    refine prime_of_isPrimitiveRoot 6 [(2, 3), (5, 2), (2621, 1), (24809, 1), (13331831, 1)]
      ⟨?_, ?_, ?_, ?_, ?_⟩ (by decide) <;> norm_num
  have h₂ : Nat.Prime 22149492674086928081353 := by
    refine prime_of_isPrimitiveRoot 5 [(2, 3), (3, 1), (5323, 1), (173378833005251801, 1)]
      ⟨?_, ?_, ?_, h₁⟩ (by decide) <;> norm_num
  have h₃ : Nat.Prime 132896956044521568488119 := by
    refine prime_of_isPrimitiveRoot 6 [(2, 1), (3, 1), (22149492674086928081353, 1)]
      ⟨?_, ?_, h₂⟩ (by decide) <;> norm_num
  have h₄ : Nat.Prime 255515944373312847190720520512484175977 := by
    refine prime_of_isPrimitiveRoot 3 [(2, 3), (7, 2), (11, 1), (1627, 1), (2657, 1), (4423, 1),
      (41201, 1), (96557, 1), (7240687, 1), (107590001, 1)]
      ⟨?_, ?_, ?_, ?_, ?_, ?_, ?_, ?_, ?_, ?_⟩ (by decide +kernel) <;> norm_num
  have h₅ : Nat.Prime 205115282021455665897114700593932402728804164701536103180137503955397371 := by
    refine prime_of_isPrimitiveRoot 10 [(2, 1), (3, 1), (5, 1), (29, 2), (31, 1), (7723, 1),
      (132896956044521568488119, 1), (255515944373312847190720520512484175977, 1)]
      ⟨?_, ?_, ?_, ?_, ?_, ?_, h₃, h₄⟩ (by decide +kernel) <;> norm_num
  refine prime_of_isPrimitiveRoot 3 [(2, 1), (3, 1), (7, 1), (13441, 1),
    (205115282021455665897114700593932402728804164701536103180137503955397371, 1)]
    ⟨?_, ?_, ?_, ?_, h₅⟩ (by decide +kernel) <;> norm_num

/-- **The order of the base point is prime**: `7` is a primitive root. -/
theorem prime_n : n.Prime := by
  have h₀ : Nat.Prime 545358713 := by
    refine prime_of_isPrimitiveRoot 5 [(2, 3), (41, 1), (59, 1), (28181, 1)]
      ⟨?_, ?_, ?_, ?_⟩ (by decide) <;> norm_num
  have h₁ : Nat.Prime 174723607534414371449 := by
    refine prime_of_isPrimitiveRoot 3 [(2, 3), (17, 1), (59, 1), (4051, 1), (120233, 1),
      (44706919, 1)] ⟨?_, ?_, ?_, ?_, ?_, ?_⟩ (by decide) <;> norm_num
  have h₂ : Nat.Prime 107361793816595537 := by
    refine prime_of_isPrimitiveRoot 3 [(2, 4), (16699, 1), (85831, 1), (4681609, 1)]
      ⟨?_, ?_, ?_, ?_⟩ (by decide) <;> norm_num
  have h₃ : Nat.Prime 297159362677 := by
    refine prime_of_isPrimitiveRoot 2 [(2, 2), (3, 2), (11, 1), (461, 1), (1627771, 1)]
      ⟨?_, ?_, ?_, ?_, ?_⟩ (by decide) <;> norm_num
  have h₄ : Nat.Prime 29047611873442575647497758179 := by
    refine prime_of_isPrimitiveRoot 2 [(2, 1), (293, 1), (305873, 1), (545358713, 1),
      (297159362677, 1)] ⟨?_, ?_, ?_, h₀, h₃⟩ (by decide +kernel) <;> norm_num
  have h₅ : Nat.Prime 341948486974166000522343609283189 := by
    refine prime_of_isPrimitiveRoot 2 [(2, 2), (3, 3), (109, 1),
      (29047611873442575647497758179, 1)] ⟨?_, ?_, ?_, h₄⟩ (by decide +kernel) <;> norm_num
  refine prime_of_isPrimitiveRoot 7 [(2, 6), (3, 1), (149, 1), (631, 1), (107361793816595537, 1),
    (174723607534414371449, 1), (341948486974166000522343609283189, 1)]
    ⟨?_, ?_, ?_, ?_, h₂, h₁, h₅⟩ (by decide +kernel) <;> norm_num

instance : Fact p.Prime := ⟨prime_p⟩

instance : Fact n.Prime := ⟨prime_n⟩

/-! ### The curve -/

abbrev curve : WeierstrassCurve.Affine (ZMod p) := ShortWeierstrass.curve 7

abbrev Point := curve.Point

theorem cast_ne_zero {a : ℕ} (h : a % p ≠ 0) : (a : ZMod p) ≠ 0 := by
  rw [ne_eq, ZMod.natCast_eq_zero_iff, Nat.dvd_iff_mod_eq_zero]
  exact h

theorem nonsingular_iff {x y : ZMod p} : curve.Nonsingular x y ↔ y ^ 2 = x ^ 3 + 7 := by
  have hΔ : curve.Δ ≠ 0 := by
    have hvalue : curve.Δ = -((21168 : ℕ) : ZMod p) := by
      simp only [WeierstrassCurve.Δ, WeierstrassCurve.b₂, WeierstrassCurve.b₄,
        WeierstrassCurve.b₆, WeierstrassCurve.b₈]
      push_cast
      ring
    rw [hvalue, neg_ne_zero]
    exact cast_ne_zero (by decide)
  rw [← equation_iff_nonsingular_of_Δ_ne_zero hΔ, ShortWeierstrass.equation_iff]

theorem nonsingular_base : curve.Nonsingular (gx : ZMod p) (gy : ZMod p) := by
  rw [nonsingular_iff]
  have hmod : gy ^ 2 % p = (gx ^ 3 + 7) % p := by decide
  have hcast := (ZMod.natCast_eq_natCast_iff' _ _ p).2 hmod
  push_cast at hcast
  exact hcast

def base : Point := .some _ _ nonsingular_base

theorem base_ne_zero : base ≠ 0 := Point.some_ne_zero _

theorem y_ne_zero {x y : ZMod p} (h : curve.Nonsingular x y) : y ≠ 0 := by
  rintro rfl
  have hcube : x ^ 3 = ((p - 7 : ℕ) : ZMod p) := by
    rw [Nat.cast_sub (by decide), ZMod.natCast_self]
    have heq := nonsingular_iff.1 h
    push_cast
    linear_combination -heq
  have hx : x ≠ 0 := by
    rintro rfl
    rw [zero_pow three_ne_zero] at hcube
    exact cast_ne_zero (a := p - 7) (by decide) hcube.symm
  -- A cube to the power `(p - 1) / 3` is one.
  have hone : ((p - 7 : ℕ) : ZMod p) ^ ((p - 1) / 3) = 1 := by
    rw [← hcube, ← pow_mul, Nat.mul_div_cancel' (by decide)]
    exact ZMod.pow_card_sub_one_eq_one hx
  rw [cast_pow_eq_one_iff prime_p.one_lt] at hone
  exact absurd hone (by decide +kernel)

/-! ### The order of the points -/

def lastMultiple : Jacobian ℕ := Jacobian.ladder p gx gy (n - 1) (n - 1).log2 ⟨gx, gy, 1⟩

theorem lastMultiple_spec :
    lastMultiple.Z % p ≠ 0 ∧ lastMultiple.X % p = gx * lastMultiple.Z ^ 2 % p ∧
      (lastMultiple.Y + gy * lastMultiple.Z ^ 3) % p = 0 := by
  decide +kernel

/-- **The last multiple of the base point** is its opposite. -/
theorem pred_n_smul_base : (n - 1) • base = -base := by
  have hk : n - 1 ≠ 0 := by decide
  obtain ⟨hZ, hX, hY⟩ := lastMultiple_spec
  have hZ' : (lastMultiple.Z : ZMod p) ≠ 0 := cast_ne_zero hZ
  obtain ⟨h, hmultiple⟩ := Jacobian.represents_multiple nonsingular_base hk hZ'
  refine hmultiple.trans ?_
  have hx : (lastMultiple.X : ZMod p) / (lastMultiple.Z : ZMod p) ^ 2 = gx := by
    have hcast := (ZMod.natCast_eq_natCast_iff' _ _ p).2 hX
    rw [div_eq_iff (pow_ne_zero 2 hZ')]
    push_cast at hcast
    exact hcast
  have hy : (lastMultiple.Y : ZMod p) / (lastMultiple.Z : ZMod p) ^ 3 = -gy := by
    have hcast := (ZMod.natCast_eq_zero_iff _ p).2 (Nat.dvd_of_mod_eq_zero hY)
    rw [div_eq_iff (pow_ne_zero 3 hZ')]
    push_cast at hcast
    linear_combination hcast
  rw [base, Point.neg_some, Point.some.injEq]
  refine ⟨hx, hy.trans ?_⟩
  rw [negY]
  ring

theorem n_smul_base : n • base = 0 := by
  have hn : n = n - 1 + 1 := by decide
  rw [hn, succ_nsmul, pred_n_smul_base, neg_add_cancel]

/-- **Every point is of order `n`**, or neutral. -/
theorem n_smul (Q : Point) : n • Q = 0 := by
  refine smul_eq_zero_of_card_lt prime_n base_ne_zero n_smul_base ?_ ?_ Q
  · refine lt_of_le_of_lt card_point_le ?_
    rw [ZMod.card]
    decide
  · intro R hR
    cases R with
    | zero => rfl
    | some x y h =>
      have hneg := eq_neg_of_add_eq_zero_left hR
      rw [Point.neg_some, Point.some.injEq] at hneg
      have hdouble : (2 : ZMod p) * y = 0 := by
        have hy := hneg.2
        simp only [negY] at hy
        linear_combination hy
      have htwo : (2 : ZMod p) ≠ 0 := by exact_mod_cast cast_ne_zero (a := 2) (by decide)
      exact absurd ((mul_eq_zero.1 hdouble).resolve_left htwo) (y_ne_zero h)

instance : Module (ZMod n) Point := AddCommGroup.zmodModule n_smul

theorem cast_smul (k : ℕ) (Q : Point) : (k : ZMod n) • Q = k • Q := Nat.cast_smul_eq_nsmul _ k Q

/-! ### Roots -/

/-- **The root of a square**, by one power. -/
theorem sq_pow_of_isSquare {a : ZMod p} (h : IsSquare a) : (a ^ ((p + 1) / 4)) ^ 2 = a := by
  obtain ⟨y, rfl⟩ := h
  rcases eq_or_ne y 0 with rfl | hy
  · rw [mul_zero, zero_pow (by decide), zero_pow two_ne_zero]
  · calc ((y * y) ^ ((p + 1) / 4)) ^ 2 = y ^ (p - 1 + 2) := by
          rw [← sq, ← pow_mul, ← pow_mul]
          congr 1
      _ = y * y := by rw [pow_add, ZMod.pow_card_sub_one_eq_one hy, one_mul, sq]

theorem val_neg_mod_two {y : ZMod p} (hy : y ≠ 0) : (-y).val % 2 = 1 - y.val % 2 := by
  have := NeZero.mk hy
  have hlt := ZMod.val_lt y
  have hodd : p % 2 = 1 := by decide
  rw [ZMod.val_neg_of_ne_zero]
  omega

/-- One root of each parity. -/
theorem eq_of_sq_eq_of_parity {y z : ZMod p} (hy : y ≠ 0) (hsq : y ^ 2 = z ^ 2)
    (hpar : y.val % 2 = z.val % 2) : y = z := by
  rcases sq_eq_sq_iff_eq_or_eq_neg.1 hsq with h | h
  · exact h
  · have hz : z ≠ 0 := by
      rintro rfl
      exact hy (by simpa using h)
    have hopp := val_neg_mod_two hz
    rw [← h] at hopp
    omega

def evenRoot (a : ZMod p) : ZMod p :=
  let r := a ^ ((p + 1) / 4)
  if r.val % 2 = 0 then r else -r

theorem evenRoot_sq (a : ZMod p) : evenRoot a ^ 2 = (a ^ ((p + 1) / 4)) ^ 2 := by
  simp only [evenRoot]
  split
  · rfl
  · rw [neg_sq]

theorem val_evenRoot_mod_two (a : ZMod p) : (evenRoot a).val % 2 = 0 := by
  simp only [evenRoot]
  split
  case isTrue heven => exact heven
  case isFalse hodd =>
    have hne : a ^ ((p + 1) / 4) ≠ 0 := by
      intro hzero
      rw [hzero, ZMod.val_zero] at hodd
      exact hodd rfl
    rw [val_neg_mod_two hne]
    omega

/-- The even root is found. -/
theorem evenRoot_eq {a y : ZMod p} (hy : y ≠ 0) (hsq : y ^ 2 = a) (heven : y.val % 2 = 0) :
    evenRoot a = y := by
  have hroot : (a ^ ((p + 1) / 4)) ^ 2 = a := sq_pow_of_isSquare ⟨y, by rw [← hsq, sq]⟩
  refine (eq_of_sq_eq_of_parity hy ?_ ?_).symm
  · rw [evenRoot_sq, hroot, hsq]
  · rw [heven, val_evenRoot_mod_two]

def lift (x : ZMod p) (parity : ℕ) : Option Point :=
  let y : ZMod p := powMod (x ^ 3 + 7).val ((p + 1) / 4) p
  if h : y ^ 2 = x ^ 3 + 7 then
    let Q : Point := .some x y (nonsingular_iff.2 h)
    some (if y.val % 2 = parity then Q else -Q)
  else none

theorem powMod_val_eq (a : ZMod p) :
    (powMod a.val ((p + 1) / 4) p : ZMod p) = a ^ ((p + 1) / 4) := by
  rw [powMod_cast, ZMod.natCast_val, ZMod.cast_id]

/-- **A point is found** by its `x` and its parity. -/
theorem lift_eq_some {x y : ZMod p} (h : curve.Nonsingular x y) :
    lift x (y.val % 2) = some (.some x y h) := by
  have heq := nonsingular_iff.1 h
  set r : ZMod p := (x ^ 3 + 7) ^ ((p + 1) / 4) with hr
  have hroot : r ^ 2 = x ^ 3 + 7 := sq_pow_of_isSquare ⟨y, by rw [← heq, sq]⟩
  have hpar := y_ne_zero (nonsingular_iff.2 hroot)
  simp only [lift, powMod_val_eq, ← hr, dif_pos hroot, Option.some.injEq]
  split
  case isTrue hsame =>
    rw [Point.some.injEq]
    exact ⟨rfl, eq_of_sq_eq_of_parity hpar (hroot.trans heq.symm) hsame⟩
  case isFalse hother =>
    rw [Point.neg_some, Point.some.injEq]
    have hneg : curve.negY x r = -r := by
      rw [negY]
      ring
    refine ⟨rfl, ?_⟩
    rw [hneg]
    refine eq_of_sq_eq_of_parity (neg_ne_zero.2 hpar) (by rw [neg_sq, hroot, heq]) ?_
    rw [val_neg_mod_two hpar]
    omega

end Secp256k1
