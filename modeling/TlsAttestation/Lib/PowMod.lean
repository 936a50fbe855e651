import Mathlib.Algebra.BigOperators.Associated
import Mathlib.NumberTheory.LucasPrimality

/-!
# Powers modulo a number

`PowMod.powMod` squares and reduces, so that the kernel can evaluate it. An element of order `p - 1`
makes `p` prime (`PowMod.prime_of_isPrimitiveRoot`).
-/

namespace PowMod

def loop (m : ℕ) : ℕ → ℕ → ℕ → ℕ → ℕ
  | 0, _, _, acc => acc
  | fuel + 1, b, e, acc =>
    loop m fuel (b * b % m) (e / 2) (if e % 2 = 1 then acc * b % m else acc)

def powMod (b e m : ℕ) : ℕ := loop m (e.log2 + 1) (b % m) e 1 % m

theorem loop_modEq (m : ℕ) {fuel e : ℕ} (b acc : ℕ) (he : e < 2 ^ fuel) :
    loop m fuel b e acc ≡ acc * b ^ e [MOD m] := by
  induction fuel generalizing b e acc with
  | zero =>
    obtain rfl : e = 0 := by simpa using he
    simp [loop, Nat.ModEq.refl]
  | succ fuel ih =>
    have hhalf : e / 2 < 2 ^ fuel := by
      rw [Nat.pow_succ] at he
      omega
    have hsquare : (b * b % m) ^ (e / 2) ≡ b ^ (2 * (e / 2)) [MOD m] := by
      rw [pow_mul, sq]
      exact (Nat.mod_modEq _ _).pow _
    have hstep := ih (b * b % m) (if e % 2 = 1 then acc * b % m else acc) hhalf
    refine hstep.trans ?_
    split
    case isTrue hodd =>
      have hbits : e = 2 * (e / 2) + 1 := by omega
      calc acc * b % m * (b * b % m) ^ (e / 2)
          ≡ acc * b * b ^ (2 * (e / 2)) [MOD m] := (Nat.mod_modEq _ _).mul hsquare
        _ = acc * b ^ (2 * (e / 2) + 1) := by rw [pow_succ]; ring
        _ = acc * b ^ e := by rw [← hbits]
    case isFalse heven =>
      have hbits : e = 2 * (e / 2) := by omega
      calc acc * (b * b % m) ^ (e / 2) ≡ acc * b ^ (2 * (e / 2)) [MOD m] := hsquare.mul_left acc
        _ = acc * b ^ e := by rw [← hbits]

theorem powMod_eq (b e m : ℕ) : powMod b e m = b ^ e % m := by
  have hloop := loop_modEq m (b % m) 1 (Nat.lt_log2_self (n := e))
  rw [one_mul] at hloop
  exact hloop.trans ((Nat.mod_modEq b m).pow e)

theorem powMod_cast (b e m : ℕ) : (powMod b e m : ZMod m) = (b : ZMod m) ^ e := by
  rw [powMod_eq, ZMod.natCast_mod, Nat.cast_pow]

theorem cast_pow_eq_one_iff {m : ℕ} (hm : 1 < m) (b e : ℕ) :
    (b : ZMod m) ^ e = 1 ↔ powMod b e m = 1 := by
  rw [powMod_eq, ← Nat.cast_pow, ← Nat.cast_one, ZMod.natCast_eq_natCast_iff,
    Nat.ModEq, Nat.mod_eq_of_lt hm]

/-! ### Primes -/

/-- Powers of `a` that show its order to be `p - 1`. -/
def isPrimitiveRoot (p a : ℕ) (qs : List (ℕ × ℕ)) : Bool :=
  1 < p && (qs.map fun q => q.1 ^ q.2).prod == p - 1 && powMod a (p - 1) p == 1 &&
    qs.all fun q => powMod a ((p - 1) / q.1) p != 1

/-- A number with a primitive root is prime. -/
theorem prime_of_isPrimitiveRoot {p : ℕ} (a : ℕ) (qs : List (ℕ × ℕ))
    (hqs : qs.Forall fun q => q.1.Prime) (h : isPrimitiveRoot p a qs = true) : p.Prime := by
  simp only [isPrimitiveRoot, Bool.and_eq_true, decide_eq_true_eq, beq_iff_eq,
    List.all_eq_true, bne_iff_ne] at h
  obtain ⟨⟨⟨hp, hprod⟩, hone⟩, hne⟩ := h
  refine lucas_primality p a ((cast_pow_eq_one_iff hp a _).2 hone) fun q hq hdvd => ?_
  -- A prime that divides the product is one of the given ones.
  rw [← hprod, Prime.dvd_prod_iff hq.prime] at hdvd
  obtain ⟨_, hmem, hqr⟩ := hdvd
  obtain ⟨r, hr, rfl⟩ := List.mem_map.1 hmem
  have hrprime := List.forall_iff_forall_mem.1 hqs r hr
  obtain rfl := (Nat.prime_dvd_prime_iff_eq hq hrprime).1 (hq.dvd_of_dvd_pow hqr)
  rw [ne_eq, cast_pow_eq_one_iff hp]
  exact hne r hr

end PowMod
