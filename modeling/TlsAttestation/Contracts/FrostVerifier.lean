import TlsAttestation.Lib.Evm
import Mathlib.Tactic.Module

/-!
# The signature check on the chain

The contract `FrostVerifier`: a signature is the `x` of a commitment `R` and a scalar `s` with
`s G = R + e PK`. The machine has no multiplication on this curve; what recovers signers is given
parameters under which the recovered key is `s G - e PK`
(`FrostVerifier.ecrecover_eq_addressOfPoint`).
-/

namespace TlsAttestation

open Evm Secp256k1 WeierstrassCurve.Affine

namespace FrostVerifier

def N : Word := 0xFFFFFFFFFFFFFFFFFFFFFFFFFFFFFFFEBAAEDCE6AF48A03BBFD25E8CD0364141

def P : Word := 0xFFFFFFFFFFFFFFFFFFFFFFFFFFFFFFFFFFFFFFFFFFFFFFFFFFFFFFFEFFFFFC2F

def recoverY (x : Word) : Word :=
  let rhs := addmod (mulmod (mulmod x x P) x P) 7 P
  let y := modExp rhs ((P + 1) / 4) P
  let y := if y % 2 ≠ 0 then P - y else y
  if mulmod y y P ≠ rhs then 0 else y

def verifyWithPrecompiles (_messageHash pkX pkY sigRX sigS e : Word) : Bool :=
  let rY := recoverY sigRX
  if rY = 0 then false
  else
    let rAddr := addressOf (sigRX, rY)
    -- The other parity than that of the key selects its opposite.
    let v := 28 - pkY % 2
    let sEc := mulmod e pkX N
    let hashEc := N - mulmod sigS pkX N
    let recovered := ecrecover hashEc v pkX sEc
    recovered ≠ 0 && recovered = rAddr

variable (messageHash pkX sigRX : Word)

def challenge : Word :=
  keccak (sigRX.bytes ++ pkX.bytes ++ messageHash.bytes) % N

/-- A signature of FROST, by way of `ecrecover`. -/
def verify (messageHash pkX pkY sigRX sigS : Word) : Bool :=
  verifyWithPrecompiles messageHash pkX pkY sigRX sigS (challenge messageHash pkX sigRX)

/-! ### Words as numbers of the field -/

theorem toNat_N : N.toNat = n := by decide

theorem toNat_P : P.toNat = p := by decide

theorem N_ne_zero : N ≠ 0 := by decide

theorem P_ne_zero : P ≠ 0 := by decide

theorem eq_val_of_cast_eq {k : ℕ} {z : ZMod p} (hk : k < p) (h : (k : ZMod p) = z) : k = z.val := by
  rw [← h, ZMod.val_natCast_of_lt hk]

variable (a b : Word)

theorem toNat_mulmod_P_lt : (mulmod a b P).toNat < p := by
  rw [toNat_mulmod P_ne_zero, toNat_P]
  exact Nat.mod_lt _ (NeZero.pos p)

theorem cast_mulmod_P :
    ((mulmod a b P).toNat : ZMod p) = (a.toNat : ZMod p) * (b.toNat : ZMod p) := by
  rw [toNat_mulmod P_ne_zero, toNat_P, ZMod.natCast_mod, Nat.cast_mul]

/-! ### The root -/

section

variable (x : Word)

def rhs : Word := addmod (mulmod (mulmod x x P) x P) 7 P

theorem toNat_rhs : (rhs x).toNat = ((x.toNat : ZMod p) ^ 3 + 7).val := by
  refine eq_val_of_cast_eq ?_ ?_
  · rw [rhs, toNat_addmod P_ne_zero, toNat_P]
    exact Nat.mod_lt _ (NeZero.pos p)
  · rw [rhs, toNat_addmod P_ne_zero, toNat_P, ZMod.natCast_mod, Nat.cast_add, cast_mulmod_P,
      cast_mulmod_P, ← sq, ← pow_succ]
    rfl

theorem toNat_modExp_rhs :
    (modExp (rhs x) ((P + 1) / 4) P).toNat =
      (((x.toNat : ZMod p) ^ 3 + 7) ^ ((p + 1) / 4)).val := by
  have hexp : ((P + 1) / 4).toNat = (p + 1) / 4 := by decide
  refine eq_val_of_cast_eq ?_ ?_
  · rw [toNat_modExp P_ne_zero, toNat_P]
    exact Nat.mod_lt _ (NeZero.pos p)
  · rw [toNat_modExp P_ne_zero, toNat_P, hexp, ZMod.natCast_mod, Nat.cast_pow, toNat_rhs,
      ZMod.natCast_val, ZMod.cast_id]

def evenCandidate : Word :=
  let y := modExp (rhs x) ((P + 1) / 4) P
  if y % 2 ≠ 0 then P - y else y

theorem toNat_evenCandidate :
    (evenCandidate x).toNat = (evenRoot ((x.toNat : ZMod p) ^ 3 + 7)).val := by
  set r : ZMod p := ((x.toNat : ZMod p) ^ 3 + 7) ^ ((p + 1) / 4) with hr
  have hy : (modExp (rhs x) ((P + 1) / 4) P).toNat = r.val := toNat_modExp_rhs x
  have hpar : modExp (rhs x) ((P + 1) / 4) P % 2 ≠ 0 ↔ ¬ r.val % 2 = 0 := by
    rw [ne_eq, ← BitVec.toNat_inj, BitVec.toNat_umod, hy]
    rfl
  rw [evenCandidate, evenRoot, ← hr]
  simp only [hpar]
  split
  case isTrue hodd =>
    have hne : r ≠ 0 := by
      intro hzero
      rw [hzero, ZMod.val_zero] at hodd
      exact hodd rfl
    have := NeZero.mk hne
    have hlt := ZMod.val_lt r
    have hle : modExp (rhs x) ((P + 1) / 4) P ≤ P := by
      rw [BitVec.le_def, hy, toNat_P]
      exact hlt.le
    rw [BitVec.toNat_sub_of_le hle, hy, toNat_P, ZMod.val_neg_of_ne_zero]
  case isFalse heven => rw [if_pos (not_not.1 heven), hy]

/-- The root is checked before it is returned. -/
theorem toNat_recoverY :
    (recoverY x).toNat =
      if evenRoot ((x.toNat : ZMod p) ^ 3 + 7) ^ 2 = (x.toNat : ZMod p) ^ 3 + 7 then
        (evenRoot ((x.toNat : ZMod p) ^ 3 + 7)).val
      else 0 := by
  have hdef : recoverY x = if mulmod (evenCandidate x) (evenCandidate x) P ≠ rhs x then 0
      else evenCandidate x := rfl
  have hcheck : mulmod (evenCandidate x) (evenCandidate x) P = rhs x ↔
      evenRoot ((x.toNat : ZMod p) ^ 3 + 7) ^ 2 = (x.toNat : ZMod p) ^ 3 + 7 := by
    have hcast : ((mulmod (evenCandidate x) (evenCandidate x) P).toNat : ZMod p) =
        evenRoot ((x.toNat : ZMod p) ^ 3 + 7) ^ 2 := by
      rw [cast_mulmod_P, toNat_evenCandidate, ZMod.natCast_val, ZMod.cast_id, sq]
    rw [← BitVec.toNat_inj, toNat_rhs, eq_val_of_cast_eq (toNat_mulmod_P_lt _ _) hcast]
    exact (ZMod.val_injective p).eq_iff
  rw [hdef]
  by_cases heq : mulmod (evenCandidate x) (evenCandidate x) P = rhs x
  · rw [if_neg (not_not.2 heq), if_pos (hcheck.1 heq), toNat_evenCandidate]
  · rw [if_pos heq, if_neg (mt hcheck.2 heq)]
    rfl

end

structure OnCurve (x y : Word) : Prop where
  x_lt : x.toNat < p
  y_lt : y.toNat < p
  equation : (y.toNat : ZMod p) ^ 2 = (x.toNat : ZMod p) ^ 3 + 7

namespace OnCurve

variable {x y : Word}

theorem nonsingular (h : OnCurve x y) :
    curve.Nonsingular (x.toNat : ZMod p) (y.toNat : ZMod p) :=
  nonsingular_iff.2 h.equation

def point (h : OnCurve x y) : Point := .some _ _ h.nonsingular

theorem coordinates_point (h : OnCurve x y) : coordinates h.point = some (x, y) := by
  have hx : BitVec.ofNat 256 (x.toNat : ZMod p).val = x := by
    rw [ZMod.val_natCast_of_lt h.x_lt, BitVec.ofNat_toNat, BitVec.setWidth_eq]
  have hy : BitVec.ofNat 256 (y.toNat : ZMod p).val = y := by
    rw [ZMod.val_natCast_of_lt h.y_lt, BitVec.ofNat_toNat, BitVec.setWidth_eq]
  rw [point, coordinates, hx, hy]

end OnCurve

theorem exists_of_coordinates_eq {Q : Point} {x y : Word} (h : coordinates Q = some (x, y)) :
    ∃ hxy : OnCurve x y, Q = hxy.point := by
  cases Q with
  | zero => cases h
  | some u v huv =>
    obtain ⟨rfl, rfl⟩ := Prod.mk.inj (Option.some.inj h)
    have hu := toNat_ofNat_val u
    have hv := toNat_ofNat_val v
    have hcastu : ((BitVec.ofNat 256 u.val).toNat : ZMod p) = u := by
      rw [hu, ZMod.natCast_val, ZMod.cast_id]
    have hcastv : ((BitVec.ofNat 256 v.val).toNat : ZMod p) = v := by
      rw [hv, ZMod.natCast_val, ZMod.cast_id]
    refine ⟨⟨?_, ?_, ?_⟩, ?_⟩
    · rw [hu]
      exact ZMod.val_lt u
    · rw [hv]
      exact ZMod.val_lt v
    · rw [hcastu, hcastv]
      exact nonsingular_iff.1 huv
    · rw [OnCurve.point, Point.some.injEq]
      exact ⟨hcastu.symm, hcastv.symm⟩

/-! ### The recovery -/

theorem toNat_mulmod_N_lt : (mulmod a b N).toNat < n := by
  rw [toNat_mulmod N_ne_zero, toNat_N]
  exact Nat.mod_lt _ (NeZero.pos n)

theorem cast_mulmod_N :
    ((mulmod a b N).toNat : ZMod n) = (a.toNat : ZMod n) * (b.toNat : ZMod n) := by
  rw [toNat_mulmod N_ne_zero, toNat_N, ZMod.natCast_mod, Nat.cast_mul]

theorem cast_N_sub_mulmod :
    ((N - mulmod a b N).toNat : ZMod n) = -((a.toNat : ZMod n) * (b.toNat : ZMod n)) := by
  have hlt := toNat_mulmod_N_lt a b
  have hle : mulmod a b N ≤ N := by
    rw [BitVec.le_def, toNat_N]
    exact hlt.le
  rw [BitVec.toNat_sub_of_le hle, toNat_N, Nat.cast_sub hlt.le, ZMod.natCast_self, cast_mulmod_N,
    zero_sub]

section

variable {pkX pkY : Word} (hpk : OnCurve pkX pkY) (hx : 0 < pkX.toNat) (hxN : pkX.toNat < n)

include hpk in
theorem toNat_recoveryId : (28 - pkY % 2).toNat = 27 + (-(pkY.toNat : ZMod p)).val % 2 := by
  have hmod : (pkY % 2).toNat = pkY.toNat % 2 := by
    rw [BitVec.toNat_umod]
    rfl
  have hle : pkY % 2 ≤ 28 := by
    rw [BitVec.le_def, hmod]
    exact (Nat.mod_lt _ two_pos).le.trans (by decide)
  have hpar := val_neg_mod_two (y_ne_zero hpk.nonsingular)
  rw [ZMod.val_natCast_of_lt hpk.y_lt] at hpar
  rw [BitVec.toNat_sub_of_le hle, hmod, hpar]
  have h28 : (28 : Word).toNat = 28 := rfl
  omega

include hx hxN

/-- **The recovered key** is `s G - e PK`. -/
theorem ecrecover_eq_addressOfPoint (sigS e : Word) :
    ecrecover (N - mulmod sigS pkX N) (28 - pkY % 2) pkX (mulmod e pkX N) =
      if (e.toNat : ZMod n) = 0 then 0
      else addressOfPoint ((sigS.toNat : ZMod n) • base - (e.toNat : ZMod n) • hpk.point) := by
  have hr : (pkX.toNat : ZMod n) ≠ 0 := by
    rw [ne_eq, ZMod.natCast_eq_zero_iff]
    exact Nat.not_dvd_of_pos_of_lt hx hxN
  have hs : (mulmod e pkX N).toNat = 0 ↔ (e.toNat : ZMod n) = 0 := by
    rw [← mul_eq_zero_iff_right hr, ← cast_mulmod_N, ZMod.natCast_eq_zero_iff]
    exact ⟨fun h => h ▸ dvd_zero n, fun h => Nat.eq_zero_of_dvd_of_lt h (toNat_mulmod_N_lt e pkX)⟩
  split
  case isTrue he =>
    have hzero : mulmod e pkX N = 0 := BitVec.toNat_inj.1 (hs.2 he)
    rw [hzero, ecrecover_zero]
  case isFalse he =>
    have hopp : curve.Nonsingular (pkX.toNat : ZMod p) (-(pkY.toNat : ZMod p)) := by
      rw [nonsingular_iff, neg_sq]
      exact hpk.equation
    have hneg : Point.some _ _ hopp = -hpk.point := by
      rw [OnCurve.point, Point.neg_some, Point.some.injEq]
      refine ⟨rfl, ?_⟩
      rw [negY]
      ring
    have hpos : 0 < (mulmod e pkX N).toNat := Nat.pos_of_ne_zero (mt hs.1 he)
    rw [ecrecover_eq hopp (toNat_recoveryId hpk) ⟨hx, hxN⟩ ⟨hpos, toNat_mulmod_N_lt e pkX⟩,
      hneg, cast_mulmod_N, cast_N_sub_mulmod]
    congr 1
    rw [inv_smul_eq_iff₀ hr]
    module

end

/-! ### The check -/

theorem val_recoverY_mod_two (x : Word) : (recoverY x).toNat % 2 = 0 := by
  rw [toNat_recoverY]
  split
  · exact val_evenRoot_mod_two _
  · rfl

theorem recoverY_eq {x y : Word} (h : OnCurve x y) (heven : y.toNat % 2 = 0) : recoverY x = y := by
  have hval : (y.toNat : ZMod p).val = y.toNat := ZMod.val_natCast_of_lt h.y_lt
  have hroot : evenRoot ((x.toNat : ZMod p) ^ 3 + 7) = (y.toNat : ZMod p) :=
    evenRoot_eq (y_ne_zero h.nonsingular) h.equation (by rw [hval, heven])
  rw [← BitVec.toNat_inj, toNat_recoverY, hroot, if_pos h.equation, hval]

theorem challenge_lt :
    (challenge messageHash pkX sigRX).toNat < n := by
  rw [challenge, BitVec.toNat_umod, toNat_N]
  exact Nat.mod_lt _ (NeZero.pos n)

theorem cast_challenge_eq_zero {messageHash pkX sigRX : Word} :
    ((challenge messageHash pkX sigRX).toNat : ZMod n) = 0 ↔
      challenge messageHash pkX sigRX = 0 := by
  rw [ZMod.natCast_eq_zero_iff, ← BitVec.toNat_inj]
  exact ⟨fun h => Nat.eq_zero_of_dvd_of_lt h (challenge_lt _ _ _), fun h => h ▸ dvd_zero n⟩

section

variable {messageHash pkX pkY sigRX sigS : Word} (hpk : OnCurve pkX pkY)

/-- A signature, for a commitment with an even `y`. -/
def Signs (messageHash sigRX sigS : Word) (hpk : OnCurve pkX pkY) : Prop :=
  ∃ rY, ∃ hR : OnCurve sigRX rY, (rY.toNat % 2 = 0 ∧ rY ≠ 0) ∧
    (sigS.toNat % n) • base = hR.point + (challenge messageHash pkX sigRX).toNat • hpk.point

def compared (messageHash sigRX sigS : Word) (hpk : OnCurve pkX pkY) : Set (Word × Word) :=
  {c | c = (sigRX, recoverY sigRX) ∨
    coordinates ((sigS.toNat : ZMod n) • base -
      ((challenge messageHash pkX sigRX).toNat : ZMod n) • hpk.point) = some c}

theorem sub_eq_point_iff {e : Word} {R : Point} :
    (sigS.toNat : ZMod n) • base - (e.toNat : ZMod n) • hpk.point = R ↔
      (sigS.toNat % n) • base = R + e.toNat • hpk.point := by
  rw [sub_eq_iff_eq_add, cast_smul e.toNat, ← cast_smul (sigS.toNat % n), ZMod.natCast_mod]

variable (hx : 0 < pkX.toNat) (hxN : pkX.toNat < n)

include hx hxN

theorem verify_eq_true :
    verify messageHash pkX pkY sigRX sigS = true ↔
      recoverY sigRX ≠ 0 ∧ challenge messageHash pkX sigRX ≠ 0 ∧
        ∃ c, coordinates ((sigS.toNat : ZMod n) • base -
            ((challenge messageHash pkX sigRX).toNat : ZMod n) • hpk.point) = some c ∧
          addressOf c ≠ 0 ∧ addressOf c = addressOf (sigRX, recoverY sigRX) := by
  have hrec := ecrecover_eq_addressOfPoint hpk hx hxN sigS (challenge messageHash pkX sigRX)
  simp only [cast_challenge_eq_zero] at hrec
  simp only [verify, verifyWithPrecompiles, hrec]
  by_cases hrY : recoverY sigRX = 0
  · rw [if_pos hrY]
    exact iff_of_false Bool.false_ne_true fun h => h.1 hrY
  rw [if_neg hrY]
  by_cases he : challenge messageHash pkX sigRX = 0
  · rw [if_pos he]
    exact iff_of_false (by simp) fun h => h.2.1 he
  rw [if_neg he, Bool.and_eq_true, decide_eq_true_eq, decide_eq_true_eq, addressOfPoint]
  cases hc : coordinates ((sigS.toNat : ZMod n) • base -
      ((challenge messageHash pkX sigRX).toNat : ZMod n) • hpk.point) with
  | none => exact iff_of_false (fun h => h.1 rfl) (by simp)
  | some c =>
    constructor
    · rintro ⟨hne, heq⟩
      exact ⟨hrY, he, c, rfl, hne, heq⟩
    · rintro ⟨-, -, c', hc', hne, heq⟩
      obtain rfl := Option.some.inj hc'
      exact ⟨hne, heq⟩

/-- **What the check accepts**: signatures, as far as addresses tell points apart. -/
theorem verify_eq_true_iff (hinj : Set.InjOn addressOf (compared messageHash sigRX sigS hpk))
    (hne : ∀ c ∈ compared messageHash sigRX sigS hpk, addressOf c ≠ 0) :
    verify messageHash pkX pkY sigRX sigS = true ↔
      challenge messageHash pkX sigRX ≠ 0 ∧ Signs messageHash sigRX sigS hpk := by
  rw [verify_eq_true hpk hx hxN]
  constructor
  · rintro ⟨hrY, he, c, hc, -, haddr⟩
    obtain rfl : c = (sigRX, recoverY sigRX) := hinj (Or.inr hc) (Or.inl rfl) haddr
    obtain ⟨hR, heq⟩ := exists_of_coordinates_eq hc
    exact ⟨he, _, hR, ⟨val_recoverY_mod_two _, hrY⟩, (sub_eq_point_iff hpk).1 heq⟩
  · rintro ⟨he, rY, hR, ⟨heven, hrY⟩, heq⟩
    obtain rfl := recoverY_eq hR heven
    have hc := hR.coordinates_point
    rw [← (sub_eq_point_iff hpk).2 heq] at hc
    exact ⟨hrY, he, _, hc, hne _ (Or.inl rfl), rfl⟩

end

/-! ### A signature -/

def baseX : Word := .ofNat 256 gx

def baseY : Word := .ofNat 256 gy

theorem toNat_baseX : baseX.toNat = gx := by decide

theorem toNat_baseY : baseY.toNat = gy := by decide

theorem onCurve_base : OnCurve baseX baseY where
  x_lt := by decide
  y_lt := by decide
  equation := by
    rw [toNat_baseX, toNat_baseY]
    exact nonsingular_iff.1 nonsingular_base

theorem point_onCurve_base : onCurve_base.point = base := by
  simp only [OnCurve.point, base, toNat_baseX, toNat_baseY]

variable (messageHash : Word)

def baseSignature : Word := challenge messageHash baseX baseX + 1

theorem baseSignature_signs :
    ((baseSignature messageHash).toNat % n) • base =
      onCurve_base.point + (challenge messageHash baseX baseX).toNat • onCurve_base.point := by
  have hlt := challenge_lt messageHash baseX baseX
  have hn : n < 2 ^ 256 := by decide
  have hsum : (baseSignature messageHash).toNat =
      (challenge messageHash baseX baseX).toNat + 1 := by
    rw [baseSignature, BitVec.toNat_add_of_lt]
    · rfl
    · show (challenge messageHash baseX baseX).toNat + 1 < 2 ^ 256
      omega
  rw [hsum, point_onCurve_base, ← succ_nsmul', ← cast_smul, ← cast_smul, ZMod.natCast_mod]

theorem baseY_even : baseY.toNat % 2 = 0 := by decide

theorem baseY_ne_zero : baseY ≠ 0 := by decide

theorem baseX_pos : 0 < baseX.toNat := by decide

theorem baseX_lt : baseX.toNat < n := by decide

theorem compared_baseSignature :
    compared messageHash baseX (baseSignature messageHash) onCurve_base = {(baseX, baseY)} := by
  have hrec := (sub_eq_point_iff onCurve_base).2 (baseSignature_signs messageHash)
  have hcoordinates := onCurve_base.coordinates_point
  ext c
  rw [compared, Set.mem_ofPred_eq, hrec, hcoordinates, recoverY_eq onCurve_base baseY_even,
    Option.some.injEq, Set.mem_singleton_iff, eq_comm (a := (baseX, baseY)), or_self]

theorem addressOf_base_ne_zero : addressOf (baseX, baseY) ≠ 0 := by decide +kernel

/-- **It is accepted**, unless the challenge is zero. -/
theorem verify_baseSignature {messageHash : Word} (h : challenge messageHash baseX baseX ≠ 0) :
    verify messageHash baseX baseY baseX (baseSignature messageHash) = true := by
  have hrec := (sub_eq_point_iff onCurve_base).2 (baseSignature_signs messageHash)
  rw [verify_eq_true onCurve_base baseX_pos baseX_lt, hrec, recoverY_eq onCurve_base baseY_even]
  exact ⟨baseY_ne_zero, h, _, onCurve_base.coordinates_point, addressOf_base_ne_zero, rfl⟩

theorem challenge_zero_ne_zero : challenge 0 baseX baseX ≠ 0 := by decide +kernel

theorem verify_baseSignature_zero :
    verify 0 baseX baseY baseX (baseSignature 0) = true := by
  refine (verify_eq_true_iff onCurve_base baseX_pos baseX_lt ?_ ?_).2 ⟨challenge_zero_ne_zero, ?_⟩
  · rw [compared_baseSignature]
    exact Set.injOn_singleton _ _
  · rw [compared_baseSignature]
    rintro c rfl
    exact addressOf_base_ne_zero
  · exact ⟨baseY, onCurve_base, ⟨baseY_even, baseY_ne_zero⟩, baseSignature_signs 0⟩

-- From here on the check is only used by what it accepts.
attribute [irreducible] verify

end FrostVerifier

end TlsAttestation
