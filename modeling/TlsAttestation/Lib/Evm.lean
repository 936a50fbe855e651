import TlsAttestation.Lib.Keccak
import TlsAttestation.Lib.Secp256k1

/-!
# Words of the Ethereum machine, and three of its built-in functions

Words are `BitVec 256` and addresses `BitVec 160`. The recovery of a signer (`Evm.ecrecover`) takes
`r` for the `x` of a point `R` whose `y` has the parity that `v` asks for, and returns the address
of `r⁻¹ (s R - h G)`, or zero. Memory is filled word by word. Gas is not modelled.
-/

namespace Evm

open ByteEncoding PowMod Secp256k1

abbrev Word := BitVec 256

abbrev Address := BitVec 160

/-! ### Bytes -/

def Word.bytes (w : Word) : Bytes := beBytes 32 w.toNat

def Word.ofBytes (bs : Bytes) : Word := .ofNat 256 (ofBeBytes bs)

def Address.bytes (a : Address) : Bytes := beBytes 20 a.toNat

def keccak (bs : Bytes) : Word := .ofNat 256 (ofBeBytes (Keccak.keccak256 bs).toList)

def addressOf (c : Word × Word) : Address := (keccak (c.1.bytes ++ c.2.bytes)).setWidth 160

@[simp] theorem Word.length_bytes (w : Word) : w.bytes.length = 32 := length_beBytes 32 _

@[simp] theorem Word.ofBytes_bytes (w : Word) : Word.ofBytes w.bytes = w := by
  have hlt : w.toNat < 256 ^ 32 := w.isLt
  rw [Word.ofBytes, Word.bytes, ofBeBytes_beBytes, Nat.mod_eq_of_lt hlt, BitVec.ofNat_toNat,
    BitVec.setWidth_eq]

def mstore (buf : Bytes) (offset : ℕ) (w : Word) : Bytes :=
  buf.take offset ++ w.bytes ++ buf.drop (offset + 32)

/-- A buffer that is filled from the front. -/
theorem mstore_append {done rest : Bytes} {offset : ℕ} (h : done.length = offset) (w : Word) :
    mstore (done ++ rest) offset w = (done ++ w.bytes) ++ rest.drop 32 := by
  subst h
  rw [mstore, List.take_left, List.drop_length_add_append]

/-! ### Arithmetic -/

def mulmod (a b m : Word) : Word := .ofNat 256 (if m = 0 then 0 else a.toNat * b.toNat % m.toNat)

def addmod (a b m : Word) : Word := .ofNat 256 (if m = 0 then 0 else (a.toNat + b.toNat) % m.toNat)

def modExp (b e m : Word) : Word := .ofNat 256 (if m = 0 then 0 else powMod b.toNat e.toNat m.toNat)

section

variable {m : Word} (hm : m ≠ 0)

include hm

theorem toNat_pos_of_ne_zero : 0 < m.toNat := by
  refine Nat.pos_of_ne_zero fun h => hm ?_
  rwa [← BitVec.toNat_inj]

theorem toNat_mulmod (a b : Word) : (mulmod a b m).toNat = a.toNat * b.toNat % m.toNat := by
  have hlt := (Nat.mod_lt (a.toNat * b.toNat) (toNat_pos_of_ne_zero hm)).trans m.isLt
  rw [mulmod, if_neg hm, BitVec.toNat_ofNat, Nat.mod_eq_of_lt hlt]

theorem toNat_addmod (a b : Word) : (addmod a b m).toNat = (a.toNat + b.toNat) % m.toNat := by
  have hlt := (Nat.mod_lt (a.toNat + b.toNat) (toNat_pos_of_ne_zero hm)).trans m.isLt
  rw [addmod, if_neg hm, BitVec.toNat_ofNat, Nat.mod_eq_of_lt hlt]

theorem toNat_modExp (b e : Word) : (modExp b e m).toNat = b.toNat ^ e.toNat % m.toNat := by
  have hlt := (Nat.mod_lt (b.toNat ^ e.toNat) (toNat_pos_of_ne_zero hm)).trans m.isLt
  rw [modExp, if_neg hm, powMod_eq, BitVec.toNat_ofNat, Nat.mod_eq_of_lt hlt]

end

/-! ### The recovery of a signer -/

def coordinates : Point → Option (Word × Word)
  | .zero => none
  | .some x y _ => some (.ofNat 256 x.val, .ofNat 256 y.val)

def addressOfPoint (Q : Point) : Address := ((coordinates Q).map addressOf).getD 0

/-- The built-in function at `0x01`: the signer's address, or zero. -/
def ecrecover (hash v r s : Word) : Address :=
  if (v = 27 ∨ v = 28) ∧ (0 < r.toNat ∧ r.toNat < n) ∧ 0 < s.toNat ∧ s.toNat < n then
    match lift (r.toNat : ZMod p) (v.toNat - 27) with
    | none => 0
    | some R => addressOfPoint
        ((r.toNat : ZMod n)⁻¹ • ((s.toNat : ZMod n) • R - (hash.toNat : ZMod n) • base))
  else 0

theorem toNat_ofNat_val (x : ZMod p) : (BitVec.ofNat 256 x.val).toNat = x.val := by
  have hlt : x.val < 2 ^ 256 := (ZMod.val_lt x).trans (by decide)
  rw [BitVec.toNat_ofNat, Nat.mod_eq_of_lt hlt]

theorem ecrecover_eq {hash v r s : Word} {y : ZMod p}
    (h : curve.Nonsingular (r.toNat : ZMod p) y) (hv : v.toNat = 27 + y.val % 2)
    (hr : 0 < r.toNat ∧ r.toNat < n) (hs : 0 < s.toNat ∧ s.toNat < n) :
    ecrecover hash v r s = addressOfPoint
      ((r.toNat : ZMod n)⁻¹ • ((s.toNat : ZMod n) • .some _ _ h -
        (hash.toNat : ZMod n) • base)) := by
  have hcases : v = 27 ∨ v = 28 := by
    rcases Nat.mod_two_eq_zero_or_one y.val with hy | hy
    · left
      rw [← BitVec.toNat_inj, hv, hy]
      rfl
    · right
      rw [← BitVec.toNat_inj, hv, hy]
      rfl
  have hpar : v.toNat - 27 = y.val % 2 := by omega
  rw [ecrecover, if_pos ⟨hcases, hr, hs⟩, hpar, lift_eq_some h]

theorem ecrecover_zero (hash v r : Word) : ecrecover hash v r 0 = 0 := by
  rw [ecrecover, if_neg]
  rintro ⟨-, -, hs, -⟩
  exact absurd hs (by decide)

end Evm
