import Mathlib.Data.Nat.Bitwise
import Mathlib.Tactic.Ring
import TlsAttestation.Lib.Encoding

/-!
# Little-endian integers

The order in which a prime field reads bytes and a circuit sums up bits: `ByteEncoding.ofLeBytes`,
`ByteEncoding.ofLeBits`. Exclusive or of bytes is **not** the sum of the integers: the two differ by
twice the common bits.
-/

namespace ByteEncoding

open List hiding Vector

/-! ### Bytes -/

def leBytes : ℕ → ℕ → Bytes
  | 0, _ => []
  | w + 1, n => UInt8.ofNat n :: leBytes w (n / 256)

def ofLeBytes : Bytes → ℕ
  | [] => 0
  | b :: bs => b.toNat + 256 * ofLeBytes bs

@[simp] theorem length_leBytes (w n : ℕ) : (leBytes w n).length = w := by
  induction w generalizing n with
  | zero => rfl
  | succ w ih => rw [leBytes, length_cons, ih]

theorem ofLeBytes_leBytes (w n : ℕ) : ofLeBytes (leBytes w n) = n % 256 ^ w := by
  induction w generalizing n with
  | zero => simp [leBytes, ofLeBytes, Nat.mod_one]
  | succ w ih =>
    rw [leBytes, ofLeBytes, ih, UInt8.toNat_ofNat', show 2 ^ 8 = 256 from rfl, Nat.pow_succ',
      Nat.mod_mul]

theorem ofLeBytes_lt (bs : Bytes) : ofLeBytes bs < 256 ^ bs.length := by
  induction bs with
  | nil => simp [ofLeBytes]
  | cons b bs ih =>
    have hb := b.toNat_lt
    rw [ofLeBytes, length_cons, Nat.pow_succ']
    omega

theorem ofLeBytes_inj : ∀ {bs cs : Bytes}, bs.length = cs.length →
    (ofLeBytes bs = ofLeBytes cs ↔ bs = cs)
  | [], [], _ => by simp
  | b :: bs, c :: cs, h => by
    have hb := b.toNat_lt
    have hc := c.toNat_lt
    have htail : ofLeBytes bs = ofLeBytes cs ↔ bs = cs := ofLeBytes_inj (by simpa using h)
    rw [ofLeBytes, ofLeBytes, List.cons.injEq, ← htail, ← UInt8.toNat_inj]
    omega

/-! ### Bits -/

def bits (b : UInt8) : List Bool := (List.range 8).map b.toNat.testBit

def ofLeBits : List Bool → ℕ
  | [] => 0
  | b :: bs => b.toNat + 2 * ofLeBits bs

@[simp] theorem length_bits (b : UInt8) : (bits b).length = 8 := by
  simp [bits]

theorem ofLeBits_append (bs cs : List Bool) :
    ofLeBits (bs ++ cs) = ofLeBits bs + 2 ^ bs.length * ofLeBits cs := by
  induction bs with
  | nil => simp [ofLeBits]
  | cons b bs ih =>
    rw [cons_append, ofLeBits, ofLeBits, ih, length_cons, Nat.pow_succ']
    ring

theorem testBit_ofLeBits (bs : List Bool) (i : ℕ) : (ofLeBits bs).testBit i = bs.getD i false := by
  induction bs generalizing i with
  | nil => simp [ofLeBits]
  | cons b bs ih =>
    cases i with
    | zero => cases b <;> simp [ofLeBits]
    | succ i =>
      have hb := b.toNat_lt
      rw [Nat.testBit_succ, ofLeBits,
        show (b.toNat + 2 * ofLeBits bs) / 2 = ofLeBits bs by omega, ih,
        getD_cons_succ]

theorem ofLeBits_lt (bs : List Bool) : ofLeBits bs < 2 ^ bs.length := by
  induction bs with
  | nil => simp [ofLeBits]
  | cons b bs ih =>
    have hb := b.toNat_lt
    rw [ofLeBits, length_cons, Nat.pow_succ']
    omega

theorem ofLeBits_take (bs : List Bool) (n : ℕ) : ofLeBits (bs.take n) = ofLeBits bs % 2 ^ n := by
  induction n generalizing bs with
  | zero => simp [ofLeBits, Nat.mod_one]
  | succ n ih =>
    cases bs with
    | nil => simp [ofLeBits]
    | cons b bs =>
      have hb := b.toNat_lt
      have hdiv : (b.toNat + 2 * ofLeBits bs) / 2 = ofLeBits bs := by omega
      rw [take_succ_cons, ofLeBits, ofLeBits, ih, Nat.pow_succ', Nat.mod_mul, hdiv]
      omega

theorem ofLeBits_testBit (n w : ℕ) : ofLeBits ((List.range w).map n.testBit) = n % 2 ^ w := by
  induction w generalizing n with
  | zero => simp [ofLeBits, Nat.mod_one]
  | succ w ih =>
    have htail : (List.range w).map (n.testBit ∘ Nat.succ) = (List.range w).map (n / 2).testBit :=
      map_congr_left fun i _ => Nat.testBit_succ n i
    have hhead : (n.testBit 0).toNat = n % 2 := by
      rcases Nat.mod_two_eq_zero_or_one n with h | h <;> simp [h]
    rw [range_succ_eq_map, map_cons, map_map, htail, ofLeBits, ih, hhead,
      Nat.pow_succ', Nat.mod_mul]

theorem ofLeBits_bits (b : UInt8) : ofLeBits (bits b) = b.toNat := by
  rw [bits, ofLeBits_testBit]
  exact Nat.mod_eq_of_lt b.toNat_lt

/-- Bytes and their bits spell one integer. -/
theorem ofLeBits_flatMap_bits (bs : Bytes) : ofLeBits (bs.flatMap bits) = ofLeBytes bs := by
  induction bs with
  | nil => rfl
  | cons b bs ih =>
    rw [flatMap_cons, ofLeBits_append, ih, ofLeBits_bits, length_bits, ofLeBytes,
      show 2 ^ 8 = 256 from rfl]

/-! ### Bytewise operations -/

abbrev zipBytes {n : ℕ} (f : UInt8 → UInt8 → UInt8) (x y : Vector UInt8 n) : Vector UInt8 n :=
  Vector.zipWith f x y

theorem add_eq_xor_add_and (a b : ℕ) : a + b = (a ^^^ b) + 2 * (a &&& b) := by
  induction a using Nat.strong_induction_on generalizing b with
  | _ a ih =>
    rcases Nat.eq_zero_or_pos a with rfl | ha
    · simp
    · have hhalf := ih (a / 2) (by omega) (b / 2)
      rw [← Nat.xor_div_two, ← Nat.and_div_two] at hhalf
      have hxor : (a ^^^ b) % 2 = (a + b) % 2 := Nat.xor_mod_two_eq
      have hand : (a &&& b) % 2 = 1 ↔ a % 2 = 1 ∧ b % 2 = 1 := Nat.and_mod_two_eq_one
      omega

/-- Exclusive or is not addition. -/
theorem ofLeBytes_add {n : ℕ} (x y : Vector UInt8 n) :
    ofLeBytes x.toList + ofLeBytes y.toList = ofLeBytes (zipBytes (· ^^^ ·) x y).toList +
        2 * ofLeBytes (zipBytes (· &&& ·) x y).toList := by
  have hlists : ∀ bs cs : Bytes, bs.length = cs.length →
      ofLeBytes bs + ofLeBytes cs = ofLeBytes (List.zipWith (· ^^^ ·) bs cs) +
        2 * ofLeBytes (List.zipWith (· &&& ·) bs cs) := by
    intro bs
    induction bs with
    | nil =>
      intro cs hlen
      rw [eq_nil_of_length_eq_zero hlen.symm]
      rfl
    | cons b bs ih =>
      rintro (_ | ⟨c, cs⟩) hlen
      · exact nomatch hlen
      · have hbyte := add_eq_xor_add_and b.toNat c.toNat
        have htail := ih cs (by simpa using hlen)
        rw [zipWith_cons_cons, zipWith_cons_cons, ofLeBytes, ofLeBytes, ofLeBytes,
          ofLeBytes, UInt8.toNat_xor, UInt8.toNat_and]
        omega
  have h := hlists x.toList y.toList (by simp)
  rwa [← Vector.toList_zipWith, ← Vector.toList_zipWith] at h

end ByteEncoding
