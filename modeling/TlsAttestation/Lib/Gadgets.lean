import Mathlib.Data.BitVec
import Mathlib.Data.List.Forall2
import TlsAttestation.Lib.LittleEndian

/-!
# Circuits over an interface of gadgets

A circuit is a program that calls gadgets. What a call *means* is left open (`Ark.Gadgets`).

| reading | a bit is | a run is |
|---|---|---|
| evaluation (`Id`) | a Boolean | the result |
| `Ark.Sat` | what the prover computed and what is assigned | any satisfying assignment |
| `Ark.Synth` | a constant, a variable, or a negated variable | the rows it adds |

A bitwise program says the same in all of them (`Ark.Simulation`).
-/

namespace Ark

open ByteEncoding
open List hiding Vector

inductive SynthesisError where
  | missingCS
  | assignmentMissing
  | divisionByZero
  | unsatisfiable
  | polynomialDegreeTooLarge
  | unexpectedIdentity
  | malformedVerifyingKey
  | unconstrainedVariable
deriving DecidableEq, Repr

def SynthesisError.display : SynthesisError → String
  | .missingCS => "the constraint system was empty"
  | .assignmentMissing => "an assignment for a variable could not be computed"
  | .divisionByZero => "division by zero"
  | .unsatisfiable => "unsatisfiable constraint system"
  | .polynomialDegreeTooLarge => "polynomial degree is too large"
  | .unexpectedIdentity => "encountered an identity element in the CRS"
  | .malformedVerifyingKey => "malformed verifying key"
  | .unconstrainedVariable => "auxiliary variable was unconstrained"

def SynthesisError.debug : SynthesisError → String
  | .missingCS => "MissingCS"
  | .assignmentMissing => "AssignmentMissing"
  | .divisionByZero => "DivisionByZero"
  | .unsatisfiable => "Unsatisfiable"
  | .polynomialDegreeTooLarge => "PolynomialDegreeTooLarge"
  | .unexpectedIdentity => "UnexpectedIdentity"
  | .malformedVerifyingKey => "MalformedVerifyingKey"
  | .unconstrainedVariable => "UnconstrainedVariable"

/-! ### The interface -/

/-- A word is its bits, least significant first. -/
class BoolGadgets (m : Type → Type) (Bit : outParam Type) where
  constant : Bool → Bit
  not : Bit → Bit
  and : Bit → Bit → m Bit
  xor : Bit → Bit → m Bit
  addmany : List (Vector Bit 32) → m (Vector Bit 32)

class Gadgets (m : Type → Type) (F : outParam Type) (Bit Fp : outParam Type) extends
    BoolGadgets m Bit where
  value : Bit → Option Bool
  newWitness : Bool → m Bit
  fpConstant : F → Fp
  fpNewInput : F → m Fp
  fpNewWitness : F → m Fp
  fpOfBit : Bit → Fp
  fpAdd : Fp → Fp → Fp
  fpScale : F → Fp → Fp
  fpEnforceEqual : Fp → Fp → m Unit
  fail : {α : Type} → SynthesisError → m α

class FieldGadgets (m : Type → Type) (F : outParam Type) (Bit Fp : outParam Type) extends
    Gadgets m F Bit Fp where
  fpMul : Fp → Fp → m Fp

/-! ### Words -/

abbrev UInt8Var (Bit : Type) := Vector Bit 8

abbrev UInt32Var (Bit : Type) := Vector Bit 32

section

variable (m : Type → Type) {Bit : Type} [BoolGadgets m Bit] {n : ℕ}

def constBits (w : BitVec n) : Vector Bit n :=
  .ofFn fun i => BoolGadgets.constant (m := m) (w.getLsbD i)

def notBits (x : Vector Bit n) : Vector Bit n :=
  .ofFn fun i => BoolGadgets.not (m := m) x[i]

def shr (x : Vector Bit n) (k : ℕ) : Vector Bit n :=
  .ofFn fun i => if h : i + k < n then x[i + k] else BoolGadgets.constant (m := m) false

variable {m} [Monad m] (x y : Vector Bit n)

def xorBits : m (Vector Bit n) :=
  Vector.ofFnM fun i => BoolGadgets.xor x[i] y[i]

def andBits : m (Vector Bit n) :=
  Vector.ofFnM fun i => BoolGadgets.and x[i] y[i]

end

variable {m : Type → Type} {F Bit Fp : Type} {n : ℕ}

def newWitnessBits [Monad m] [Gadgets m F Bit Fp] (w : BitVec n) : m (Vector Bit n) :=
  Vector.ofFnM fun i => Gadgets.newWitness (w.getLsbD i)

def newWitnessBytes [Monad m] [Gadgets m F Bit Fp] (bs : Bytes) : m (List (UInt8Var Bit)) :=
  bs.mapM fun b => newWitnessBits b.toBitVec

def constantBytes (m : Type → Type) {Bit : Type} [BoolGadgets m Bit] (bs : Bytes) :
    List (UInt8Var Bit) :=
  bs.map fun b => constBits m b.toBitVec

def leBitsToFp (m : Type → Type) {F Bit Fp : Type} [Zero F] [One F] [Add F] [Gadgets m F Bit Fp]
    (bits : List Bit) : Fp :=
  let sum := bits.foldl (fun acc bit => (Gadgets.fpAdd (m := m) acc.1
      (Gadgets.fpScale (m := m) acc.2 (Gadgets.fpOfBit (m := m) bit)), acc.2 + acc.2))
    (Gadgets.fpConstant (m := m) (0 : F), (1 : F))
  sum.1

/-- **The element that bits spell**, under any linear evaluation. -/
theorem eval_leBitsToFp [CommRing F] [Gadgets m F Bit Fp]
    (eval : Fp → F) (hzero : eval (Gadgets.fpConstant (m := m) 0) = 0)
    (hadd : ∀ x y, eval (Gadgets.fpAdd (m := m) x y) = eval x + eval y)
    (hscale : ∀ k x, eval (Gadgets.fpScale (m := m) k x) = k * eval x)
    {bits : List Bit} {vs : List Bool}
    (h : Forall₂ (fun b v => eval (Gadgets.fpOfBit (m := m) b) = if v then 1 else 0) bits vs) :
    eval (leBitsToFp m bits) = (ofLeBits vs : F) := by
  -- the induction carries the sum so far and the weight of the next bit
  have hfold : ∀ (acc : Fp) (coeff : F), eval (bits.foldl
      (fun acc bit => (Gadgets.fpAdd (m := m) acc.1
        (Gadgets.fpScale (m := m) acc.2 (Gadgets.fpOfBit (m := m) bit)), acc.2 + acc.2))
      (acc, coeff)).1 = eval acc + coeff * (ofLeBits vs : F) := by
    induction h with
    | nil => simp [ofLeBits]
    | @cons b v _ _ hb _ ih =>
      intro acc coeff
      have hv : (if v then 1 else 0 : F) = ((v.toNat : ℕ) : F) := by cases v <;> simp
      rw [foldl_cons, ih, hadd, hscale, hb, hv, ofLeBits]
      push_cast
      ring
  rw [leBitsToFp, hfold, hzero, zero_add, one_mul]

variable {Bit : Type}

def rotr (x : Vector Bit n) (k : ℕ) : Vector Bit n :=
  .ofFn fun i => x.get ⟨(i + k) % n, Nat.mod_lt _ (Nat.zero_lt_of_lt i.isLt)⟩

variable (x : UInt32Var Bit)

def byteOfWord (i : Fin 4) : UInt8Var Bit :=
  .ofFn fun j => x[8 * i.val + j.val]

/-- The bytes of a word, the most significant one first. -/
def bytesOfWord : List (UInt8Var Bit) :=
  (finRange 4).reverse.map (byteOfWord x)

theorem bytesOfWord_eq :
    bytesOfWord x = [byteOfWord x 3, byteOfWord x 2, byteOfWord x 1, byteOfWord x 0] :=
  rfl

def wordOfBytes (b₀ b₁ b₂ b₃ : UInt8Var Bit) : UInt32Var Bit :=
  b₃ ++ b₂ ++ b₁ ++ b₀

variable {α β : Type} {n : ℕ}

theorem map_byteOfWord (f : α → β) (x : UInt32Var α) (i : Fin 4) :
    (byteOfWord x i).map f = byteOfWord (x.map f) i := by
  refine Vector.ext fun j hj => ?_
  simp [byteOfWord]

theorem map_wordOfBytes (f : α → β) (b₀ b₁ b₂ b₃ : UInt8Var α) :
    (wordOfBytes b₀ b₁ b₂ b₃).map f = wordOfBytes (b₀.map f) (b₁.map f) (b₂.map f) (b₃.map f) := by
  change (b₃ ++ b₂ ++ b₁ ++ b₀ : Vector α (8 + 8 + 8 + 8)).map f = _
  rw [Vector.map_append, Vector.map_append, Vector.map_append]
  rfl

/-! ### Evaluation -/

variable (x : Vector Bool n)

def word : BitVec n := .ofNat n (ofLeBits x.toList)

@[simp] theorem getLsbD_word {i : ℕ} (h : i < n) :
    (word x).getLsbD i = x[i] := by
  rw [word, BitVec.getLsbD_ofNat, testBit_ofLeBits]
  simp [h]

theorem word_ext {x : Vector Bool n} {w : BitVec n} (h : ∀ i (hi : i < n), x[i] = w.getLsbD i) :
    word x = w := by
  refine BitVec.eq_of_getLsbD_eq fun i hi => ?_
  rw [getLsbD_word x hi, h i hi]

theorem toNat_word : (word x).toNat = ofLeBits x.toList := by
  have hlt := ofLeBits_lt x.toList
  rw [Vector.length_toList] at hlt
  rw [word, BitVec.toNat_ofNat, Nat.mod_eq_of_lt hlt]

variable (x : UInt8Var Bool)

def byte : UInt8 := ⟨word x⟩

theorem toNat_byte : (byte x).toNat = ofLeBits x.toList :=
  toNat_word x

theorem bits_byte : bits (byte x) = x.toList := by
  refine ext_getElem (by simp) fun i hi hi' => ?_
  rw [← getD_eq_getElem _ false hi', ← testBit_ofLeBits, ← toNat_byte]
  simp [bits]

theorem byte_byteOfWord (x : UInt32Var Bool) (i : Fin 4) :
    byte (byteOfWord x i) = UInt8.ofNat ((word x).toNat / 256 ^ i.val) := by
  refine UInt8.toNat_inj.1 (Nat.eq_of_testBit_eq fun j => ?_)
  rw [UInt8.toNat_ofNat', toNat_byte, testBit_ofLeBits, toNat_word, Nat.testBit_mod_two_pow,
    show (256 : ℕ) = 2 ^ 8 from rfl, ← Nat.pow_mul, Nat.testBit_div_two_pow, testBit_ofLeBits]
  by_cases hj : j < 8
  · have hi := i.isLt
    simp [byteOfWord, hj, show 8 * i.val + j < 32 by omega, Nat.add_comm j]
  · simp [byteOfWord, hj]

theorem map_byte_bytesOfWord (x : UInt32Var Bool) :
    (bytesOfWord x).map byte = beBytes 4 (word x).toNat := by
  simp [bytesOfWord_eq, byte_byteOfWord, beBytes, Nat.div_div_eq_div_mul]

theorem word_wordOfBytes (b₀ b₁ b₂ b₃ : UInt8Var Bool) :
    word (wordOfBytes b₀ b₁ b₂ b₃) =
      .ofNat 32 (ofBeBytes [byte b₀, byte b₁, byte b₂, byte b₃]) := by
  rw [word]
  congr 1
  simp only [wordOfBytes, Vector.toList_append, ofLeBits_append, length_append,
    Vector.length_toList, ofBeBytes, foldl_cons, foldl_nil, toNat_byte]
  omega

instance : BoolGadgets Id Bool where
  constant b := b
  not b := !b
  and b c := b && c
  xor b c := b ^^ c
  addmany ws := .ofFn fun i => (ws.map word).sum.getLsbD i

section

variable {n : ℕ}

@[simp] theorem word_constBits (w : BitVec n) : word (constBits Id w) = w :=
  word_ext fun i hi => by
    rw [constBits, Vector.getElem_ofFn]
    rfl

variable (x : Vector Bool n)

@[simp] theorem word_notBits : word (notBits Id x) = ~~~word x :=
  word_ext fun i hi => by
    rw [notBits, Vector.getElem_ofFn, BitVec.getLsbD_not, getLsbD_word x hi, decide_eq_true hi,
      Bool.true_and]
    rfl

@[simp] theorem word_shr (k : ℕ) : word (shr Id x k) = word x >>> k := by
  refine word_ext fun i hi => ?_
  rw [BitVec.getLsbD_ushiftRight, shr, Vector.getElem_ofFn, Nat.add_comm k i]
  split
  · rw [getLsbD_word]
  · rw [BitVec.getLsbD_of_ge _ _ (by simp only at *; omega)]
    rfl

@[simp] theorem word_xorBits (x y : Vector Bool n) :
    word (xorBits x y : Id _).run = word x ^^^ word y := by
  refine word_ext fun i hi => ?_
  have hpure : (xorBits x y : Id _) = pure (.ofFn fun i => x[i] ^^ y[i]) := Vector.ofFnM_pure
  rw [hpure, Id.run_pure, Vector.getElem_ofFn, BitVec.getLsbD_xor, getLsbD_word x hi,
    getLsbD_word y hi]
  rfl

@[simp] theorem word_andBits (x y : Vector Bool n) :
    word (andBits x y : Id _).run = word x &&& word y := by
  refine word_ext fun i hi => ?_
  have hpure : (andBits x y : Id _) = pure (.ofFn fun i => x[i] && y[i]) := Vector.ofFnM_pure
  rw [hpure, Id.run_pure, Vector.getElem_ofFn, BitVec.getLsbD_and, getLsbD_word x hi,
    getLsbD_word y hi]
  rfl

@[simp] theorem word_rotr {k : ℕ} (hk : k < n) :
    word (rotr x k) = (word x).rotateRight k := by
  refine word_ext fun i hi => ?_
  rw [rotr, Vector.getElem_ofFn, BitVec.getLsbD_rotateRight, Nat.mod_eq_of_lt hk]
  have hrot : (i + k) % n < n := Nat.mod_lt _ (by omega)
  change x[(i + k) % n] = _
  by_cases hlt : i < n - k
  · have hmod : (i + k) % n = k + i := by rw [Nat.mod_eq_of_lt (by omega), Nat.add_comm]
    simp only [hlt, decide_true, cond_true, hmod]
    rw [getLsbD_word]
  · have hmod : (i + k) % n = i - (n - k) := by
      rw [Nat.mod_eq_sub_mod (by omega), Nat.mod_eq_of_lt (by omega)]
      omega
    simp only [hlt, decide_false, cond_false, hmod, hi, decide_true, Bool.true_and]
    rw [getLsbD_word]

@[simp] theorem word_addmany (ws : List (Vector Bool 32)) :
    word (BoolGadgets.addmany ws : Id _).run = (ws.map word).sum :=
  word_ext fun _ hi => Vector.getElem_ofFn hi

end

/-! ### Simulation -/

def VecRel {α β : Type} (R : α → β → Prop) (x : Vector α n) (y : Vector β n) : Prop :=
  ∀ i (h : i < n), R x[i] y[i]

theorem VecRel.toList {R : α → β → Prop} {x : Vector α n} {y : Vector β n} (h : VecRel R x y) :
    Forall₂ R x.toList y.toList := by
  refine forall₂_iff_get.2 ⟨by simp, fun i hi hi' => ?_⟩
  simpa using h i (by simpa using hi)

theorem VecRel.append {R : α → β → Prop} {k : ℕ} {x : Vector α n} {y : Vector β n} {x' : Vector α k}
    {y' : Vector β k} (h : VecRel R x y) (h' : VecRel R x' y') : VecRel R (x ++ x') (y ++ y') := by
  intro i hi
  rw [Vector.getElem_append, Vector.getElem_append]
  split
  · exact h _ _
  · exact h' _ _

structure Sequencing (m m' : Type → Type) [Monad m] [Monad m'] where
  Run : ∀ {α β : Type}, (α → β → Prop) → m α → m' β → Prop
  pure : ∀ {α β : Type} {R : α → β → Prop} {a : α} {b : β}, R a b → Run R (pure a) (pure b)
  bind : ∀ {α β γ δ : Type} {R : α → β → Prop} {T : γ → δ → Prop} {x : m α} {y : m' β} {f : α → m γ}
    {g : β → m' δ}, Run R x y → (∀ a b, R a b → Run T (f a) (g b)) → Run T (x >>= f) (y >>= g)

/-- **Two readings of the gadgets that agree**, up to relations of bits and of runs. -/
structure Simulation (m m' : Type → Type) {Bit Bit' : Type} [Monad m] [Monad m']
    [BoolGadgets m Bit] [BoolGadgets m' Bit'] extends Sequencing m m' where
  Rel : Bit → Bit' → Prop
  constant : ∀ b, Rel (BoolGadgets.constant (m := m) b) (BoolGadgets.constant (m := m') b)
  not : ∀ {b b'}, Rel b b' → Rel (BoolGadgets.not (m := m) b) (BoolGadgets.not (m := m') b')
  and : ∀ {b b' c c'}, Rel b b' → Rel c c' → Run Rel (BoolGadgets.and b c) (BoolGadgets.and b' c')
  xor : ∀ {b b' c c'}, Rel b b' → Rel c c' → Run Rel (BoolGadgets.xor b c) (BoolGadgets.xor b' c')
  addmany : ∀ {ws ws'}, List.Forall₂ (VecRel Rel) ws ws' →
    Run (VecRel Rel) (BoolGadgets.addmany ws) (BoolGadgets.addmany ws')

/-! Sequencing: one rule for each way in which the programs repeat a step. -/

namespace Sequencing

variable {m m' : Type → Type} [Monad m] [Monad m'] [LawfulMonad m] [LawfulMonad m']
  (S : Sequencing m m') {α β γ δ : Type} {R : α → β → Prop} {T : γ → δ → Prop}

theorem ofFnM {n : ℕ} {f : Fin n → m α} {g : Fin n → m' β}
    (h : ∀ i, S.Run R (f i) (g i)) : S.Run (VecRel R) (Vector.ofFnM f) (Vector.ofFnM g) := by
  induction n with
  | zero =>
    rw [Vector.ofFnM_zero, Vector.ofFnM_zero]
    exact S.pure fun i hi => absurd hi (Nat.not_lt_zero i)
  | succ n ih =>
    rw [Vector.ofFnM_succ, Vector.ofFnM_succ]
    refine S.bind (ih fun i => h i.castSucc) fun x y hxy =>
      S.bind (h (Fin.last n)) fun a b hab => ?_
    refine S.pure fun i hi => ?_
    rw [Vector.getElem_push, Vector.getElem_push]
    split
    · exact hxy i _
    · exact hab

theorem mapM {f : α → m γ} {g : β → m' δ}
    (h : ∀ a b, R a b → S.Run T (f a) (g b)) {l : List α} {l' : List β} (hl : Forall₂ R l l') :
    S.Run (Forall₂ T) (l.mapM f) (l'.mapM g) := by
  induction hl with
  | nil =>
    rw [mapM_nil, mapM_nil]
    exact S.pure .nil
  | cons hab _ ih =>
    rw [mapM_cons, mapM_cons]
    exact S.bind (h _ _ hab) fun _ _ hcd => S.bind ih fun _ _ htail => S.pure (.cons hcd htail)

omit [LawfulMonad m] [LawfulMonad m'] in
theorem foldlM {f : γ → α → m γ} {g : δ → β → m' δ}
    (h : ∀ c d a b, T c d → R a b → S.Run T (f c a) (g d b)) {l : List α} {l' : List β}
    (hl : Forall₂ R l l') {c : γ} {d : δ} (hcd : T c d) :
    S.Run T (l.foldlM f c) (l'.foldlM g d) := by
  induction hl generalizing c d with
  | nil =>
    rw [foldlM_nil, foldlM_nil]
    exact S.pure hcd
  | cons hab _ ih =>
    rw [foldlM_cons, foldlM_cons]
    exact S.bind (h _ _ _ _ hcd hab) fun _ _ hnext => ih hnext

end Sequencing

namespace Simulation

variable {m m' : Type → Type} {Bit Bit' : Type} [Monad m] [Monad m'] [BoolGadgets m Bit]
  [BoolGadgets m' Bit'] (S : Simulation m m')

abbrev BytesRel : List (UInt8Var Bit) → List (UInt8Var Bit') → Prop := List.Forall₂ (VecRel S.Rel)

section

variable {n : ℕ} {x y : Vector Bit n} {x' y' : Vector Bit' n}

theorem constBits (w : BitVec n) :
    VecRel S.Rel (Ark.constBits m w) (Ark.constBits m' w) := by
  intro i hi
  rw [Ark.constBits, Ark.constBits, Vector.getElem_ofFn, Vector.getElem_ofFn]
  exact S.constant _

theorem notBits (hx : VecRel S.Rel x x') : VecRel S.Rel (Ark.notBits m x) (Ark.notBits m' x') := by
  intro i hi
  rw [Ark.notBits, Ark.notBits, Vector.getElem_ofFn, Vector.getElem_ofFn]
  exact S.not (hx i hi)

theorem shr (hx : VecRel S.Rel x x') (k : ℕ) : VecRel S.Rel (Ark.shr m x k) (Ark.shr m' x' k) := by
  intro i hi
  rw [Ark.shr, Ark.shr, Vector.getElem_ofFn, Vector.getElem_ofFn]
  split
  · exact hx _ _
  · exact S.constant false

theorem rotr (hx : VecRel S.Rel x x') (k : ℕ) : VecRel S.Rel (Ark.rotr x k) (Ark.rotr x' k) := by
  intro i hi
  rw [Ark.rotr, Ark.rotr, Vector.getElem_ofFn, Vector.getElem_ofFn]
  exact hx _ _

variable [LawfulMonad m] [LawfulMonad m']

theorem xorBits (hx : VecRel S.Rel x x') (hy : VecRel S.Rel y y') :
    S.Run (VecRel S.Rel) (Ark.xorBits x y) (Ark.xorBits x' y') :=
  S.ofFnM fun i => S.xor (hx i i.isLt) (hy i i.isLt)

theorem andBits (hx : VecRel S.Rel x x') (hy : VecRel S.Rel y y') :
    S.Run (VecRel S.Rel) (Ark.andBits x y) (Ark.andBits x' y') :=
  S.ofFnM fun i => S.and (hx i i.isLt) (hy i i.isLt)

end

end Simulation

end Ark
