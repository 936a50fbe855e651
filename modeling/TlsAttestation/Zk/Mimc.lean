import Mathlib.Algebra.Field.ZMod
import TlsAttestation.Core.Hash
import TlsAttestation.Lib.ArkField
import TlsAttestation.Lib.Assignments
import TlsAttestation.Lib.IteratedHash

/-!
# The MiMC-7 sponge

A block cipher of 91 rounds, and a sponge that **adds** the next input to its whole state before it
encrypts, as functions and as gadgets (`Zk.mimc7SpongeGadget_eq`). A collision of the sponge says
nothing about the one-block function (`Zk.collisionReduces_iff`).
-/

namespace TlsAttestation.Zk

open Ark ByteEncoding IteratedHash Bn254

def mimcRounds : ℕ := 91

def mimcConstants (r : ℕ) : Vector (ZMod r) mimcRounds :=
  .ofFn fun i => fromLeBytesModOrder r
    (Sha2.sha256 (strBytes "tls-attestation/mimc7/bn254/rc/v1" ++ leBytes 4 i)).toList

/-! ### The functions -/

section

variable {F : Type} [CommRing F]

def mimc7Round (key state c : F) : F :=
  let t := state + key + c
  let t2 := t * t
  let t4 := t2 * t2
  let t6 := t4 * t2
  t6 * t

def mimc7Enc (msg key : F) (constants : Vector F mimcRounds) : F :=
  constants.toList.foldl (mimc7Round key) msg + key

variable (inputs : List F)

/-- The cipher under the key zero, folded over the inputs with feed-forward. -/
def mimc7Sponge (constants : Vector F mimcRounds) : F :=
  inputs.foldl (fun state x => mimc7Enc (state + x) 0 constants + state + x) 0

def oneBlock (constants : Vector F mimcRounds) (z : F) : F := mimc7Enc z 0 constants + z

def absorbedValues (constants : Vector F mimcRounds) : List F :=
  absorbed (oneBlock constants) 0 inputs

/-- The sponge is an iterated hash. -/
theorem mimc7Sponge_eq (constants : Vector F mimcRounds) :
    mimc7Sponge inputs constants = absorb (oneBlock constants) 0 inputs := by
  have hstep : (fun state x => mimc7Enc (state + x) 0 constants + state + x) =
      fun state x => oneBlock constants (state + x) := by
    funext state x
    rw [oneBlock, add_assoc]
  rw [mimc7Sponge, hstep, absorb]

end

/-! ### The gadgets -/

section

variable {m : Type → Type} {F Bit Fp : Type} [Monad m] [Zero F] [FieldGadgets m F Bit Fp]

/-- One round. The seventh power is taken as `t⁴ · t³`. -/
def mimc7RoundGadget (key state : Fp) (c : F) : m Fp := do
  let t := Gadgets.fpAdd (m := m) (Gadgets.fpAdd (m := m) state key) (Gadgets.fpConstant (m := m) c)
  let t2 ← FieldGadgets.fpMul t t
  let t4 ← FieldGadgets.fpMul t2 t2
  let t3 ← FieldGadgets.fpMul t2 t
  FieldGadgets.fpMul t4 t3

def mimc7EncGadget (msg key : Fp) (constants : Vector F mimcRounds) : m Fp := do
  let state ← constants.toList.foldlM (mimc7RoundGadget key) msg
  return Gadgets.fpAdd (m := m) state key

/-- The same fold, of variables. -/
def mimc7SpongeGadget (inputs : List Fp) (constants : Vector F mimcRounds) : m Fp :=
  inputs.foldlM (fun state x => do
    let sum := Gadgets.fpAdd (m := m) state x
    let enc ← mimc7EncGadget sum (Gadgets.fpConstant (m := m) 0) constants
    return Gadgets.fpAdd (m := m) (Gadgets.fpAdd (m := m) enc state) x)
    (Gadgets.fpConstant (m := m) 0)

end

section

variable {F : Type} [CommRing F]

theorem mimc7RoundGadget_eq (key state c : F) :
    (mimc7RoundGadget key state c : Sat F F) = pure (mimc7Round key state c) := by
  simp only [mimc7RoundGadget, fpAdd_eq, fpConstant_eq, fpMul_eq, pure_bind, mimc7Round]
  congr 1
  ring

theorem mimc7EncGadget_eq (msg key : F) (constants : Vector F mimcRounds) :
    (mimc7EncGadget msg key constants : Sat F F) = pure (mimc7Enc msg key constants) := by
  have hround : (mimc7RoundGadget key : F → F → Sat F F) =
      fun state c => pure (mimc7Round key state c) := by
    funext state c
    exact mimc7RoundGadget_eq key state c
  rw [mimc7EncGadget, hround, List.foldlM_pure, pure_bind, fpAdd_eq, mimc7Enc]

/-- The gadget computes the sponge. -/
theorem mimc7SpongeGadget_eq (inputs : List F) (constants : Vector F mimcRounds) :
    (mimc7SpongeGadget inputs constants : Sat F F) = pure (mimc7Sponge inputs constants) := by
  simp only [mimc7SpongeGadget, mimc7EncGadget_eq, pure_bind, fpAdd_eq, fpConstant_eq]
  rw [List.foldlM_pure, mimc7Sponge]

end

/-! ### Bytes as field elements -/

def bytes31ToFe (r : ℕ) (b : Bytes32) : ZMod r := fromLeBytesModOrder r (b.toList.take 31)

def bytes16ToFe (r : ℕ) (b : Vector UInt8 16) : ZMod r := fromLeBytesModOrder r b.toList

/-! ### Collisions -/

variable {F : Type}

/-- Every collision of the sponge gives one of the one-block function. -/
def CollisionReduces [CommRing F] (constants : Vector F mimcRounds) : Prop :=
  ∀ xs ys : List F, xs.length = ys.length → xs ≠ ys →
    mimc7Sponge xs constants = mimc7Sponge ys constants →
      ∃ z ∈ absorbedValues xs constants, ∃ z' ∈ absorbedValues ys constants,
        z ≠ z' ∧ mimc7Enc z 0 constants + z = mimc7Enc z' 0 constants + z'

/-- **Collisions of the sponge reduce** exactly if the one-block function is constant. -/
theorem collisionReduces_iff (F : Type) [Field F] (constants : Vector F mimcRounds) :
    CollisionReduces constants ↔
      ∀ z z', mimc7Enc z 0 constants + z = mimc7Enc z' 0 constants + z' := by
  have hreduces := reduces_iff (f := oneBlock constants) (s := (0 : F))
  simp only [Reduces, ← mimc7Sponge_eq] at hreduces
  exact hreduces

def constantAt (r i : ℕ) : ZMod r := fromLeBytesModOrder r
  (Sha2.sha256 (strBytes "tls-attestation/mimc7/bn254/rc/v1" ++ leBytes 4 i)).toList

def cipherStateAfter (r i n : ℕ) (z : ZMod r) : ZMod r :=
  ((List.range' i n).map (constantAt r)).foldl (mimc7Round 0) z

theorem cipherStateAfter_add (r i m n : ℕ) (z : ZMod r) :
    cipherStateAfter r i (m + n) z = cipherStateAfter r (i + m) n (cipherStateAfter r i m z) := by
  rw [cipherStateAfter, ← List.range'_append_1, List.map_append, List.foldl_append]
  rfl

theorem oneBlock_mimcConstants (r : ℕ) (z : ZMod r) :
    oneBlock (mimcConstants r) z = cipherStateAfter r 0 mimcRounds z + z := by
  have hconstants : (mimcConstants r).toList = (List.range' 0 mimcRounds).map (constantAt r) := by
    apply List.ext_getElem
    · simp
    · intro i hi hi'
      simp [mimcConstants, constantAt]
  rw [oneBlock, mimc7Enc, hconstants, add_zero, cipherStateAfter]

theorem cipherStateAfter_third : cipherStateAfter r 0 31 0 =
        13604863538309050049866242943057739458962592330096961399546503715763064401993 ∧
      cipherStateAfter r 0 31 1 =
        15181262477430560450766164151515052746490594003466916139638134754742468813839 := by
  decide +kernel

theorem cipherStateAfter_two_thirds : cipherStateAfter r 0 (31 + 31) 0 =
        6086662828486845801413079790482055387792577301081171632515079068645133780108 ∧
      cipherStateAfter r 0 (31 + 31) 1 =
        16825879769042769468979306583871352272685345785231126541171525646195229509119 := by
  rw [cipherStateAfter_add, cipherStateAfter_add, cipherStateAfter_third.1,
    cipherStateAfter_third.2]
  decide +kernel

/-- The one-block function over BN254 is not constant. The 91 hashes are run in three parts. -/
theorem oneBlock_zero_ne_one : oneBlock (mimcConstants r) 0 ≠ oneBlock (mimcConstants r) 1 := by
  have hrounds : mimcRounds = (31 + 31) + 29 := rfl
  rw [oneBlock_mimcConstants, oneBlock_mimcConstants, hrounds, cipherStateAfter_add _ _ _ _ 0,
    cipherStateAfter_two_thirds.1, cipherStateAfter_add _ _ _ _ 1, cipherStateAfter_two_thirds.2]
  decide +kernel

def inputsFor [CommRing F] (constants : Vector F mimcRounds) (z : F) : List F :=
  [z, -oneBlock constants z]

theorem pairTo_eq_inputsFor [CommRing F] (constants : Vector F mimcRounds) (z : F) :
    pairTo (oneBlock constants) 0 z 0 = inputsFor constants z := by
  rw [pairTo, inputsFor, neg_zero, zero_add, add_zero]

/-- Such inputs have one hash, and no collision of the function, if it takes the values apart. -/
theorem inputsFor_collide [CommRing F] {constants : Vector F mimcRounds} {z : F}
    (h : oneBlock constants 0 ≠ oneBlock constants z) :
    (inputsFor constants 0).length = (inputsFor constants z).length ∧
      inputsFor constants 0 ≠ inputsFor constants z ∧
      mimc7Sponge (inputsFor constants 0) constants =
        mimc7Sponge (inputsFor constants z) constants ∧
      ¬ ∃ w ∈ absorbedValues (inputsFor constants 0) constants,
        ∃ w' ∈ absorbedValues (inputsFor constants z) constants, w ≠ w' ∧
          mimc7Enc w 0 constants + w = mimc7Enc w' 0 constants + w' := by
  rw [← pairTo_eq_inputsFor, ← pairTo_eq_inputsFor, mimc7Sponge_eq, mimc7Sponge_eq, absorb_pairTo,
    absorb_pairTo]
  exact ⟨rfl, pairTo_ne_pairTo h, rfl, not_exists_collision_pairTo h⟩

/-- A collision of the sponge over BN254 alone. -/
theorem sponge_collides_alone :
    (inputsFor (mimcConstants r) 0).length = (inputsFor (mimcConstants r) 1).length ∧
      inputsFor (mimcConstants r) 0 ≠ inputsFor (mimcConstants r) 1 ∧
      mimc7Sponge (inputsFor (mimcConstants r) 0) (mimcConstants r) =
        mimc7Sponge (inputsFor (mimcConstants r) 1) (mimcConstants r) ∧
      ¬ ∃ w ∈ absorbedValues (inputsFor (mimcConstants r) 0) (mimcConstants r),
        ∃ w' ∈ absorbedValues (inputsFor (mimcConstants r) 1) (mimcConstants r),
          w ≠ w' ∧ mimc7Enc w 0 (mimcConstants r) + w = mimc7Enc w' 0 (mimcConstants r) + w' :=
  inputsFor_collide oneBlock_zero_ne_one

end TlsAttestation.Zk
