import TlsAttestation.Core.Hash
import TlsAttestation.Lib.ArkField
import TlsAttestation.Lib.ConstraintSystem

/-!
# The key circuit of the prover

The commitment is made from the **exclusive or** of the two shares of `K_MAC`, but the circuit
**adds** them. As integers `p + v = (p ⊕ v) + 2 (p ∧ v)`, so the two agree exactly if the order of
the field divides `p ∧ v` (`CoSnarkProver.packed_add_eq_iff`).
-/

namespace TlsAttestation.CoSnarkProver

open Ark ByteEncoding

variable {r : ℕ}

/-! ### Packing -/

def xorShares (a b : Bytes32) : Bytes32 := zipBytes (· ^^^ ·) a b

def bytes32ToField (r : ℕ) (bytes : Bytes32) : ZMod r := fromLeBytesModOrder r bytes.toList

def commonBits (p v : Bytes32) : ℕ := ofLeBytes (zipBytes (· &&& ·) p v).toList

/-- **The sum of the packed shares is the packed key** exactly if the order divides the common bits.
-/
theorem packed_add_eq_iff (hr : Nat.Coprime r 2) (p v : Bytes32) :
    bytes32ToField r p + bytes32ToField r v = bytes32ToField r (xorShares p v) ↔
      r ∣ commonBits p v := by
  have hsum : bytes32ToField r p + bytes32ToField r v =
      bytes32ToField r (xorShares p v) + ((2 * commonBits p v : ℕ) : ZMod r) := by
    simp only [bytes32ToField, fromLeBytesModOrder, commonBits, xorShares, ← Nat.cast_add]
    exact congrArg _ (ofLeBytes_add p v)
  rw [hsum, add_eq_left, ZMod.natCast_eq_zero_iff, hr.dvd_mul_left]

/-! ### The circuit -/

/-- The circuit with its values. In the distributed mode the field elements take the place of the
bytes. -/
structure TlsKeyCircuit (r : ℕ) where
  (pShare vShare : Bytes32)
  (pShareFe vShareFe : Option (ZMod r))
  (commitment randBinding : ZMod r)

namespace TlsKeyCircuit

def new (r : ℕ) (pShare vShare randBinding : Bytes32) : TlsKeyCircuit r :=
  let randFe := bytes32ToField r randBinding
  { pShare := pShare
    vShare := vShare
    pShareFe := none
    vShareFe := none
    commitment := bytes32ToField r (xorShares pShare vShare) + randFe
    randBinding := randFe }

def newMpc (pFe vFe commitment randBinding : ZMod r) : TlsKeyCircuit r where
  pShare := .replicate 32 0
  vShare := .replicate 32 0
  pShareFe := some pFe
  vShareFe := some vFe
  commitment := commitment
  randBinding := randBinding

def dummy (r : ℕ) : TlsKeyCircuit r := new r (.replicate 32 0) (.replicate 32 0) (.replicate 32 0)

variable (c : TlsKeyCircuit r)

def pPacked : ZMod r := c.pShareFe.getD (bytes32ToField r c.pShare)

def vPacked : ZMod r := c.vShareFe.getD (bytes32ToField r c.vShare)

/-- One row: the commitment is `p + v + rand` in the field, where the key is an exclusive or. -/
def generateConstraints {m : Type → Type} {Bit Fp : Type} [Monad m] [Gadgets m (ZMod r) Bit Fp]
    (c : TlsKeyCircuit r) : m Unit := do
  let commitmentVar ← Gadgets.fpNewInput c.commitment
  let randVar ← Gadgets.fpNewInput c.randBinding
  let pVar ← Gadgets.fpNewWitness c.pPacked
  let vVar ← Gadgets.fpNewWitness c.vPacked
  let kMacVar := Gadgets.fpAdd (m := m) pVar vVar
  let computed := Gadgets.fpAdd (m := m) kMacVar randVar
  Gadgets.fpEnforceEqual commitmentVar computed

/-! ### The system of the circuit -/

def row (r : ℕ) : Constraint (ZMod r) where
  a := [(1, .input 1)] ++
    ([(1, .witness 0)] ++ [(1, .witness 1)] ++ [(1, .input 2)] : LinComb (ZMod r)).neg
  b := [(1, .one)]
  c := []

def system : ConstraintSystem (ZMod r) where
  mode := .prove
  numInstance := 3
  numWitness := 2
  instanceAssignment := [c.commitment, c.randBinding]
  witnessAssignment := [c.pPacked, c.vPacked]
  constraints := [row r]

theorem synthesize_prove :
    synthesize .prove c.generateConstraints = .ok c.system := rfl

theorem synthesize_setup :
    synthesize .setup c.generateConstraints = .ok ⟨.setup, 3, 2, [], [], [row r]⟩ := rfl

/-- **A run is satisfied** exactly if the commitment is the computed sum. -/
theorem satisfied_system_iff {c : TlsKeyCircuit r} :
    c.system.Satisfied ↔ c.commitment = c.pPacked + c.vPacked + c.randBinding := by
  have hrow : c.system.Satisfied ↔ (row r).Holds c.system.assignedValue := by
    simp [ConstraintSystem.Satisfied, system]
  have hsum : (row r).Holds c.system.assignedValue ↔
      c.commitment - (c.pPacked + c.vPacked + c.randBinding) = 0 := by
    simp [Constraint.Holds, row, system, ConstraintSystem.assignedValue, sub_eq_add_neg, add_assoc]
  rw [hrow, hsum, sub_eq_zero]

def withCommitment (commitment : ZMod r) : TlsKeyCircuit r :=
  { c with commitment := commitment }

/-- What the circuit accepts for given shares. -/
theorem satisfied_withCommitment_iff (p v rand : Bytes32) (commitment : ZMod r) :
    ((new r p v rand).withCommitment commitment).system.Satisfied ↔
      commitment = bytes32ToField r p + bytes32ToField r v + bytes32ToField r rand :=
  satisfied_system_iff

theorem satisfied_new_iff (hr : Nat.Coprime r 2) (p v rand : Bytes32) :
    (new r p v rand).system.Satisfied ↔ r ∣ commonBits p v := by
  rw [← packed_add_eq_iff hr, eq_comm, ← add_left_inj (bytes32ToField r rand)]
  exact satisfied_system_iff

end TlsKeyCircuit

end TlsAttestation.CoSnarkProver
