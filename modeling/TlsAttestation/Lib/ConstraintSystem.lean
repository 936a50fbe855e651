import Mathlib.Algebra.BigOperators.Group.List.Basic
import Mathlib.Data.Nat.Size
import TlsAttestation.Lib.Gadgets

/-!
# Rank-one constraint systems

What a run of a circuit leaves behind: the rows `⟨a, z⟩ · ⟨b, z⟩ = ⟨c, z⟩` over the variables it
allocated, and, unless it only sets up, the values that the prover assigned to them.

| gadget | rows |
|---|---|
| a fresh bit `v` | `(1 - v) * v = 0` |
| `and` | `a * b = c`, with `1 - a` for a negated operand; none with a constant operand |
| `xor` | `2a * b = a + b - c`; none with a constant operand |
| `addmany` | a fresh bit for every bit of the largest sum, and one row; none for constants |
| an equality | `(x - y) * 1 = 0` |
| a product of field elements | `x * y = z`; none with a constant factor |

The matrices of a run (`Ark.ConstraintSystem.toMatrices`) are its rows up to the order of terms.
-/

namespace Ark

open ByteEncoding
open List hiding Vector

/-! ### Rows -/

inductive Variable where
  | one
  | input (i : ℕ)
  | witness (i : ℕ)
deriving DecidableEq, Repr

abbrev LinComb (F : Type) := List (F × Variable)

namespace LinComb

variable {F : Type} [CommRing F]

def scale (k : F) (lc : LinComb F) : LinComb F :=
  lc.map fun t => (k * t.1, t.2)

variable (lc : LinComb F)

def neg : LinComb F := scale (-1) lc

def isConstant : Bool := lc.all (·.2 = .one)

def coeff (v : Variable) : F :=
  (lc.map fun t => if t.2 = v then t.1 else 0).sum

def eval (z : Variable → F) (lc : LinComb F) : F := (lc.map fun t => t.1 * z t.2).sum

variable {z : Variable → F}

@[simp] theorem eval_nil : eval z [] = 0 := rfl

@[simp] theorem eval_cons (t : F × Variable) (lc : LinComb F) :
    eval z (t :: lc) = t.1 * z t.2 + eval z lc := by
  rw [eval, map_cons, sum_cons, eval]

@[simp] theorem eval_append (x y : LinComb F) :
    eval z (x ++ y) = eval z x + eval z y := by
  rw [eval, map_append, sum_append, eval, eval]

@[simp] theorem eval_scale (k : F) (lc : LinComb F) :
    eval z (scale k lc) = k * eval z lc := by
  induction lc with
  | nil => simp [scale]
  | cons t lc ih =>
    rw [scale, map_cons, eval_cons, ← scale, ih, eval_cons]
    ring

@[simp] theorem eval_neg : eval z lc.neg = -eval z lc := by
  rw [neg, eval_scale, neg_one_mul]

variable {v : Variable}

@[simp] theorem coeff_nil : coeff ([] : LinComb F) v = 0 := rfl

@[simp] theorem coeff_cons (t : F × Variable) (lc : LinComb F) :
    coeff (t :: lc) v = (if t.2 = v then t.1 else 0) + coeff lc v := by
  rw [coeff, map_cons, sum_cons, coeff]

@[simp] theorem coeff_append (x y : LinComb F) :
    coeff (x ++ y) v = coeff x v + coeff y v := by
  rw [coeff, map_append, sum_append, coeff, coeff]

@[simp] theorem coeff_scale (k : F) (lc : LinComb F) :
    coeff (scale k lc) v = k * coeff lc v := by
  induction lc with
  | nil => simp [scale]
  | cons t lc ih =>
    rw [scale, map_cons, coeff_cons, ← scale, ih, coeff_cons]
    split <;> ring

@[simp] theorem coeff_neg : coeff lc.neg v = -coeff lc v := by
  rw [neg, coeff_scale, neg_one_mul]

end LinComb

structure Constraint (F : Type) where
  (a b c : LinComb F)

variable {F : Type}

def Constraint.Holds [CommRing F] (z : Variable → F) (row : Constraint F) : Prop :=
  row.a.eval z * row.b.eval z = row.c.eval z

instance {F : Type} [CommRing F] [DecidableEq F] (z : Variable → F) (row : Constraint F) :
    Decidable (row.Holds z) :=
  inferInstanceAs (Decidable (_ = _))

/-! ### Systems -/

inductive SynthesisMode where
  | setup
  | prove
deriving DecidableEq, Repr

structure ConstraintSystem (F : Type) where
  mode : SynthesisMode
  numInstance : ℕ
  numWitness : ℕ
  instanceAssignment : List F
  witnessAssignment : List F
  constraints : List (Constraint F)

abbrev Synth (F : Type) := StateT (ConstraintSystem F) (Except SynthesisError)

namespace ConstraintSystem

variable {F : Type}

/-- The constant one is the first column of the inputs. -/
def new (F : Type) (mode : SynthesisMode) : ConstraintSystem F := ⟨mode, 1, 0, [], [], []⟩

def pushRow (row : Constraint F) (cs : ConstraintSystem F) : ConstraintSystem F :=
  { cs with constraints := cs.constraints ++ [row] }

/-- A setup does not ask for the value. -/
def pushWitness (x : F) (cs : ConstraintSystem F) : ConstraintSystem F :=
  { cs with
    numWitness := cs.numWitness + 1
    witnessAssignment :=
      match cs.mode with
      | .setup => cs.witnessAssignment
      | .prove => cs.witnessAssignment ++ [x] }

def pushInput (x : F) (cs : ConstraintSystem F) : ConstraintSystem F :=
  { cs with
    numInstance := cs.numInstance + 1
    instanceAssignment :=
      match cs.mode with
      | .setup => cs.instanceAssignment
      | .prove => cs.instanceAssignment ++ [x] }

section

variable [CommRing F] (cs : ConstraintSystem F)

def assignedValue : Variable → F
  | .one => 1
  | .input i => cs.instanceAssignment.getD (i - 1) 0
  | .witness i => cs.witnessAssignment.getD i 0

/-- The prover's own assignment satisfies every row. -/
def Satisfied : Prop :=
  ∀ row ∈ cs.constraints, row.Holds cs.assignedValue

instance [DecidableEq F] (cs : ConstraintSystem F) : Decidable cs.Satisfied :=
  inferInstanceAs (Decidable (∀ row ∈ cs.constraints, _))

end

end ConstraintSystem

def Constraint.coeffs [CommRing F] (row : Constraint F) :
    (Variable → F) × (Variable → F) × (Variable → F) :=
  (row.a.coeff, row.b.coeff, row.c.coeff)

structure Matrices (F : Type) where
  numInstance : ℕ
  numWitness : ℕ
  rows : List ((Variable → F) × (Variable → F) × (Variable → F))

/-- What Groth16 takes from a system: the coefficients of its rows, without the values. -/
def ConstraintSystem.toMatrices [CommRing F] (cs : ConstraintSystem F) : Matrices F :=
  ⟨cs.numInstance, cs.numWitness, cs.constraints.map Constraint.coeffs⟩

def synthesize (mode : SynthesisMode) (circuit : Synth F Unit) :
    Except SynthesisError (ConstraintSystem F) :=
  (circuit (.new F mode)).map Prod.snd

/-! ### Bits -/

/-- The value is there unless this is a setup. -/
structure AllocatedBit where
  var : Variable
  value : Option Bool
deriving DecidableEq

/-- A bit: a constant, a variable, or a negated variable. -/
inductive Boolean where
  | constant (b : Bool)
  | is (a : AllocatedBit)
  | not (a : AllocatedBit)
deriving DecidableEq

namespace Boolean

def value : Boolean → Option Bool
  | .constant b => some b
  | .is a => a.value
  | .not a => a.value.map (!·)

def isConstant : Boolean → Bool
  | .constant _ => true
  | _ => false

def lc (F : Type) [CommRing F] : Boolean → LinComb F
  | .constant b => if b then [(1, .one)] else []
  | .is a => [(1, a.var)]
  | .not a => [(1, .one), (-1, a.var)]

def negate : Boolean → Boolean
  | .constant b => .constant !b
  | .is a => .not a
  | .not a => .is a

def signed : Bool → AllocatedBit → Boolean
  | false => .is
  | true => .not

end Boolean

namespace Synth

variable {F : Type}

/-- While proving, the value has to be known. -/
def newWitnessVariable : Option F → Synth F Variable
  | some x => fun cs => .ok (.witness cs.numWitness, cs.pushWitness x)
  | none => fun cs =>
    match cs.mode with
    | .setup => .ok (.witness cs.numWitness, { cs with numWitness := cs.numWitness + 1 })
    | .prove => .error .assignmentMissing

def newInputVariable (x : F) : Synth F Variable := fun cs =>
  .ok (.input cs.numInstance, cs.pushInput x)

def enforceConstraint (a b c : LinComb F) : Synth F Unit := fun cs =>
  .ok ((), cs.pushRow ⟨a, b, c⟩)

variable [CommRing F] (value : Option Bool)

/-- A fresh bit whose row is up to the caller. -/
def newWitnessWithoutBooleanityCheck : Synth F AllocatedBit := do
  let var ← newWitnessVariable (value.map fun b => if b then 1 else 0)
  let mode := (← get).mode
  return ⟨var, if mode = .setup then none else value⟩

def newWitness : Synth F AllocatedBit := do
  let a ← newWitnessWithoutBooleanityCheck value
  enforceConstraint [(1, .one), (-1, a.var)] [(1, a.var)] []
  return a

def product (x y : LinComb F) (value : Option Bool) : Synth F Boolean := do
  let c ← newWitnessWithoutBooleanityCheck value
  enforceConstraint x y [(1, c.var)]
  return .is c

def and : Boolean → Boolean → Synth F Boolean
  | .constant false, _ => pure (.constant false)
  | _, .constant false => pure (.constant false)
  | .constant true, x => pure x
  | x, .constant true => pure x
  -- the negated operand is the second factor
  | .not a, .is b =>
    product ((Boolean.is b).lc F) ((Boolean.not a).lc F) ((· && ·) <$> b.value <*> (!·) <$> a.value)
  | x, y => product (x.lc F) (y.lc F) ((· && ·) <$> x.value <*> y.value)

def xorVariables (a b : AllocatedBit) : Synth F AllocatedBit := do
  let c ← newWitnessWithoutBooleanityCheck ((· ^^ ·) <$> a.value <*> b.value)
  enforceConstraint [(1, a.var), (1, a.var)] [(1, b.var)] [(1, a.var), (1, b.var), (-1, c.var)]
  return c

def xor : Boolean → Boolean → Synth F Boolean
  | .constant false, x => pure x
  | x, .constant false => pure x
  | .constant true, x => pure x.negate
  | x, .constant true => pure x.negate
  | .is a, .is b => .is <$> xorVariables a b
  | .not a, .not b => .is <$> xorVariables a b
  | .is a, .not b => .not <$> xorVariables a b
  | .not a, .is b => .not <$> xorVariables b a

variable {P : Synth F Boolean → Prop}

/-- What a conjunction can do. -/
theorem and_cases (b c : Boolean)
    (hfalse : b = .constant false ∨ c = .constant false → P (pure (.constant false)))
    (hleft : b = .constant true → P (pure c)) (hright : c = .constant true → P (pure b))
    (hprod : ∀ x y : Boolean, x.isConstant = false → y.isConstant = false →
      (x = b ∧ y = c ∨ x = c ∧ y = b) →
      P (product (x.lc F) (y.lc F) ((· && ·) <$> x.value <*> y.value))) : P (and b c) := by
  rcases b with (_ | _) | a | a
  · exact hfalse (.inl rfl)
  · rcases c with (_ | _) | a' | a'
    · exact hfalse (.inr rfl)
    all_goals exact hleft rfl
  all_goals
    rcases c with (_ | _) | a' | a'
    · exact hfalse (.inr rfl)
    · exact hright rfl
  iterate 2 exact hprod _ _ rfl rfl (.inl ⟨rfl, rfl⟩)
  · exact hprod (.is a') (.not a) rfl rfl (.inr ⟨rfl, rfl⟩)
  · exact hprod _ _ rfl rfl (.inl ⟨rfl, rfl⟩)

/-- What an exclusive or can do. -/
theorem xor_cases (b c : Boolean)
    (hleft : ∀ k, b = .constant k → P (pure (if k then c.negate else c)))
    (hright : ∀ k, c = .constant k → P (pure (if k then b.negate else b)))
    (hvars : ∀ n n' a a', (b = .signed n a ∧ c = .signed n' a' ∨
      c = .signed n a ∧ b = .signed n' a') → P (.signed (n ^^ n') <$> xorVariables a a')) :
    P (xor b c) := by
  rcases b with (_ | _) | a | a
  · exact hleft _ rfl
  · rcases c with (_ | _) | a' | a' <;> exact hleft _ rfl
  all_goals rcases c with (_ | _) | a' | a'
  iterate 2 exact hright _ rfl
  · exact hvars false false _ _ (.inl ⟨rfl, rfl⟩)
  · exact hvars false true _ _ (.inl ⟨rfl, rfl⟩)
  iterate 2 exact hright _ rfl
  · exact hvars false true _ _ (.inr ⟨rfl, rfl⟩)
  · exact hvars true true _ _ (.inl ⟨rfl, rfl⟩)

/-! ### Sums of words -/

def weigh (coeff : F) : List Boolean → LinComb F
  | [] => []
  | b :: bs => (b.lc F).scale coeff ++ weigh (coeff + coeff) bs

def wordValue (bits : List Boolean) : Option ℕ := ofLeBits <$> bits.mapM Boolean.value

def numCarries (n : ℕ) : ℕ := (n * (2 ^ 32 - 1)).size - 32

/-- The sum of words: a bit for every bit of the largest sum, and one row. -/
def sumBits (operands : List (Vector Boolean 32)) (value : Option ℕ) :
    Synth F (Vector Boolean 32) := do
  let low ← Vector.ofFnM fun i : Fin 32 => newWitness (value.map (·.testBit i))
  let high ← (List.range (numCarries operands.length)).mapM fun i =>
    newWitness (value.map (·.testBit (32 + i)))
  let result := (low.toList ++ high).map Boolean.is
  enforceConstraint [] [] (operands.flatMap (weigh 1 ·.toList) ++ (weigh 1 result).neg)
  return low.map Boolean.is

def addmany : List (Vector Boolean 32) → Synth F (Vector Boolean 32)
  | [x] => pure x
  | operands =>
    let value := List.sum <$> operands.mapM (wordValue ·.toList)
    match operands.all (·.toList.all Boolean.isConstant), value with
    | true, some v => pure (.ofFn fun i => .constant ((BitVec.ofNat 32 v).getLsbD i))
    | _, _ => sumBits operands value

/-- A constant factor only scales. -/
def mul (x y : LinComb F) : Synth F (LinComb F) :=
  if x.isConstant then pure (y.scale (x.coeff .one))
  else if y.isConstant then pure (x.scale (y.coeff .one))
  else do
    let cs ← get
    let product ← newWitnessVariable (some (x.eval cs.assignedValue * y.eval cs.assignedValue))
    enforceConstraint x y [(1, product)]
    return [(1, product)]

end Synth

/-- Constraint systems as a reading of the gadgets. -/
instance {F : Type} [CommRing F] : Gadgets (Synth F) F Boolean (LinComb F) where
  constant := .constant
  not := Boolean.negate
  and := Synth.and
  xor := Synth.xor
  addmany := Synth.addmany
  value := Boolean.value
  newWitness b := .is <$> Synth.newWitness (some b)
  fpConstant c := [(c, .one)]
  fpNewInput x := do return [(1, ← Synth.newInputVariable x)]
  fpNewWitness x := do return [(1, ← Synth.newWitnessVariable (some x))]
  fpOfBit b := b.lc F
  fpAdd x y := x ++ y
  fpScale k x := x.scale k
  fpEnforceEqual x y := Synth.enforceConstraint (x ++ y.neg) [(1, .one)] []
  fail e := throw e

instance {F : Type} [CommRing F] : FieldGadgets (Synth F) F Boolean (LinComb F) where
  fpMul := Synth.mul

/-! ### The public inputs of a run -/

namespace Synth

variable {F α β : Type}

/-- While proving, the run ends well and assigns these inputs. -/
def Assigns (inputs : List F) (x : Synth F α) : Prop :=
  ∀ cs : ConstraintSystem F, cs.mode = .prove → ∃ a t, x cs = .ok (a, t) ∧ t.mode = .prove ∧
    t.instanceAssignment = cs.instanceAssignment ++ inputs

theorem assigns_pure (a : α) : Assigns [] (pure a : Synth F α) :=
  fun cs hcs => ⟨a, cs, rfl, hcs, (append_nil _).symm⟩

theorem Assigns.bind {inputs inputs' : List F} {x : Synth F α} {f : α → Synth F β}
    (hx : Assigns inputs x) (hf : ∀ a, Assigns inputs' (f a)) :
    Assigns (inputs ++ inputs') (x >>= f) := by
  intro cs hcs
  obtain ⟨a, t, hrun, ht, hins⟩ := hx cs hcs
  obtain ⟨b, t', hrun', ht', hinputs'⟩ := hf a t ht
  refine ⟨b, t', ?_, ht', ?_⟩
  · rw [← hrun']
    change (x cs >>= fun p => f p.1 p.2) = _
    rw [hrun]
    rfl
  · rw [hinputs', hins, append_assoc]

theorem assigns_foldlM {f : β → α → Synth F β} (hf : ∀ s a, Assigns [] (f s a)) (l : List α)
    (s : β) : Assigns [] (l.foldlM f s) := by
  induction l generalizing s with
  | nil => exact assigns_pure s
  | cons a l ih =>
    rw [foldlM_cons]
    exact (hf s a).bind ih

theorem assigns_newInputVariable (x : F) : Assigns [x] (newInputVariable x) := by
  intro cs hcs
  refine ⟨_, _, rfl, hcs, ?_⟩
  simp only [ConstraintSystem.pushInput, hcs]

theorem assigns_newWitnessVariable (x : F) : Assigns [] (newWitnessVariable (some x)) :=
  fun _ hcs => ⟨_, _, rfl, hcs, (append_nil _).symm⟩

theorem assigns_enforceConstraint (a b c : LinComb F) :
    Assigns [] (enforceConstraint a b c) :=
  fun _ hcs => ⟨_, _, rfl, hcs, (append_nil _).symm⟩

theorem assigns_mul [CommRing F] (x y : LinComb F) : Assigns [] (mul x y) := by
  have hget : Assigns [] (get : Synth F (ConstraintSystem F)) :=
    fun cs hcs => ⟨cs, cs, rfl, hcs, (append_nil _).symm⟩
  unfold mul
  split_ifs
  · exact assigns_pure _
  · exact assigns_pure _
  · exact hget.bind fun _ => (assigns_newWitnessVariable _).bind fun _ =>
      (assigns_enforceConstraint _ _ _).bind fun _ => assigns_pure _

theorem Assigns.exists_synthesize {inputs : List F} {x : Synth F α} (hx : Assigns inputs x) :
    ∃ cs, synthesize .prove (discard x) = .ok cs ∧ cs.instanceAssignment = inputs := by
  obtain ⟨a, t, hrun, -, hins⟩ := hx (.new F .prove) rfl
  refine ⟨t, ?_, hins⟩
  change Except.map Prod.snd (x (.new F .prove) >>= fun p => pure ((), p.2)) = _
  rw [hrun]
  rfl

end Synth

end Ark
