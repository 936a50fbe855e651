import Mathlib.Data.Finsupp.Order
import TlsAttestation.Lib.ArkField
import TlsAttestation.Lib.ConstraintSystem

/-!
# Proofs about circuits

A Groth16 scheme as a black box, with what is assumed of it by name: `Ark.Groth16.Complete`,
`Ark.Groth16.KnowledgeSound`, and `Ark.Groth16.Exact`, where a proof verifies exactly if matrices
and assignment are right. All can be had (`Ark.Groth16.ideal`, `Ark.Groth16.verdict`).
-/

namespace Ark

open ByteEncoding

structure Groth16 (F : Type) where
  ProvingKey : Type
  VerifyingKey : Type
  Proof : Type
  Randomness : Type
  vk : ProvingKey → VerifyingKey
  generateParameters : Synth F Unit → Randomness → Except SynthesisError ProvingKey
  createProof : Synth F Unit → ProvingKey → Randomness → Except SynthesisError Proof
  verify : VerifyingKey → List F → Proof → Except SynthesisError Bool
  serializeProof : Proof → Bytes
  deserializeProof : Bytes → Except SerializationError Proof
  serializeVk : VerifyingKey → Bytes
  deserializeKey : Bytes → Except SerializationError ProvingKey

/-- A scheme with which two parties prove together. -/
structure MpcGroth16 (F : Type) extends Groth16 F where
  serializeKey : ProvingKey → Bytes
  createMpcProof : Synth F Unit → Synth F Unit → ProvingKey → Randomness →
    Except SynthesisError Proof

/-! ### What rows depend on -/

namespace LinComb

variable {F : Type} [CommRing F]

noncomputable def toFinsupp (lc : LinComb F) : Variable →₀ F :=
  (lc.map fun t => Finsupp.single t.2 t.1).sum

theorem toFinsupp_cons (t : F × Variable) (lc : LinComb F) :
    toFinsupp (t :: lc) = Finsupp.single t.2 t.1 + toFinsupp lc := by
  rw [toFinsupp, List.map_cons, List.sum_cons, toFinsupp]

theorem toFinsupp_apply (lc : LinComb F) (v : Variable) :
    lc.toFinsupp v = lc.coeff v := by
  induction lc with
  | nil => rfl
  | cons t lc ih => rw [toFinsupp_cons, Finsupp.add_apply, ih, coeff_cons, Finsupp.single_apply]

theorem sum_toFinsupp (z : Variable → F) (lc : LinComb F) :
    (lc.toFinsupp.sum fun v k => k * z v) = lc.eval z := by
  induction lc with
  | nil => exact Finsupp.sum_zero_index
  | cons t lc ih =>
    rw [toFinsupp_cons, Finsupp.sum_add_index' (fun _ => zero_mul _) (fun _ _ _ => add_mul _ _ _),
      Finsupp.sum_single_index (zero_mul _), ih, eval_cons]

/-- The coefficients determine the value. -/
theorem eval_congr (z : Variable → F) {x y : LinComb F} (h : x.coeff = y.coeff) :
    x.eval z = y.eval z := by
  have hxy : x.toFinsupp = y.toFinsupp := by
    refine Finsupp.ext fun v => ?_
    rw [toFinsupp_apply, toFinsupp_apply, h]
  rw [← sum_toFinsupp, hxy, sum_toFinsupp]

end LinComb

theorem Constraint.holds_congr {F : Type} [CommRing F] (z : Variable → F) {row row' : Constraint F}
    (h : row.coeffs = row'.coeffs) : row.Holds z ↔ row'.Holds z := by
  obtain ⟨ha, hb, hc⟩ : _ ∧ _ ∧ _ := by simpa only [Constraint.coeffs, Prod.mk.injEq] using h
  rw [Constraint.Holds, Constraint.Holds, LinComb.eval_congr z ha, LinComb.eval_congr z hb,
    LinComb.eval_congr z hc]

namespace Groth16

variable {F : Type}

/-! ### Laws -/

def KnowledgeSound (G : Groth16 F) (vk : G.VerifyingKey) (HasWitness : List F → Prop) : Prop :=
  ∀ inputs π, G.verify vk inputs π = .ok true → HasWitness inputs

variable [CommRing F]

/-- What an honest prover makes of a satisfied system with the setup's matrices is accepted. -/
structure Complete (G : Groth16 F) : Prop where
  verify_createProof : ∀ {setupCircuit circuit : Synth F Unit} {cs₀ cs : ConstraintSystem F}
    {pk : G.ProvingKey} {π : G.Proof} {ρ ρ' : G.Randomness},
    synthesize .setup setupCircuit = .ok cs₀ → G.generateParameters setupCircuit ρ = .ok pk →
    synthesize .prove circuit = .ok cs → G.createProof circuit pk ρ' = .ok π →
    cs.toMatrices = cs₀.toMatrices → cs.Satisfied →
    G.verify (G.vk pk) cs.instanceAssignment π = .ok true
  deserializeProof_serializeProof : ∀ π, G.deserializeProof (G.serializeProof π) = .ok π

/-- A scheme that proves whatever is synthesized; the proof is accepted if the system is
satisfied. -/
structure Exact (G : Groth16 F) : Prop where
  createProof_eq_ok : ∀ {circuit : Synth F Unit} {pk : G.ProvingKey} {ρ : G.Randomness},
    (∃ π, G.createProof circuit pk ρ = .ok π) ↔ ∃ cs, synthesize .prove circuit = .ok cs
  verify_createProof : ∀ {setupCircuit circuit : Synth F Unit} {cs₀ cs : ConstraintSystem F}
    {pk : G.ProvingKey} {π : G.Proof} {ρ ρ' : G.Randomness},
    synthesize .setup setupCircuit = .ok cs₀ → G.generateParameters setupCircuit ρ = .ok pk →
    synthesize .prove circuit = .ok cs → G.createProof circuit pk ρ' = .ok π →
    (G.verify (G.vk pk) cs.instanceAssignment π = .ok true ↔
      cs.toMatrices = cs₀.toMatrices ∧ cs.Satisfied)
  deserializeProof_serializeProof : ∀ π, G.deserializeProof (G.serializeProof π) = .ok π

/-! ### The ideal scheme -/

def statements (cs : ConstraintSystem F) : Set (List F) :=
  {inputs | ∃ z : Variable → F, z .one = 1 ∧ (∀ i, z (.input (i + 1)) = inputs.getD i 0) ∧
    ∀ row ∈ cs.constraints, row.Holds z}

open Classical in
/-- The ideal scheme: its key is the set of the true inputs. -/
noncomputable def ideal (F : Type) [CommRing F] : Groth16 F where
  ProvingKey := Set (List F)
  VerifyingKey := Set (List F)
  Proof := Unit
  Randomness := Unit
  vk := id
  generateParameters circuit _ := (synthesize .setup circuit).map statements
  createProof circuit _ _ := (synthesize .prove circuit).map fun _ => ()
  verify := fun (key : Set (List F)) inputs _ => .ok (decide (inputs ∈ key))
  serializeProof _ := []
  deserializeProof _ := .ok ()
  serializeVk _ := []
  deserializeKey _ := .error .invalidData

open Classical in
theorem verify_ideal {key : Set (List F)} {inputs : List F} {π : Unit} :
    (ideal F).verify key inputs π = .ok true ↔ inputs ∈ key := by
  change Except.ok _ = Except.ok true ↔ _
  rw [Except.ok.injEq, decide_eq_true_iff]

theorem knowledgeSound_ideal (key : Set (List F)) : (ideal F).KnowledgeSound key (· ∈ key) :=
  fun _ _ h => verify_ideal.1 h

/-- A satisfied assignment is a witness, for any system with the same matrices. -/
theorem mem_statements {cs cs₀ : ConstraintSystem F} (hmat : cs.toMatrices = cs₀.toMatrices)
    (hsat : cs.Satisfied) : cs.instanceAssignment ∈ statements cs₀ := by
  refine ⟨cs.assignedValue, rfl, fun i => ?_, fun row hrow => ?_⟩
  · rw [ConstraintSystem.assignedValue, Nat.add_sub_cancel]
  · have hrows := congrArg Matrices.rows hmat
    have hmem : row.coeffs ∈ cs.constraints.map Constraint.coeffs := by
      rw [show cs.constraints.map Constraint.coeffs = _ from hrows]
      exact List.mem_map_of_mem hrow
    obtain ⟨row', hrow', heq⟩ := List.mem_map.1 hmem
    exact (Constraint.holds_congr _ heq).1 (hsat row' hrow')

theorem complete_ideal : (ideal F).Complete where
  verify_createProof := by
    intro setupCircuit circuit cs₀ cs pk π ρ ρ' hsetup hpk _ _ hmat hsat
    have hkey : (ideal F).generateParameters setupCircuit ρ = .ok (statements cs₀) := by
      change (synthesize .setup setupCircuit).map statements = _
      rw [hsetup]
      rfl
    obtain rfl : statements cs₀ = pk := Except.ok.inj (hkey.symm.trans hpk)
    exact verify_ideal.2 (mem_statements hmat hsat)
  deserializeProof_serializeProof _ := rfl

/-! ### The scheme of verdicts -/

open Classical in
/-- The scheme of verdicts: a proof says whether the prover's assignment satisfies the matrices. -/
noncomputable def verdict (F : Type) [CommRing F] : Groth16 F where
  ProvingKey := Matrices F
  VerifyingKey := Matrices F
  Proof := Bool
  Randomness := Unit
  vk := id
  generateParameters circuit _ := (synthesize .setup circuit).map ConstraintSystem.toMatrices
  createProof circuit key _ :=
    (synthesize .prove circuit).map fun cs => decide (cs.toMatrices = key ∧ cs.Satisfied)
  verify _ _ π := .ok π
  serializeProof π := [if π then 1 else 0]
  deserializeProof bytes := .ok (decide (bytes = [1]))
  serializeVk _ := []
  deserializeKey _ := .error .invalidData

open Classical in
theorem exact_verdict : (verdict F).Exact where
  createProof_eq_ok := by
    intro circuit pk ρ
    change (∃ π, Except.map _ (synthesize .prove circuit) = .ok π) ↔ _
    cases synthesize .prove circuit with
    | error e => simp [Except.map]
    | ok cs => exact iff_of_true ⟨_, rfl⟩ ⟨cs, rfl⟩
  verify_createProof := by
    intro setupCircuit circuit cs₀ cs pk π ρ ρ' hsetup hpk hcs hπ
    change Except.map _ (synthesize .setup setupCircuit) = _ at hpk
    change Except.map _ (synthesize .prove circuit) = _ at hπ
    rw [hsetup] at hpk
    rw [hcs] at hπ
    obtain rfl := Except.ok.inj hpk
    obtain rfl := Except.ok.inj hπ
    change Except.ok (decide _) = Except.ok true ↔ _
    rw [Except.ok.injEq, decide_eq_true_iff]
  deserializeProof_serializeProof π := by
    cases π <;> rfl

/-! ### The scheme that accepts everything -/

/-- The scheme that accepts everything. -/
def accepting (F : Type) : Groth16 F where
  ProvingKey := Unit
  VerifyingKey := Unit
  Proof := Unit
  Randomness := Unit
  vk := id
  generateParameters _ _ := .ok ()
  createProof _ _ _ := .ok ()
  verify _ _ _ := .ok true
  serializeProof _ := []
  deserializeProof _ := .ok ()
  serializeVk _ := []
  deserializeKey _ := .ok ()

theorem complete_accepting : (accepting F).Complete where
  verify_createProof _ _ _ _ _ _ := rfl
  deserializeProof_serializeProof _ := rfl

/-! ### The transparent scheme -/

/-- **The transparent scheme**: a proof is its public inputs. -/
def transparent (r : ℕ) : Groth16 (ZMod r) where
  ProvingKey := Unit
  VerifyingKey := Unit
  Proof := Bytes
  Randomness := Unit
  vk := id
  generateParameters circuit _ := (synthesize .setup circuit).map fun _ => ()
  createProof circuit _ _ :=
    (synthesize .prove circuit).map fun cs => cs.instanceAssignment.flatMap serialize
  verify _ inputs π := .ok (decide (inputs.flatMap serialize = π))
  serializeProof π := π
  deserializeProof π := .ok π
  serializeVk _ := []
  deserializeKey _ := .ok ()

theorem createProof_transparent {r : ℕ} {circuit : Synth (ZMod r) Unit}
    {cs : ConstraintSystem (ZMod r)} (h : synthesize .prove circuit = .ok cs) :
    (transparent r).createProof circuit () () =
      .ok (cs.instanceAssignment.flatMap serialize : Bytes) := by
  change Except.map _ (synthesize .prove circuit) = _
  rw [h]
  rfl

theorem flatMap_serialize_injective {r : ℕ} [NeZero r] (hr : r ≤ 256 ^ 32) :
    Function.Injective (List.flatMap (serialize (r := r))) := by
  have hdelimiting : SelfDelimiting (serialize (r := r)) :=
    .of_length (serialize_injective hr) fun _ _ => by rw [length_serialize, length_serialize]
  intro xs ys h
  have hlen : xs.length = ys.length := by
    have := congrArg List.length h
    simpa using this
  have hnil : xs.flatMap serialize ++ [] = ys.flatMap serialize ++ [] := by rw [h]
  exact (hdelimiting.flatMap hlen hnil).1

theorem verify_transparent {r : ℕ} [NeZero r] (hr : r ≤ 256 ^ 32) {inputs inputs' : List (ZMod r)} :
    (transparent r).verify () inputs' (inputs.flatMap serialize : Bytes) = .ok true ↔
      inputs' = inputs := by
  change Except.ok _ = Except.ok true ↔ _
  rw [Except.ok.injEq, decide_eq_true_iff, (flatMap_serialize_injective hr).eq_iff]

end Groth16

open Classical in
/-- A scheme with one key, which accepts the true inputs of `cs₀`. -/
noncomputable def MpcGroth16.idealFor {F : Type} [CommRing F] (cs₀ : ConstraintSystem F) :
    MpcGroth16 F where
  ProvingKey := Unit
  VerifyingKey := Unit
  Proof := Unit
  Randomness := Unit
  vk := id
  generateParameters circuit _ := (synthesize .setup circuit).map fun _ => ()
  createProof circuit _ _ := (synthesize .prove circuit).map fun _ => ()
  verify _ inputs _ := .ok (decide (inputs ∈ Groth16.statements cs₀))
  serializeProof _ := []
  deserializeProof _ := .ok ()
  serializeVk _ := []
  deserializeKey bytes := if bytes = [] then .ok () else .error .invalidData
  serializeKey _ := []
  createMpcProof circuit₀ circuit₁ _ _ := do
    let _ ← synthesize .prove circuit₀
    let _ ← synthesize .prove circuit₁
    return ()

end Ark
