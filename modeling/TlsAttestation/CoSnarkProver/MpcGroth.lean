import Mathlib.Algebra.Field.ZMod
import Mathlib.Tactic.FieldSimp
import Mathlib.Tactic.LinearCombination
import TlsAttestation.Lib.Fallible
import TlsAttestation.Lib.Groth16
import TlsAttestation.Lib.Qap

/-!
# The Groth16 prover

`mpc_groth` of the standalone prover: the system becomes a quadratic program over an evaluation
domain, and `MpcGroth.witnessMap` divides on a coset. With a key for the matrices
(`MpcGroth.Trapdoor.key`), the proof fulfils the equation of the verifier for all blinding scalars
(`MpcGroth.createProof_verifies`). Groups are written additively.
-/

namespace TlsAttestation.CoSnarkProver

open List

namespace MpcGroth

open Ark Fallible Qap Finset Lagrange

open Polynomial (ofFn)

/-! ### The prover -/

structure VerifyingKey (G₁ G₂ : Type) where
  alphaG1 : G₁
  betaG2 : G₂
  gammaG2 : G₂
  deltaG2 : G₂
  gammaAbcG1 : List G₁

structure ProvingKey (G₁ G₂ : Type) where
  vk : VerifyingKey G₁ G₂
  betaG1 : G₁
  deltaG1 : G₁
  aQuery : List G₁
  bG1Query : List G₁
  bG2Query : List G₂
  hQuery : List G₁
  lQuery : List G₁

structure Proof (G₁ G₂ : Type) where
  a : G₁
  b : G₂
  c : G₁

variable {F G G₁ G₂ GT : Type} [Field F] [AddCommGroup G] [Module F G] [AddCommGroup G₁]
  [Module F G₁] [AddCommGroup G₂] [Module F G₂] [AddCommGroup GT] [Module F GT]

section

variable [DecidableEq F]

def evaluateConstraint (terms : LinComb F) (assignment : Variable → F) : F :=
  terms.foldl (fun sum t =>
    if t.1 = 1 then sum + assignment t.2 else sum + assignment t.2 * t.1) 0

def rowValues (cs : ConstraintSystem F) (side : Constraint F → LinComb F) : List F :=
  cs.constraints.map fun row => evaluateConstraint (side row) cs.assignedValue

/-- The rows, and then the public inputs after the constant one. -/
def aValues (cs : ConstraintSystem F) : List F :=
  rowValues cs (·.a) ++ 1 :: cs.instanceAssignment

def padded (D : EvaluationDomain F) (values : List F) (i : Fin D.size) : F := values.getD i 0

variable (newDomain : ℕ → Option (EvaluationDomain F))

/-- The quotient by way of a coset, where the vanishing polynomial is nowhere zero. -/
def witnessMap (cs : ConstraintSystem F) :
    Except SynthesisError (List F) := do
  let domain ← okOr (newDomain (cs.constraints.length + cs.numInstance)) .polynomialDegreeTooLarge
  let onCoset (values : List F) := domain.cosetFft (domain.ifft (padded domain values))
  let a := onCoset (aValues cs)
  let b := onCoset (rowValues cs (·.b))
  let c := onCoset (rowValues cs (·.c))
  return .ofFn (domain.cosetIfft (domain.divideByVanishingPolyOnCoset fun i => a i * b i - c i))

def multiScalarMul (bases : List G) (scalars : List F) : G :=
  (List.zipWith (fun g k => k • g) bases scalars).sum

def calculateCoeff (initial : G) (query : List G) (vkParam : G) (assignment : List F) :
    Except (Stop SynthesisError) G :=
  match query with
  | [] => .error (.panic "index out of bounds: the len is 0 but the index is 0")
  | el :: rest => .ok (initial + el + multiScalarMul rest assignment + vkParam)

/-- A proof with the blinding scalars `r` and `s`. -/
def createProof (circuit : Synth F Unit)
    (pk : ProvingKey G₁ G₂) (r s : F) : Except (Stop SynthesisError) (Proof G₁ G₂) := do
  let cs ← (synthesize .prove circuit).mapError .error
  let h ← (witnessMap newDomain cs).mapError .error
  let hAcc := multiScalarMul pk.hQuery h
  let lAuxAcc := multiScalarMul pk.lQuery cs.witnessAssignment
  let rSDeltaG1 := s • r • pk.deltaG1
  let assignment := cs.instanceAssignment ++ cs.witnessAssignment
  let gA ← calculateCoeff (r • pk.deltaG1) pk.aQuery pk.vk.alphaG1 assignment
  let g1B ← calculateCoeff (s • pk.deltaG1) pk.bG1Query pk.betaG1 assignment
  let g2B ← calculateCoeff (s • pk.vk.deltaG2) pk.bG2Query pk.vk.betaG2 assignment
  return ⟨gA, g2B, s • gA + r • g1B - rSDeltaG1 + lAuxAcc + hAcc⟩

end

/-! ### Keys -/

def inputColumns (numInstance : ℕ) : List Variable :=
  .one :: (List.range' 1 (numInstance - 1)).map .input

def witnessColumns (numWitness : ℕ) : List Variable := (List.range numWitness).map .witness

def columns (M : Matrices F) : List Variable :=
  inputColumns M.numInstance ++ witnessColumns M.numWitness

/-- A system with a value for every variable, whose rows name no others. -/
structure WellFormed (cs : ConstraintSystem F) : Prop where
  numInstance : cs.numInstance = cs.instanceAssignment.length + 1
  numWitness : cs.numWitness = cs.witnessAssignment.length
  mem_columns : ∀ row ∈ cs.constraints, ∀ t ∈ row.a ++ row.b ++ row.c, t.2 ∈ columns cs.toMatrices

variable (D : EvaluationDomain F)

noncomputable def interpolant (values : List F) : Polynomial F :=
  interpolate univ D.element (padded D values)

noncomputable def columnAt (rows : List (Variable → F)) (τ : F) (v : Variable) : F :=
  ∑ i : Fin D.size, rows.getD i 0 v * (Lagrange.basis univ D.element i).eval τ

structure Trapdoor (F : Type) [Field F] where
  alpha : F
  beta : F
  gamma : F
  delta : F
  tau : F
  gamma_ne_zero : gamma ≠ 0
  delta_ne_zero : delta ≠ 0

namespace Trapdoor

variable (t : Trapdoor F) (D : EvaluationDomain F) (M : Matrices F)

noncomputable def a : Variable → F :=
  columnAt D (M.rows.map (·.1) ++ (inputColumns M.numInstance).map fun v => Pi.single v 1) t.tau

noncomputable def b : Variable → F := columnAt D (M.rows.map (·.2.1)) t.tau

noncomputable def c : Variable → F := columnAt D (M.rows.map (·.2.2)) t.tau

noncomputable def combined (v : Variable) : F :=
  t.beta * t.a D M v + t.alpha * t.b D M v + t.c D M v

/-- The keys of Groth16 for the matrices, from the secret exponents `t`. -/
noncomputable def key (g₁ : G₁) (g₂ : G₂) : ProvingKey G₁ G₂ where
  vk := {
    alphaG1 := t.alpha • g₁
    betaG2 := t.beta • g₂
    gammaG2 := t.gamma • g₂
    deltaG2 := t.delta • g₂
    gammaAbcG1 := (inputColumns M.numInstance).map fun v => (t.combined D M v / t.gamma) • g₁ }
  betaG1 := t.beta • g₁
  deltaG1 := t.delta • g₁
  aQuery := (columns M).map fun v => t.a D M v • g₁
  bG1Query := (columns M).map fun v => t.b D M v • g₁
  bG2Query := (columns M).map fun v => t.b D M v • g₂
  hQuery := (List.range (D.size - 1)).map fun i =>
    (t.tau ^ i * (∏ j, (t.tau - D.element j)) / t.delta) • g₁
  lQuery := (witnessColumns M.numWitness).map fun v => (t.combined D M v / t.delta) • g₁

end Trapdoor

def ProvingKey.GeneratedFor (newDomain : ℕ → Option (EvaluationDomain F)) (pk : ProvingKey G₁ G₂)
    (M : Matrices F) : Prop :=
  ∃ (D : EvaluationDomain F) (t : Trapdoor F) (g₁ : G₁) (g₂ : G₂),
    newDomain (M.rows.length + M.numInstance) = some D ∧ pk = t.key D M g₁ g₂

/-! ### Sums over columns -/

def weighted (z : Variable → F) (f : Variable → F) (vs : List Variable) : F :=
  (vs.map fun v => z v * f v).sum

section

variable {z f : Variable → F} {vs : List Variable} {cs : ConstraintSystem F}

theorem multiScalarMul_map (g : G) :
    multiScalarMul (vs.map fun v => f v • g) (vs.map z) = weighted z f vs • g := by
  induction vs with
  | nil => exact (zero_smul F g).symm
  | cons v vs ih =>
    rw [multiScalarMul] at ih
    rw [multiScalarMul, List.map_cons, List.map_cons, List.zipWith_cons_cons, List.sum_cons, ih,
      smul_smul, weighted, weighted, List.map_cons, List.sum_cons, add_smul]

theorem weighted_columnAt (D : EvaluationDomain F) (rows : List (Variable → F)) (τ : F) :
    weighted z (columnAt D rows τ) vs = (interpolant D (rows.map (weighted z · vs))).eval τ := by
  have hzero : weighted z 0 vs = 0 := by simp [weighted]
  have hpad (i : Fin D.size) :
      padded D (rows.map (weighted z · vs)) i = weighted z (rows.getD i 0) vs := by
    rw [padded, ← hzero, List.getD_map]
  rw [interpolant, eval_interpolate]
  simp only [hpad]
  clear hpad hzero
  induction vs with
  | nil => simp [weighted]
  | cons v vs ih =>
    simp only [weighted, List.map_cons, List.sum_cons, add_mul, sum_add_distrib] at ih ⊢
    rw [ih, columnAt, mul_sum]
    simp only [mul_assoc]

omit [Field F] in
theorem nodup_columns (M : Matrices F) : (columns M).Nodup := by
  simp only [columns, inputColumns, witnessColumns, cons_append, nodup_cons]
  refine ⟨by simp, List.Nodup.append ?_ ?_ ?_⟩
  · exact (nodup_range' 1).map fun i j h => Variable.input.inj h
  · exact nodup_range.map fun i j h => Variable.witness.inj h
  · simp only [List.disjoint_left, List.mem_map]
    rintro _ ⟨i, -, rfl⟩ ⟨j, -, h⟩
    cases h

theorem weighted_coeff {lc : LinComb F} (hnodup : vs.Nodup) (h : ∀ t ∈ lc, t.2 ∈ vs) :
    weighted z lc.coeff vs = lc.eval z := by
  rw [weighted, ← sum_toFinset _ hnodup]
  induction lc with
  | nil => simp
  | cons t lc ih =>
    rw [LinComb.eval_cons, ← ih fun t' ht' => h t' (mem_cons_of_mem _ ht')]
    simp only [LinComb.coeff_cons, mul_add, sum_add_distrib, mul_ite, mul_zero]
    rw [sum_ite_eq, if_pos (mem_toFinset.2 (h t mem_cons_self)), mul_comm]

theorem weighted_single {v : Variable} (hnodup : vs.Nodup) (h : v ∈ vs) :
    weighted z (Pi.single v 1) vs = z v := by
  rw [weighted, ← sum_toFinset _ hnodup]
  simp [Pi.single_apply, h]

/-! ### The assignment -/

theorem map_inputColumns (h : WellFormed cs) :
    (inputColumns cs.numInstance).map cs.assignedValue = 1 :: cs.instanceAssignment := by
  rw [inputColumns, h.numInstance, List.map_cons, List.map_map]
  refine congrArg _ (List.ext_getElem (by simp) fun i hi hi' => ?_)
  simp [ConstraintSystem.assignedValue, hi']

theorem map_witnessColumns (h : WellFormed cs) :
    (witnessColumns cs.numWitness).map cs.assignedValue = cs.witnessAssignment := by
  rw [witnessColumns, h.numWitness, List.map_map]
  refine List.ext_getElem (by simp) fun i hi hi' => ?_
  simp [ConstraintSystem.assignedValue, hi']

theorem calculateCoeff_columns (h : WellFormed cs) (initial vkParam g : G) :
    calculateCoeff initial ((columns cs.toMatrices).map fun v => f v • g) vkParam
      (cs.instanceAssignment ++ cs.witnessAssignment) =
        .ok (initial + weighted cs.assignedValue f (columns cs.toMatrices) • g + vkParam) := by
  have hmap : (columns cs.toMatrices).map cs.assignedValue =
      1 :: (cs.instanceAssignment ++ cs.witnessAssignment) := by
    rw [columns, List.map_append]
    exact congrArg₂ _ (map_inputColumns h) (map_witnessColumns h)
  rw [← multiScalarMul_map, hmap]
  obtain ⟨vs, hvs⟩ : ∃ vs, columns cs.toMatrices = .one :: vs := ⟨_, rfl⟩
  rw [hvs, List.map_cons, calculateCoeff, multiScalarMul, multiScalarMul, List.zipWith_cons_cons,
    List.sum_cons, one_smul, add_assoc initial]

variable [DecidableEq F]

theorem evaluateConstraint_eq (terms : LinComb F) :
    evaluateConstraint terms z = terms.eval z := by
  have hfold (sum : F) : terms.foldl (fun sum t =>
      if t.1 = 1 then sum + z t.2 else sum + z t.2 * t.1) sum = sum + terms.eval z := by
    induction terms generalizing sum with
    | nil => simp
    | cons t terms ih =>
      rw [foldl_cons, ih, LinComb.eval_cons]
      split
      · next h => rw [h, one_mul, add_assoc]
      · rw [mul_comm, add_assoc]
  rw [evaluateConstraint, hfold, zero_add]

theorem map_weighted_rows (h : WellFormed cs) (side : Constraint F → LinComb F)
    (hside : ∀ row, side row ⊆ row.a ++ row.b ++ row.c) :
    (cs.constraints.map fun row => (side row).coeff).map
      (weighted cs.assignedValue · (columns cs.toMatrices)) = rowValues cs side := by
  rw [List.map_map, rowValues]
  refine List.map_congr_left fun row hrow => ?_
  rw [evaluateConstraint_eq]
  exact weighted_coeff (nodup_columns _) fun t ht => h.mem_columns row hrow t (hside row ht)

end

/-! ### Completeness -/

theorem multiScalarMul_powers (τ : F) (g : G) {n : ℕ} {q : Fin n → F}
    (hlast : ∀ i : Fin n, (i : ℕ) + 1 = n → q i = 0) (k : F) :
    multiScalarMul ((List.range (n - 1)).map fun i => (τ ^ i * k) • g) (List.ofFn q) =
      (evalCoeffs q τ * k) • g := by
  induction n generalizing k with
  | zero => simp [multiScalarMul, evalCoeffs]
  | succ n ih =>
    cases n with
    | zero => simp [multiScalarMul, evalCoeffs, hlast 0 rfl]
    | succ n =>
      have htail := ih (q := fun i => q i.succ) (fun i hi => hlast i.succ (by simpa using hi))
        (τ * k)
      have heval : evalCoeffs q τ = q 0 + τ * evalCoeffs (fun i => q i.succ) τ := by
        rw [evalCoeffs, Fin.sum_univ_succ, evalCoeffs, mul_sum, Fin.val_zero, pow_zero, mul_one]
        exact congrArg _ (sum_congr rfl fun i _ => by rw [Fin.val_succ]; ring)
      rw [multiScalarMul, Nat.add_sub_cancel] at htail
      rw [multiScalarMul, Nat.add_sub_cancel, List.range_succ_eq_map, List.ofFn_succ, List.map_cons,
        List.map_map, List.zipWith_cons_cons, List.sum_cons]
      simp only [Function.comp_def, Nat.succ_eq_add_one, pow_succ, mul_assoc] at htail ⊢
      rw [htail, heval]
      module

variable [DecidableEq F]

/-- **The quotient** `(A B - C) / Z`, by its coefficients. -/
def IsQuotient (cs : ConstraintSystem F) (q : Fin D.size → F) : Prop :=
  ofFn D.size q * nodal univ D.element = interpolant D (aValues cs) *
    interpolant D (rowValues cs (·.b)) - interpolant D (rowValues cs (·.c))

variable {cs : ConstraintSystem F}

theorem padded_mul (hsat : cs.Satisfied) (D : EvaluationDomain F)
    (i : Fin D.size) : padded D (aValues cs) i * padded D (rowValues cs (·.b)) i =
      padded D (rowValues cs (·.c)) i := by
  rcases lt_or_ge (i : ℕ) cs.constraints.length with hi | hi
  · have hrow : Constraint.Holds _ _ := hsat _ (getElem_mem hi)
    rw [Constraint.Holds] at hrow
    simpa [padded, aValues, rowValues, evaluateConstraint_eq, hi, List.getElem?_append_left]
      using hrow
  · simp [padded, rowValues, hi]

variable {newDomain : ℕ → Option (EvaluationDomain F)} {D : EvaluationDomain F}

/-- The witness map divides. -/
theorem exists_witnessMap (hD : newDomain (cs.constraints.length + cs.numInstance) = some D)
    (hcorr : D.Correct) (hpos : 0 < D.size) (hsat : cs.Satisfied) :
    ∃ q, witnessMap newDomain cs = .ok (List.ofFn q) ∧ IsQuotient D cs q ∧
      ∀ i : Fin D.size, (i : ℕ) + 1 = D.size → q i = 0 := by
  refine ⟨_, ?_, mul_nodal_quotient hcorr hpos (padded_mul hsat D) rfl⟩
  rw [witnessMap, hD]
  rfl

theorem weighted_key (h : WellFormed cs) (t : Trapdoor F) (D : EvaluationDomain F) :
    weighted cs.assignedValue (t.a D cs.toMatrices) (columns cs.toMatrices) =
        (interpolant D (aValues cs)).eval t.tau ∧
      weighted cs.assignedValue (t.b D cs.toMatrices) (columns cs.toMatrices) =
        (interpolant D (rowValues cs (·.b))).eval t.tau ∧
      weighted cs.assignedValue (t.c D cs.toMatrices) (columns cs.toMatrices) =
        (interpolant D (rowValues cs (·.c))).eval t.tau := by
  have hins : (inputColumns cs.numInstance).map (fun v => weighted cs.assignedValue
      (Pi.single v 1) (columns cs.toMatrices)) = 1 :: cs.instanceAssignment := by
    rw [← map_inputColumns h]
    refine map_congr_left fun v hv => weighted_single (nodup_columns _) ?_
    exact mem_append_left _ hv
  refine ⟨?_, ?_, ?_⟩
  · rw [Trapdoor.a, weighted_columnAt, aValues, ← map_weighted_rows h (·.a) (by simp), ← hins]
    simp [ConstraintSystem.toMatrices, Constraint.coeffs, Function.comp_def]
  · rw [Trapdoor.b, weighted_columnAt, ← map_weighted_rows h (·.b) (by simp)]
    simp [ConstraintSystem.toMatrices, Constraint.coeffs, Function.comp_def]
  · rw [Trapdoor.c, weighted_columnAt, ← map_weighted_rows h (·.c) (by simp)]
    simp [ConstraintSystem.toMatrices, Constraint.coeffs, Function.comp_def]

omit [DecidableEq F] in
theorem weighted_div (z f : Variable → F) (k : F) (vs : List Variable) :
    weighted z (fun v => f v / k) vs = weighted z f vs / k := by
  simp only [weighted, div_eq_mul_inv, ← mul_assoc, sum_map_mul_right]

omit [DecidableEq F] in
theorem weighted_combined (t : Trapdoor F) (D : EvaluationDomain F) (M : Matrices F)
    (z : Variable → F) :
    weighted z (t.combined D M) (inputColumns M.numInstance) +
        weighted z (t.combined D M) (witnessColumns M.numWitness) =
      t.beta * weighted z (t.a D M) (columns M) + t.alpha * weighted z (t.b D M) (columns M) +
        weighted z (t.c D M) (columns M) := by
  have happend : weighted z (t.combined D M) (inputColumns M.numInstance) +
      weighted z (t.combined D M) (witnessColumns M.numWitness) =
        weighted z (t.combined D M) (columns M) := by
    rw [weighted, weighted, weighted, columns, map_append, sum_append]
  rw [happend]
  simp only [weighted, Trapdoor.combined, mul_add, sum_map_add, ← sum_map_mul_left]
  simp only [mul_left_comm]

theorem createProof_key {circuit : Synth F Unit}
    (hcs : synthesize .prove circuit = .ok cs) (h : WellFormed cs)
    {q : Fin D.size → F}
    (hwit : witnessMap newDomain cs = .ok (List.ofFn q))
    (hlast : ∀ i : Fin D.size, (i : ℕ) + 1 = D.size → q i = 0) (t : Trapdoor F) (g₁ : G₁) (g₂ : G₂)
    (r s : F) {x y k : F}
    (hx : weighted cs.assignedValue (t.a D cs.toMatrices) (columns cs.toMatrices) = x)
    (hy : weighted cs.assignedValue (t.b D cs.toMatrices) (columns cs.toMatrices) = y)
    (hk : weighted cs.assignedValue (t.combined D cs.toMatrices) (witnessColumns cs.numWitness) =
      k) :
    createProof newDomain circuit (t.key D cs.toMatrices g₁ g₂) r s =
      .ok ⟨(r * t.delta + x + t.alpha) • g₁, (s * t.delta + y + t.beta) • g₂,
        (s * (r * t.delta + x + t.alpha) + r * (s * t.delta + y + t.beta) - s * r * t.delta +
          k / t.delta + evalCoeffs q t.tau * ((∏ j, (t.tau - D.element j)) / t.delta)) • g₁⟩ := by
  have hH := multiScalarMul_powers t.tau g₁ hlast ((∏ j, (t.tau - D.element j)) / t.delta)
  have hL : multiScalarMul ((witnessColumns cs.numWitness).map fun v =>
      (t.combined D cs.toMatrices v / t.delta) • g₁) cs.witnessAssignment = (k / t.delta) • g₁ := by
    rw [← map_witnessColumns h, multiScalarMul_map, weighted_div, hk]
  simp only [← mul_div_assoc] at hH
  simp only [createProof, do_eq_ok]
  refine ⟨cs, hcs, _, hwit, _, calculateCoeff_columns h _ _ _, _,
    calculateCoeff_columns h _ _ _, _, calculateCoeff_columns h _ _ _, ?_⟩
  simp only [Trapdoor.key, hx, hy, Proof.mk.injEq]
  refine ⟨by module, by module, ?_⟩
  rw [hH]
  refine Eq.trans (congrArg₂ _ (congrArg₂ _ rfl hL) rfl) ?_
  module

omit [DecidableEq F] in
/-- **The equation of the verifier**, in the exponents. -/
theorem exponents_eq {α β δ x y w i k q Z : F} (hδ : δ ≠ 0) (hK : i + k = β * x + α * y + w)
    (hxy : q * Z = x * y - w) (r s : F) :
    (r * δ + x + α) * (s * δ + y + β) = α * β + i +
      (s * (r * δ + x + α) + r * (s * δ + y + β) - s * r * δ + k / δ + q * (Z / δ)) * δ := by
  field_simp
  linear_combination -hK - hxy

/-- **Completeness of the prover**: with a key for its matrices, a satisfied system has a proof that
verifies, for all blinding scalars. -/
theorem createProof_verifies (newDomain : ℕ → Option (EvaluationDomain F))
    (hnew : ∀ n D, newDomain n = some D → D.Correct ∧ n ≤ D.size) (e : G₁ →ₗ[F] G₂ →ₗ[F] GT)
    {circuit : Synth F Unit} {cs : ConstraintSystem F}
    (hcs : synthesize .prove circuit = .ok cs) (h : WellFormed cs) (hsat : cs.Satisfied)
    {pk : ProvingKey G₁ G₂} (hpk : pk.GeneratedFor newDomain cs.toMatrices) (r s : F) :
    ∃ D q proof, newDomain (cs.constraints.length + cs.numInstance) = some D ∧
      witnessMap newDomain cs = .ok (List.ofFn q) ∧ IsQuotient D cs q ∧
      createProof newDomain circuit pk r s = .ok proof ∧
      e proof.a proof.b = e pk.vk.alphaG1 pk.vk.betaG2 +
        e (multiScalarMul pk.vk.gammaAbcG1 (1 :: cs.instanceAssignment)) pk.vk.gammaG2 +
          e proof.c pk.vk.deltaG2 := by
  obtain ⟨D, t, g₁, g₂, hD, rfl⟩ := hpk
  replace hD : newDomain (cs.constraints.length + cs.numInstance) = some D := by
    simpa [ConstraintSystem.toMatrices] using hD
  obtain ⟨hcorr, hsize⟩ := hnew _ _ hD
  have hpos : 0 < D.size := by
    have hone := h.numInstance
    omega
  obtain ⟨q, hwit, hquotient, hlast⟩ := exists_witnessMap hD hcorr hpos hsat
  obtain ⟨hx, hy, hw⟩ := weighted_key h t D
  refine ⟨D, q, _, hD, hwit, hquotient, createProof_key hcs h hwit hlast t g₁ g₂ r s hx hy rfl, ?_⟩
  -- the equation holds between the exponents
  have hI : multiScalarMul (t.key D cs.toMatrices g₁ g₂).vk.gammaAbcG1
      (1 :: cs.instanceAssignment) = (weighted cs.assignedValue (t.combined D cs.toMatrices)
        (inputColumns cs.numInstance) / t.gamma) • g₁ := by
    rw [← weighted_div, ← multiScalarMul_map, map_inputColumns h]
    rfl
  have hpair (k l : F) : e (k • g₁) (l • g₂) = (k * l) • e g₁ g₂ := by
    rw [map_smul, map_smul, LinearMap.smul_apply, smul_smul, mul_comm]
  -- at the trapdoor the quotient equation is one of numbers
  have hK := weighted_combined t D cs.toMatrices cs.assignedValue
  rw [hx, hy, hw] at hK
  have hxy := congrArg (Polynomial.eval t.tau) hquotient
  rw [Polynomial.eval_mul, eval_ofFn, eval_nodal, Polynomial.eval_sub, Polynomial.eval_mul] at hxy
  rw [hI]
  change e (_ • g₁) (_ • g₂) = e (t.alpha • g₁) (t.beta • g₂) + e (_ • g₁) (t.gamma • g₂) +
    e (_ • g₁) (t.delta • g₂)
  rw [hpair, hpair, hpair, hpair, ← add_smul, ← add_smul, div_mul_cancel₀ _ t.gamma_ne_zero]
  exact congrArg (· • e g₁ g₂) (exponents_eq t.delta_ne_zero hK hxy r s)

/-! ### A domain with two points -/

theorem prime_five : Nat.Prime 5 := by decide

instance factPrimeFive : Fact (Nat.Prime 5) := ⟨prime_five⟩

def half (x : ZMod 5) : ZMod 5 := -(x + x)

def fst (v : Fin 2 → ZMod 5) : ZMod 5 := v ⟨0, Nat.two_pos⟩

def snd (v : Fin 2 → ZMod 5) : ZMod 5 := v ⟨1, Nat.one_lt_two⟩

def pairDomain : EvaluationDomain (ZMod 5) where
  size := 2
  element := ![1, -1]
  cosetElement := ![1 + 1, -(1 + 1)]
  ifft v := ![half (fst v + snd v), half (fst v - snd v)]
  cosetFft p := ![fst p + (snd p + snd p), fst p - (snd p + snd p)]
  cosetIfft v := ![half (fst v + snd v), snd v - fst v]
  divideByVanishingPolyOnCoset v := ![fst v + fst v, snd v + snd v]

theorem correct_pairDomain : pairDomain.Correct where
  element_injective := by decide
  cosetElement_injective := by decide
  cosetElement_ne := by decide
  ifft := by decide
  cosetFft := by decide
  cosetIfft := by decide
  divide := by decide

def pairDomains (n : ℕ) : Option (EvaluationDomain (ZMod 5)) :=
  if n ≤ 2 then some pairDomain else none

def bitSystem : ConstraintSystem (ZMod 5) :=
  ⟨.prove, 1, 1, [], [1], [⟨[(1, .witness 0)], [(1, .witness 0)], [(1, .witness 0)]⟩]⟩

theorem wellFormed_bitSystem : WellFormed bitSystem := ⟨rfl, rfl, by decide⟩

theorem neg_one_ne_zero_five : (-1 : ZMod 5) ≠ 0 := by decide

noncomputable def bitKey : ProvingKey (ZMod 5) (ZMod 5) :=
  Trapdoor.key ⟨1, 1 + 1, -1, -1, 1 + 1, neg_one_ne_zero_five, neg_one_ne_zero_five⟩ pairDomain
    bitSystem.toMatrices 1 1

theorem createProof_verifies_bit : ∃ proof,
    createProof pairDomains (fun _ => .ok ((), bitSystem)) bitKey 0 (-1) = .ok proof ∧
      LinearMap.mul (ZMod 5) (ZMod 5) proof.a proof.b =
        LinearMap.mul (ZMod 5) (ZMod 5) bitKey.vk.alphaG1 bitKey.vk.betaG2 +
          LinearMap.mul (ZMod 5) (ZMod 5) (multiScalarMul bitKey.vk.gammaAbcG1 [(1 : ZMod 5)])
            bitKey.vk.gammaG2 +
          LinearMap.mul (ZMod 5) (ZMod 5) proof.c bitKey.vk.deltaG2 := by
  have hnew (n : ℕ) (D : EvaluationDomain (ZMod 5)) (h : pairDomains n = some D) :
      D.Correct ∧ n ≤ D.size := by
    obtain ⟨hn, hD⟩ := Option.ite_none_right_eq_some.1 h
    obtain rfl := Option.some.inj hD
    exact ⟨correct_pairDomain, hn⟩
  have hcs : synthesize .prove (fun _ => .ok ((), bitSystem)) = .ok bitSystem := rfl
  have hpk : bitKey.GeneratedFor pairDomains bitSystem.toMatrices := ⟨pairDomain, _, 1, 1, rfl, rfl⟩
  obtain ⟨-, -, proof, -, -, -, hproof, heqn⟩ := createProof_verifies pairDomains hnew
    (LinearMap.mul (ZMod 5) (ZMod 5)) hcs wellFormed_bitSystem (by decide) hpk 0 (-1)
  exact ⟨proof, hproof, heqn⟩

end MpcGroth

end TlsAttestation.CoSnarkProver
