import TlsAttestation.Lib.ConstraintSystem

/-!
# Two runs of a circuit, side by side

As long as both programs have done the same, their systems and variables correspond
(`Ark.Coupling`). The *values* of the variables may differ, and the mode; the *shape* of a bit may
not (`Ark.Coupling.BitRel`), for it decides about the rows. Every coupling is a simulation
(`Ark.Coupling.simulation`). A program whose bits are all constant is evaluated (`Ark.folding`).
-/

namespace Ark

open Synth
open List hiding Vector

variable {F : Type} [CommRing F] {μ μ' : SynthesisMode}

/-! ### Rows that correspond -/

abbrev LinComb.Rel (V : Variable → Variable → Prop) :
    LinComb F → LinComb F → Prop :=
  List.Forall₂ fun t t' => t.1 = t'.1 ∧ V t.2 t'.2

omit [CommRing F] in
theorem LinComb.Rel.eq {x y : LinComb F} (h : x.Rel Eq y) : x = y :=
  forall₂_eq_eq_eq ▸ h.imp fun _ _ ht => Prod.ext ht.1 ht.2

theorem LinComb.Rel.scale {V : Variable → Variable → Prop} {x y : LinComb F}
    (h : x.Rel V y) (k : F) : (x.scale k).Rel V (y.scale k) := by
  refine forall₂_map_left_iff.2 (forall₂_map_right_iff.2 (h.imp fun t t' ht => ?_))
  exact ⟨congrArg (k * ·) ht.1, ht.2⟩

/-- The same coefficients, related variables. -/
structure Constraint.Rel (V : Variable → Variable → Prop) (row row' : Constraint F) : Prop where
  a : row.a.Rel V row'.a
  b : row.b.Rel V row'.b
  c : row.c.Rel V row'.c

omit [CommRing F] in
theorem Constraint.Rel.eq {row row' : Constraint F} (h : row.Rel Eq row') : row = row' := by
  obtain ⟨a, b, c⟩ := row
  obtain ⟨a', b', c'⟩ := row'
  obtain rfl : a = a' := h.a.eq
  obtain rfl : b = b' := h.b.eq
  obtain rfl : c = c' := h.c.eq
  rfl

/-! ### Sums of constants, and the others -/

namespace Synth

def allConstant (ws : List (Vector Boolean 32)) : Bool := ws.all (·.toList.all Boolean.isConstant)

variable {ws : List (Vector Boolean 32)}

theorem addmany_of_allConstant {v : ℕ} (hlen : ws.length ≠ 1) (hall : allConstant ws = true)
    (hv : List.sum <$> ws.mapM (wordValue ·.toList) = some v) :
    (addmany ws : Synth F _) = pure (.ofFn fun i => .constant ((BitVec.ofNat 32 v).getLsbD i)) := by
  unfold allConstant at hall
  rcases ws with _ | ⟨x, _ | ⟨y, l⟩⟩
  · simp only [addmany, hall, hv]
  · exact absurd rfl hlen
  · simp only [addmany, hall, hv]

theorem addmany_of_not_allConstant (hlen : ws.length ≠ 1) (hall : allConstant ws = false) :
    (addmany ws : Synth F _) = sumBits ws (List.sum <$> ws.mapM (wordValue ·.toList)) := by
  unfold allConstant at hall
  rcases ws with _ | ⟨x, _ | ⟨y, l⟩⟩
  · exact absurd hall (by simp)
  · exact absurd rfl hlen
  · simp only [addmany, hall]

end Synth

/-! ### Couplings -/

/-- **A coupling** of runs in two modes: what corresponds stays so. -/
structure Coupling (F : Type) [CommRing F] (μ μ' : SynthesisMode) where
  States : ConstraintSystem F → ConstraintSystem F → Prop
  Vars : Variable → Variable → Prop
  one : Vars .one .one
  mode : ∀ {cs cs'}, States cs cs' → cs.mode = μ ∧ cs'.mode = μ'
  witness : ∀ {cs cs'}, States cs cs' → Vars (.witness cs.numWitness) (.witness cs'.numWitness)
  input : ∀ {cs cs'}, States cs cs' → Vars (.input cs.numInstance) (.input cs'.numInstance)
  pushWitness : ∀ {cs cs'} (x x' : F), States cs cs' →
    States (cs.pushWitness x) (cs'.pushWitness x')
  pushInput : ∀ {cs cs'} (x x' : F), States cs cs' → States (cs.pushInput x) (cs'.pushInput x')
  pushRow : ∀ {cs cs'} {row row' : Constraint F}, States cs cs' → row.Rel Vars row' →
    States (cs.pushRow row) (cs'.pushRow row')

def Known {α : Type} (μ : SynthesisMode) (value : Option α) : Prop := μ = .prove → value.isSome

namespace Coupling

variable (C : Coupling F μ μ')

structure AllocatedRel (a a' : AllocatedBit) : Prop where
  var : C.Vars a.var a'.var
  known : Known μ a.value
  known' : Known μ' a'.value

/-- **Two bits correspond**: they have the same shape. -/
inductive BitRel : Boolean → Boolean → Prop
  | constant (b : Bool) : BitRel (.constant b) (.constant b)
  | is {a a' : AllocatedBit} (h : C.AllocatedRel a a') : BitRel (.is a) (.is a')
  | not {a a' : AllocatedBit} (h : C.AllocatedRel a a') : BitRel (.not a) (.not a')

def seq : Sequencing (Synth F) (Synth F) where
  Run R x y := ∀ cs cs', C.States cs cs' → ∃ a t b t', x cs = .ok (a, t) ∧ y cs' = .ok (b, t') ∧
    R a b ∧ C.States t t'
  pure h := fun cs cs' hcs => ⟨_, cs, _, cs', rfl, rfl, h, hcs⟩
  bind := by
    intro _ _ _ _ R T x y f g hxy hfg cs cs' hcs
    obtain ⟨a, t, b, t', hx, hy, hab, ht⟩ := hxy cs cs' hcs
    obtain ⟨c, u, d, u', hf, hg, hcd, hu⟩ := hfg a b hab t t' ht
    refine ⟨c, u, d, u', ?_, ?_, hcd, hu⟩
    · change (x cs >>= fun p => f p.1 p.2) = _
      rw [hx]
      exact hf
    · change (y cs' >>= fun p => g p.1 p.2) = _
      rw [hy]
      exact hg

variable {C}

variable {α β : Type} {b b' : Boolean} {v v' : Option Bool} {ws ws' : List (Vector Boolean 32)}
  {R : α → β → Prop}

theorem rel_of_run {x : Synth F α} {y : Synth F β}
    (h : C.seq.Run R x y) {cs cs' t t' : ConstraintSystem F} {a : α} {b : β}
    (hcs : C.States cs cs') (hx : x cs = .ok (a, t)) (hy : y cs' = .ok (b, t')) :
    R a b ∧ C.States t t' := by
  obtain ⟨a₁, t₁, b₁, t₁', hx₁, hy₁, hab, ht⟩ := h cs cs' hcs
  obtain ⟨rfl, rfl⟩ : a = a₁ ∧ t = t₁ := by simpa using hx.symm.trans hx₁
  obtain ⟨rfl, rfl⟩ : b = b₁ ∧ t' = t₁' := by simpa using hy.symm.trans hy₁
  exact ⟨hab, ht⟩

/-! ### Bits -/

theorem BitRel.known (h : C.BitRel b b') :
    Known μ b.value ∧ Known μ' b'.value := by
  cases h with
  | constant b => exact ⟨fun _ => rfl, fun _ => rfl⟩
  | is h => exact ⟨h.known, h.known'⟩
  | not h =>
    exact ⟨fun hμ => by simpa [Boolean.value] using h.known hμ,
      fun hμ => by simpa [Boolean.value] using h.known' hμ⟩

theorem BitRel.negate (h : C.BitRel b b') : C.BitRel b.negate b'.negate := by
  cases h with
  | constant b => exact .constant _
  | is h => exact .not h
  | not h => exact .is h

theorem BitRel.isConstant (h : C.BitRel b b') :
    b.isConstant = b'.isConstant := by
  cases h <;> rfl

theorem BitRel.lc (h : C.BitRel b b') : (b.lc F).Rel C.Vars (b'.lc F) := by
  cases h with
  | constant b =>
    cases b with
    | false => exact .nil
    | true => exact .cons ⟨rfl, C.one⟩ .nil
  | is h => exact .cons ⟨rfl, h.var⟩ .nil
  | not h => exact .cons ⟨rfl, C.one⟩ (.cons ⟨rfl, h.var⟩ .nil)

/-! ### Allocation -/

omit [CommRing F] in
theorem newWitnessVariable_eq [Zero F] {cs : ConstraintSystem F} {v : Option F}
    (h : Known cs.mode v) :
    newWitnessVariable v cs = .ok (.witness cs.numWitness, cs.pushWitness (v.getD 0)) := by
  cases v with
  | some x => rfl
  | none =>
    cases hmode : cs.mode with
    | setup => simp [newWitnessVariable, ConstraintSystem.pushWitness, hmode]
    | prove => exact absurd (h hmode) (by simp)

theorem run_newWitnessVariable {v v' : Option F} (h : Known μ v) (h' : Known μ' v') :
    C.seq.Run C.Vars (newWitnessVariable v) (newWitnessVariable v') := by
  intro cs cs' hcs
  obtain ⟨hmode, hmode'⟩ := C.mode hcs
  exact ⟨_, _, _, _, newWitnessVariable_eq (hmode ▸ h), newWitnessVariable_eq (hmode' ▸ h'),
    C.witness hcs, C.pushWitness _ _ hcs⟩

theorem run_enforceConstraint {a b c a' b' c' : LinComb F} (ha : a.Rel C.Vars a')
    (hb : b.Rel C.Vars b') (hc : c.Rel C.Vars c') :
    C.seq.Run (fun _ _ => True) (enforceConstraint a b c) (enforceConstraint a' b' c') :=
  fun _ _ hcs => ⟨_, _, _, _, rfl, rfl, trivial, C.pushRow hcs ⟨ha, hb, hc⟩⟩

theorem run_get : C.seq.Run (fun s s' => s.mode = μ ∧ s'.mode = μ') get get :=
  fun cs cs' hcs => ⟨cs, cs, cs', cs', rfl, rfl, C.mode hcs, hcs⟩

theorem run_newWitnessWithoutBooleanityCheck (h : Known μ v) (h' : Known μ' v') :
    C.seq.Run C.AllocatedRel (newWitnessWithoutBooleanityCheck v : Synth F AllocatedBit)
      (newWitnessWithoutBooleanityCheck v' : Synth F AllocatedBit) := by
  refine C.seq.bind (run_newWitnessVariable (fun hμ => by simpa using h hμ)
    (fun hμ => by simpa using h' hμ)) fun var var' hvar => C.seq.bind run_get
      fun s s' hs => C.seq.pure ⟨hvar, fun hμ => ?_, fun hμ => ?_⟩
  · rw [hs.1, if_neg (by rw [hμ]; decide)]
    exact h hμ
  · rw [hs.2, if_neg (by rw [hμ]; decide)]
    exact h' hμ

theorem run_newWitness (h : Known μ v) (h' : Known μ' v') :
    C.seq.Run C.AllocatedRel (newWitness v : Synth F AllocatedBit)
      (newWitness v' : Synth F AllocatedBit) :=
  C.seq.bind (run_newWitnessWithoutBooleanityCheck h h') fun _ _ ha =>
    C.seq.bind (run_enforceConstraint (.cons ⟨rfl, C.one⟩ (.cons ⟨rfl, ha.var⟩ .nil))
      (.cons ⟨rfl, ha.var⟩ .nil) .nil) fun _ _ _ => C.seq.pure ha

/-! ### The Boolean gadgets -/

theorem known_seq {γ : Type} {f : α → β → γ} {v : Option α} {w : Option β} (hv : Known μ v)
    (hw : Known μ w) : Known μ (f <$> v <*> w) := by
  intro hμ
  obtain ⟨a, rfl⟩ := Option.isSome_iff_exists.1 (hv hμ)
  obtain ⟨b, rfl⟩ := Option.isSome_iff_exists.1 (hw hμ)
  rfl

variable {x y x' y' : LinComb F}

theorem run_product (hx : x.Rel C.Vars x') (hy : y.Rel C.Vars y')
    (h : Known μ v) (h' : Known μ' v') :
    C.seq.Run C.BitRel (product x y v) (product x' y' v') :=
  C.seq.bind (run_newWitnessWithoutBooleanityCheck h h') fun _ _ hc =>
    C.seq.bind (run_enforceConstraint hx hy (.cons ⟨rfl, hc.var⟩ .nil)) fun _ _ _ =>
      C.seq.pure (.is hc)

theorem run_and {c c' : Boolean} (hb : C.BitRel b b') (hc : C.BitRel c c') :
    C.seq.Run C.BitRel (Synth.and b c : Synth F Boolean) (Synth.and b' c' : Synth F Boolean) := by
  have hprod := run_product hb.lc hc.lc (known_seq (f := (· && ·)) hb.known.1 hc.known.1)
    (known_seq (f := (· && ·)) hb.known.2 hc.known.2)
  have hflipped := run_product hc.lc hb.lc (known_seq (f := (· && ·)) hc.known.1 hb.known.1)
    (known_seq (f := (· && ·)) hc.known.2 hb.known.2)
  cases hb with
  | constant b =>
    cases hc with
    | constant c => cases b <;> cases c <;> exact C.seq.pure (.constant _)
    | is hc =>
      cases b
      · exact C.seq.pure (.constant _)
      · exact C.seq.pure (.is hc)
    | not hc =>
      cases b
      · exact C.seq.pure (.constant _)
      · exact C.seq.pure (.not hc)
  | is hb =>
    cases hc with
    | constant c =>
      cases c
      · exact C.seq.pure (.constant _)
      · exact C.seq.pure (.is hb)
    | is hc => exact hprod
    | not hc => exact hprod
  | not hb =>
    cases hc with
    | constant c =>
      cases c
      · exact C.seq.pure (.constant _)
      · exact C.seq.pure (.not hb)
    | is hc => exact hflipped
    | not hc => exact hprod

theorem run_xorVariables {a a' b b' : AllocatedBit} (ha : C.AllocatedRel a a')
    (hb : C.AllocatedRel b b') :
    C.seq.Run C.AllocatedRel (xorVariables a b : Synth F AllocatedBit)
      (xorVariables a' b' : Synth F AllocatedBit) :=
  C.seq.bind (run_newWitnessWithoutBooleanityCheck (known_seq ha.known hb.known)
    (known_seq ha.known' hb.known')) fun _ _ hc =>
      C.seq.bind (run_enforceConstraint
        (.cons ⟨rfl, ha.var⟩ (.cons ⟨rfl, ha.var⟩ .nil)) (.cons ⟨rfl, hb.var⟩ .nil)
        (.cons ⟨rfl, ha.var⟩ (.cons ⟨rfl, hb.var⟩ (.cons ⟨rfl, hc.var⟩ .nil)))) fun _ _ _ =>
          C.seq.pure hc

theorem run_xor {c c' : Boolean} (hb : C.BitRel b b') (hc : C.BitRel c c') :
    C.seq.Run C.BitRel (Synth.xor b c : Synth F Boolean) (Synth.xor b' c' : Synth F Boolean) := by
  cases hb with
  | constant b =>
    cases b with
    | false => exact C.seq.pure hc
    | true =>
      cases hc with
      | constant c => cases c <;> exact C.seq.pure (.constant _)
      | is hc => exact C.seq.pure (.not hc)
      | not hc => exact C.seq.pure (.is hc)
  | is hb =>
    cases hc with
    | constant c =>
      cases c
      · exact C.seq.pure (.is hb)
      · exact C.seq.pure (.not hb)
    | is hc =>
      exact C.seq.bind (run_xorVariables hb hc) fun _ _ h => C.seq.pure (.is h)
    | not hc =>
      exact C.seq.bind (run_xorVariables hb hc) fun _ _ h => C.seq.pure (.not h)
  | not hb =>
    cases hc with
    | constant c =>
      cases c
      · exact C.seq.pure (.not hb)
      · exact C.seq.pure (.is hb)
    | is hc =>
      exact C.seq.bind (run_xorVariables hc hb) fun _ _ h => C.seq.pure (.not h)
    | not hc =>
      exact C.seq.bind (run_xorVariables hb hc) fun _ _ h => C.seq.pure (.is h)

/-! ### Sums of words -/

theorem rel_weigh {bits bits' : List Boolean} (h : Forall₂ C.BitRel bits bits') (coeff : F) :
    (weigh coeff bits).Rel C.Vars (weigh coeff bits') := by
  induction h generalizing coeff with
  | nil => exact .nil
  | cons hb _ ih => exact rel_append (hb.lc.scale coeff) (ih _)

theorem isSome_mapM {f : α → Option β} {l : List α} (h : ∀ a ∈ l, (f a).isSome) :
    (l.mapM f).isSome := by
  induction l with
  | nil => rfl
  | cons a l ih =>
    obtain ⟨b, hb⟩ := Option.isSome_iff_exists.1 (h a mem_cons_self)
    obtain ⟨bs, hbs⟩ := Option.isSome_iff_exists.1 (ih fun x hx => h x (mem_cons_of_mem a hx))
    rw [mapM_cons, hb, hbs]
    rfl

theorem known_sum (h : ∀ w ∈ ws, ∀ b ∈ w.toList, Known μ b.value) :
    Known μ (List.sum <$> ws.mapM (wordValue ·.toList)) := by
  intro hμ
  have hwords : (ws.mapM (wordValue ·.toList)).isSome := by
    refine isSome_mapM fun w hw => ?_
    rw [wordValue, Option.map_eq_map, Option.isSome_map]
    exact isSome_mapM fun b hb => h w hw b hb hμ
  rw [Option.map_eq_map, Option.isSome_map]
  exact hwords

theorem run_sumBits {v v' : Option ℕ} (hws : Forall₂ (VecRel C.BitRel) ws ws') (h : Known μ v)
    (h' : Known μ' v') :
    C.seq.Run (VecRel C.BitRel) (sumBits ws v : Synth F _) (sumBits ws' v' : Synth F _) := by
  have hbit : ∀ i, C.seq.Run C.AllocatedRel
      (newWitness (v.map (·.testBit i)) : Synth F AllocatedBit)
      (newWitness (v'.map (·.testBit i)) : Synth F AllocatedBit) := fun i =>
    run_newWitness (fun hμ => by simpa using h hμ) (fun hμ => by simpa using h' hμ)
  have hlow := C.seq.ofFnM fun i : Fin 32 => hbit i
  have hhigh : C.seq.Run (Forall₂ C.AllocatedRel)
      ((List.range (numCarries ws'.length)).mapM fun i =>
        (newWitness (v.map (·.testBit (32 + i))) : Synth F AllocatedBit))
      ((List.range (numCarries ws'.length)).mapM fun i =>
        (newWitness (v'.map (·.testBit (32 + i))) : Synth F AllocatedBit)) := by
    refine C.seq.mapM (R := Eq) ?_ (forall₂_same.2 fun _ _ => rfl)
    rintro i _ rfl
    exact hbit (32 + i)
  unfold sumBits
  rw [hws.length_eq]
  refine C.seq.bind hlow fun low low' hlow => ?_
  refine C.seq.bind hhigh fun high high' hhigh => ?_
  refine C.seq.bind (run_enforceConstraint .nil .nil ?_) fun _ _ _ => C.seq.pure ?_
  · have hres : Forall₂ C.BitRel ((low.toList ++ high).map Boolean.is)
        ((low'.toList ++ high').map Boolean.is) :=
      forall₂_map_left_iff.2 (forall₂_map_right_iff.2
        ((rel_append (hlow.toList) hhigh).imp fun _ _ ha => .is ha))
    refine rel_append ?_ ((rel_weigh hres 1).scale (-1))
    exact rel_flatMap hws fun _ _ hw => rel_weigh (hw.toList) 1
  · intro i hi
    rw [Vector.getElem_map, Vector.getElem_map]
    exact .is (hlow i hi)

theorem BitRel.eq_of_isConstant (h : C.BitRel b b') (hb : b.isConstant) :
    b = b' := by
  cases h with
  | constant b => rfl
  | is h => exact absurd hb (by simp [Boolean.isConstant])
  | not h => exact absurd hb (by simp [Boolean.isConstant])

theorem allConstant_congr (hws : Forall₂ (VecRel C.BitRel) ws ws') :
    allConstant ws = allConstant ws' := by
  have hword : ∀ {bits bits' : List Boolean}, Forall₂ C.BitRel bits bits' →
      bits.all Boolean.isConstant = bits'.all Boolean.isConstant := by
    intro bits bits' h
    induction h with
    | nil => rfl
    | cons hb _ ih => rw [all_cons, all_cons, hb.isConstant, ih]
  unfold allConstant
  induction hws with
  | nil => rfl
  | cons hw _ ih => rw [all_cons, all_cons, hword (hw.toList), ih]

theorem eq_of_allConstant (hws : Forall₂ (VecRel C.BitRel) ws ws') (hall : allConstant ws = true) :
    ws = ws' := by
  unfold allConstant at hall
  induction hws with
  | nil => rfl
  | cons hw _ ih =>
    rw [all_cons, Bool.and_eq_true] at hall
    rw [ih hall.2]
    congr 1
    refine Vector.ext fun i hi => (hw i hi).eq_of_isConstant ?_
    exact all_eq_true.1 hall.1 _ (by simp)

theorem isSome_of_allConstant (hall : allConstant ws = true) :
    (List.sum <$> ws.mapM (wordValue ·.toList)).isSome := by
  refine known_sum (μ := .prove) (fun w hw b hb _ => ?_) rfl
  have hbit : b.isConstant = true := all_eq_true.1 (all_eq_true.1 hall w hw) b hb
  cases b with
  | constant b => rfl
  | is a => exact absurd hbit (by simp [Boolean.isConstant])
  | not a => exact absurd hbit (by simp [Boolean.isConstant])

theorem known_of_forall₂ (hws : Forall₂ (VecRel C.BitRel) ws ws') :
    (∀ w ∈ ws, ∀ b ∈ w.toList, Known μ b.value) ∧ ∀ w ∈ ws', ∀ b ∈ w.toList, Known μ' b.value := by
  induction hws with
  | nil => exact ⟨fun w hw => absurd hw (by simp), fun w hw => absurd hw (by simp)⟩
  | cons hw _ ih =>
    refine ⟨forall_mem_cons.2 ⟨fun b hb => ?_, ih.1⟩, forall_mem_cons.2 ⟨fun b hb => ?_, ih.2⟩⟩
    · obtain ⟨i, hi, rfl⟩ := getElem_of_mem hb
      exact (hw i (by simpa using hi)).known.1
    · obtain ⟨i, hi, rfl⟩ := getElem_of_mem hb
      exact (hw i (by simpa using hi)).known.2

theorem run_addmany (hws : Forall₂ (VecRel C.BitRel) ws ws') :
    C.seq.Run (VecRel C.BitRel) (addmany ws : Synth F _) (addmany ws' : Synth F _) := by
  by_cases hlen : ws.length = 1
  · -- a single word is passed on
    obtain ⟨x, rfl⟩ := length_eq_one_iff.1 hlen
    obtain ⟨y, rfl⟩ := length_eq_one_iff.1 (hws.length_eq.symm.trans hlen)
    exact C.seq.pure (forall₂_cons.1 hws).1
  · have hlen' : ws'.length ≠ 1 := hws.length_eq ▸ hlen
    cases hall : allConstant ws with
    | true =>
      obtain rfl := eq_of_allConstant hws hall
      obtain ⟨v, hv⟩ := Option.isSome_iff_exists.1 (isSome_of_allConstant hall)
      rw [addmany_of_allConstant hlen hall hv]
      refine C.seq.pure fun i hi => ?_
      rw [Vector.getElem_ofFn]
      exact .constant _
    | false =>
      have hall' : allConstant ws' = false := allConstant_congr hws ▸ hall
      rw [addmany_of_not_allConstant hlen hall, addmany_of_not_allConstant hlen' hall']
      obtain ⟨hknown, hknown'⟩ := known_of_forall₂ hws
      exact run_sumBits hws (known_sum hknown) (known_sum hknown')

/-- A coupling of states and variables is a simulation of the gadgets. -/
def simulation (C : Coupling F μ μ') : Simulation (Synth F) (Synth F) where
  toSequencing := C.seq
  Rel := C.BitRel
  constant := .constant
  not := BitRel.negate
  and := run_and
  xor := run_xor
  addmany := run_addmany

/-! ### The other gadgets -/

abbrev FpRel (C : Coupling F μ μ') : LinComb F → LinComb F → Prop :=
  LinComb.Rel C.Vars

theorem run_gadgetsNewWitness (b b' : Bool) :
    C.simulation.Run C.BitRel (Gadgets.newWitness (m := Synth F) b)
      (Gadgets.newWitness (m := Synth F) b') := by
  have hbit : C.seq.Run C.AllocatedRel (newWitness (some b) : Synth F _)
      (newWitness (some b') : Synth F _) := run_newWitness (fun _ => rfl) fun _ => rfl
  exact C.seq.bind hbit fun _ _ ha => C.seq.pure (BitRel.is ha)

theorem run_newWitnessBits {n : ℕ} (w w' : BitVec n) :
    C.simulation.Run (VecRel C.BitRel) (newWitnessBits w : Synth F _)
      (newWitnessBits w' : Synth F _) :=
  C.seq.ofFnM fun _ => run_gadgetsNewWitness _ _

theorem run_fpNewInput (x x' : F) :
    C.simulation.Run C.FpRel (Gadgets.fpNewInput (m := Synth F) x)
      (Gadgets.fpNewInput (m := Synth F) x') := by
  have hinput : C.seq.Run C.Vars (newInputVariable x) (newInputVariable x') := fun _ _ hcs =>
    ⟨_, _, _, _, rfl, rfl, C.input hcs, C.pushInput x x' hcs⟩
  exact C.seq.bind hinput fun _ _ hvar => C.seq.pure (.cons ⟨rfl, hvar⟩ .nil)

theorem run_fpNewWitness (x x' : F) :
    C.simulation.Run C.FpRel (Gadgets.fpNewWitness (m := Synth F) x)
      (Gadgets.fpNewWitness (m := Synth F) x') :=
  C.seq.bind (run_newWitnessVariable (fun _ => rfl) (fun _ => rfl)) fun _ _ hvar =>
    C.seq.pure (.cons ⟨rfl, hvar⟩ .nil)

theorem run_fpEnforceEqual (hx : C.FpRel x x') (hy : C.FpRel y y') :
    C.simulation.Run (fun _ _ => True) (Gadgets.fpEnforceEqual (m := Synth F) x y)
      (Gadgets.fpEnforceEqual (m := Synth F) x' y') :=
  run_enforceConstraint (rel_append hx (hy.scale (-1))) (.cons ⟨rfl, C.one⟩ .nil) .nil

theorem rel_leBitsToFp {bits bits' : List Boolean} (h : Forall₂ C.BitRel bits bits') :
    C.FpRel (leBitsToFp (Synth F) bits) (leBitsToFp (Synth F) bits') := by
  have hfold : ∀ (acc acc' : LinComb F) (coeff : F), C.FpRel acc acc' →
      C.FpRel (bits.foldl (fun acc bit => (Gadgets.fpAdd (m := Synth F) acc.1
        (Gadgets.fpScale (m := Synth F) acc.2 (Gadgets.fpOfBit (m := Synth F) bit)),
          acc.2 + acc.2)) (acc, coeff)).1
        (bits'.foldl (fun acc bit => (Gadgets.fpAdd (m := Synth F) acc.1
        (Gadgets.fpScale (m := Synth F) acc.2 (Gadgets.fpOfBit (m := Synth F) bit)),
          acc.2 + acc.2)) (acc', coeff)).1 := by
    induction h with
    | nil => exact fun _ _ _ hacc => hacc
    | cons hb _ ih =>
      intro acc acc' coeff hacc
      exact ih _ _ _ (rel_append hacc (hb.lc.scale coeff))
  exact hfold _ _ 1 (.cons ⟨rfl, C.one⟩ .nil)

/-! ### Two couplings -/

structure SameRows (μ μ' : SynthesisMode) (cs cs' : ConstraintSystem F) : Prop where
  mode : cs.mode = μ
  mode' : cs'.mode = μ'
  numInstance : cs.numInstance = cs'.numInstance
  numWitness : cs.numWitness = cs'.numWitness
  constraints : cs.constraints = cs'.constraints

variable (F) in
/-- The coupling of two runs that append the same rows, in their own modes. -/
def sameRows (μ μ' : SynthesisMode) : Coupling F μ μ' where
  States := SameRows μ μ'
  Vars := Eq
  one := rfl
  mode h := ⟨h.mode, h.mode'⟩
  witness h := congrArg Variable.witness h.numWitness
  input h := congrArg Variable.input h.numInstance
  pushWitness _ _ h := ⟨h.mode, h.mode', h.numInstance, congrArg (· + 1) h.numWitness,
    h.constraints⟩
  pushInput _ _ h := ⟨h.mode, h.mode', congrArg (· + 1) h.numInstance, h.numWitness, h.constraints⟩
  pushRow h hrow := ⟨h.mode, h.mode', h.numInstance, h.numWitness, by
    rw [ConstraintSystem.pushRow, ConstraintSystem.pushRow, h.constraints, hrow.eq]⟩

/-- **Two runs with the same rows** have the same matrices. -/
theorem exists_synthesize {x : Synth F α} {y : Synth F β} (h : (sameRows F μ μ').seq.Run R x y) :
    ∃ cs cs', synthesize μ (discard x) = .ok cs ∧ synthesize μ' (discard y) = .ok cs' ∧
      cs.toMatrices = cs'.toMatrices := by
  obtain ⟨a, t, b, t', hx, hy, -, hsame⟩ := h (.new F μ) (.new F μ') ⟨rfl, rfl, rfl, rfl, rfl⟩
  refine ⟨t, t', ?_, ?_, ?_⟩
  · change Except.map Prod.snd (x (.new F μ) >>= fun p => pure ((), p.2)) = _
    rw [hx]
    rfl
  · change Except.map Prod.snd (y (.new F μ') >>= fun p => pure ((), p.2)) = _
    rw [hy]
    rfl
  · rw [ConstraintSystem.toMatrices, ConstraintSystem.toMatrices, hsame.numInstance,
      hsame.numWitness, hsame.constraints]

end Coupling

/-! ### Constants -/

section Folding

variable {ws : List (Vector Boolean 32)} {ws' : List (Vector Bool 32)}

abbrev Boolean.Folds (b : Boolean) (b' : Bool) : Prop := b = .constant b'

theorem Boolean.Folds.negate {b : Boolean} {b' : Bool} (h : b.Folds b') : b.negate.Folds !b' := by
  rw [Boolean.Folds, h, Boolean.negate]

theorem Boolean.Folds.and {b c : Boolean} {b' c' : Bool} (hb : b.Folds b') (hc : c.Folds c') :
    (Synth.and b c : Synth F _) = pure (.constant (b' && c')) := by
  rw [hb, hc]
  cases b' <;> cases c' <;> rfl

theorem Boolean.Folds.xor {b c : Boolean} {b' c' : Bool} (hb : b.Folds b') (hc : c.Folds c') :
    (Synth.xor b c : Synth F _) = pure (.constant (b' ^^ c')) := by
  rw [hb, hc]
  cases b' <;> cases c' <;> rfl

theorem mapM_value {bits : List Boolean} {bits' : List Bool}
    (h : Forall₂ (fun b v => b.value = some v) bits bits') :
    bits.mapM Boolean.value = some bits' := by
  induction h with
  | nil => rfl
  | cons hb _ ih =>
    rw [mapM_cons, hb, ih]
    rfl

theorem mapM_wordValue (h : Forall₂ (VecRel fun b v => b.value = some v) ws ws') :
    ws.mapM (wordValue ·.toList) = some (ws'.map fun y => (word y).toNat) := by
  induction h with
  | nil => rfl
  | cons hw _ ih =>
    rw [mapM_cons, ih, wordValue, mapM_value hw.toList, map_cons, toNat_word]
    rfl

theorem ofNat_sum_toNat_word (ws : List (Vector Bool 32)) :
    BitVec.ofNat 32 (ws.map fun y => (word y).toNat).sum = (ws.map word).sum := by
  induction ws with
  | nil => rfl
  | cons w ws ih =>
    rw [map_cons, sum_cons, BitVec.ofNat_add, ih, BitVec.ofNat_toNat, BitVec.setWidth_eq,
      map_cons, sum_cons]

theorem allConstant_of_folds (h : Forall₂ (VecRel Boolean.Folds) ws ws') :
    allConstant ws = true := by
  unfold allConstant
  induction h with
  | nil => rfl
  | cons hw _ ih =>
    rw [all_cons, ih, Bool.and_true, all_eq_true]
    intro b hb
    obtain ⟨i, hi, rfl⟩ := getElem_of_mem hb
    rw [Vector.getElem_toList, hw i (by simpa using hi)]
    rfl

theorem addmany_of_folds (h : Forall₂ (VecRel Boolean.Folds) ws ws') :
    ∃ x, (addmany ws : Synth F _) = pure x ∧
      VecRel Boolean.Folds x (BoolGadgets.addmany ws' : Id _).run := by
  by_cases hlen : ws.length = 1
  · -- a single word is passed on
    obtain ⟨x, rfl⟩ := length_eq_one_iff.1 hlen
    obtain ⟨y, rfl⟩ := length_eq_one_iff.1 (h.length_eq.symm.trans hlen)
    refine ⟨x, rfl, fun i hi => ?_⟩
    rw [← getLsbD_word _ hi, word_addmany, map_singleton, sum_singleton, getLsbD_word _ hi]
    exact (forall₂_cons.1 h).1 i hi
  · have hsum := addmany_of_allConstant (F := F) hlen (allConstant_of_folds h)
      (by rw [mapM_wordValue (h.imp fun _ _ hw i hi => congrArg Boolean.value (hw i hi))]; rfl)
    refine ⟨_, hsum, fun i hi => ?_⟩
    rw [Vector.getElem_ofFn, ofNat_sum_toNat_word, ← word_addmany, getLsbD_word _ hi]

variable (F) in
/-- A program over constants is evaluated, without a row. -/
def folding : Simulation (Synth F) Id where
  Run R x y := ∀ cs, ∃ a, x cs = .ok (a, cs) ∧ R a y.run
  pure h := fun _ => ⟨_, rfl, h⟩
  bind := by
    intro _ _ _ _ R T x y f g hxy hfg cs
    obtain ⟨a, hx, ha⟩ := hxy cs
    obtain ⟨b, hf, hb⟩ := hfg a _ ha cs
    refine ⟨b, ?_, hb⟩
    change (x cs >>= fun p => f p.1 p.2) = _
    rw [hx]
    exact hf
  Rel := Boolean.Folds
  constant _ := rfl
  not := Boolean.Folds.negate
  and hb hc := fun cs => ⟨_, congrFun (hb.and hc) cs, rfl⟩
  xor hb hc := fun cs => ⟨_, congrFun (hb.xor hc) cs, rfl⟩
  addmany h := fun cs => by
    obtain ⟨x, hx, hfolds⟩ := addmany_of_folds (F := F) h
    exact ⟨x, congrFun hx cs, hfolds⟩

end Folding

end Ark
