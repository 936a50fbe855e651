import TlsAttestation.Lib.Keeping

/-!
# What the sums of a run reveal

Only the row of a sum of words has an empty second factor. So the sums can be picked out of the
matrices, and what a sum adds of constants is the coefficient of the constant one in its row
(`Ark.Matrices.sums`). `Ark.Emits` says what a run adds to that list.
-/

namespace Ark

open ByteEncoding LinComb
open List hiding Vector

variable {F : Type} [CommRing F]

/-! ### The list of sums -/

open Classical in
/-- **The constants of the sums** of a run, in order. -/
noncomputable def Matrices.sums (M : Matrices F) : List F :=
  M.rows.filterMap fun row => if row.2.1 = 0 then some (row.2.2 .one) else none

namespace ConstraintSystem

variable {cs : ConstraintSystem F}

noncomputable def sums (cs : ConstraintSystem F) : List F := cs.toMatrices.sums

theorem sums_congr {cs' : ConstraintSystem F} (h : cs.constraints = cs'.constraints) :
    cs.sums = cs'.sums := by
  rw [sums, sums, toMatrices, toMatrices, h]
  rfl

theorem sums_pushRow_of_ne {row : Constraint F} (h : row.b.coeff ≠ 0) :
    (cs.pushRow row).sums = cs.sums := by
  simp [sums, Matrices.sums, toMatrices, pushRow, Constraint.coeffs, h]

theorem sums_pushRow_of_eq {row : Constraint F} (h : row.b.coeff = 0) :
    (cs.pushRow row).sums = cs.sums ++ [row.c.coeff .one] := by
  simp [sums, Matrices.sums, toMatrices, pushRow, Constraint.coeffs, h]

end ConstraintSystem

/-! ### Runs that add to it -/

section

variable {α β : Type} (x : Synth F α)

/-- **If the run ends well**, it has appended these sums. -/
def Emits (Q : α → List F → Prop) : Prop :=
  ∀ ⦃cs a t⦄, x cs = .ok (a, t) → ∃ l, t.sums = cs.sums ++ l ∧ Q a l

/-- The run appends no sum. -/
def Silent (P : α → Prop) : Prop := Emits x fun a l => l = [] ∧ P a

omit [CommRing F] in
theorem exists_of_synthesize_eq_ok {μ : SynthesisMode} {x : Synth F α} {cs : ConstraintSystem F}
    (h : synthesize μ (discard x) = .ok cs) : ∃ a, x (.new F μ) = .ok (a, cs) := by
  change Except.map Prod.snd (x (.new F μ) >>= fun p => pure ((), p.2)) = _ at h
  cases hx : x (.new F μ) with
  | error e => rw [hx] at h; exact absurd h (by simp [bind, Except.bind, Except.map])
  | ok p =>
    rw [hx] at h
    obtain rfl : p.2 = cs := Except.ok.inj h
    exact ⟨p.1, rfl⟩

namespace Emits

variable {x : Synth F α} {f : α → Synth F β} {P Q : α → List F → Prop}

theorem mono (h : Emits x P) (hPQ : ∀ a l, P a l → Q a l) : Emits x Q := by
  intro cs a t hrun
  obtain ⟨l, hl, ha⟩ := h hrun
  exact ⟨l, hl, hPQ a l ha⟩

theorem pure {a : α} (h : Q a []) : Emits (pure a : Synth F α) Q := by
  rintro cs _ _ ⟨⟩
  exact ⟨[], (append_nil _).symm, h⟩

theorem bind {T : β → List F → Prop} (hx : Emits x P)
    (hf : ∀ a l, P a l → Emits (f a) fun b l' => T b (l ++ l')) : Emits (x >>= f) T := by
  intro cs b u hrun
  obtain ⟨a, t, hrun₁, hrun₂⟩ := exists_of_bind_eq_ok hrun
  obtain ⟨l, hl, ha⟩ := hx hrun₁
  obtain ⟨l', hl', hb⟩ := hf a l ha hrun₂
  exact ⟨l ++ l', by rw [hl', hl, append_assoc], hb⟩

end Emits

namespace Silent

variable {x : Synth F α} {f : α → Synth F β} {P P' : α → Prop}

theorem mono (h : Silent x P) (hP : ∀ a, P a → P' a) : Silent x P' :=
  Emits.mono h fun a _ ha => ⟨ha.1, hP a ha.2⟩

theorem pure {a : α} (h : P a) : Silent (pure a : Synth F α) P := Emits.pure ⟨rfl, h⟩

theorem bind {T : β → List F → Prop} (hx : Silent x P) (hf : ∀ a, P a → Emits (f a) T) :
    Emits (x >>= f) T := by
  refine Emits.bind hx ?_
  rintro a _ ⟨rfl, ha⟩
  exact hf a ha

theorem map {g : α → β} {T : β → Prop} (hx : Silent x P) (hg : ∀ a, P a → T (g a)) :
    Silent (g <$> x) T := by
  rw [← bind_pure_comp]
  exact hx.bind fun a ha => Silent.pure (hg a ha)

theorem ofFnM {n : ℕ} {f : Fin n → Synth F α} {P : Fin n → α → Prop} (h : ∀ i, Silent (f i) (P i)) :
    Silent (Vector.ofFnM f) fun x => ∀ i (hi : i < n), P ⟨i, hi⟩ x[i] := by
  induction n with
  | zero =>
    rw [Vector.ofFnM_zero]
    exact Silent.pure fun i hi => absurd hi (Nat.not_lt_zero i)
  | succ n ih =>
    rw [Vector.ofFnM_succ]
    refine (ih fun i => h i.castSucc).bind fun x hx => (h (Fin.last n)).bind fun a ha => ?_
    refine Silent.pure fun i hi => ?_
    rw [Vector.getElem_push]
    split
    · exact hx i _
    · obtain rfl : i = n := by omega
      exact ha

theorem mapM {f : α → Synth F β} {P : β → Prop} (h : ∀ a, Silent (f a) P) (l : List α) :
    Silent (l.mapM f) fun bs => ∀ b ∈ bs, P b := by
  induction l with
  | nil =>
    rw [mapM_nil]
    exact Silent.pure (by simp)
  | cons a l ih =>
    rw [mapM_cons]
    refine (h a).bind fun b hb => ih.bind fun bs hbs => Silent.pure ?_
    exact forall_mem_cons.2 ⟨hb, hbs⟩

end Silent

/-! ### Bits -/

namespace Boolean

/-- The variable of a bit is not the constant one. -/
inductive Proper : Boolean → Prop
  | constant (b : Bool) : Proper (.constant b)
  | is {a : AllocatedBit} (h : a.var ≠ .one) : Proper (.is a)
  | not {a : AllocatedBit} (h : a.var ≠ .one) : Proper (.not a)

variable {b : Boolean}

theorem Proper.negate (h : b.Proper) : b.negate.Proper := by
  cases h with
  | constant _ => exact .constant _
  | is h => exact .not h
  | not h => exact .is h

inductive Plain : Boolean → Prop
  | is {a : AllocatedBit} (h : a.var ≠ .one) : Plain (.is a)

theorem Plain.proper (h : b.Plain) : b.Proper := by
  cases h with
  | is h => exact .is h

variable (F) in
def offset (b : Boolean) : F := (b.lc F).coeff .one

@[simp] theorem offset_constant (b : Bool) : (constant b).offset F = if b then 1 else 0 := by
  cases b <;> simp [offset, lc]

theorem offset_is {a : AllocatedBit} (h : a.var ≠ .one) : (Boolean.is a).offset F = 0 := by
  simp [offset, lc, h]

theorem offset_not {a : AllocatedBit} (h : a.var ≠ .one) : (Boolean.not a).offset F = 1 := by
  simp [offset, lc, h]

theorem Plain.offset (h : b.Plain) : b.offset F = 0 := by
  cases h with
  | is h => exact offset_is h

theorem Plain.isConstant (h : b.Plain) : b.isConstant = false := by
  cases h with
  | is _ => rfl

abbrev OffsetIs (F : Type) [CommRing F] (b : Boolean) (v : Bool) : Prop :=
  b.offset F = if v then 1 else 0

end Boolean

end

/-! ### Allocation -/

namespace Synth

theorem coeff_ne_zero {lc : LinComb F} {v : Variable} {k : F}
    (h : lc.coeff v = k) (hk : k ≠ 0) : lc.coeff ≠ 0 := by
  intro hzero
  exact hk (by rw [← h, hzero, Pi.zero_apply])

theorem silent_newWitnessVariable (v : Option F) : Silent (newWitnessVariable v) (· ≠ .one) := by
  rintro cs a t hrun
  cases v with
  | some x =>
    obtain ⟨rfl, rfl⟩ : .witness cs.numWitness = a ∧ cs.pushWitness x = t := by
      simpa [newWitnessVariable] using hrun
    exact ⟨[], (append_nil _).symm, rfl, by simp⟩
  | none =>
    cases hmode : cs.mode with
    | setup =>
      obtain ⟨rfl, rfl⟩ : .witness cs.numWitness = a ∧
          { cs with numWitness := cs.numWitness + 1 } = t := by
        simpa [newWitnessVariable, hmode] using hrun
      exact ⟨[], (append_nil _).symm, rfl, by simp⟩
    | prove => exact absurd hrun (by simp [newWitnessVariable, hmode])

theorem silent_get : Silent (get : Synth F _) fun _ => True := by
  rintro cs _ _ ⟨⟩
  exact ⟨[], (append_nil _).symm, rfl, trivial⟩

theorem silent_enforceConstraint {a b c : LinComb F} (h : b.coeff ≠ 0) :
    Silent (enforceConstraint a b c) fun _ => True := by
  rintro cs _ _ ⟨⟩
  exact ⟨[], by rw [ConstraintSystem.sums_pushRow_of_ne h, append_nil], rfl, trivial⟩

/-- **A row without a second factor** is a sum. -/
theorem emits_enforceConstraint_nil (a c : LinComb F) :
    Emits (enforceConstraint a [] c) fun _ l => l = [c.coeff .one] := by
  rintro cs _ _ ⟨⟩
  exact ⟨_, ConstraintSystem.sums_pushRow_of_eq rfl, rfl⟩

theorem silent_newWitnessWithoutBooleanityCheck (v : Option Bool) :
    Silent (newWitnessWithoutBooleanityCheck v : Synth F _) fun a => a.var ≠ .one :=
  (silent_newWitnessVariable _).bind fun _ hvar => silent_get.bind fun _ _ => Silent.pure hvar

variable [Nontrivial F]

theorem coeff_single_ne_zero (v : Variable) : coeff ([(1, v)] : LinComb F) ≠ 0 :=
  coeff_ne_zero (v := v) (k := 1) (by simp) one_ne_zero

theorem silent_newWitness (v : Option Bool) :
    Silent (newWitness v : Synth F _) fun a => a.var ≠ .one :=
  (silent_newWitnessWithoutBooleanityCheck v).bind fun a ha =>
    (silent_enforceConstraint (coeff_single_ne_zero a.var)).bind fun _ _ => Silent.pure ha

/-! ### The Boolean gadgets -/

omit [Nontrivial F] in
theorem silent_product {x y : LinComb F} (hy : y.coeff ≠ 0) (v : Option Bool) :
    Silent (product x y v) Boolean.Plain :=
  (silent_newWitnessWithoutBooleanityCheck v).bind fun _ ha =>
    (silent_enforceConstraint hy).bind fun _ _ => Silent.pure (.is ha)

variable (a b : AllocatedBit)

theorem silent_xorVariables :
    Silent (xorVariables a b : Synth F _) fun c => c.var ≠ .one :=
  (silent_newWitnessWithoutBooleanityCheck _).bind fun _ hc =>
    (silent_enforceConstraint (coeff_single_ne_zero b.var)).bind fun _ _ => Silent.pure hc

theorem coeff_lc_not_ne_zero {a : AllocatedBit} (h : a.var ≠ .one) :
    ((Boolean.not a).lc F).coeff ≠ 0 :=
  coeff_ne_zero (v := .one) (k := 1) (Boolean.offset_not h) one_ne_zero

/-- **A conjunction of variables** is a fresh variable. -/
theorem silent_and_is :
    Silent (and (.is a) (.is b) : Synth F _) Boolean.Plain :=
  silent_product (coeff_single_ne_zero b.var) _

theorem silent_and_not {a : AllocatedBit} (ha : a.var ≠ .one) (b : AllocatedBit) :
    Silent (and (.not a) (.is b) : Synth F _) Boolean.Plain :=
  silent_product (coeff_lc_not_ne_zero ha) _

theorem silent_and {b c : Boolean} (hb : b.Proper) (hc : c.Proper) :
    Silent (and b c : Synth F _) Boolean.Proper := by
  refine and_cases (P := (Silent · Boolean.Proper)) b c (fun _ => Silent.pure (.constant false))
    (fun _ => Silent.pure hc) (fun _ => Silent.pure hb) fun x y _ hy hxy => ?_
  have hproper : y.Proper := by
    rcases hxy with ⟨-, rfl⟩ | ⟨-, rfl⟩
    · exact hc
    · exact hb
  refine (silent_product ?_ _).mono fun _ => Boolean.Plain.proper
  cases hproper with
  | constant _ => cases hy
  | is _ => exact coeff_single_ne_zero _
  | not h => exact coeff_lc_not_ne_zero h

/-- **An exclusive or of variables** is a fresh variable, or its negation. -/
theorem silent_xor_is :
    Silent (xor (.is a) (.is b) : Synth F _) Boolean.Plain :=
  (silent_xorVariables a b).map fun _ hc => .is hc

theorem silent_xor_plain {b c : Boolean} (hb : b.Plain) (hc : c.Plain) :
    Silent (xor b c : Synth F _) Boolean.Plain := by
  cases hb with
  | is _ =>
    cases hc with
    | is _ => exact silent_xor_is _ _

theorem silent_xor_not :
    Silent (xor (.is a) (.not b) : Synth F _) fun c => ∃ v, c = .not v ∧ v.var ≠ .one :=
  (silent_xorVariables a b).map fun c hc => ⟨c, rfl, hc⟩

theorem silent_xor {b c : Boolean} (hb : b.Proper) (hc : c.Proper) :
    Silent (xor b c : Synth F _) Boolean.Proper := by
  refine xor_cases (P := (Silent · Boolean.Proper)) b c (fun k _ => Silent.pure ?_)
    (fun k _ => Silent.pure ?_) fun n n' a a' _ => (silent_xorVariables a a').map fun d hd => ?_
  · cases k
    · exact hc
    · exact hc.negate
  · cases k
    · exact hb
    · exact hb.negate
  · cases n ^^ n'
    · exact .is hd
    · exact .not hd

/-! ### Sums of words -/

variable {bits : List Boolean}

omit [Nontrivial F] in
/-- **Weighted bits**, under any linear function of a combination. -/
theorem map_weigh (f : LinComb F → F) (hnil : f [] = 0)
    (hadd : ∀ x y, f (x ++ y) = f x + f y) (hscale : ∀ k x, f (scale k x) = k * f x)
    {vs : List Bool} (h : Forall₂ (fun b v => f (b.lc F) = if v then 1 else 0) bits vs) (k : F) :
    f (weigh k bits) = k * (ofLeBits vs : F) := by
  induction h generalizing k with
  | nil => simp [weigh, ofLeBits, hnil]
  | @cons b v _ _ hb _ ih =>
    have hv : (if v then 1 else 0 : F) = ((v.toNat : ℕ) : F) := by cases v <;> simp
    rw [weigh, hadd, hscale, ih, ofLeBits, hb, hv]
    push_cast
    ring

omit [Nontrivial F] in
theorem coeff_weigh {vs : List Bool} (h : Forall₂ (Boolean.OffsetIs F) bits vs) (k : F) :
    (weigh k bits).coeff .one = k * (ofLeBits vs : F) :=
  map_weigh (coeff · .one) rfl (fun _ _ => coeff_append _ _) (fun _ _ => coeff_scale _ _) h k

omit [Nontrivial F] in
theorem coeff_weigh_of_plain (h : ∀ b ∈ bits, b.Plain) (k : F) :
    (weigh k bits).coeff .one = 0 := by
  induction bits generalizing k with
  | nil => rfl
  | cons b bits ih =>
    obtain ⟨hb, hbits⟩ := forall_mem_cons.1 h
    have hoff : (b.lc F).coeff .one = 0 := hb.offset
    rw [weigh, coeff_append, coeff_scale, hoff, ih hbits, mul_zero, add_zero]

end Synth

def PlainWord (x : Vector Boolean 32) : Prop := ∀ i (h : i < 32), x[i].Plain

def ProperWord (x : Vector Boolean 32) : Prop := ∀ i (h : i < 32), x[i].Proper

variable {x : Vector Boolean 32}

theorem PlainWord.properWord (hx : PlainWord x) : ProperWord x :=
  fun i hi => (hx i hi).proper

theorem properWord_constBits (w : BitVec 32) : ProperWord (constBits (Synth F) w) := by
  intro i hi
  rw [constBits, Vector.getElem_ofFn]
  exact .constant _

theorem PlainWord.rotr (hx : PlainWord x) (k : ℕ) :
    PlainWord (Ark.rotr x k) := by
  intro i hi
  rw [Ark.rotr, Vector.getElem_ofFn]
  exact hx _ _

variable (F) in
def wordOffset (x : Vector Boolean 32) : F := (Synth.weigh 1 x.toList).coeff .one

theorem wordOffset_eq {w : BitVec 32} (h : ∀ i (hi : i < 32), x[i].OffsetIs F (w.getLsbD i)) :
    wordOffset F x = (w.toNat : F) := by
  have hvs : VecRel (Boolean.OffsetIs F) x (constBits Id w) := by
    intro i hi
    rw [constBits, Vector.getElem_ofFn]
    exact h i hi
  rw [wordOffset, Synth.coeff_weigh hvs.toList, one_mul, ← toNat_word, word_constBits]

theorem wordOffset_congr {μ μ' : SynthesisMode} {y : Vector Boolean 32}
    (h : VecRel (Coupling.sameRows F μ μ').BitRel x y) : wordOffset F x = wordOffset F y := by
  rw [wordOffset, wordOffset, (Coupling.rel_weigh h.toList 1).eq]

/-- **A constant word** is its own offset. -/
theorem wordOffset_constBits (w : BitVec 32) :
    wordOffset F (constBits (Synth F) w) = (w.toNat : F) := by
  refine wordOffset_eq fun i hi => ?_
  rw [constBits, Vector.getElem_ofFn]
  exact Boolean.offset_constant _

theorem PlainWord.wordOffset (h : PlainWord x) : wordOffset F x = 0 := by
  refine Synth.coeff_weigh_of_plain (fun b hb => ?_) 1
  obtain ⟨i, hi, rfl⟩ := getElem_of_mem hb
  exact h i (by simpa using hi)

variable (ws : List (Vector Boolean 32))

theorem coeff_flatMap_weigh :
    coeff (ws.flatMap fun x => Synth.weigh (1 : F) x.toList) .one =
      (ws.map (wordOffset F)).sum := by
  induction ws with
  | nil => rfl
  | cons x ws ih =>
    rw [flatMap_cons, coeff_append, ih, map_cons, sum_cons, wordOffset]

namespace Synth

variable [Nontrivial F]

theorem silent_xorBits {x y : Vector Boolean 32} (hx : PlainWord x) (hy : PlainWord y) :
    Silent (xorBits x y : Synth F _) PlainWord := by
  refine Silent.ofFnM (F := F) (P := fun _ => Boolean.Plain) fun i => ?_
  exact silent_xor_plain (hx i i.isLt) (hy i i.isLt)

/-- **A sum** emits what its words have of the constant one. -/
theorem emits_sumBits (ws : List (Vector Boolean 32)) (v : Option ℕ) :
    Emits (sumBits ws v) fun x l => PlainWord x ∧ l = [(ws.map (wordOffset F)).sum] := by
  refine (Silent.ofFnM fun i => silent_newWitness _).bind fun low hlow =>
    (Silent.mapM (fun i => silent_newWitness _) _).bind fun high hhigh =>
    (emits_enforceConstraint_nil _ _).bind ?_
  rintro _ _ rfl
  refine Emits.pure ⟨fun i hi => ?_, ?_⟩
  · rw [Vector.getElem_map]
    exact .is (hlow i hi)
  · -- the bits of the result have nothing of the constant one
    have hplain : ∀ b ∈ (low.toList ++ high).map Boolean.is, b.Plain := by
      intro b hb
      obtain ⟨a, ha, rfl⟩ := mem_map.1 hb
      rcases mem_append.1 ha with ha | ha
      · obtain ⟨i, hi, rfl⟩ := getElem_of_mem ha
        exact .is (hlow i (by simpa using hi))
      · exact .is (hhigh a ha)
    rw [append_nil, coeff_append, coeff_neg,
      coeff_weigh_of_plain hplain, neg_zero, add_zero, coeff_flatMap_weigh]

/-- A sum of words of which one is not constant. -/
theorem emits_addmany {ws : List (Vector Boolean 32)} (hlen : ws.length ≠ 1)
    {x : Vector Boolean 32} (hx : x ∈ ws) (hplain : PlainWord x) :
    Emits (addmany ws) fun y l => PlainWord y ∧ l = [(ws.map (wordOffset F)).sum] := by
  have hall : allConstant ws = false := by
    rw [Bool.eq_false_iff]
    intro hall
    have hconst := all_eq_true.1 (all_eq_true.1 hall x hx) x[0] (by simp)
    exact Bool.false_ne_true ((hplain 0 (by decide)).isConstant.symm.trans hconst)
  rw [addmany_of_not_allConstant hlen hall]
  exact emits_sumBits ws _

end Synth

/-! ### Growth -/

/-- The list only grows. -/
def Grows {α : Type} (x : Synth F α) : Prop := Emits x fun _ _ => True

namespace Grows

variable {α β : Type} {x : Synth F α} {f : α → Synth F β}

theorem of_emits {Q : α → List F → Prop} (h : Emits x Q) : Grows x := h.mono fun _ _ _ => trivial

theorem pure (a : α) : Grows (pure a : Synth F α) := Emits.pure trivial

theorem bind (hx : Grows x) (hf : ∀ a, Grows (f a)) : Grows (x >>= f) :=
  Emits.bind hx fun a _ _ => hf a

theorem andThen {T : β → Prop} (hx : Grows x) (hf : ∀ a, Emits (f a) fun b _ => T b) :
    Emits (x >>= f) fun b _ => T b :=
  Emits.bind hx fun a _ _ => hf a

theorem isPrefix (hx : Grows x) {cs t : ConstraintSystem F} {a : α} (h : x cs = .ok (a, t)) :
    cs.sums <+: t.sums := by
  obtain ⟨l, hl, -⟩ := hx h
  exact ⟨l, hl.symm⟩

end Grows

theorem Grows.of_keeps {α : Type} {x : Synth F α} (h : Synth.Keeps x) : Grows x := by
  intro cs a t hrun
  obtain ⟨l, hl⟩ := ((h hrun).rows.map Constraint.coeffs).filterMap _
  exact ⟨l, hl.symm, trivial⟩

theorem grows_addmany :
    Grows (Synth.addmany ws : Synth F _) :=
  .of_keeps (Synth.keeps_addmany ws)

end Ark
