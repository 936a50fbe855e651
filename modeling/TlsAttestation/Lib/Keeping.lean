import TlsAttestation.Lib.Coupling

/-!
# Runs that only append

The assignments and the rows of a system begin those of every later one (`Ark.Synth.Keeps`). A
program keeps by its type (`Ark.Keeping`), so that whatever comes after a step is known to keep what
the step has done. Read this way, a program does what it does as a synthesis (`Ark.forget`).
-/

namespace Ark

open List hiding Vector

variable {F : Type}

structure ConstraintSystem.Kept (cs t : ConstraintSystem F) : Prop where
  inputs : cs.instanceAssignment <+: t.instanceAssignment
  witnesses : cs.witnessAssignment <+: t.witnessAssignment
  rows : cs.constraints <+: t.constraints

theorem ConstraintSystem.Kept.refl (cs : ConstraintSystem F) : cs.Kept cs :=
  ⟨prefix_rfl, prefix_rfl, prefix_rfl⟩

theorem ConstraintSystem.Kept.trans {cs t u : ConstraintSystem F} (h : cs.Kept t) (h' : t.Kept u) :
    cs.Kept u :=
  ⟨h.inputs.trans h'.inputs, h.witnesses.trans h'.witnesses, h.rows.trans h'.rows⟩

variable {α β : Type}

theorem exists_of_bind_eq_ok {x : Synth F α} {f : α → Synth F β} {cs u : ConstraintSystem F}
    {b : β} (h : (x >>= f) cs = .ok (b, u)) : ∃ a t, x cs = .ok (a, t) ∧ f a t = .ok (b, u) := by
  change (x cs >>= fun p => f p.1 p.2) = _ at h
  cases hx : x cs with
  | error e => rw [hx] at h; exact absurd h (by simp [bind, Except.bind])
  | ok p => rw [hx] at h; exact ⟨p.1, p.2, rfl, h⟩

namespace Synth

/-- **If the run ends well**, what was there is kept. -/
def Keeps (x : Synth F α) : Prop := ∀ ⦃cs a t⦄, x cs = .ok (a, t) → cs.Kept t

theorem keeps_pure (a : α) : Keeps (pure a : Synth F α) := by
  rintro cs _ _ ⟨⟩
  exact .refl cs

theorem Keeps.bind {x : Synth F α} {f : α → Synth F β} (hx : Keeps x)
    (hf : ∀ a, Keeps (f a)) : Keeps (x >>= f) := by
  intro cs b u h
  obtain ⟨a, t, hrun, hrun'⟩ := exists_of_bind_eq_ok h
  exact (hx hrun).trans (hf a hrun')

theorem Keeps.map {x : Synth F α} (hx : Keeps x) (f : α → β) : Keeps (f <$> x) := by
  rw [← bind_pure_comp]
  exact hx.bind fun a => keeps_pure (f a)

theorem Keeps.ofFnM {n : ℕ} {f : Fin n → Synth F α} (h : ∀ i, Keeps (f i)) :
    Keeps (Vector.ofFnM f) := by
  induction n with
  | zero =>
    rw [Vector.ofFnM_zero]
    exact keeps_pure _
  | succ n ih =>
    rw [Vector.ofFnM_succ]
    exact (ih fun i => h i.castSucc).bind fun _ => (h (Fin.last n)).bind fun _ => keeps_pure _

theorem Keeps.mapM {f : α → Synth F β} (h : ∀ a, Keeps (f a)) (l : List α) :
    Keeps (l.mapM f) := by
  induction l with
  | nil =>
    rw [mapM_nil]
    exact keeps_pure _
  | cons a l ih =>
    rw [mapM_cons]
    exact (h a).bind fun _ => ih.bind fun _ => keeps_pure _

/-! ### The gadgets -/

theorem kept_pushWitness (cs : ConstraintSystem F) (x : F) : cs.Kept (cs.pushWitness x) := by
  refine ⟨prefix_rfl, ?_, prefix_rfl⟩
  rw [ConstraintSystem.pushWitness]
  cases cs.mode
  · exact prefix_rfl
  · exact prefix_append _ _

theorem keeps_newInputVariable (x : F) : Keeps (newInputVariable x) := by
  rintro cs _ _ ⟨⟩
  refine ⟨?_, prefix_rfl, prefix_rfl⟩
  rw [ConstraintSystem.pushInput]
  cases cs.mode
  · exact prefix_rfl
  · exact prefix_append _ _

theorem keeps_newWitnessVariable (v : Option F) : Keeps (newWitnessVariable v) := by
  intro cs a t h
  cases v with
  | some x =>
    obtain ⟨-, rfl⟩ := Prod.mk.inj (Except.ok.inj h)
    exact kept_pushWitness cs x
  | none =>
    simp only [newWitnessVariable] at h
    split at h
    · obtain ⟨-, rfl⟩ := Prod.mk.inj (Except.ok.inj h)
      exact ⟨prefix_rfl, prefix_rfl, prefix_rfl⟩
    · cases h

theorem keeps_enforceConstraint (a b c : LinComb F) :
    Keeps (enforceConstraint a b c) := by
  rintro cs _ _ ⟨⟩
  exact ⟨prefix_rfl, prefix_rfl, prefix_append _ _⟩

variable [CommRing F]

theorem keeps_newWitnessWithoutBooleanityCheck (v : Option Bool) :
    Keeps (newWitnessWithoutBooleanityCheck v : Synth F _) := by
  refine (keeps_newWitnessVariable _).bind fun var => Keeps.bind ?_ fun _ => keeps_pure _
  rintro cs _ _ ⟨⟩
  exact .refl cs

theorem keeps_newWitness (v : Option Bool) : Keeps (newWitness v : Synth F _) :=
  (keeps_newWitnessWithoutBooleanityCheck v).bind fun _ =>
    (keeps_enforceConstraint _ _ _).bind fun _ => keeps_pure _

theorem keeps_and (b c : Boolean) : Keeps (and b c : Synth F _) := by
  have hprod (x y : LinComb F) (v : Option Bool) : Keeps (product x y v) :=
    (keeps_newWitnessWithoutBooleanityCheck v).bind fun _ =>
      (keeps_enforceConstraint _ _ _).bind fun _ => keeps_pure _
  unfold and
  split
  all_goals first
    | exact keeps_pure _
    | exact hprod _ _ _

theorem keeps_xor (b c : Boolean) : Keeps (xor b c : Synth F _) := by
  have hvars (a b : AllocatedBit) : Keeps (xorVariables a b : Synth F _) :=
    (keeps_newWitnessWithoutBooleanityCheck _).bind fun _ =>
      (keeps_enforceConstraint _ _ _).bind fun _ => keeps_pure _
  unfold xor
  split
  all_goals first
    | exact keeps_pure _
    | exact (hvars _ _).map _

theorem keeps_addmany (ws : List (Vector Boolean 32)) : Keeps (addmany ws : Synth F _) := by
  have hsum (v : Option ℕ) : Keeps (sumBits ws v : Synth F _) :=
    (Keeps.ofFnM fun _ => keeps_newWitness _).bind fun _ =>
      (Keeps.mapM (fun _ => keeps_newWitness _) _).bind fun _ =>
        (keeps_enforceConstraint _ _ _).bind fun _ => keeps_pure _
  unfold addmany
  split
  · exact keeps_pure _
  · dsimp only
    split
    · exact keeps_pure _
    · exact hsum _

end Synth

open Synth

/-! ### Programs that keep by their type -/

/-- Syntheses that only append: rows and values that were there stay. -/
def Keeping (F α : Type) : Type := {x : Synth F α // Keeps x}

namespace Keeping

instance : Monad (Keeping F) where
  pure a := ⟨pure a, keeps_pure a⟩
  bind x f := ⟨x.1 >>= fun a => (f a).1, x.2.bind fun a => (f a).2⟩

instance : LawfulMonad (Keeping F) :=
  LawfulMonad.mk' _ (fun x => Subtype.ext (bind_pure x.1)) (fun a f => Subtype.ext (pure_bind a _))
    (fun x _ _ => Subtype.ext (bind_assoc x.1 _ _))

theorem val_ofFnM {n : ℕ} (f : Fin n → Keeping F α) :
    (Vector.ofFnM f).1 = Vector.ofFnM fun i => (f i).1 := by
  induction n with
  | zero =>
    rw [Vector.ofFnM_zero, Vector.ofFnM_zero]
    rfl
  | succ n ih =>
    rw [Vector.ofFnM_succ, Vector.ofFnM_succ, ← ih]
    rfl

theorem val_mapM (f : β → Keeping F α) (l : List β) : (l.mapM f).1 = l.mapM fun b => (f b).1 := by
  induction l with
  | nil =>
    rw [mapM_nil, mapM_nil]
    rfl
  | cons b l ih =>
    rw [mapM_cons, mapM_cons, ← ih]
    rfl

/-- **Two runs that begin with the same step** go on from the same system. -/
theorem exists_of_bind_of_bind {x : Keeping F α} {f g : α → Keeping F β}
    {cs u u' : ConstraintSystem F} {b b' : β} (h : (x >>= f).1 cs = .ok (b, u))
    (h' : (x >>= g).1 cs = .ok (b', u')) :
    ∃ a t, (f a).1 t = .ok (b, u) ∧ (g a).1 t = .ok (b', u') := by
  obtain ⟨a, t, hx, hf⟩ := exists_of_bind_eq_ok h
  obtain ⟨a', t', hx', hg⟩ := exists_of_bind_eq_ok h'
  obtain ⟨rfl, rfl⟩ := Prod.mk.inj (Except.ok.inj (hx.symm.trans hx'))
  exact ⟨a, t, hf, hg⟩

/-- **Two steps of a run**, the first of which is kept. -/
theorem exists_of_bind {x : Keeping F α} {f : α → Keeping F β} {cs u : ConstraintSystem F} {b : β}
    (h : (x >>= f).1 cs = .ok (b, u)) :
    ∃ a t, x.1 cs = .ok (a, t) ∧ (f a).1 t = .ok (b, u) ∧ t.Kept u := by
  obtain ⟨a, t, hx, hf⟩ := exists_of_bind_eq_ok h
  exact ⟨a, t, hx, hf, (f a).2 hf⟩

variable [CommRing F]

instance : Gadgets (Keeping F) F Boolean (LinComb F) where
  constant := .constant
  not := Boolean.negate
  and b c := ⟨Synth.and b c, keeps_and b c⟩
  xor b c := ⟨Synth.xor b c, keeps_xor b c⟩
  addmany ws := ⟨Synth.addmany ws, keeps_addmany ws⟩
  value := Boolean.value
  newWitness b := ⟨Gadgets.newWitness b, (keeps_newWitness _).map _⟩
  fpConstant := Gadgets.fpConstant (m := Synth F)
  fpNewInput x := ⟨Gadgets.fpNewInput x, (keeps_newInputVariable x).bind fun _ => keeps_pure _⟩
  fpNewWitness x :=
    ⟨Gadgets.fpNewWitness x, (keeps_newWitnessVariable _).bind fun _ => keeps_pure _⟩
  fpOfBit := Gadgets.fpOfBit (m := Synth F)
  fpAdd := Gadgets.fpAdd (m := Synth F)
  fpScale := Gadgets.fpScale (m := Synth F)
  fpEnforceEqual x y := ⟨Gadgets.fpEnforceEqual x y, keeps_enforceConstraint _ _ _⟩
  fail e := ⟨throw e, fun _ _ _ h => by cases h⟩

end Keeping

variable [CommRing F]

variable (F) in
/-- **What is kept in mind of a program** does not change what it does. -/
def forget : Simulation (Keeping F) (Synth F) where
  Run R x y := ∀ ⦃cs b t⦄, y cs = .ok (b, t) → ∃ a, x.1 cs = .ok (a, t) ∧ R a b
  pure h := by
    rintro cs _ _ ⟨⟩
    exact ⟨_, rfl, h⟩
  bind := by
    intro _ _ _ _ R T x y f g hxy hfg cs d u h
    obtain ⟨b, t, hy, hg⟩ := exists_of_bind_eq_ok h
    obtain ⟨a, hx, hab⟩ := hxy hy
    obtain ⟨c, hf, hcd⟩ := hfg a b hab hg
    refine ⟨c, ?_, hcd⟩
    change (x.1 cs >>= fun p => (f p.1).1 p.2) = _
    rw [hx]
    exact hf
  Rel := Eq
  constant _ := rfl
  not h := congrArg _ h
  and := by
    rintro b _ c _ rfl rfl cs a t h
    exact ⟨a, h, rfl⟩
  xor := by
    rintro b _ c _ rfl rfl cs a t h
    exact ⟨a, h, rfl⟩
  addmany := by
    intro ws ws' hws cs a t h
    obtain rfl : ws = ws' := List.forall₂_eq_eq_eq ▸ hws.imp fun _ _ hw => Vector.ext hw
    exact ⟨a, h, fun _ _ => rfl⟩

theorem forget_newWitnessBytes (bs : ByteEncoding.Bytes) :
    (forget F).Run (forget F).BytesRel (newWitnessBytes bs) (newWitnessBytes bs) := by
  refine (forget F).mapM (R := Eq) ?_ (forall₂_same.2 fun _ _ => rfl)
  rintro b _ rfl
  exact (forget F).ofFnM fun i cs a t h => ⟨a, h, rfl⟩

theorem forget_bytes_eq {xs ys : List (UInt8Var Boolean)} (h : (forget F).BytesRel xs ys) :
    xs = ys :=
  forall₂_eq_eq_eq ▸ h.imp fun _ _ hx => Vector.ext hx

theorem forget_fail {α β : Type} {R : α → β → Prop} (e : SynthesisError) :
    (forget F).Run R (Gadgets.fail e) (Gadgets.fail e) := by
  rintro cs b t ⟨⟩

end Ark
