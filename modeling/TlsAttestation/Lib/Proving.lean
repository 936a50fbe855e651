import TlsAttestation.Lib.Assignments
import TlsAttestation.Lib.SumRows

/-!
# The assignment of a prover

In the last system of a prover's run every row of a Boolean program holds, and only the equalities
that a circuit asks for may fail. The rows are looked at in the last assignment, from the beginning:
a step knows what it has assigned (`Ark.Settles`), and later steps keep it (`Ark.Keeping`).
`Ark.proving` carries this through a program, next to its reading in `Ark.Sat`.
-/

namespace Ark

open ByteEncoding LinComb Synth
open List hiding Vector

variable {F : Type} [CommRing F]

/-- A system in the course of a proving run. -/
structure ConstraintSystem.Reached (final cs : ConstraintSystem F) : Prop where
  mode : cs.mode = .prove
  numInstance : cs.numInstance = cs.instanceAssignment.length + 1
  numWitness : cs.numWitness = cs.witnessAssignment.length
  rows : ∀ row ∈ cs.constraints, row.Holds final.assignedValue

variable {final : ConstraintSystem F}

namespace ConstraintSystem.Reached

variable {cs : ConstraintSystem F}

theorem new (final : ConstraintSystem F) : final.Reached (.new F .prove) :=
  ⟨rfl, rfl, rfl, fun _ h => absurd h not_mem_nil⟩

theorem pushRow (h : final.Reached cs) {row : Constraint F} (hrow : row.Holds final.assignedValue) :
    final.Reached (cs.pushRow row) :=
  ⟨h.mode, h.numInstance, h.numWitness, forall_mem_append.2 ⟨h.rows, forall_mem_singleton.2 hrow⟩⟩

theorem pushWitness (h : final.Reached cs) (x : F) : final.Reached (cs.pushWitness x) :=
  ⟨h.mode, h.numInstance, by simp [ConstraintSystem.pushWitness, h.mode, h.numWitness], h.rows⟩

theorem assignedValue_witness (h : final.Reached cs) {x : F}
    (hfinal : (cs.pushWitness x).Kept final) :
    final.assignedValue (.witness cs.numWitness) = x := by
  obtain ⟨rest, hrest⟩ := hfinal.witnesses
  simp only [ConstraintSystem.pushWitness, h.mode] at hrest
  simp [ConstraintSystem.assignedValue, ← hrest, h.numWitness]

end ConstraintSystem.Reached

section

variable (final) {α β : Type}

/-- **What a run settles** that allocates no public input, if the last system keeps what it has
done. -/
def Settles (x : Synth F α) (Q : α → Prop) : Prop :=
  ∀ ⦃cs a t⦄, final.Reached cs → x cs = .ok (a, t) → t.Kept final →
    final.Reached t ∧ t.instanceAssignment = cs.instanceAssignment ∧ Q a

namespace Settles

variable {final} {x : Synth F α} {f : α → Synth F β} {P : α → Prop} {Q : β → Prop}

theorem mono {P' : α → Prop} (hx : Settles final x P) (h : ∀ a, P a → P' a) :
    Settles final x P' := by
  intro cs a t hcs hrun hfinal
  obtain ⟨ht, hins, ha⟩ := hx hcs hrun hfinal
  exact ⟨ht, hins, h a ha⟩

theorem pure {a : α} (h : P a) : Settles final (pure a : Synth F α) P := by
  rintro cs _ _ hcs ⟨⟩ -
  exact ⟨hcs, rfl, h⟩

theorem bind (hx : Settles final x P) (hkeeps : ∀ a, Keeps (f a))
    (hf : ∀ a, P a → Settles final (f a) Q) : Settles final (x >>= f) Q := by
  intro cs b u hcs hrun hfinal
  obtain ⟨a, t, hrun₁, hrun₂⟩ := exists_of_bind_eq_ok hrun
  obtain ⟨ht, hins, ha⟩ := hx hcs hrun₁ ((hkeeps a hrun₂).trans hfinal)
  obtain ⟨hu, hinputs', hb⟩ := hf a ha ht hrun₂ hfinal
  exact ⟨hu, hinputs'.trans hins, hb⟩

theorem map (hx : Settles final x P) {g : α → β} (h : ∀ a, P a → Q (g a)) :
    Settles final (g <$> x) Q := by
  rw [← bind_pure_comp]
  exact hx.bind (fun _ => keeps_pure _) fun a ha => Settles.pure (h a ha)

theorem ofFnM {n : ℕ} {f : Fin n → Synth F α} {P : ℕ → α → Prop}
    (h : ∀ i, Settles final (f i) (P i)) (hkeeps : ∀ i, Keeps (f i)) :
    Settles final (Vector.ofFnM f) fun x => ∀ i (hi : i < n), P i x[i] := by
  induction n with
  | zero =>
    rw [Vector.ofFnM_zero]
    exact Settles.pure fun i hi => absurd hi (Nat.not_lt_zero i)
  | succ n ih =>
    rw [Vector.ofFnM_succ]
    refine (ih (fun i => h i.castSucc) fun i => hkeeps i.castSucc).bind
      (fun _ => (hkeeps _).bind fun _ => keeps_pure _) fun x hx =>
      (h (Fin.last n)).bind (fun _ => keeps_pure _) fun a ha => Settles.pure fun i hi => ?_
    rw [Vector.getElem_push]
    split
    · exact hx i _
    · next hlast => exact (show n = i by omega) ▸ ha

theorem mapM {f : α → Synth F β} {P : α → β → Prop} (h : ∀ a, Settles final (f a) (P a))
    (hkeeps : ∀ a, Keeps (f a)) (l : List α) :
    Settles final (l.mapM f) (Forall₂ P l) := by
  induction l with
  | nil =>
    rw [mapM_nil]
    exact Settles.pure .nil
  | cons a l ih =>
    rw [mapM_cons]
    exact (h a).bind (fun _ => (Keeps.mapM hkeeps l).bind fun _ => keeps_pure _) fun b hb =>
      ih.bind (fun _ => keeps_pure _) fun bs hbs => Settles.pure (.cons hb hbs)

end Settles

end

/-! ### Bits -/

def bitValue (F : Type) [CommRing F] (b : Bool) : F := if b then 1 else 0

variable (final) in
/-- A bit that was computed to be `v`, and is. -/
structure AllocatedAt (v : Bool) (a : AllocatedBit) : Prop where
  value : a.value = some v
  assigned : final.assignedValue a.var = bitValue F v

variable (final) in
structure BitAt (v : Bool) (b : Boolean) : Prop where
  value : b.value = some v
  assigned : (b.lc F).eval final.assignedValue = bitValue F v

variable {v w : Bool} {b c : Boolean}

theorem bitAt_constant (v : Bool) : BitAt final v (.constant v) := by
  refine ⟨rfl, ?_⟩
  cases v <;> simp [Boolean.lc, bitValue, ConstraintSystem.assignedValue]

theorem bitAt_is {a : AllocatedBit} : BitAt final v (.is a) ↔ AllocatedAt final v a := by
  constructor
  · rintro ⟨hvalue, hassigned⟩
    exact ⟨hvalue, by simpa [Boolean.lc] using hassigned⟩
  · rintro ⟨hvalue, hassigned⟩
    exact ⟨hvalue, by simpa [Boolean.lc] using hassigned⟩

theorem bitAt_not {a : AllocatedBit} : BitAt final v (.not a) ↔ AllocatedAt final (!v) a := by
  have hone : final.assignedValue .one = 1 := rfl
  have heval : ((Boolean.not a).lc F).eval final.assignedValue =
      1 + -1 * final.assignedValue a.var := by
    simp [Boolean.lc, hone]
  have hneg : bitValue F v = 1 + -1 * bitValue F (!v) := by cases v <;> simp [bitValue]
  constructor
  · rintro ⟨hvalue, hassigned⟩
    obtain ⟨x, hx, rfl⟩ := Option.map_eq_some_iff.1 hvalue
    refine ⟨by rwa [Bool.not_not], ?_⟩
    rw [heval, hneg] at hassigned
    simpa using hassigned
  · rintro ⟨hvalue, hassigned⟩
    refine ⟨by rw [Boolean.value, hvalue, Option.map_some, Bool.not_not], ?_⟩
    rw [heval, hneg, hassigned]

theorem bitAt_signed {n : Bool} {a : AllocatedBit} :
    BitAt final v (.signed n a) ↔ AllocatedAt final (v ^^ n) a := by
  cases n
  · rw [Bool.xor_false]
    exact bitAt_is
  · rw [Bool.xor_true]
    exact bitAt_not

theorem BitAt.negateIf (h : BitAt final v b) (k : Bool) :
    BitAt final (v ^^ k) (if k then b.negate else b) := by
  cases k with
  | false => rwa [Bool.xor_false]
  | true =>
    rw [Bool.xor_true]
    cases b with
    | constant b =>
      obtain rfl : b = v := Option.some.inj h.value
      exact bitAt_constant _
    | is a => exact bitAt_not.2 (by rw [Bool.not_not]; exact bitAt_is.1 h)
    | not a => exact bitAt_is.2 (bitAt_not.1 h)

theorem settles_newWitnessWithoutBooleanityCheck (v : Bool) :
    Settles final (newWitnessWithoutBooleanityCheck (some v)) (AllocatedAt final v) := by
  intro cs a t hcs hrun hfinal
  have heq : newWitnessWithoutBooleanityCheck (some v) cs = .ok
      (⟨.witness cs.numWitness, if cs.mode = .setup then none else some v⟩,
        cs.pushWitness (bitValue F v)) := rfl
  obtain ⟨rfl, rfl⟩ := Prod.mk.inj (Except.ok.inj (heq.symm.trans hrun))
  refine ⟨hcs.pushWitness _, rfl, ?_, hcs.assignedValue_witness hfinal⟩
  rw [if_neg (by rw [hcs.mode]; decide)]

theorem settles_enforceConstraint {x y z : LinComb F}
    (h : (⟨x, y, z⟩ : Constraint F).Holds final.assignedValue) :
    Settles final (enforceConstraint x y z) fun _ => True := by
  rintro cs _ _ hcs ⟨⟩ -
  exact ⟨hcs.pushRow h, rfl, trivial⟩

theorem settles_withRow (row : AllocatedBit → Constraint F)
    (hrow : ∀ a, AllocatedAt final v a → (row a).Holds final.assignedValue) :
    Settles final (do
      let a ← newWitnessWithoutBooleanityCheck (some v)
      enforceConstraint (row a).a (row a).b (row a).c
      return a) (AllocatedAt final v) :=
  (settles_newWitnessWithoutBooleanityCheck v).bind
    (fun _ => (keeps_enforceConstraint _ _ _).bind fun _ => keeps_pure _) fun a ha =>
    (settles_enforceConstraint (hrow a ha)).bind (fun _ => keeps_pure _) fun _ _ => Settles.pure ha

theorem settles_newWitness (v : Bool) :
    Settles final (newWitness (some v)) (AllocatedAt final v) := by
  refine settles_withRow (fun a => ⟨[(1, .one), (-1, a.var)], [(1, a.var)], []⟩) ?_
  intro a ha
  have hone : final.assignedValue .one = 1 := rfl
  cases v <;> simp [Constraint.Holds, ha.assigned, hone, bitValue]

theorem settles_xorVariables {a a' : AllocatedBit} (ha : AllocatedAt final v a)
    (ha' : AllocatedAt final w a') :
    Settles final (xorVariables a a') (AllocatedAt final (v ^^ w)) := by
  have hvalue : (· ^^ ·) <$> a.value <*> a'.value = some (v ^^ w) := by
    rw [ha.value, ha'.value]
    rfl
  unfold xorVariables
  rw [hvalue]
  refine settles_withRow (fun c =>
    ⟨[(1, a.var), (1, a.var)], [(1, a'.var)], [(1, a.var), (1, a'.var), (-1, c.var)]⟩) ?_
  intro c hc
  cases v <;> cases w <;> simp [Constraint.Holds, ha.assigned, ha'.assigned, hc.assigned, bitValue]

theorem settles_product (hb : BitAt final v b) (hc : BitAt final w c) :
    Settles final (product (b.lc F) (c.lc F) ((· && ·) <$> b.value <*> c.value))
      (BitAt final (v && w)) := by
  have hvalue : (· && ·) <$> b.value <*> c.value = some (v && w) := by
    rw [hb.value, hc.value]
    rfl
  rw [hvalue]
  refine (settles_newWitnessWithoutBooleanityCheck _).bind
    (fun _ => (keeps_enforceConstraint _ _ _).bind fun _ => keeps_pure _) fun a ha =>
    (settles_enforceConstraint ?_).bind (fun _ => keeps_pure _) fun _ _ =>
      Settles.pure (bitAt_is.2 ha)
  cases v <;> cases w <;> simp [Constraint.Holds, hb.assigned, hc.assigned, ha.assigned, bitValue]

/-! ### The Boolean gadgets -/

theorem settles_and (hb : BitAt final v b) (hc : BitAt final w c) :
    Settles final (and b c) (BitAt final (v && w)) := by
  have hfold {k x : Bool} (h : BitAt final x (.constant k)) : k = x := Option.some.inj h.value
  refine and_cases (P := (Settles final · (BitAt final (v && w)))) b c (fun h => Settles.pure ?_)
    (fun h => Settles.pure ?_) (fun h => Settles.pure ?_) fun x y _ _ hxy => ?_
  · have hvw : (v && w) = false := by
      rcases h with rfl | rfl
      · rw [← hfold hb, Bool.false_and]
      · rw [← hfold hc, Bool.and_false]
    rw [hvw]
    exact bitAt_constant false
  · subst h
    rwa [← hfold hb, Bool.true_and]
  · subst h
    rwa [← hfold hc, Bool.and_true]
  · rcases hxy with ⟨rfl, rfl⟩ | ⟨rfl, rfl⟩
    · exact settles_product hb hc
    · rw [Bool.and_comm]
      exact settles_product hc hb

theorem settles_xor (hb : BitAt final v b) (hc : BitAt final w c) :
    Settles final (xor b c) (BitAt final (v ^^ w)) := by
  have hfold {k x : Bool} (h : BitAt final x (.constant k)) : k = x := Option.some.inj h.value
  refine xor_cases (P := (Settles final · (BitAt final (v ^^ w)))) b c (fun k h => Settles.pure ?_)
    (fun k h => Settles.pure ?_) fun n n' a a' h => ?_
  · subst h
    rw [← hfold hb, Bool.xor_comm]
    exact hc.negateIf k
  · subst h
    rw [← hfold hc]
    exact hb.negateIf k
  · have hvw : ∀ v w, ((v ^^ n) ^^ (w ^^ n')) = ((v ^^ w) ^^ (n ^^ n')) := by
      cases n <;> cases n' <;> decide
    rcases h with ⟨rfl, rfl⟩ | ⟨rfl, rfl⟩
    · refine (settles_xorVariables (bitAt_signed.1 hb) (bitAt_signed.1 hc)).map fun d hd => ?_
      exact bitAt_signed.2 (hvw v w ▸ hd)
    · refine (settles_xorVariables (bitAt_signed.1 hc) (bitAt_signed.1 hb)).map fun d hd => ?_
      rw [Bool.xor_comm v]
      exact bitAt_signed.2 (hvw w v ▸ hd)

/-! ### Sums of words -/

theorem eval_weigh {bits : List Boolean} {vs : List Bool}
    (h : Forall₂ (fun b v => BitAt final v b) bits vs) (k : F) :
    (weigh k bits).eval final.assignedValue = k * (ofLeBits vs : F) :=
  map_weigh (eval final.assignedValue) rfl eval_append
    eval_scale (h.imp fun _ _ hb => hb.assigned) k

variable {ws : List (Vector Boolean 32)} {ws' : List (Vector Bool 32)}

theorem eval_flatMap_weigh (h : Forall₂ (VecRel fun b v => BitAt final v b) ws ws') :
    eval final.assignedValue (ws.flatMap fun x => weigh (1 : F) x.toList) =
      ((ws'.map fun y => (word y).toNat).sum : ℕ) := by
  induction h with
  | nil => simp
  | cons hw _ ih =>
    rw [flatMap_cons, eval_append, ih, eval_weigh hw.toList, ← toNat_word]
    simp

/-- The bits of the largest sum are enough. -/
theorem sum_toNat_lt (ws : List (Vector Bool 32)) :
    (ws.map fun y => (word y).toNat).sum < 2 ^ (32 + numCarries ws.length) := by
  have hle : (ws.map fun y => (word y).toNat).sum ≤ ws.length * (2 ^ 32 - 1) := by
    induction ws with
    | nil => simp
    | cons y ws ih =>
      have hy := (word y).isLt
      simp only [map_cons, sum_cons, length_cons]
      omega
  refine hle.trans_lt (Nat.lt_size_self _ |>.trans_le (Nat.pow_le_pow_right (by decide) ?_))
  rw [numCarries]
  omega

theorem settles_sumBits (h : Forall₂ (VecRel fun b v => BitAt final v b) ws ws') :
    Settles final (sumBits ws (some (ws'.map fun y => (word y).toNat).sum)) fun x =>
      ∀ i (hi : i < 32), BitAt final ((ws'.map fun y => (word y).toNat).sum.testBit i) x[i] := by
  set n := (ws'.map fun y => (word y).toNat).sum with hn
  -- one fresh bit for each binary digit of the sum
  have hbit (i : ℕ) : Settles final (newWitness (some (n.testBit i)))
      (AllocatedAt final (n.testBit i)) := settles_newWitness _
  have hkeeps (i : ℕ) : Keeps (newWitness (some (n.testBit i)) : Synth F _) :=
    keeps_newWitness _
  refine (Settles.ofFnM (P := fun i => AllocatedAt final (n.testBit i)) (fun i : Fin 32 => hbit i)
    fun i => hkeeps i).bind
    (fun _ => (Keeps.mapM (fun i => hkeeps (32 + i)) _).bind fun _ =>
      (keeps_enforceConstraint _ _ _).bind fun _ => keeps_pure _) fun low hlow => ?_
  refine (Settles.mapM (fun i => hbit (32 + i)) (fun i => hkeeps (32 + i)) _).bind
    (fun _ => (keeps_enforceConstraint _ _ _).bind fun _ => keeps_pure _) fun high hhigh => ?_
  refine (settles_enforceConstraint ?_).bind (fun _ => keeps_pure _) fun _ _ => Settles.pure ?_
  · -- the fresh bits spell the sum
    have hbits : Forall₂ (fun b v => BitAt final v b) ((low.toList ++ high).map Boolean.is)
        ((List.range (32 + numCarries ws.length)).map n.testBit) := by
      rw [range_add, map_append, map_append]
      refine rel_append ?_ ?_
      · refine forall₂_iff_get.2 ⟨by simp, fun i hi hi' => ?_⟩
        simpa using bitAt_is.2 (hlow i (by simpa using hi))
      · rw [map_map, forall₂_map_left_iff, forall₂_map_right_iff]
        exact hhigh.flip.imp fun _ _ ha => bitAt_is.2 ha
    have hlt := sum_toNat_lt ws'
    rw [← h.length_eq, ← hn] at hlt
    have hres := eval_weigh hbits 1
    rw [ofLeBits_testBit, Nat.mod_eq_of_lt hlt] at hres
    rw [Constraint.Holds, eval_append, eval_flatMap_weigh h, eval_neg, hres, ← hn]
    simp
  · intro i hi
    rw [Vector.getElem_map]
    exact bitAt_is.2 (hlow i hi)

theorem settles_addmany (h : Forall₂ (VecRel fun b v => BitAt final v b) ws ws') :
    Settles final (addmany ws) fun x =>
      ∀ i (hi : i < 32), BitAt final ((ws'.map word).sum.getLsbD i) x[i] := by
  have hvalue := mapM_wordValue (h.imp fun _ _ hw i hi => (hw i hi).value)
  have hsum := ofNat_sum_toNat_word ws'
  by_cases hlen : ws.length = 1
  · obtain ⟨x, rfl⟩ := length_eq_one_iff.1 hlen
    obtain ⟨y, rfl⟩ := length_eq_one_iff.1 (h.length_eq.symm.trans hlen)
    refine Settles.pure fun i hi => ?_
    rw [map_singleton, sum_singleton, getLsbD_word _ hi]
    exact (forall₂_cons.1 h).1 i hi
  · cases hall : allConstant ws with
    | true =>
      rw [addmany_of_allConstant hlen hall (by rw [hvalue]; rfl), hsum]
      refine Settles.pure fun i hi => ?_
      rw [Vector.getElem_ofFn]
      exact bitAt_constant _
    | false =>
      rw [addmany_of_not_allConstant hlen hall, hvalue]
      refine (settles_sumBits h).mono fun x hx i hi => ?_
      have hbit := hx i hi
      rwa [← hsum, BitVec.getLsbD_ofNat, decide_eq_true hi, Bool.true_and]

/-! ### Programs -/

variable (final) in
/-- A wire of a proving run: what was computed is what is assigned. -/
def WireAt (b : Boolean) (w : Wire) : Prop := ∃ v, w = ⟨v, v⟩ ∧ BitAt final v b

theorem map_on_native {n : ℕ} {x : Vector Boolean n} {y : Vector Wire n}
    (h : VecRel (WireAt final) x y) (side : Side) :
    y.map (Wire.on side) = y.map (Wire.on .native) := by
  refine Vector.ext fun i hi => ?_
  obtain ⟨v, hv, -⟩ := h i hi
  rw [Vector.getElem_map, Vector.getElem_map, hv]
  cases side <;> rfl

variable (final) in
/-- **What a prover has computed is what it assigns**, in every Boolean program. -/
def proving : Simulation (Keeping F) (Sat F) where
  Run R x y := Settles final x.1 fun a => ∃ b ∈ y, R a b
  pure h := Settles.pure ⟨_, rfl, h⟩
  bind := by
    intro _ _ _ _ R T x y f g hxy hfg
    refine hxy.bind (fun a => (f a).2) ?_
    rintro a ⟨b, hb, hab⟩
    refine (hfg a b hab).mono ?_
    rintro c ⟨d, hd, hcd⟩
    exact ⟨d, ⟨b, hb, hd⟩, hcd⟩
  Rel := WireAt final
  constant b := ⟨b, rfl, bitAt_constant b⟩
  not := by
    rintro b _ ⟨v, rfl, hb⟩
    exact ⟨!v, rfl, Bool.xor_true v ▸ hb.negateIf true⟩
  and := by
    rintro b _ c _ ⟨v, rfl, hb⟩ ⟨w, rfl, hc⟩
    exact (settles_and hb hc).mono fun d hd => ⟨_, rfl, _, rfl, hd⟩
  xor := by
    rintro b _ c _ ⟨v, rfl, hb⟩ ⟨w, rfl, hc⟩
    exact (settles_xor hb hc).mono fun d hd => ⟨_, rfl, _, rfl, hd⟩
  addmany := by
    intro ws ws' h
    have hword : List.Forall₂ (VecRel fun b v => BitAt final v b) ws
        (ws'.map fun w => w.map (Wire.on .native)) := by
      refine List.forall₂_map_right_iff.2 (h.imp fun x w hw i hi => ?_)
      obtain ⟨v, hv, hb⟩ := hw i hi
      rw [Vector.getElem_map, hv]
      exact hb
    -- on both sides, the words are those that were computed
    have hsides (side : Side) :
        ws'.map (wordOn side) = (ws'.map fun w => w.map (Wire.on .native)).map word := by
      clear hword
      induction h with
      | nil => rfl
      | cons hw _ ih => exact congrArg₂ List.cons (congrArg word (map_on_native hw side)) ih
    refine (settles_addmany hword).mono fun x hx => ⟨_, rfl, fun i hi => ⟨_, ?_, hx i hi⟩⟩
    rw [Vector.getElem_ofFn, Wire.ofSides, hsides, hsides]

variable (final) in
theorem proving_newWitnessBytes (bs : Bytes) :
    (proving final).Run (proving final).BytesRel (newWitnessBytes bs) (newWitnessBytes bs) := by
  have hbit (b : Bool) : (proving final).Run (proving final).Rel (Gadgets.newWitness b)
      (Gadgets.newWitness b) :=
    (settles_newWitness b).map fun a ha => ⟨⟨b, b⟩, rfl, b, rfl, bitAt_is.2 ha⟩
  refine (proving final).mapM (R := Eq) ?_ (forall₂_same.2 fun _ _ => rfl)
  rintro b _ rfl
  exact (proving final).ofFnM fun i => hbit _

theorem proving_fail {α β : Type} {R : α → β → Prop} (e : SynthesisError) :
    (proving final).Run R (Gadgets.fail e) (Gadgets.fail e) := by
  rintro cs a t - ⟨⟩

theorem bytesOn_assigned_eq {xs : List (UInt8Var Boolean)} {ws : List (UInt8Var Wire)}
    (h : (proving final).BytesRel xs ws) : bytesOn .assigned ws = bytesOn .native ws := by
  induction h with
  | nil => rfl
  | cons hx _ ih => exact congrArg₂ List.cons (congrArg byte (map_on_native hx .assigned)) ih

/-! ### Field elements -/

variable {cs t : ConstraintSystem F} {lc lc' : LinComb F}

/-- **The element that bits spell** is the one that they were computed to spell. -/
theorem eval_leBitsToFp_proving {bits : List Boolean} {ws : List Wire}
    (h : Forall₂ (proving final).Rel bits ws) :
    (leBitsToFp (Keeping F) bits).eval final.assignedValue = leBitsToFp (Sat F) ws := by
  rw [leBitsToFp_eq]
  refine eval_leBitsToFp (m := Keeping F) (eval final.assignedValue) ?_ eval_append eval_scale ?_
  · exact (eval_cons _ _).trans (by simp)
  · refine forall₂_map_right_iff.2 (h.imp ?_)
    rintro b _ ⟨v, rfl, hb⟩
    exact hb.assigned

theorem reached_fpNewInput {x : F} (hcs : final.Reached cs)
    (hrun : (Gadgets.fpNewInput x : Keeping F _).1 cs = .ok (lc, t)) (hfinal : t.Kept final) :
    final.Reached t ∧ t.instanceAssignment = cs.instanceAssignment ++ [x] ∧
      lc.eval final.assignedValue = x := by
  obtain ⟨rfl, rfl⟩ := Prod.mk.inj (Except.ok.inj hrun)
  obtain ⟨rest, hrest⟩ := hfinal.inputs
  have hins : (cs.pushInput x).instanceAssignment = cs.instanceAssignment ++ [x] := by
    rw [ConstraintSystem.pushInput, hcs.mode]
  refine ⟨⟨hcs.mode, ?_, hcs.numWitness, hcs.rows⟩, hins, ?_⟩
  · rw [hins, length_append]
    exact congrArg (· + 1) hcs.numInstance
  · rw [hins] at hrest
    simp [ConstraintSystem.assignedValue, ← hrest, hcs.numInstance]

theorem holds_enforceEqual :
    (⟨lc ++ lc'.neg, [(1, .one)], []⟩ : Constraint F).Holds final.assignedValue ↔
      lc.eval final.assignedValue = lc'.eval final.assignedValue := by
  have hone : final.assignedValue .one = 1 := rfl
  simp [Constraint.Holds, hone, ← sub_eq_add_neg, sub_eq_zero]

theorem settles_fpEnforceEqual (h : lc.eval final.assignedValue = lc'.eval final.assignedValue) :
    Settles final (Gadgets.fpEnforceEqual lc lc' : Keeping F _).1 fun _ => True :=
  settles_enforceConstraint (holds_enforceEqual.2 h)

/-- **A run that ends with an equality** satisfies its rows exactly if the equality holds. -/
theorem satisfied_iff_of_fpEnforceEqual {u : Unit} (hcs : final.Reached cs)
    (hrun : (Gadgets.fpEnforceEqual lc lc' : Keeping F _).1 cs = .ok (u, final)) :
    final.instanceAssignment = cs.instanceAssignment ∧
      (final.Satisfied ↔ lc.eval final.assignedValue = lc'.eval final.assignedValue) := by
  have hfinal := (Prod.mk.inj (Except.ok.inj hrun)).2
  have hrows : final.constraints = cs.constraints ++ [⟨lc ++ lc'.neg, [(1, .one)], []⟩] :=
    (congrArg ConstraintSystem.constraints hfinal).symm
  refine ⟨(congrArg ConstraintSystem.instanceAssignment hfinal).symm, ?_⟩
  rw [ConstraintSystem.Satisfied, hrows, forall_mem_append, forall_mem_singleton,
    holds_enforceEqual]
  exact and_iff_right hcs.rows

end Ark
