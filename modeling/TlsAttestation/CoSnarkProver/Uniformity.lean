import TlsAttestation.CoSnarkProver.TlsPrfCircuit
import TlsAttestation.Lib.SumRows

/-!
# The proving key of the derivation circuit

The keys are made from one run with zeros for everything. What a session allocates depends on
lengths only, but HMAC takes the block of the outer key as **constants**, and the state after it
(`CoSnarkProver.outerState`) can be read back from sums (`CoSnarkProver.Reveals.inj`). So two
sessions have the same matrices exactly if they have the same outer key states
(`CoSnarkProver.TlsPrfCircuit.sameMatrices_iff`).
-/

namespace TlsAttestation.CoSnarkProver

open Ark ByteEncoding Coupling Sha2 Sha2.Gadget Synth
open List hiding Vector

variable {F : Type} [CommRing F]

/-! ### Constants fold -/

theorem eq_constBits_of_folds {x : UInt32Var Boolean} {y : UInt32Var Bool}
    (h : VecRel Boolean.Folds x y) : x = constBits (Synth F) (word y) := by
  refine Vector.ext fun i hi => ?_
  rw [h i hi, constBits, Vector.getElem_ofFn, getLsbD_word _ hi]
  rfl

theorem eq_pure_of_folding {x : Synth F (UInt32Var Boolean)} {y : Id (UInt32Var Bool)}
    (h : (folding F).Run (VecRel Boolean.Folds) x y) :
    x = pure (constBits (Synth F) (word y.run)) := by
  funext cs
  obtain ⟨a, hx, ha⟩ := h cs
  rw [hx, eq_constBits_of_folds (F := F) ha]
  rfl

theorem folds_constBits (w : Word) :
    VecRel Boolean.Folds (constBits (Synth F) w) (constBits Id w) :=
  (folding F).constBits w

theorem bigSigma0_constBits (w : Word) :
    (Gadget.bigSigma0 (constBits (Synth F) w) : Synth F _) =
      pure (constBits (Synth F) (Sha2.bigSigma0 w)) := by
  rw [eq_pure_of_folding (simulate_bigSigma0 (folds_constBits w)), word_bigSigma0, word_constBits]

theorem bigSigma1_constBits (w : Word) :
    (Gadget.bigSigma1 (constBits (Synth F) w) : Synth F _) =
      pure (constBits (Synth F) (Sha2.bigSigma1 w)) := by
  rw [eq_pure_of_folding (simulate_bigSigma1 (folds_constBits w)), word_bigSigma1, word_constBits]

theorem ch32_constBits (x y z : Word) :
    (ch32 (constBits (Synth F) x) (constBits (Synth F) y) (constBits (Synth F) z) : Synth F _) =
      pure (constBits (Synth F) (Sha2.ch x y z)) := by
  have hfold := (simulate_functions (folding F)).ch (folds_constBits (F := F) x)
    (folds_constBits (F := F) y) (folds_constBits (F := F) z)
  rw [show ch32 _ _ _ = _ from eq_pure_of_folding hfold, evaluate_functions.ch, word_constBits,
    word_constBits, word_constBits]

theorem maj32_constBits (x y z : Word) :
    (maj32 (constBits (Synth F) x) (constBits (Synth F) y) (constBits (Synth F) z) : Synth F _) =
      pure (constBits (Synth F) (Sha2.maj x y z)) := by
  have hfold := (simulate_functions (folding F)).maj (folds_constBits (F := F) x)
    (folds_constBits (F := F) y) (folds_constBits (F := F) z)
  rw [show maj32 _ _ _ = _ from eq_pure_of_folding hfold, evaluate_functions.maj, word_constBits,
    word_constBits, word_constBits]

theorem addmany_constBits (x y : Word) :
    (BoolGadgets.addmany [constBits (Synth F) x, constBits (Synth F) y] :
      Synth F _) = pure (constBits (Synth F) (x + y)) := by
  have hfold := (folding F).addmany (.cons (folds_constBits (F := F) x)
    (.cons (folds_constBits (F := F) y) .nil))
  rw [eq_pure_of_folding hfold, word_addmany]
  simp

/-! ### The list of sums only grows -/

theorem composes_grows : Composes (m := Synth F) Grows where
  pure := Grows.pure
  bind := Grows.bind
  and b c := .of_keeps (keeps_and b c)
  xor b c := .of_keeps (keeps_xor b c)
  addmany _ := grows_addmany _

variable (x y z : UInt32Var Boolean)

theorem grows_xor3 : Grows (xor3 x y z : Synth F _) :=
  composes_grows.xor3 x y z

theorem grows_ch32 : Grows (ch32 x y z : Synth F _) :=
  composes_grows.ofFnM fun _ => (composes_grows.and _ _).bind fun _ =>
    (composes_grows.and _ _).bind fun _ => composes_grows.xor _ _

theorem grows_maj32 : Grows (maj32 x y z : Synth F _) :=
  composes_grows.ofFnM fun _ => (composes_grows.and _ _).bind fun _ =>
    (composes_grows.and _ _).bind fun _ => (composes_grows.and _ _).bind fun _ =>
    (composes_grows.xor _ _).bind fun _ => composes_grows.xor _ _

theorem grows_rounds (kws : List (Word × UInt32Var Boolean)) (s : HashState (UInt32Var Boolean)) :
    Grows (kws.foldlM (Gadget.round functions) s : Synth F _) :=
  composes_grows.foldlM (composes_grows.round grows_ch32 grows_maj32) kws s

theorem grows_sha256Compress (s : HashState (UInt32Var Boolean))
    (block : Vector (UInt32Var Boolean) 16) : Grows (sha256Compress s block : Synth F _) :=
  composes_grows.compress grows_ch32 grows_maj32 s block

theorem grows_feedForward (s x : UInt32Var Boolean) :
    Grows (feedForward functions s x : Synth F _) := by
  rw [feedForward]
  exact grows_addmany _

theorem emits_extendSchedule_begins (n : ℕ) (w : List (UInt32Var Boolean)) :
    Emits (Gadget.extendSchedule n w : Synth F _) fun w' _ => w <+: w' := by
  induction n generalizing w with
  | zero => exact Emits.pure prefix_rfl
  | succ n ih =>
    rw [Gadget.extendSchedule]
    refine (grows_xor3 _ _ _).andThen fun s1 => (grows_xor3 _ _ _).andThen fun s0 =>
      (grows_addmany _).andThen fun wi => ?_
    exact (ih _).mono fun w' _ h => (prefix_append _ _).trans h

/-! ### What a round emits -/

section

variable [Nontrivial F]

variable {x y z : UInt32Var Boolean} {a : Boolean} {s : HashState (UInt32Var Boolean)} {S : State}
  {block : Vector (UInt32Var Boolean) 16}

theorem silent_xor3 (hx : PlainWord x) (hy : PlainWord y) (hz : PlainWord z) :
    Silent (xor3 x y z : Synth F _) PlainWord :=
  (silent_xorBits hx hy).bind fun _ hxy => silent_xorBits hxy hz

theorem silent_bigSigma0 (hx : PlainWord x) :
    Silent (Gadget.bigSigma0 x : Synth F _) PlainWord :=
  silent_xor3 (hx.rotr 2) (hx.rotr 13) (hx.rotr 22)

theorem silent_bigSigma1 (hx : PlainWord x) :
    Silent (Gadget.bigSigma1 x : Synth F _) PlainWord :=
  silent_xor3 (hx.rotr 6) (hx.rotr 11) (hx.rotr 25)

variable (F) in
abbrev chBit (a b c : Boolean) : Synth F Boolean := do
  let ab ← Synth.and a b
  let nac ← Synth.and a.negate c
  Synth.xor ab nac

theorem silent_chBit_constants (ha : a.Plain) (b c : Bool) :
    Silent (chBit F a (.constant b) (.constant c)) fun d => d.OffsetIs F c := by
  cases ha with
  | is h =>
    cases b <;> cases c
    · exact Silent.pure (Boolean.offset_constant false)
    · exact Silent.pure (Boolean.offset_not h)
    · exact Silent.pure (Boolean.offset_is h)
    · -- here the variable meets its own negation
      refine (silent_xor_not _ _).mono ?_
      rintro _ ⟨v, rfl, hv⟩
      exact Boolean.offset_not hv

theorem silent_chBit_constant {b : Boolean} (ha : a.Plain) (hb : b.Plain) (c : Bool) :
    Silent (chBit F a b (.constant c)) fun d => d.OffsetIs F c := by
  cases ha with
  | is ha =>
    cases hb with
    | is hb =>
      refine (silent_and_is _ _).bind fun ab hab => ?_
      cases hab with
      | is hab =>
        cases c
        · exact Silent.pure (Boolean.offset_is hab)
        · refine (silent_xor_not _ _).mono ?_
          rintro _ ⟨v, rfl, hv⟩
          exact Boolean.offset_not hv

theorem silent_chBit {b c : Boolean} (ha : a.Plain) (hb : b.Plain) (hc : c.Plain) :
    Silent (chBit F a b c) Boolean.Plain := by
  cases ha with
  | is ha =>
    cases hb with
    | is hb =>
      cases hc with
      | is hc =>
        exact (silent_and_is _ _).bind fun _ hab =>
          (silent_and_not ha _).bind fun _ hnac => silent_xor_plain hab hnac

omit [Nontrivial F] in
theorem getElem_constBits {i : ℕ} (hi : i < 32) (w : Word) :
    (constBits (Synth F) w)[i] = .constant (w.getLsbD i) :=
  Vector.getElem_ofFn _

omit [Nontrivial F] in
theorem silent_ch32_of (z : Word) (h : ∀ i (hi : i < 32),
      Silent (chBit F x[i] y[i] (.constant (z.getLsbD i))) (·.OffsetIs F (z.getLsbD i))) :
    Silent (ch32 x y (constBits (Synth F) z) : Synth F _)
      fun c => wordOffset F c = (z.toNat : F) := by
  refine (Silent.ofFnM (P := fun i c => c.OffsetIs F (z.getLsbD i)) fun i => ?_).mono
    fun c hc => wordOffset_eq hc
  simp only [Fin.getElem_fin, getElem_constBits i.isLt]
  exact h i i.isLt

theorem silent_ch32 (hx : PlainWord x) (hy : PlainWord y) (hz : PlainWord z) :
    Silent (ch32 x y z : Synth F _) fun c => wordOffset F c = 0 :=
  (Silent.ofFnM (P := fun _ => Boolean.Plain) fun i =>
    silent_chBit (hx i i.isLt) (hy i i.isLt) (hz i i.isLt)).mono
    fun _ hc => PlainWord.wordOffset hc

theorem silent_maj32 (hx : ProperWord x) (hy : ProperWord y) (hz : ProperWord z) :
    Silent (maj32 x y z : Synth F _) fun _ => True := by
  refine (Silent.ofFnM (P := fun _ => Boolean.Proper) fun i => ?_).mono fun _ _ => trivial
  exact (silent_and (hx i i.isLt) (hy i i.isLt)).bind fun _ hab =>
    (silent_and (hx i i.isLt) (hz i i.isLt)).bind fun _ hac =>
    (silent_and (hy i i.isLt) (hz i i.isLt)).bind fun _ hbc =>
    (silent_xor hab hac).bind fun _ h => silent_xor h hbc

theorem emits_round (k : Word) (x : UInt32Var Boolean) {p : F} (ha : PlainWord s.a)
    (hb : ProperWord s.b) (hc : ProperWord s.c) (he : PlainWord s.e)
    (hch : Silent (ch32 s.e s.f s.g : Synth F _) fun c => wordOffset F c = p) :
    Emits (Gadget.round functions s (k, x)) fun t l =>
      (PlainWord t.a ∧ PlainWord t.e) ∧
        (t.b = s.a ∧ t.c = s.b ∧ t.d = s.c ∧ t.f = s.e ∧ t.g = s.f ∧ t.h = s.g) ∧
        ∃ y z, l =
          [wordOffset F s.h + p + (k.toNat : F) + wordOffset F x, y, wordOffset F s.d, z] := by
  unfold Gadget.round
  refine (silent_bigSigma1 he).bind fun s1 hs1 => hch.bind fun ch hoff =>
    (emits_addmany (x := s1) (by simp) (by simp) hs1).bind ?_
  rintro t1 _ ⟨ht1, rfl⟩
  refine (silent_bigSigma0 ha).bind fun s0 hs0 =>
    (silent_maj32 ha.properWord hb hc).bind fun maj _ =>
    (emits_addmany (x := s0) (by simp) (by simp) hs0).bind ?_
  rintro t2 _ ⟨ht2, rfl⟩
  refine (emits_addmany (x := t1) (by simp) (by simp) ht1).bind ?_
  rintro e _ ⟨he', rfl⟩
  refine (emits_addmany (x := t1) (by simp) (by simp) ht1).bind ?_
  rintro a _ ⟨ha', rfl⟩
  refine Emits.pure ⟨⟨ha', he'⟩, ⟨rfl, rfl, rfl, rfl, rfl, rfl⟩, ?_⟩
  simp only [map_cons, map_nil, sum_cons, sum_nil, hs1.wordOffset,
    ht1.wordOffset, hoff, wordOffset_constBits, cons_append, nil_append,
    zero_add, add_zero, add_assoc]
  exact ⟨_, _, rfl⟩

theorem emits_round_constantState (S : State) (k : Word) (hx : PlainWord x) :
    Emits (Gadget.round functions (constantState (Synth F) S) (k, x)) fun t l =>
      (PlainWord t.a ∧ PlainWord t.e) ∧
        (t.b = constBits (Synth F) S.a ∧ t.c = constBits (Synth F) S.b ∧
          t.d = constBits (Synth F) S.c ∧ t.f = constBits (Synth F) S.e ∧
          t.g = constBits (Synth F) S.f ∧ t.h = constBits (Synth F) S.g) ∧
        ∃ z, l = [(S.h.toNat : F) + ((Sha2.bigSigma1 S.e).toNat : F) +
          ((Sha2.ch S.e S.f S.g).toNat : F) + (k.toNat : F), (S.d.toNat : F), z] := by
  have hround : Gadget.round functions (constantState (Synth F) S) (k, x) = (do
      let t1 ← (BoolGadgets.addmany [constBits (Synth F) S.h,
        constBits (Synth F) (Sha2.bigSigma1 S.e),
        constBits (Synth F) (Sha2.ch S.e S.f S.g), constBits (Synth F) k, x] :
          Synth F _)
      let e ← BoolGadgets.addmany [constBits (Synth F) S.d, t1]
      let a ← BoolGadgets.addmany [t1,
        constBits (Synth F) (Sha2.bigSigma0 S.a + Sha2.maj S.a S.b S.c)]
      return ⟨a, constBits (Synth F) S.a, constBits (Synth F) S.b,
        constBits (Synth F) S.c, e, constBits (Synth F) S.e,
        constBits (Synth F) S.f, constBits (Synth F) S.g⟩) := by
    simp only [Gadget.round, functions, constantState, bigSigma1_constBits, ch32_constBits,
      bigSigma0_constBits, maj32_constBits, addmany_constBits, pure_bind]
  rw [hround]
  refine (emits_addmany (x := x) (by simp) (by simp) hx).bind ?_
  rintro t1 _ ⟨ht1, rfl⟩
  refine (emits_addmany (x := t1) (by simp) (by simp) ht1).bind ?_
  rintro e _ ⟨he, rfl⟩
  refine (emits_addmany (x := t1) (by simp) (by simp) ht1).bind ?_
  rintro a _ ⟨ha, rfl⟩
  refine Emits.pure ⟨⟨ha, he⟩, ⟨rfl, rfl, rfl, rfl, rfl, rfl⟩, ?_⟩
  simp only [map_cons, map_nil, sum_cons, sum_nil, hx.wordOffset,
    ht1.wordOffset, wordOffset_constBits, cons_append, nil_append, zero_add, add_zero,
    add_assoc]
  exact ⟨_, rfl⟩

/-! ### The first four rounds reveal the state -/

/-- **What four rounds emit** of their first state, with what is known of the schedule. -/
def Reveals (S : State) (k₀ k₁ k₂ k₃ : Word) (o₁ o₂ o₃ : F) (l : List F) : Prop :=
  ∃ z₁ y₂ z₂ y₃ z₃ y₄ z₄ rest, l =
    [(S.h.toNat : F) + ((Sha2.bigSigma1 S.e).toNat : F) + ((Sha2.ch S.e S.f S.g).toNat : F) +
        (k₀.toNat : F), (S.d.toNat : F), z₁,
      (S.g.toNat : F) + (S.f.toNat : F) + (k₁.toNat : F) + o₁, y₂, (S.c.toNat : F), z₂,
      (S.f.toNat : F) + (S.e.toNat : F) + (k₂.toNat : F) + o₂, y₃, (S.b.toNat : F), z₃,
      (S.e.toNat : F) + 0 + (k₃.toNat : F) + o₃, y₄, (S.a.toNat : F), z₄] ++ rest

omit [Nontrivial F] in
/-- **The state can be read back**, the last word first. -/
theorem Reveals.inj (hF : ∀ v w : Word, (v.toNat : F) = (w.toNat : F) → v = w) {S' : State}
    {k₀ k₁ k₂ k₃ : Word} {o₁ o₂ o₃ : F} {l l' r r' : List F} (h : Reveals S k₀ k₁ k₂ k₃ o₁ o₂ o₃ l)
    (h' : Reveals S' k₀ k₁ k₂ k₃ o₁ o₂ o₃ l') (heq : l ++ r = l' ++ r') : S = S' := by
  obtain ⟨z₁, y₂, z₂, y₃, z₃, y₄, z₄, rest, rfl⟩ := h
  obtain ⟨z₁', y₂', z₂', y₃', z₃', y₄', z₄', rest', rfl⟩ := h'
  simp only [cons_append, List.cons.injEq, add_left_inj] at heq
  obtain ⟨hh, hd, -, hg, -, hc, -, hf, -, hb, -, he, -, ha, -⟩ := heq
  have ha := hF _ _ ha
  have hb := hF _ _ hb
  have hc := hF _ _ hc
  have hd := hF _ _ hd
  have he := hF _ _ he
  rw [he, add_left_inj] at hf
  have hf := hF _ _ hf
  rw [hf, add_left_inj] at hg
  have hg := hF _ _ hg
  rw [he, hf, hg, add_left_inj, add_left_inj] at hh
  have hh := hF _ _ hh
  cases S
  cases S'
  simp only at ha hb hc hd he hf hg hh
  rw [ha, hb, hc, hd, he, hf, hg, hh]

theorem emits_rounds (S : State) (k₀ k₁ k₂ k₃ : Word) {x₀ x₁ x₂ x₃ : UInt32Var Boolean}
    (hx : PlainWord x₀) (kws : List (Word × UInt32Var Boolean)) :
    Emits (((k₀, x₀) :: (k₁, x₁) :: (k₂, x₂) :: (k₃, x₃) :: kws).foldlM (Gadget.round functions)
      (constantState (Synth F) S)) fun _ l =>
        Reveals S k₀ k₁ k₂ k₃ (wordOffset F x₁) (wordOffset F x₂) (wordOffset F x₃) l := by
  simp only [foldlM_cons]
  refine (emits_round_constantState S k₀ hx).bind ?_
  rintro s₁ _ ⟨⟨ha₁, he₁⟩, ⟨hb₁, hc₁, hd₁, hf₁, hg₁, hh₁⟩, z₁, rfl⟩
  have hch₁ : Silent (ch32 s₁.e s₁.f s₁.g : Synth F _) fun c =>
      wordOffset F c = (S.f.toNat : F) := by
    rw [hf₁, hg₁]
    refine silent_ch32_of _ fun i hi => ?_
    rw [getElem_constBits hi]
    exact silent_chBit_constants (he₁ i hi) _ _
  refine (emits_round k₁ x₁ ha₁ (hb₁ ▸ properWord_constBits (F := F) _)
    (hc₁ ▸ properWord_constBits (F := F) _) he₁ hch₁).bind ?_
  rintro s₂ _ ⟨⟨ha₂, he₂⟩, ⟨hb₂, hc₂, hd₂, hf₂, hg₂, hh₂⟩, y₂, z₂, rfl⟩
  have hch₂ : Silent (ch32 s₂.e s₂.f s₂.g : Synth F _) fun c =>
      wordOffset F c = (S.e.toNat : F) := by
    rw [hf₂, hg₂, hf₁]
    exact silent_ch32_of _ fun i hi => silent_chBit_constant (he₂ i hi) (he₁ i hi) _
  refine (emits_round k₂ x₂ ha₂ (hb₂ ▸ ha₁.properWord)
    (hc₂ ▸ hb₁ ▸ properWord_constBits (F := F) _) he₂ hch₂).bind ?_
  rintro s₃ _ ⟨⟨ha₃, he₃⟩, ⟨hb₃, hc₃, hd₃, hf₃, hg₃, hh₃⟩, y₃, z₃, rfl⟩
  have hch₃ : Silent (ch32 s₃.e s₃.f s₃.g : Synth F _) fun c => wordOffset F c = 0 := by
    rw [hf₃, hg₃, hf₂]
    exact silent_ch32 he₃ he₂ he₁
  refine (emits_round k₃ x₃ ha₃ (hb₃ ▸ ha₂.properWord) (hc₃ ▸ hb₂ ▸ ha₁.properWord) he₃
    hch₃).bind ?_
  rintro s₄ _ ⟨-, -, y₄, z₄, rfl⟩
  refine (grows_rounds kws s₄).mono fun _ rest _ => ?_
  refine ⟨z₁, y₂, z₂, y₃, z₃, y₄, z₄, rest, ?_⟩
  rw [hh₁, hh₂, hg₁, hh₃, hg₂, hf₁, hd₁, hd₂, hc₁, hd₃, hc₂, hb₁]
  simp only [wordOffset_constBits]
  rfl

/-! ### The words of a state are variables -/

theorem emits_extendSchedule (n : ℕ) {w : List (UInt32Var Boolean)} (hlen : 16 ≤ w.length)
    (hw : ∀ x ∈ w, PlainWord x) :
    Emits (Gadget.extendSchedule n w : Synth F _) fun w' _ =>
      w <+: w' ∧ ∀ x ∈ w', PlainWord x := by
  induction n generalizing w with
  | zero => exact Emits.pure ⟨prefix_rfl, hw⟩
  | succ n ih =>
    rw [Gadget.extendSchedule]
    have hat : PlainWord (w.getD (w.length - 7) (constBits (Synth F) 0)) := by
      rw [getD_eq_getElem _ _ (by omega)]
      exact hw _ (getElem_mem _)
    refine (grows_xor3 _ _ _).andThen fun s1 => (grows_xor3 _ _ _).andThen fun s0 =>
      (emits_addmany (by simp) (by simp) hat).bind fun wi _ hwi => ?_
    refine (ih (by simp; omega) ?_).mono fun w' _ h => ⟨(prefix_append _ _).trans h.1, h.2⟩
    exact forall_mem_append.2 ⟨hw, by simpa using hwi.1⟩

theorem emits_round_plain (s : HashState (UInt32Var Boolean)) {kw : Word × UInt32Var Boolean}
    (hx : PlainWord kw.2) :
    Emits (Gadget.round functions s kw : Synth F _) fun t _ => PlainWord t.a := by
  unfold Gadget.round
  refine (grows_xor3 _ _ _).andThen fun s1 => (grows_ch32 _ _ _).andThen fun ch =>
    (emits_addmany (x := kw.2) (by simp) (by simp) hx).bind fun t1 _ ht1 =>
    (grows_xor3 _ _ _).andThen fun s0 => (grows_maj32 _ _ _).andThen fun maj =>
    (grows_addmany _).andThen fun t2 => (grows_addmany _).andThen fun e =>
    (emits_addmany (x := t1) (by simp) (by simp) ht1.1).bind fun a _ ha => ?_
  exact Emits.pure ha.1

theorem emits_rounds_plain (kws : List (Word × UInt32Var Boolean))
    (hkws : ∀ kw ∈ kws, PlainWord kw.2) (s : HashState (UInt32Var Boolean))
    (hs : kws ≠ [] ∨ PlainWord s.a) :
    Emits (kws.foldlM (Gadget.round functions) s : Synth F _) fun t _ => PlainWord t.a := by
  induction kws generalizing s with
  | nil => exact Emits.pure (hs.resolve_left (by simp))
  | cons kw kws ih =>
    obtain ⟨hkw, hrest⟩ := forall_mem_cons.1 hkws
    rw [foldlM_cons]
    exact (emits_round_plain s hkw).bind fun t _ ht => ih hrest t (.inr ht)

theorem emits_feedForward_plain (s : UInt32Var Boolean) (hx : PlainWord x) :
    Emits (feedForward functions s x : Synth F _) fun y _ => PlainWord y := by
  change Emits (addmany [x, s]) _
  exact (emits_addmany (by simp) mem_cons_self hx).mono fun _ _ h => h.1

theorem emits_sha256Compress_plain (s : HashState (UInt32Var Boolean))
    (hblock : ∀ x ∈ block.toList, PlainWord x) :
    Emits (sha256Compress s block : Synth F _) fun t _ => PlainWord t.a := by
  unfold sha256Compress Gadget.compress
  refine (emits_extendSchedule 48 (by simp) hblock).bind fun w _ hw => ?_
  have hkws : ∀ kw ∈ roundConstants.zip w, PlainWord kw.2 := fun kw hkw =>
    hw.2 _ (of_mem_zip hkw).2
  have hne : roundConstants.zip w ≠ [] := by
    have hlen := hw.1.length_le
    rw [Vector.length_toList] at hlen
    rw [Ne, zip_eq_nil_iff, not_or]
    exact ⟨by simp [roundConstants], by rintro rfl; simp at hlen⟩
  refine (emits_rounds_plain _ hkws s (.inl hne)).bind fun t _ ht =>
    (emits_feedForward_plain s.a ht).bind fun a _ ha => ?_
  exact (grows_feedForward _ _).andThen fun _ => (grows_feedForward _ _).andThen fun _ =>
    (grows_feedForward _ _).andThen fun _ => (grows_feedForward _ _).andThen fun _ =>
    (grows_feedForward _ _).andThen fun _ => (grows_feedForward _ _).andThen fun _ =>
    (grows_feedForward _ _).andThen fun _ => Emits.pure ha

/-! ### The state that a compression starts from -/

/-- A compression that starts from constants reveals them. -/
theorem reveals_of_sha256Compress {cs t : ConstraintSystem F} {k₀ k₁ k₂ k₃ : Word} {ks : List Word}
    (hks : roundConstants = k₀ :: k₁ :: k₂ :: k₃ :: ks) (hx : PlainWord block[0])
    (hrun : (sha256Compress (constantState (Synth F) S) block : Synth F _) cs = .ok (s, t)) :
    ∃ w cs₁ l r, (Gadget.extendSchedule 48 block.toList : Synth F _) cs = .ok (w, cs₁) ∧
      t.sums = cs₁.sums ++ (l ++ r) ∧
      Reveals S k₀ k₁ k₂ k₃ (wordOffset F (w.getD 1 (constBits (Synth F) 0)))
        (wordOffset F (w.getD 2 (constBits (Synth F) 0)))
        (wordOffset F (w.getD 3 (constBits (Synth F) 0))) l := by
  obtain ⟨w, cs₁, hw, hrest⟩ := exists_of_bind_eq_ok hrun
  obtain ⟨t₁, cs₂, hrounds, hfinal⟩ := exists_of_bind_eq_ok hrest
  -- the schedule begins with the block, which has more than four words
  obtain ⟨-, -, tail, rfl⟩ := emits_extendSchedule_begins 48 block.toList hw
  obtain ⟨x₀, x₁, x₂, x₃, ws, hblock⟩ : ∃ x₀ x₁ x₂ x₃ ws,
      block.toList = x₀ :: x₁ :: x₂ :: x₃ :: ws := by
    have hlen : block.toList.length = 16 := Vector.length_toList
    rcases hl : block.toList with _ | ⟨x₀, _ | ⟨x₁, _ | ⟨x₂, _ | ⟨x₃, ws⟩⟩⟩⟩ <;> simp [hl] at hlen
    exact ⟨x₀, x₁, x₂, x₃, ws, rfl⟩
  have hx₀ : block[0] = x₀ := by
    rw [← Vector.getElem_toList (by simp)]
    simp [hblock]
  rw [hblock] at hw hrounds ⊢
  rw [hks] at hrounds
  obtain ⟨l, hl, hreveals⟩ := emits_rounds S k₀ k₁ k₂ k₃ (hx₀ ▸ hx) _ hrounds
  have hgrow : cs₂.sums <+: t.sums := Grows.isPrefix ?_ hfinal
  · obtain ⟨r, hr⟩ := hgrow
    exact ⟨_, cs₁, l, r, hw, by rw [← hr, hl, append_assoc], hreveals⟩
  · exact (grows_feedForward _ _).bind fun _ => (grows_feedForward _ _).bind fun _ =>
      (grows_feedForward _ _).bind fun _ => (grows_feedForward _ _).bind fun _ =>
      (grows_feedForward _ _).bind fun _ => (grows_feedForward _ _).bind fun _ =>
      (grows_feedForward _ _).bind fun _ => (grows_feedForward _ _).bind fun _ => Grows.pure _

/-- Two compressions that start from constants. -/
theorem state_eq_of_sums {μ μ' : SynthesisMode}
    (hF : ∀ v w : Word, (v.toNat : F) = (w.toNat : F) → v = w) {S' : State}
    {block' : Vector (UInt32Var Boolean) 16} {s' : HashState (UInt32Var Boolean)}
    {cs cs' t t' u u' : ConstraintSystem F} (hcs : Coupling.SameRows μ μ' cs cs')
    (hblock : VecRel (VecRel (sameRows F μ μ').BitRel) block block')
    (hx : PlainWord block[0]) (hx' : PlainWord block'[0])
    (hrun : (sha256Compress (constantState (Synth F) S) block : Synth F _) cs = .ok (s, t))
    (hrun' : (sha256Compress (constantState (Synth F) S') block' : Synth F _) cs' =
      .ok (s', t')) (hu : t.sums <+: u.sums) (hu' : t'.sums <+: u'.sums)
    (hsums : u.sums = u'.sums) : S = S' := by
  obtain ⟨k₀, k₁, k₂, k₃, ks, hks⟩ :
      ∃ k₀ k₁ k₂ k₃ ks, roundConstants = k₀ :: k₁ :: k₂ :: k₃ :: ks :=
    ⟨_, _, _, _, _, rfl⟩
  obtain ⟨w, cs₁, l, r, hw, ht, hreveals⟩ := reveals_of_sha256Compress hks hx hrun
  obtain ⟨w', cs₁', l', r', hw', ht', hreveals'⟩ := reveals_of_sha256Compress hks hx' hrun'
  -- the schedules are computed in lockstep
  obtain ⟨hwords, hsame⟩ := rel_of_run
    (simulate_extendSchedule (S := (sameRows F μ μ').simulation) 48 hblock.toList) hcs hw hw'
  have hoff : ∀ i, wordOffset F (w.getD i (constBits (Synth F) 0)) =
      wordOffset F (w'.getD i (constBits (Synth F) 0)) := fun i =>
    wordOffset_congr (forall₂_getD hwords ((sameRows F μ μ').simulation.constBits 0) i)
  rw [hoff, hoff, hoff] at hreveals
  obtain ⟨r₂, hr₂⟩ := hu
  obtain ⟨r₂', hr₂'⟩ := hu'
  have hall : cs₁.sums ++ (l ++ (r ++ r₂)) = cs₁.sums ++ (l' ++ (r' ++ r₂')) := by
    rw [ht] at hr₂
    rw [ht', ← ConstraintSystem.sums_congr hsame.constraints] at hr₂'
    rw [← hr₂, ← hr₂'] at hsums
    simpa only [append_assoc] using hsums
  exact hreveals.inj hF hreveals' (append_cancel_left hall)

/-! ### HMAC -/

end

variable (key : Bytes32)

/-- **The outer key state**: after the block of the key. -/
def outerState : State :=
  Sha2.compress initialState
    (blockAt ((key.toList ++ List.replicate 32 0).map (· ^^^ 0x5c)) 0).toList

def outerInput {m : Type → Type} {Bit Fp : Type} [Monad m] [Gadgets m F Bit Fp] (msg : Bytes) :
    m (List (Vector (UInt32Var Bit) 16) × Vector (UInt32Var Bit) 16) := do
  let (blocks, innerState) ←
    sha256FromBytes ((key.toList ++ List.replicate 32 0).map (· ^^^ 0x36) ++ msg)
  let words ← allocBlock (blockAt (stateToBytesNative m innerState ++ outerPadding) 0)
  return (blocks, outerBlock innerState words)

theorem eq_constantState_of_folds {s : HashState (UInt32Var Boolean)}
    {s' : HashState (UInt32Var Bool)} (h : s.Rel (VecRel Boolean.Folds) s') :
    s = constantState (Synth F) s'.words := by
  obtain ⟨a, b, c, d, e, f, g, h'⟩ := s
  rw [constantState, HashState.words, ← eq_constBits_of_folds h.a,
    ← eq_constBits_of_folds h.b, ← eq_constBits_of_folds h.c,
    ← eq_constBits_of_folds h.d, ← eq_constBits_of_folds h.e,
    ← eq_constBits_of_folds h.f, ← eq_constBits_of_folds h.g,
    ← eq_constBits_of_folds h.h]

theorem sha256Compress_okeyBlock (block : Vector Word 16) :
    (sha256Compress (constantState (Synth F) initialState)
      (block.map (constBits (Synth F))) : Synth F _) =
      pure (constantState (Synth F) (Sha2.compress initialState block.toList)) := by
  have hblock : Forall₂ (VecRel (folding F).Rel)
      (block.map (constBits (Synth F))).toList (block.map (constBits Id)).toList := by
    refine VecRel.toList fun i hi => ?_
    rw [Vector.getElem_map, Vector.getElem_map]
    exact (folding F).constBits _
  have hfold := simulate_compress (simulate_functions (folding F))
    (simulate_constantState (folding F) initialState) hblock
  have hstate : (constantState Id initialState).words = initialState := by
    simp only [constantState, HashState.words, word_constBits]
  have hwords : (block.map (constBits Id)).toList.map word = block.toList := by
    rw [Vector.toList_map, map_map]
    exact (map_congr_left fun w _ => word_constBits w).trans (map_id _)
  funext cs
  obtain ⟨s, hrun, hs⟩ := hfold cs
  have hs' : s = constantState (Synth F) (Sha2.compress initialState block.toList) := by
    rw [eq_constantState_of_folds (F := F) hs, words_compress evaluate_functions, hstate, hwords]
  rw [hs'] at hrun
  exact hrun

/-- **HMAC is a compression from the outer key state**, a constant. -/
theorem hmacSha256Circuit_eq (msg : Bytes) :
    (hmacSha256Circuit key msg : Synth F _) = (do
      let (blocks, block) ← outerInput key msg
      let output ← sha256Compress (constantState (Synth F) (outerState key)) block
      return ⟨(blockAt ((key.toList ++ List.replicate 32 0).map (· ^^^ 0x5c)) 0).map
        (constBits (Synth F)), blocks, block, output⟩) := by
  simp only [hmacSha256Circuit, outerInput, sha256Compress_okeyBlock, bind_assoc, pure_bind]
  rfl

section

variable {μ μ' : SynthesisMode} (C : Coupling F μ μ')

theorem run_allocBlock (words words' : Vector Word 16) :
    C.simulation.Run (VecRel (VecRel C.BitRel)) (allocBlock words : Synth F _)
      (allocBlock words' : Synth F _) :=
  C.seq.ofFnM fun _ => run_newWitnessBits _ _

variable {s s' : HashState (UInt32Var Boolean)}

theorem run_sha256Compress (hs : s.Rel (VecRel C.BitRel) s')
    {block block' : Vector (UInt32Var Boolean) 16}
    (hblock : VecRel (VecRel C.BitRel) block block') :
    C.simulation.Run (HashState.Rel (VecRel C.BitRel)) (sha256Compress s block : Synth F _)
      (sha256Compress s' block' : Synth F _) :=
  simulate_compress (simulate_functions C.simulation) hs hblock.toList

theorem run_absorbBlocks {padded padded' : List (Vector Word 16)}
    (hlen : padded.length = padded'.length) (hs : s.Rel (VecRel C.BitRel) s') :
    C.simulation.Run (fun p p' => p.2.Rel (VecRel C.BitRel) p'.2)
      (absorbBlocks s padded : Synth F _) (absorbBlocks s' padded' : Synth F _) := by
  induction padded generalizing padded' s s' with
  | nil =>
    obtain rfl := length_eq_zero_iff.1 hlen.symm
    exact C.seq.pure hs
  | cons words rest ih =>
    cases padded' with
    | nil => exact absurd hlen (by simp)
    | cons words' rest' =>
      exact C.seq.bind (run_allocBlock C words words') fun _ _ hblock =>
        C.seq.bind (run_sha256Compress C hs hblock) fun _ _ hstate =>
        C.seq.bind (ih (Nat.succ.inj hlen) hstate) fun _ _ hfinal =>
        C.seq.pure hfinal

theorem length_sha256Pad (msg : Bytes) : (sha256Pad msg).length = numBlocks msg.length := by
  rw [sha256Pad, length_map, length_range]

theorem rel_outerBlock (hs : s.Rel (VecRel C.BitRel) s')
    {words words' : Vector (UInt32Var Boolean) 16}
    (hwords : VecRel (VecRel C.BitRel) words words') :
    VecRel (VecRel C.BitRel) (outerBlock s words) (outerBlock s' words') := by
  intro i hi
  rw [outerBlock, outerBlock, Vector.getElem_ofFn, Vector.getElem_ofFn]
  exact forall₂_getD hs.toList (hwords i hi) i

theorem run_outerInput (key key' : Bytes32) {msg msg' : Bytes} (hlen : msg.length = msg'.length) :
    C.simulation.Run (fun p p' => VecRel (VecRel C.BitRel) p.2 p'.2)
      (outerInput key msg : Synth F _) (outerInput key' msg' : Synth F _) := by
  refine C.seq.bind
    (run_absorbBlocks C ?_ (simulate_constantState C.simulation initialState)) fun _ _ hstate =>
    C.seq.bind (run_allocBlock C _ _) fun _ _ hwords =>
    C.seq.pure (rel_outerBlock C hstate hwords)
  rw [length_sha256Pad, length_sha256Pad]
  simp [hlen]

/-- **HMAC in lockstep**, for keys with one outer key state. -/
theorem run_hmacSha256Circuit {key key' : Bytes32} (hkey : outerState key = outerState key')
    {msg msg' : Bytes} (hlen : msg.length = msg'.length) :
    C.simulation.Run (fun h h' => h.output.Rel (VecRel C.BitRel) h'.output)
      (hmacSha256Circuit key msg : Synth F _)
      (hmacSha256Circuit key' msg' : Synth F _) := by
  rw [hmacSha256Circuit_eq, hmacSha256Circuit_eq, hkey]
  exact C.seq.bind (run_outerInput C key key' hlen) fun _ _ hblock =>
    C.seq.bind (run_sha256Compress C (simulate_constantState C.simulation _) hblock)
    fun _ _ hout => C.seq.pure hout

end

section

variable [Nontrivial F]

theorem silent_newWitnessBits (w : Word) :
    Silent (newWitnessBits w : Synth F (UInt32Var Boolean)) PlainWord :=
  Silent.ofFnM (P := fun _ => Boolean.Plain) fun _ =>
    (silent_newWitness _).map fun _ h => .is h

theorem silent_allocBlock (words : Vector Word 16) :
    Silent (allocBlock words : Synth F _) fun block => ∀ x ∈ block.toList, PlainWord x := by
  refine (Silent.ofFnM (P := fun _ => PlainWord) fun i => silent_newWitnessBits _).mono
    fun block hblock x hx => ?_
  obtain ⟨i, hi, rfl⟩ := getElem_of_mem hx
  exact hblock i (by simpa using hi)

theorem emits_absorbBlocks_plain (padded : List (Vector Word 16))
    (s : HashState (UInt32Var Boolean)) (hs : padded ≠ [] ∨ PlainWord s.a) :
    Emits (absorbBlocks s padded : Synth F _) fun p _ => PlainWord p.2.a := by
  induction padded generalizing s with
  | nil => exact Emits.pure (hs.resolve_left (by simp))
  | cons words rest ih =>
    exact (silent_allocBlock words).bind fun block hblock =>
      (emits_sha256Compress_plain s hblock).bind fun t _ ht => (ih t (.inr ht)).bind
        fun p _ hp => Emits.pure hp

theorem emits_outerInput_plain (key : Bytes32) (msg : Bytes) :
    Emits (outerInput key msg : Synth F _) fun p _ => PlainWord p.2[0] := by
  have hne : sha256Pad ((key.toList ++ List.replicate 32 0).map (· ^^^ 0x36) ++ msg) ≠ [] := by
    rw [← length_pos_iff, length_sha256Pad, numBlocks]
    simp
  refine (emits_absorbBlocks_plain _ _ (.inl hne)).bind fun p _ hp =>
    (Grows.of_emits (silent_allocBlock _)).andThen fun words => Emits.pure ?_
  rw [outerBlock, Vector.getElem_ofFn]
  exact hp

theorem grows_hmacSha256Circuit (key : Bytes32) (msg : Bytes) :
    Grows (hmacSha256Circuit key msg : Synth F _) := by
  rw [hmacSha256Circuit_eq]
  exact (Grows.of_emits (emits_outerInput_plain key msg)).bind fun _ =>
    (grows_sha256Compress _ _).bind fun _ => Grows.pure _

/-- **HMAC reveals the outer key state**, if all sums of both runs are the same. -/
theorem outerState_eq_of_sums {μ μ' : SynthesisMode}
    (hF : ∀ v w : Word, (v.toNat : F) = (w.toNat : F) → v = w) {key key' : Bytes32}
    {msg msg' : Bytes} (hlen : msg.length = msg'.length) {h h' : HmacWires Boolean}
    {cs cs' t t' u u' : ConstraintSystem F} (hcs : Coupling.SameRows μ μ' cs cs')
    (hrun : (hmacSha256Circuit key msg : Synth F _) cs = .ok (h, t))
    (hrun' : (hmacSha256Circuit key' msg' : Synth F _) cs' = .ok (h', t'))
    (hu : t.sums <+: u.sums) (hu' : t'.sums <+: u'.sums) (hsums : u.sums = u'.sums) :
    outerState key = outerState key' := by
  rw [hmacSha256Circuit_eq] at hrun hrun'
  obtain ⟨p, cs₁, hp, hrest⟩ := exists_of_bind_eq_ok hrun
  obtain ⟨p', cs₁', hp', hrest'⟩ := exists_of_bind_eq_ok hrun'
  obtain ⟨-, -, hx⟩ := emits_outerInput_plain key msg hp
  obtain ⟨-, -, hx'⟩ := emits_outerInput_plain key' msg' hp'
  obtain ⟨hblock, hsame⟩ := rel_of_run (run_outerInput (sameRows F μ μ') key key' hlen) hcs hp hp'
  obtain ⟨s, t₁, hs, hpure⟩ := exists_of_bind_eq_ok hrest
  obtain ⟨s', t₁', hs', hpure'⟩ := exists_of_bind_eq_ok hrest'
  obtain rfl : t₁ = t := (Prod.mk.inj (Except.ok.inj hpure)).2
  obtain rfl : t₁' = t' := (Prod.mk.inj (Except.ok.inj hpure')).2
  exact state_eq_of_sums hF hsame hblock hx hx' hs hs' hu hu' hsums

end

/-! ### The circuit -/

namespace TlsPrfCircuit

variable {r : ℕ}

section

variable {μ μ' : SynthesisMode} (C : Coupling (ZMod r) μ μ')

theorem length_stateToBytesNative {m : Type → Type} {Bit Fp : Type} [Gadgets m (ZMod r) Bit Fp]
    (s : HashState (UInt32Var Bit)) : (stateToBytesNative m s).length = 32 := by
  simp [stateToBytesNative, HashState.toList]

theorem run_turn {key key' : Bytes32} (hkey : outerState key = outerState key')
    {seed seed' a a' : Bytes} (hseed : seed.length = seed'.length) (ha : a.length = a'.length) :
    C.simulation.Run (fun t t' => t.a.output.Rel (VecRel C.BitRel) t'.a.output ∧
        t.p.output.Rel (VecRel C.BitRel) t'.p.output)
      (turn key seed a : Synth (ZMod r) _) (turn key' seed' a' : Synth (ZMod r) _) := by
  refine C.seq.bind (run_hmacSha256Circuit C hkey ha) fun _ _ hoa =>
    C.seq.bind (run_hmacSha256Circuit C hkey ?_) fun _ _ hop => C.seq.pure ⟨hoa, hop⟩
  rw [length_append, length_append, length_stateToBytesNative, length_stateToBytesNative, hseed]

theorem run_turns {key key' : Bytes32} (hkey : outerState key = outerState key')
    {seed seed' : Bytes} (hseed : seed.length = seed'.length) (n : ℕ) {a a' : Bytes}
    (ha : a.length = a'.length) :
    C.simulation.Run (fun _ _ => True) (turns key seed n a : Synth (ZMod r) _)
      (turns key' seed' n a' : Synth (ZMod r) _) := by
  induction n generalizing a a' with
  | zero => exact C.seq.pure trivial
  | succ n ih =>
    refine C.seq.bind (run_turn C hkey hseed ha) fun _ _ _ =>
      C.seq.bind (ih ?_) fun _ _ _ => C.seq.pure trivial
    rw [length_stateToBytesNative, length_stateToBytesNative]

theorem rel_kMacBits {s s' : HashState (UInt32Var Boolean)} (hs : s.Rel (VecRel C.BitRel) s') :
    Forall₂ C.BitRel (kMacBits s) (kMacBits s') := by
  have hwords : Forall₂ (fun p p' => VecRel C.BitRel p.1 p'.1 ∧ p.2 = p'.2)
      s.toList.zipIdx s'.toList.zipIdx :=
    .cons ⟨hs.a, rfl⟩ (.cons ⟨hs.b, rfl⟩ (.cons ⟨hs.c, rfl⟩ (.cons ⟨hs.d, rfl⟩ (.cons ⟨hs.e, rfl⟩
      (.cons ⟨hs.f, rfl⟩ (.cons ⟨hs.g, rfl⟩ (.cons ⟨hs.h, rfl⟩ .nil)))))))
  refine rel_flatMap hwords ?_
  rintro ⟨x, i⟩ ⟨x', _⟩ ⟨hx, rfl⟩
  refine rel_flatMap (R := Eq) (forall₂_same.2 fun _ _ => rfl) ?_
  rintro j _ rfl
  refine VecRel.toList fun k hk => ?_
  rw [byteOfWord, byteOfWord, Vector.getElem_ofFn, Vector.getElem_ofFn]
  exact hx _ _

theorem length_seedMs (c : TlsPrfCircuit r) :
    c.seedMs.length = labelMasterSecret.length + 64 := by
  simp [seedMs]

theorem length_seedKe (c : TlsPrfCircuit r) :
    c.seedKe.length = labelKeyExpansion.length + 64 := by
  simp [seedKe]

theorem run_generateConstraints (c c' : TlsPrfCircuit r)
    (hpms : outerState c.pmsBytes = outerState c'.pmsBytes)
    (hms : outerState c.msKey = outerState c'.msKey) :
    C.simulation.Run (fun _ _ => True) (c.generateConstraints : Synth (ZMod r) _)
      (c'.generateConstraints : Synth (ZMod r) _) := by
  have hseedMs : c.seedMs.length = c'.seedMs.length := by rw [length_seedMs, length_seedMs]
  have hseedKe : c.seedKe.length = c'.seedKe.length := by rw [length_seedKe, length_seedKe]
  refine C.seq.bind (run_fpNewInput _ _) fun _ _ hcomm =>
    C.seq.bind (run_fpNewInput _ _) fun _ _ hrand =>
    C.seq.bind (run_hmacSha256Circuit C hpms hseedMs) fun a1 a1' _ =>
    C.seq.bind (run_hmacSha256Circuit C hpms ?_) fun _ _ _ =>
    C.seq.bind (run_turn C hms hseedKe hseedKe) fun t t' ht =>
    C.seq.bind (run_turns C hms hseedKe 4 ?_) fun _ _ _ =>
    C.seq.bind (run_fpNewWitness _ _) fun _ _ hp =>
    C.seq.bind (run_fpNewWitness _ _) fun _ _ hv =>
    C.seq.bind (run_fpEnforceEqual (rel_leBitsToFp (rel_kMacBits C ht.2))
      (rel_append hp hv)) fun _ _ _ =>
    C.seq.bind (run_fpEnforceEqual hcomm
      (rel_append (rel_append hp hv) hrand)) fun _ _ _ => C.seq.pure trivial
  · rw [length_append, length_append, length_stateToBytesNative, length_stateToBytesNative, hseedMs]
  · rw [length_stateToBytesNative, length_stateToBytesNative]

end

theorem grows_fpNewWitness (x : ZMod r) :
    Grows (Gadgets.fpNewWitness (m := Synth (ZMod r)) x) :=
  (Grows.of_emits (silent_newWitnessVariable _)).bind fun _ => Grows.pure _

theorem grows_fpEnforceEqual (x y : LinComb (ZMod r)) :
    Grows (Gadgets.fpEnforceEqual (m := Synth (ZMod r)) x y) :=
  Grows.of_keeps (keeps_enforceConstraint _ _ _)

section

variable [Nontrivial (ZMod r)] (key : Bytes32)

theorem grows_turn (seed a : Bytes) :
    Grows (turn key seed a : Synth (ZMod r) _) :=
  (grows_hmacSha256Circuit _ _).bind fun _ => (grows_hmacSha256Circuit _ _).bind fun _ =>
    Grows.pure _

theorem grows_turns (seed : Bytes) (n : ℕ) (a : Bytes) :
    Grows (turns key seed n a : Synth (ZMod r) _) := by
  induction n generalizing a with
  | zero => exact Grows.pure _
  | succ n ih => exact (grows_turn _ _ _).bind fun _ => (ih _).bind fun _ => Grows.pure _

/-- **The stages of a run**, up to the first call under the master secret. -/
theorem exists_stages {c : TlsPrfCircuit r} {w : TlsPrfWires Boolean (LinComb (ZMod r))}
    {cs u : ConstraintSystem (ZMod r)}
    (hrun : (c.generateConstraints : Synth (ZMod r) _) cs = .ok (w, u)) :
    ∃ cv rv a1 p1 a cs₁ t₁ t₂ t₃ t₄,
      Gadgets.fpNewInput (m := Synth (ZMod r)) c.commitment cs = .ok (cv, cs₁) ∧
      Gadgets.fpNewInput (m := Synth (ZMod r)) c.randBinding cs₁ = .ok (rv, t₁) ∧
      (hmacSha256Circuit c.pmsBytes c.seedMs : Synth (ZMod r) _) t₁ = .ok (a1, t₂) ∧
      (hmacSha256Circuit c.pmsBytes (stateToBytesNative (Synth (ZMod r)) a1.output ++ c.seedMs) :
        Synth (ZMod r) _) t₂ = .ok (p1, t₃) ∧
      (hmacSha256Circuit c.msKey c.seedKe : Synth (ZMod r) _) t₃ = .ok (a, t₄) ∧
      t₂.sums <+: u.sums ∧ t₄.sums <+: u.sums := by
  obtain ⟨cv, cs₁, hcv, hrun₁⟩ := exists_of_bind_eq_ok hrun
  obtain ⟨rv, t₁, hrv, hrun₂⟩ := exists_of_bind_eq_ok hrun₁
  obtain ⟨a1, t₂, ha1, hrun₃⟩ := exists_of_bind_eq_ok hrun₂
  obtain ⟨p1, t₃, hp1, hrun₄⟩ := exists_of_bind_eq_ok hrun₃
  obtain ⟨t, t₅, hturn, hrun₅⟩ := exists_of_bind_eq_ok hrun₄
  obtain ⟨a, t₄, ha, hturn₁⟩ := exists_of_bind_eq_ok hturn
  have hgrow₄ : t₄.sums <+: t₅.sums := by
    refine Grows.isPrefix ?_ hturn₁
    exact (grows_hmacSha256Circuit _ _).bind fun _ => Grows.pure _
  have hgrow₅ : t₅.sums <+: u.sums := by
    refine Grows.isPrefix ?_ hrun₅
    exact (grows_turns _ _ _ _).bind fun _ => (grows_fpNewWitness _).bind fun _ =>
      (grows_fpNewWitness _).bind fun _ => (grows_fpEnforceEqual _ _).bind fun _ =>
      (grows_fpEnforceEqual _ _).bind fun _ => Grows.pure _
  have hgrow₂ : t₂.sums <+: t₄.sums :=
    ((grows_hmacSha256Circuit _ _).isPrefix hp1).trans ((grows_hmacSha256Circuit _ _).isPrefix ha)
  exact ⟨cv, rv, a1, p1, a, cs₁, t₁, t₂, t₃, t₄, hcv, hrv, ha1, hp1, ha,
    hgrow₂.trans (hgrow₄.trans hgrow₅), hgrow₄.trans hgrow₅⟩

/-- Runs with the same sums have the same outer key states. -/
theorem outerStates_eq_of_sums {μ μ' : SynthesisMode}
    (hF : ∀ v w : Word, (v.toNat : ZMod r) = (w.toNat : ZMod r) → v = w) {c c' : TlsPrfCircuit r}
    {w w' : TlsPrfWires Boolean (LinComb (ZMod r))} {u u' : ConstraintSystem (ZMod r)}
    (hrun : (c.generateConstraints : Synth (ZMod r) _) (.new _ μ) = .ok (w, u))
    (hrun' : (c'.generateConstraints : Synth (ZMod r) _) (.new _ μ') = .ok (w', u'))
    (hsums : u.sums = u'.sums) :
    outerState c.pmsBytes = outerState c'.pmsBytes ∧ outerState c.msKey = outerState c'.msKey := by
  obtain ⟨cv, rv, a1, p1, a, cs₁, t₁, t₂, t₃, t₄, hcv, hrv, ha1, hp1, ha, hu₂, hu₄⟩ :=
    exists_stages hrun
  obtain ⟨cv', rv', a1', p1', a', cs₁', t₁', t₂', t₃', t₄', hcv', hrv', ha1', hp1', ha', hu₂',
      hu₄'⟩ :=
    exists_stages hrun'
  let C := sameRows (ZMod r) μ μ'
  have hseedMs : c.seedMs.length = c'.seedMs.length := by rw [length_seedMs, length_seedMs]
  have hseedKe : c.seedKe.length = c'.seedKe.length := by rw [length_seedKe, length_seedKe]
  have hnew : C.States (.new _ μ) (.new _ μ') := Coupling.SameRows.mk rfl rfl rfl rfl rfl
  have hs₀ := (rel_of_run (C := C) (run_fpNewInput _ _) hnew hcv hcv').2
  have hs₁ := (rel_of_run (C := C) (run_fpNewInput _ _) hs₀ hrv hrv').2
  have hpms := outerState_eq_of_sums hF hseedMs hs₁ ha1 ha1' hu₂ hu₂' hsums
  -- now the calls under the pre-master secret are in lockstep, too
  have hs₂ := (rel_of_run (run_hmacSha256Circuit C hpms hseedMs) hs₁ ha1 ha1').2
  have hlen : (stateToBytesNative (Synth (ZMod r)) a1.output ++ c.seedMs).length =
      (stateToBytesNative (Synth (ZMod r)) a1'.output ++ c'.seedMs).length := by
    rw [length_append, length_append, length_stateToBytesNative, length_stateToBytesNative, hseedMs]
  have hs₃ := (rel_of_run (run_hmacSha256Circuit C hpms hlen) hs₂ hp1 hp1').2
  exact ⟨hpms, outerState_eq_of_sums hF hseedKe hs₃ ha ha' hu₄ hu₄' hsums⟩

end

theorem word_eq_of_cast_eq {v w : Word}
    (h : (v.toNat : ZMod Bls12377.r) = (w.toNat : ZMod Bls12377.r)) : v = w := by
  have hlt : ∀ x : Word, x.toNat < Bls12377.r := fun x =>
    x.isLt.trans_le ((by decide : 2 ^ 32 ≤ 256 ^ 31).trans Bls12377.le_r)
  have hmod := (ZMod.natCast_eq_natCast_iff' v.toNat w.toNat Bls12377.r).1 h
  rw [Nat.mod_eq_of_lt (hlt v), Nat.mod_eq_of_lt (hlt w)] at hmod
  exact BitVec.eq_of_toNat_eq hmod

/-! ### The matrices of two sessions -/

/-- Both runs end well, each in its mode, and in the same matrices. -/
def SameMatrices (μ μ' : SynthesisMode) (c c' : TlsPrfCircuit Bls12377.r) : Prop :=
  ∃ cs cs', synthesize μ (discard (c.generateConstraints : Synth (ZMod Bls12377.r) _)) = .ok cs ∧
    synthesize μ' (discard (c'.generateConstraints : Synth (ZMod Bls12377.r) _)) = .ok cs' ∧
    cs.toMatrices = cs'.toMatrices

variable {c c' : TlsPrfCircuit Bls12377.r}

theorem outerStates_eq_of_sameMatrices {μ μ' : SynthesisMode} (h : SameMatrices μ μ' c c') :
    outerState c.pmsBytes = outerState c'.pmsBytes ∧ outerState c.msKey = outerState c'.msKey := by
  have : Nontrivial (ZMod Bls12377.r) := ZMod.nontrivial_iff.2 (by decide)
  obtain ⟨cs, cs', hcs, hcs', hmat⟩ := h
  obtain ⟨w, hrun⟩ := exists_of_synthesize_eq_ok hcs
  obtain ⟨w', hrun'⟩ := exists_of_synthesize_eq_ok hcs'
  exact outerStates_eq_of_sums (fun _ _ => word_eq_of_cast_eq) hrun hrun'
    (congrArg Matrices.sums hmat)

theorem sameMatrices_of_outerStates_eq (hpms : outerState c.pmsBytes = outerState c'.pmsBytes)
    (hms : outerState c.msKey = outerState c'.msKey) (μ μ' : SynthesisMode) :
    SameMatrices μ μ' c c' :=
  exists_synthesize (run_generateConstraints (sameRows _ μ μ') c c' hpms hms)

/-- **Two sessions have the same matrices** exactly if both their secrets have the same outer key
states. -/
theorem sameMatrices_iff (c c' : TlsPrfCircuit Bls12377.r) (μ μ' : SynthesisMode) :
    SameMatrices μ μ' c c' ↔
      outerState c.pmsBytes = outerState c'.pmsBytes ∧ outerState c.msKey = outerState c'.msKey :=
  ⟨outerStates_eq_of_sameMatrices, fun h => sameMatrices_of_outerStates_eq h.1 h.2 μ μ'⟩

/-- A session that the setup does not fit. -/
theorem not_sameMatrices_dummy : ¬SameMatrices .setup .prove (dummy Bls12377.r)
    (new Bls12377.r (.replicate 32 0) (.replicate 32 0) (.replicate 32 1) (.replicate 32 0)
      (.replicate 32 0) (.replicate 32 0)) := by
  intro h
  have hne : outerState (.replicate 32 0) ≠ outerState (.replicate 32 1) := by decide +kernel
  exact hne (outerStates_eq_of_sameMatrices h).1

end TlsPrfCircuit

end TlsAttestation.CoSnarkProver
