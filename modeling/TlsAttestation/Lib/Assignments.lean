import TlsAttestation.Lib.Hmac
import TlsAttestation.Lib.Sha256Gadget

/-!
# Satisfying assignments

What a circuit enforces holds in **every** assignment that satisfies its constraints. In this
reading a bit is a `Ark.Wire`: the value that the prover computes, at which a program may look, and
the one that is assigned. A run is the set of results that satisfying assignments have
(`Ark.Sat`); a bitwise program has exactly one (`Ark.Determined`, `Ark.reading`).
-/

namespace Ark

open ByteEncoding
open List hiding Vector

/-! ### The monad -/

def Sat (_F α : Type) : Type := α → Prop

namespace Sat

variable {F α β : Type}

instance : Membership α (Sat F α) := ⟨fun x a => x a⟩

theorem ext {x y : Sat F α} (h : ∀ a, a ∈ x ↔ a ∈ y) : x = y :=
  funext fun a => propext (h a)

instance : Monad (Sat F) where
  pure a := fun b => b = a
  bind x f := fun b => ∃ a, a ∈ x ∧ b ∈ f a

@[simp] theorem mem_pure {a b : α} : b ∈ (pure a : Sat F α) ↔ b = a :=
  Iff.rfl

@[simp] theorem mem_bind {x : Sat F α} {f : α → Sat F β} {b : β} :
    b ∈ x >>= f ↔ ∃ a, a ∈ x ∧ b ∈ f a :=
  Iff.rfl

theorem bind_assoc' {γ : Type} (x : Sat F α) (f : α → Sat F β)
    (g : β → Sat F γ) : x >>= f >>= g = x >>= fun a => f a >>= g := by
  refine ext fun c => ?_
  simp only [mem_bind]
  constructor
  · rintro ⟨b, ⟨a, ha, hb⟩, hc⟩
    exact ⟨a, ha, b, hb, hc⟩
  · rintro ⟨a, ha, b, hb, hc⟩
    exact ⟨b, ⟨a, ha, hb⟩, hc⟩

instance : LawfulMonad (Sat F) := by
  refine LawfulMonad.mk' _ (fun x => ext fun a => ?_) (fun a f => ext fun b => ?_) bind_assoc'
  · change (∃ b, b ∈ x ∧ a = id b) ↔ a ∈ x
    simp
  · simp

theorem pure_injective {a b : α} (h : (pure a : Sat F α) = pure b) : a = b := by
  have hmem : a ∈ (pure a : Sat F α) := mem_pure.2 rfl
  rw [h] at hmem
  exact mem_pure.1 hmem

theorem mem_ofFnM {n : ℕ} {f : Fin n → Sat F α} {x : Vector α n} :
    x ∈ Vector.ofFnM f ↔ ∀ (i : ℕ) (hi : i < n), x[i] ∈ f ⟨i, hi⟩ := by
  suffices h : x ∈ Vector.ofFnM f ↔ ∀ i : Fin n, x[i] ∈ f i from h.trans Fin.forall_iff
  induction n with
  | zero =>
    rw [Vector.ofFnM_zero, mem_pure]
    exact ⟨fun _ i => i.elim0, fun _ => Vector.eq_empty⟩
  | succ n ih =>
    rw [Vector.ofFnM_succ, Fin.forall_fin_succ']
    simp only [mem_bind, mem_pure, ih]
    constructor
    · rintro ⟨xs, hxs, a, ha, rfl⟩
      refine ⟨fun i => ?_, by simpa using ha⟩
      have hi := hxs i
      simpa [Vector.getElem_push] using hi
    · rintro ⟨hinit, hlast⟩
      refine ⟨x.pop, fun i => by simpa using hinit i, x.back, ?_, (Vector.push_pop_back x).symm⟩
      simpa [Vector.back] using hlast

theorem mem_mapM {f : α → Sat F β} {l : List α} {ys : List β} :
    ys ∈ l.mapM f ↔ Forall₂ (fun a b => b ∈ f a) l ys := by
  induction l generalizing ys with
  | nil =>
    rw [mapM_nil, mem_pure, forall₂_nil_left_iff]
  | cons a l ih =>
    rw [mapM_cons, forall₂_cons_left_iff]
    simp only [mem_bind, mem_pure, ih]
    constructor
    · rintro ⟨b, hb, bs, hbs, rfl⟩
      exact ⟨b, bs, hb, hbs, rfl⟩
    · rintro ⟨b, bs, hb, hbs, rfl⟩
      exact ⟨b, hb, bs, hbs, rfl⟩

end Sat

/-! ### Wires -/

/-- A bit: as computed, and as assigned. -/
structure Wire where
  native : Bool
  assigned : Bool
deriving DecidableEq

inductive Side where
  | native
  | assigned

def Wire.on : Side → Wire → Bool
  | .native, w => w.native
  | .assigned, w => w.assigned

def Wire.ofSides (f : Side → Bool) : Wire := ⟨f .native, f .assigned⟩

@[simp] theorem Wire.on_ofSides (f : Side → Bool) (side : Side) :
    (Wire.ofSides f).on side = f side := by
  cases side <;> rfl

theorem Wire.ext_on {v w : Wire} (h : ∀ side, v.on side = w.on side) : v = w := by
  have hnat := h .native
  have hassigned := h .assigned
  cases v
  cases w
  simp_all [Wire.on]

variable (side : Side) {n : ℕ}

def wordOn (x : Vector Wire n) : BitVec n := word (x.map (Wire.on side))

def byteOn (x : UInt8Var Wire) : UInt8 := byte (x.map (Wire.on side))

theorem map_byteOn_bytesOfWord (x : UInt32Var Wire) :
    (bytesOfWord x).map (byteOn side) = beBytes 4 (wordOn side x).toNat := by
  rw [wordOn, ← map_byte_bytesOfWord, bytesOfWord, bytesOfWord, List.map_map, List.map_map]
  refine List.map_congr_left fun i _ => ?_
  rw [Function.comp_apply, Function.comp_apply, byteOn, map_byteOfWord]

theorem wordOn_wordOfBytes (b₀ b₁ b₂ b₃ : UInt8Var Wire) :
    wordOn side (wordOfBytes b₀ b₁ b₂ b₃) =
      .ofNat 32 (ofBeBytes [byteOn side b₀, byteOn side b₁, byteOn side b₂, byteOn side b₃]) := by
  rw [wordOn, map_wordOfBytes, word_wordOfBytes]
  rfl

theorem ext_wordOn {x y : Vector Wire n} (h : ∀ side, wordOn side x = wordOn side y) :
    x = y := by
  refine Vector.ext fun i hi => Wire.ext_on fun side => ?_
  have hbit := congrArg (·.getLsbD i) (h side)
  simpa only [wordOn, getLsbD_word _ hi, Vector.getElem_map] using hbit

/-- Satisfying assignments as a reading of the gadgets. -/
instance {F : Type} [Zero F] [One F] [Add F] [Mul F] : Gadgets (Sat F) F Wire F where
  constant b := ⟨b, b⟩
  not w := ⟨!w.native, !w.assigned⟩
  and v w := pure (.ofSides fun side => v.on side && w.on side)
  xor v w := pure (.ofSides fun side => v.on side ^^ w.on side)
  addmany ws := pure (.ofFn fun i => .ofSides fun side => (ws.map (wordOn side)).sum.getLsbD i)
  value w := some w.native
  newWitness b := fun w => w.native = b
  fpConstant c := c
  fpNewInput _ := fun _ => True
  fpNewWitness _ := fun _ => True
  fpOfBit w := if w.assigned then 1 else 0
  fpAdd x y := x + y
  fpScale c x := c * x
  fpEnforceEqual x y := fun _ => x = y
  fail _ := fun _ => False

instance {F : Type} [Zero F] [One F] [Add F] [Mul F] : FieldGadgets (Sat F) F Wire F where
  fpMul x y := pure (x * y)

section

variable {F : Type} [Zero F] [One F] [Add F] [Mul F] {x y : F}

@[simp] theorem mem_fpNewInput : y ∈ Gadgets.fpNewInput (m := Sat F) x ↔ True :=
  Iff.rfl

@[simp] theorem mem_fpNewWitness :
    y ∈ Gadgets.fpNewWitness (m := Sat F) x ↔ True :=
  Iff.rfl

@[simp] theorem mem_fpEnforceEqual {u : Unit} :
    u ∈ Gadgets.fpEnforceEqual (m := Sat F) x y ↔ x = y :=
  Iff.rfl

@[simp] theorem fpAdd_eq (x y : F) : Gadgets.fpAdd (m := Sat F) x y = x + y :=
  rfl

@[simp] theorem fpConstant_eq (x : F) : Gadgets.fpConstant (m := Sat F) x = x :=
  rfl

@[simp] theorem fpMul_eq (x y : F) : FieldGadgets.fpMul (m := Sat F) x y = pure (x * y) :=
  rfl

end

section

variable {F : Type} [CommRing F]

theorem leBitsToFp_eq (bits : List Wire) :
    leBitsToFp (Sat F) bits = (ofLeBits (bits.map (Wire.on .assigned)) : F) := by
  refine eval_leBitsToFp (m := Sat F) id rfl (fun _ _ => rfl) (fun _ _ => rfl) ?_
  exact forall₂_map_right_iff.2 (forall₂_same.2 fun _ _ => rfl)

theorem map_on_flatMap_toList (xs : List (UInt8Var Wire)) :
    (xs.flatMap Vector.toList).map (Wire.on .assigned) =
      (xs.map (byteOn .assigned)).flatMap bits := by
  rw [List.map_flatMap, List.flatMap_map]
  simp only [byteOn, bits_byte, Vector.toList_map]

end

/-! ### Determined results -/

def Determined {F α : Type} (x : Sat F α) (P : α → Prop) : Prop :=
  ∃ a, x = pure a ∧ P a

namespace Determined

variable {F α β γ : Type} {x : Sat F α} {P : α → Prop}

theorem pure {a : α} (h : P a) : Determined (pure a : Sat F α) P :=
  ⟨a, rfl, h⟩

theorem bind {f : α → Sat F β} {Q : β → Prop} (hx : Determined x P)
    (hf : ∀ a, P a → Determined (f a) Q) : Determined (x >>= f) Q := by
  obtain ⟨a, rfl, ha⟩ := hx
  rw [pure_bind]
  exact hf a ha

theorem and {Q : α → Prop} (hP : Determined x P) (hQ : Determined x Q) :
    Determined x fun a => P a ∧ Q a := by
  obtain ⟨a, rfl, ha⟩ := hP
  obtain ⟨b, heq, hb⟩ := hQ
  rw [← Sat.pure_injective heq] at hb
  exact ⟨a, rfl, ha, hb⟩

theorem mono {Q : α → Prop} (hx : Determined x P) (h : ∀ a, P a → Q a) : Determined x Q := by
  obtain ⟨a, ha, hP⟩ := hx
  exact ⟨a, ha, h a hP⟩

theorem sides {P : Side → α → Prop} (h : ∀ side, Determined x (P side)) :
    Determined x fun a => ∀ side, P side a :=
  ((h .native).and (h .assigned)).mono fun a ha side => by
    cases side
    exacts [ha.1, ha.2]

theorem mapM {f : γ → Sat F β} {Q : γ → β → Prop} (hf : ∀ c, Determined (f c) (Q c))
    (l : List γ) : Determined (l.mapM f) (Forall₂ Q l) := by
  induction l with
  | nil => exact .pure .nil
  | cons c l ih =>
    rw [mapM_cons]
    exact (hf c).bind fun b hb => ih.bind fun bs hbs => .pure (.cons hb hbs)

theorem foldlM {δ : Type} {f : β → γ → Sat F β} {g : δ → γ → δ} {R : β → δ → Prop}
    (hf : ∀ b d c, R b d → Determined (f b c) (R · (g d c))) (l : List γ) {b : β} {d : δ}
    (hbd : R b d) : Determined (l.foldlM f b) (R · (l.foldl g d)) := by
  induction l generalizing b d with
  | nil => exact .pure hbd
  | cons c l ih =>
    rw [foldlM_cons, foldl_cons]
    exact (hf b d c hbd).bind fun b' hb' => ih hb'

theorem of_mem (hx : Determined x P) {a : α} (ha : a ∈ x) : P a := by
  obtain ⟨b, rfl, hb⟩ := hx
  rwa [Sat.mem_pure.1 ha]

theorem mem_iff (hx : Determined x P) (h : ∀ a b, P a → P b → a = b) {a : α} : a ∈ x ↔ P a := by
  refine ⟨hx.of_mem, fun ha => ?_⟩
  obtain ⟨b, rfl, hb⟩ := hx
  exact h a b ha hb

theorem exists_mem (hx : Determined x P) : ∃ a, a ∈ x := by
  obtain ⟨a, rfl, -⟩ := hx
  exact ⟨a, rfl⟩

end Determined

theorem map_on_eq {side : Side} {x : Vector Wire n} {y : Vector Bool n} :
    x.map (Wire.on side) = y ↔ VecRel (fun w b => Wire.on side w = b) x y := by
  constructor
  · rintro rfl i hi
    exact (Vector.getElem_map _ _).symm
  · intro h
    exact Vector.ext fun i hi => (Vector.getElem_map _ _).trans (h i hi)

theorem map_wordOn_eq {side : Side} {ws : List (Vector Wire n)} {ws' : List (Vector Bool n)}
    (h : Forall₂ (VecRel fun w b => Wire.on side w = b) ws ws') :
    ws.map (wordOn side) = ws'.map word := by
  induction h with
  | nil => rfl
  | cons hrel _ ih => rw [map_cons, map_cons, ih, wordOn, map_on_eq.2 hrel]

/-- On each side, a bitwise program is evaluated. -/
def reading (F : Type) [Zero F] [One F] [Add F] [Mul F] (side : Side) :
    Simulation (Sat F) Id where
  Rel w b := w.on side = b
  Run R x y := Determined x fun a => R a y.run
  pure h := .pure h
  bind hx hf := hx.bind fun a ha => hf a _ ha
  constant b := by cases side <;> rfl
  not h := by
    subst h
    cases side <;> rfl
  and h h' := ⟨_, rfl, by subst h h'; exact Wire.on_ofSides _ _⟩
  xor h h' := ⟨_, rfl, by subst h h'; exact Wire.on_ofSides _ _⟩
  addmany h := by
    refine ⟨_, rfl, fun i hi => ?_⟩
    rw [Vector.getElem_ofFn, ← getLsbD_word _ hi, word_addmany, ← map_wordOn_eq h]
    exact Wire.on_ofSides _ side

/-! ### Words and bytes -/

section

variable {F : Type} [Zero F] [One F] [Add F] [Mul F] {n : ℕ}

def wires (w : Side → BitVec n) : Vector Wire n :=
  .ofFn fun i => .ofSides fun side => (w side).getLsbD i

@[simp] theorem wordOn_wires (side : Side) (w : Side → BitVec n) :
    wordOn side (wires w) = w side := by
  refine word_ext fun i hi => ?_
  rw [Vector.getElem_map, wires, Vector.getElem_ofFn, Wire.on_ofSides]

theorem mem_newWitnessBits {w : BitVec n} {x : Vector Wire n} :
    x ∈ newWitnessBits (m := Sat F) w ↔ wordOn .native x = w := by
  rw [newWitnessBits, Sat.mem_ofFnM]
  constructor
  · intro h
    refine word_ext fun i hi => ?_
    rw [Vector.getElem_map]
    exact h i hi
  · rintro rfl i hi
    change _ = (wordOn .native x).getLsbD i
    rw [wordOn, getLsbD_word _ hi, Vector.getElem_map]
    rfl

theorem byteOn_eq {side : Side} {x : UInt8Var Wire} {b : UInt8} :
    byteOn side x = b ↔ wordOn side x = b.toBitVec := by
  constructor
  · rintro rfl
    rfl
  · intro h
    rw [byteOn, byte, ← wordOn, h]

abbrev bytesOn (side : Side) (xs : List (UInt8Var Wire)) : Bytes := xs.map (byteOn side)

theorem ext_bytesOn {xs ys : List (UInt8Var Wire)} (h : ∀ side, bytesOn side xs = bytesOn side ys) :
    xs = ys := by
  have hlen : xs.length = ys.length := by simpa using congrArg List.length (h .native)
  refine List.ext_getElem hlen fun i hi hi' => ext_wordOn fun side => ?_
  have hbyte := List.getElem_of_eq (h side) (by simpa using hi)
  rw [List.getElem_map, List.getElem_map] at hbyte
  exact congrArg UInt8.toBitVec hbyte

def byteWires (w : Side → Bytes) : List (UInt8Var Wire) :=
  ((w .native).zip (w .assigned)).map fun p => wires fun side =>
    match side with
    | .native => p.1.toBitVec
    | .assigned => p.2.toBitVec

theorem bytesOn_byteWires {w : Side → Bytes} (h : (w .native).length = (w .assigned).length)
    (side : Side) : bytesOn side (byteWires w) = w side := by
  rw [byteWires, bytesOn, List.map_map]
  cases side with
  | native =>
    refine (List.map_congr_left (g := Prod.fst) fun p _ => ?_).trans (List.map_fst_zip h.le)
    exact byteOn_eq.2 (wordOn_wires _ _)
  | assigned =>
    refine (List.map_congr_left (g := Prod.snd) fun p _ => ?_).trans (List.map_snd_zip h.ge)
    exact byteOn_eq.2 (wordOn_wires _ _)

theorem mem_newWitnessBytes {bs : Bytes} {xs : List (UInt8Var Wire)} :
    xs ∈ newWitnessBytes (m := Sat F) bs ↔ bytesOn .native xs = bs := by
  rw [newWitnessBytes, Sat.mem_mapM]
  simp only [mem_newWitnessBits, ← byteOn_eq]
  rw [← forall₂_eq_eq_eq, forall₂_map_left_iff]
  exact ⟨Forall₂.flip, Forall₂.flip⟩

end

/-! ### Exclusive or and expansion -/

theorem map_eq_map_of_forall₂ {α β γ : Type} {f : α → γ} {g : β → γ} {l : List α} {l' : List β}
    (h : Forall₂ (fun a b => g b = f a) l l') : l'.map g = l.map f := by
  induction h with
  | nil => rfl
  | cons hab _ ih => rw [map_cons, map_cons, hab, ih]

section

variable {F : Type} [Zero F] [One F] [Add F] [Mul F]

theorem determined_xorBits {n : ℕ} (x y : Vector Wire n) :
    Determined (xorBits x y : Sat F _) fun z => ∀ side,
      wordOn side z = wordOn side x ^^^ wordOn side y := by
  have hside : ∀ side, Determined (xorBits x y : Sat F _) fun z =>
      wordOn side z = wordOn side x ^^^ wordOn side y := by
    intro side
    refine ((reading F side).xorBits (map_on_eq.1 rfl) (map_on_eq.1 rfl)).mono fun z hz => ?_
    rw [wordOn, map_on_eq.2 hz, word_xorBits]
    rfl
  exact Determined.sides hside

theorem determined_xorByte (x y : UInt8Var Wire) :
    Determined (xorBits x y : Sat F _) fun z => ∀ side,
      byteOn side z = byteOn side x ^^^ byteOn side y :=
  (determined_xorBits x y).mono fun _ hz side => byteOn_eq.2 (hz side)

theorem determined_mapM_xorByte (y : UInt8Var Wire) (xs : List (UInt8Var Wire)) :
    Determined (xs.mapM fun x => (xorBits x y : Sat F _)) fun zs => ∀ side,
      zs.map (byteOn side) = (xs.map (byteOn side)).map (· ^^^ byteOn side y) := by
  refine (Determined.mapM (fun x => determined_xorByte x y) xs).mono fun zs hzs side => ?_
  rw [List.map_map]
  exact map_eq_map_of_forall₂ (hzs.imp fun x z hz => hz side)

omit [Zero F] [One F] [Add F] [Mul F] in
/-- **An expansion with a determined hash** is determined. -/
theorem determined_pHash {hmac : List (UInt8Var Wire) → Sat F (List (UInt8Var Wire))}
    {hmac' : Side → Bytes → Bytes}
    (h : ∀ xs, Determined (hmac xs) fun out => ∀ side,
      out.map (byteOn side) = hmac' side (xs.map (byteOn side)))
    (seed : List (UInt8Var Wire)) (outputLen : ℕ) :
    Determined (Sha2.pHash hmac seed outputLen) fun out => ∀ side, out.map (byteOn side) =
      (Sha2.pHash (m := Id) (hmac' side) (seed.map (byteOn side)) outputLen).run := by
  have hloop : ∀ (fuel : ℕ) (a output : List (UInt8Var Wire)),
      Determined (Sha2.pHashLoop hmac seed outputLen fuel a output) fun out => ∀ side,
        out.map (byteOn side) = (Sha2.pHashLoop (m := Id) (hmac' side) (seed.map (byteOn side))
          outputLen fuel (a.map (byteOn side)) (output.map (byteOn side))).run := by
    intro fuel
    induction fuel with
    | zero =>
      intro a output
      exact .pure fun side => rfl
    | succ fuel ih =>
      intro a output
      simp only [Sha2.pHashLoop, length_map]
      split
      · refine (h a).bind fun a' ha' => (h (a' ++ seed)).bind fun block hblock =>
          (ih a' (output ++ block)).mono fun out hout side => ?_
        rw [hout, List.map_append, hblock, List.map_append, ha']
        rfl
      · exact .pure fun side => rfl
  refine (hloop outputLen seed []).bind fun out hout => .pure fun side => ?_
  rw [map_take, hout]
  rfl

end

/-! ### The compression function -/

open Sha2.Gadget

variable (s : HashState (UInt32Var Wire))

def stateOn : Sha2.State :=
  ⟨wordOn side s.a, wordOn side s.b, wordOn side s.c, wordOn side s.d, wordOn side s.e,
    wordOn side s.f, wordOn side s.g, wordOn side s.h⟩

theorem stateOn_eq :
    stateOn side s = (s.map (·.map (Wire.on side))).words :=
  rfl

theorem bytesOn_flatMap_bytesOfWord :
    bytesOn side (s.toList.flatMap bytesOfWord) = (stateOn side s).toBytes := by
  rw [bytesOn, List.map_flatMap]
  simp only [map_byteOn_bytesOfWord]
  rfl

theorem ext_stateOn {s t : HashState (UInt32Var Wire)}
    (h : ∀ side, stateOn side s = stateOn side t) :
    s = t := by
  obtain ⟨a, b, c, d, e, f, g, h'⟩ := s
  obtain ⟨a', b', c', d', e', f', g', h''⟩ := t
  simp only [stateOn, Sha2.State.mk.injEq] at h
  obtain rfl : a = a' := ext_wordOn fun side => (h side).1
  obtain rfl : b = b' := ext_wordOn fun side => (h side).2.1
  obtain rfl : c = c' := ext_wordOn fun side => (h side).2.2.1
  obtain rfl : d = d' := ext_wordOn fun side => (h side).2.2.2.1
  obtain rfl : e = e' := ext_wordOn fun side => (h side).2.2.2.2.1
  obtain rfl : f = f' := ext_wordOn fun side => (h side).2.2.2.2.2.1
  obtain rfl : g = g' := ext_wordOn fun side => (h side).2.2.2.2.2.2.1
  obtain rfl : h' = h'' := ext_wordOn fun side => (h side).2.2.2.2.2.2.2
  rfl

theorem exists_stateOn (s : Side → Sha2.State) :
    ∃ t : HashState (UInt32Var Wire), ∀ side, stateOn side t = s side := by
  refine ⟨⟨wires fun side => (s side).a, wires fun side => (s side).b, wires fun side => (s side).c,
    wires fun side => (s side).d, wires fun side => (s side).e, wires fun side => (s side).f,
    wires fun side => (s side).g, wires fun side => (s side).h⟩, fun side => ?_⟩
  simp only [stateOn, wordOn_wires]

variable {F : Type} [Zero F] [One F] [Add F] [Mul F]

@[simp] theorem wordOn_constBits (w : BitVec n) :
    wordOn side (constBits (Sat F) w) = w := by
  rw [wordOn, map_on_eq.2 ((reading F side).constBits w), word_constBits]

@[simp] theorem byteOn_constBits (b : UInt8) :
    byteOn side (constBits (Sat F) b.toBitVec) = b := by
  have hword := wordOn_constBits (F := F) side b.toBitVec
  rw [byteOn, byte, ← wordOn, hword]

@[simp] theorem stateOn_constantState (s : Sha2.State) :
    stateOn side (constantState (Sat F) s) = s := by
  simp only [stateOn, constantState, wordOn_constBits]

/-- The compression function is determined. -/
theorem determined_compress {fns : Functions (Sat F) Wire} {fns' : Functions Id Bool}
    (hfns : ∀ side, fns.Simulate (reading F side) fns') (heval : fns'.Evaluate)
    (s : HashState (UInt32Var Wire)) (block : Vector (UInt32Var Wire) 16) :
    Determined (compress fns s block) fun t => ∀ side,
      stateOn side t = Sha2.compress (stateOn side s) (block.toList.map (wordOn side)) := by
  have hside : ∀ side, Determined (compress fns s block) fun t =>
      stateOn side t = Sha2.compress (stateOn side s) (block.toList.map (wordOn side)) := by
    intro side
    have hs : s.Rel (VecRel (reading F side).Rel) (s.map (·.map (Wire.on side))) :=
      (HashState.map_eq.1 rfl).mono fun _ _ => map_on_eq.1
    have hblock : Forall₂ (VecRel (reading F side).Rel) block.toList
        (block.map (·.map (Wire.on side))).toList := by
      rw [Vector.toList_map]
      exact forall₂_map_right_iff.2 (forall₂_same.2 fun _ _ => map_on_eq.1 rfl)
    refine (simulate_compress (hfns side) hs hblock).mono fun t ht => ?_
    have ht' : t.map (·.map (Wire.on side)) = (compress fns' (s.map (·.map (Wire.on side)))
        (block.map (·.map (Wire.on side))) : Id _).run :=
      HashState.map_eq.2 (ht.mono fun _ _ => map_on_eq.2)
    rw [stateOn_eq, ht', words_compress heval, ← stateOn_eq, Vector.toList_map, List.map_map]
    rfl
  exact Determined.sides hside

end Ark
