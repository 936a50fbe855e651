import TlsAttestation.Lib.Gadgets
import TlsAttestation.Lib.Sha256

/-!
# SHA-256 in a circuit

The compression function as a program over Boolean gadgets. Circuits differ in how they spell `Ch`
and `Maj` (`Sha2.Gadget.Functions`). Evaluated, it is the compression function
(`Sha2.Gadget.words_compress`), and readings that agree on the gadgets agree on it
(`Sha2.Gadget.simulate_compress`).
-/

namespace Sha2.Gadget

open Ark
open List hiding Vector

structure HashState (α : Type) where
  (a b c d e f g h : α)

section

variable {α β : Type} {R : α → β → Prop} {l : List α} {l' : List β}

theorem forall₂_getD (h : Forall₂ R l l') {a : α} {b : β} (hab : R a b) (i : ℕ) :
    R (l.getD i a) (l'.getD i b) := by
  induction h generalizing i with
  | nil => exact hab
  | cons hhead _ ih =>
    cases i with
    | zero => exact hhead
    | succ i => exact ih i

theorem forall₂_zip {γ : Type} (ks : List γ) (h : Forall₂ R l l') :
    Forall₂ (fun p q => p.1 = q.1 ∧ R p.2 q.2) (ks.zip l) (ks.zip l') := by
  induction ks generalizing l l' with
  | nil => exact .nil
  | cons k ks ih =>
    cases h with
    | nil => exact .nil
    | cons hhead htail => exact .cons ⟨rfl, hhead⟩ (ih htail)

end

namespace HashState

variable {α β : Type}

def toList (s : HashState α) : List α := [s.a, s.b, s.c, s.d, s.e, s.f, s.g, s.h]

def map (f : α → β) (s : HashState α) : HashState β :=
  ⟨f s.a, f s.b, f s.c, f s.d, f s.e, f s.f, f s.g, f s.h⟩

def words (s : HashState (UInt32Var Bool)) : State :=
  ⟨word s.a, word s.b, word s.c, word s.d, word s.e, word s.f, word s.g, word s.h⟩

structure Rel (R : α → β → Prop) (s : HashState α) (t : HashState β) : Prop where
  a : R s.a t.a
  b : R s.b t.b
  c : R s.c t.c
  d : R s.d t.d
  e : R s.e t.e
  f : R s.f t.f
  g : R s.g t.g
  h : R s.h t.h

variable {t : HashState β} {s : HashState α}

theorem Rel.toList {R : α → β → Prop} (h : s.Rel R t) :
    Forall₂ R s.toList t.toList :=
  .cons h.a (.cons h.b (.cons h.c (.cons h.d (.cons h.e (.cons h.f (.cons h.g (.cons h.h .nil)))))))

theorem map_eq {f : α → β} :
    s.map f = t ↔ s.Rel (fun a b => f a = b) t := by
  constructor
  · rintro rfl
    exact ⟨rfl, rfl, rfl, rfl, rfl, rfl, rfl, rfl⟩
  · rintro ⟨ha, hb, hc, hd, he, hf, hg, hh⟩
    rw [map, ha, hb, hc, hd, he, hf, hg, hh]

theorem Rel.mono {R T : α → β → Prop} (h : s.Rel R t) (hRT : ∀ a b, R a b → T a b) : s.Rel T t :=
  ⟨hRT _ _ h.a, hRT _ _ h.b, hRT _ _ h.c, hRT _ _ h.d, hRT _ _ h.e, hRT _ _ h.f, hRT _ _ h.g,
    hRT _ _ h.h⟩

end HashState

section

variable {m : Type → Type} {Bit : Type} [Monad m] [BoolGadgets m Bit]

/-- `Ch` and `Maj`, and whether the last additions list the state first. -/
structure Functions (m : Type → Type) (Bit : Type) where
  (ch maj : UInt32Var Bit → UInt32Var Bit → UInt32Var Bit → m (UInt32Var Bit))
  stateFirst : Bool

def xor3 (x y z : UInt32Var Bit) : m (UInt32Var Bit) := do
  xorBits (← xorBits x y) z

variable (x : UInt32Var Bit)

def bigSigma0 : m (UInt32Var Bit) := xor3 (rotr x 2) (rotr x 13) (rotr x 22)

def bigSigma1 : m (UInt32Var Bit) := xor3 (rotr x 6) (rotr x 11) (rotr x 25)

def smallSigma0 : m (UInt32Var Bit) := xor3 (rotr x 7) (rotr x 18) (shr m x 3)

def smallSigma1 : m (UInt32Var Bit) := xor3 (rotr x 17) (rotr x 19) (shr m x 10)

def constantState (m : Type → Type) {Bit : Type} [BoolGadgets m Bit] (s : State) :
    HashState (UInt32Var Bit) :=
  ⟨constBits m s.a, constBits m s.b, constBits m s.c, constBits m s.d,
    constBits m s.e, constBits m s.f, constBits m s.g, constBits m s.h⟩

def extendSchedule : ℕ → List (UInt32Var Bit) → m (List (UInt32Var Bit))
  | 0, w => pure w
  | n + 1, w => do
    let at' := fun k => w.getD (w.length - k) (constBits m 0)
    let s1 ← smallSigma1 (at' 2)
    let s0 ← smallSigma0 (at' 15)
    let wi ← BoolGadgets.addmany [s1, at' 7, s0, at' 16]
    extendSchedule n (w ++ [wi])

variable (fns : Functions m Bit)

def round (s : HashState (UInt32Var Bit)) (kw : Word × UInt32Var Bit) :
    m (HashState (UInt32Var Bit)) := do
  let s1 ← bigSigma1 s.e
  let ch ← fns.ch s.e s.f s.g
  let t1 ← BoolGadgets.addmany [s.h, s1, ch, constBits m kw.1, kw.2]
  let s0 ← bigSigma0 s.a
  let maj ← fns.maj s.a s.b s.c
  let t2 ← BoolGadgets.addmany [s0, maj]
  let e ← BoolGadgets.addmany [s.d, t1]
  let a ← BoolGadgets.addmany [t1, t2]
  return ⟨a, s.a, s.b, s.c, e, s.e, s.f, s.g⟩

def feedForward (s x : UInt32Var Bit) : m (UInt32Var Bit) :=
  BoolGadgets.addmany (if fns.stateFirst then [s, x] else [x, s])

def compress (state : HashState (UInt32Var Bit))
    (block : Vector (UInt32Var Bit) 16) : m (HashState (UInt32Var Bit)) := do
  let w ← extendSchedule 48 block.toList
  let t ← (roundConstants.zip w).foldlM (round fns) state
  return ⟨← feedForward fns state.a t.a, ← feedForward fns state.b t.b,
    ← feedForward fns state.c t.c, ← feedForward fns state.d t.d,
    ← feedForward fns state.e t.e, ← feedForward fns state.f t.f,
    ← feedForward fns state.g t.g, ← feedForward fns state.h t.h⟩

end

/-! ### Properties of the programs -/

section

variable {m : Type → Type} {Bit : Type} [Monad m] [BoolGadgets m Bit]

/-- A property of programs that sequencing keeps and that the gadgets have. No sum of the
compression has more than five words, so only those are asked about. -/
structure Composes (P : ∀ {α : Type}, m α → Prop) : Prop where
  pure : ∀ {α : Type} (a : α), P (pure a)
  bind : ∀ {α β : Type} {x : m α} {f : α → m β}, P x → (∀ a, P (f a)) → P (x >>= f)
  and : ∀ b c : Bit, P (BoolGadgets.and b c : m Bit)
  xor : ∀ b c : Bit, P (BoolGadgets.xor b c : m Bit)
  addmany : ∀ {ws : List (Vector Bit 32)}, ws.length ≤ 5 → P (BoolGadgets.addmany ws : m _)

namespace Composes

variable {P : ∀ {α : Type}, m α → Prop} (h : Composes @P)
include h

theorem foldlM {α β : Type} {f : β → α → m β} (hf : ∀ b a, P (f b a)) (l : List α) (b : β) :
    P (l.foldlM f b) := by
  induction l generalizing b with
  | nil => exact h.pure b
  | cons a l ih =>
    rw [foldlM_cons]
    exact h.bind (hf b a) ih

variable [LawfulMonad m]

theorem ofFnM {α : Type} {n : ℕ} {f : Fin n → m α} (hf : ∀ i, P (f i)) : P (Vector.ofFnM f) := by
  induction n with
  | zero =>
    rw [Vector.ofFnM_zero]
    exact h.pure _
  | succ n ih =>
    rw [Vector.ofFnM_succ]
    exact h.bind (ih fun i => hf i.castSucc) fun _ => h.bind (hf (Fin.last n)) fun _ => h.pure _

theorem xorBits (x y : UInt32Var Bit) : P (Ark.xorBits x y : m _) := h.ofFnM fun _ => h.xor _ _

theorem andBits (x y : UInt32Var Bit) : P (Ark.andBits x y : m _) := h.ofFnM fun _ => h.and _ _

theorem xor3 (x y z : UInt32Var Bit) : P (Gadget.xor3 x y z : m _) :=
  h.bind (h.xorBits x y) fun _ => h.xorBits _ z

theorem extendSchedule (n : ℕ) (w : List (UInt32Var Bit)) :
    P (Gadget.extendSchedule n w : m _) := by
  induction n generalizing w with
  | zero => exact h.pure w
  | succ n ih =>
    rw [Gadget.extendSchedule]
    exact h.bind (h.xor3 _ _ _) fun _ => h.bind (h.xor3 _ _ _) fun _ =>
      h.bind (h.addmany (by simp)) fun _ => ih _

variable {fns : Functions m Bit} (hch : ∀ x y z, P (fns.ch x y z))
  (hmaj : ∀ x y z, P (fns.maj x y z))
include hch hmaj

theorem round (s : HashState (UInt32Var Bit)) (kw : Word × UInt32Var Bit) :
    P (Gadget.round fns s kw) :=
  h.bind (h.xor3 _ _ _) fun _ => h.bind (hch _ _ _) fun _ => h.bind (h.addmany (by simp)) fun _ =>
    h.bind (h.xor3 _ _ _) fun _ => h.bind (hmaj _ _ _) fun _ =>
    h.bind (h.addmany (by simp)) fun _ => h.bind (h.addmany (by simp)) fun _ =>
    h.bind (h.addmany (by simp)) fun _ => h.pure _

/-- The compression has the property. -/
theorem compress (s : HashState (UInt32Var Bit)) (block : Vector (UInt32Var Bit) 16) :
    P (Gadget.compress fns s block) := by
  have hfwd (s x : UInt32Var Bit) : P (feedForward fns s x) :=
    h.addmany (by split <;> simp)
  exact h.bind (h.extendSchedule _ _) fun _ => h.bind (h.foldlM (h.round hch hmaj) _ _) fun _ =>
    h.bind (hfwd _ _) fun _ => h.bind (hfwd _ _) fun _ => h.bind (hfwd _ _) fun _ =>
    h.bind (hfwd _ _) fun _ => h.bind (hfwd _ _) fun _ => h.bind (hfwd _ _) fun _ =>
    h.bind (hfwd _ _) fun _ => h.bind (hfwd _ _) fun _ => h.pure _

end Composes

end

/-! ### Evaluation -/

structure Functions.Evaluate (fns : Functions Id Bool) : Prop where
  ch : ∀ x y z, word (fns.ch x y z).run = Sha2.ch (word x) (word y) (word z)
  maj : ∀ x y z, word (fns.maj x y z).run = Sha2.maj (word x) (word y) (word z)

@[simp] theorem word_xor3 (x y z : UInt32Var Bool) :
    word (xor3 x y z : Id _).run = word x ^^^ word y ^^^ word z := by
  simp [xor3]

variable (x : UInt32Var Bool)

@[simp] theorem word_bigSigma0 :
    word (bigSigma0 x : Id _).run = Sha2.bigSigma0 (word x) := by
  simp [bigSigma0, Sha2.bigSigma0]

@[simp] theorem word_bigSigma1 :
    word (bigSigma1 x : Id _).run = Sha2.bigSigma1 (word x) := by
  simp [bigSigma1, Sha2.bigSigma1]

@[simp] theorem word_smallSigma0 :
    word (smallSigma0 x : Id _).run = Sha2.smallSigma0 (word x) := by
  simp [smallSigma0, Sha2.smallSigma0]

@[simp] theorem word_smallSigma1 :
    word (smallSigma1 x : Id _).run = Sha2.smallSigma1 (word x) := by
  simp [smallSigma1, Sha2.smallSigma1]

theorem getD_reverse_map_word {w : List (UInt32Var Bool)} {k : ℕ} (h : k < w.length) :
    (w.map word).reverse.getD k 0 = word (w.getD (w.length - (k + 1)) (constBits Id 0)) := by
  rw [getD_eq_getElem _ _ (by simpa using h), getElem_reverse,
    getD_eq_getElem _ _ (by omega), getElem_map]
  congr 2
  rw [length_map]
  omega

theorem words_extendSchedule {w : List (UInt32Var Bool)} (h : 16 ≤ w.length) (n : ℕ) :
    (extendSchedule n w : Id _).run.map word =
      (Sha2.extendSchedule n (w.map word).reverse).reverse := by
  induction n generalizing w with
  | zero => simp [extendSchedule, Sha2.extendSchedule]
  | succ n ih =>
    rw [Sha2.extendSchedule, getD_reverse_map_word (by omega), getD_reverse_map_word (by omega),
      getD_reverse_map_word (by omega), getD_reverse_map_word (by omega)]
    simp only [extendSchedule, Id.run_bind]
    rw [ih (by simp; omega)]
    simp [add_assoc]

variable {fns : Functions Id Bool}

theorem words_round (hfns : fns.Evaluate) (s : HashState (UInt32Var Bool))
    (kw : Word × UInt32Var Bool) :
    (round fns s kw : Id _).run.words = Sha2.round s.words (kw.1, word kw.2) := by
  simp [round, HashState.words, Sha2.round, hfns.ch, hfns.maj, add_assoc]

theorem words_rounds (hfns : fns.Evaluate) (ks : List Word) (w : List (UInt32Var Bool))
    (s : HashState (UInt32Var Bool)) :
    ((ks.zip w).foldlM (round fns) s : Id _).run.words =
      (ks.zip (w.map word)).foldl Sha2.round s.words := by
  induction ks generalizing w s with
  | nil => rfl
  | cons k ks ih =>
    cases w with
    | nil => rfl
    | cons x w =>
      rw [zip_cons_cons, foldlM_cons, Id.run_bind, ih, words_round hfns]
      rfl

theorem word_feedForward (s x : UInt32Var Bool) :
    word (feedForward fns s x : Id _).run = word s + word x := by
  rw [feedForward, word_addmany]
  cases fns.stateFirst
  · simp [add_comm]
  · simp

/-- Evaluated, the gadget is the compression function. -/
theorem words_compress (hfns : fns.Evaluate) (s : HashState (UInt32Var Bool))
    (block : Vector (UInt32Var Bool) 16) :
    (compress fns s block : Id _).run.words = Sha2.compress s.words (block.toList.map word) := by
  have hrounds := words_rounds hfns roundConstants (extendSchedule 48 block.toList : Id _).run s
  rw [words_extendSchedule (by simp)] at hrounds
  rw [Sha2.compress, ← hrounds]
  simp only [compress, Id.run_bind, Id.run_pure, HashState.words, word_feedForward]

/-! ### Simulation -/

section

variable {m m' : Type → Type} {Bit Bit' : Type} [Monad m] [Monad m'] [BoolGadgets m Bit]
  [BoolGadgets m' Bit'] (S : Simulation m m')

structure Functions.Simulate (fns : Functions m Bit) (fns' : Functions m' Bit') : Prop where
  ch : ∀ {x y z x' y' z'}, VecRel S.Rel x x' → VecRel S.Rel y y' → VecRel S.Rel z z' →
    S.Run (VecRel S.Rel) (fns.ch x y z) (fns'.ch x' y' z')
  maj : ∀ {x y z x' y' z'}, VecRel S.Rel x x' → VecRel S.Rel y y' → VecRel S.Rel z z' →
    S.Run (VecRel S.Rel) (fns.maj x y z) (fns'.maj x' y' z')
  stateFirst : fns.stateFirst = fns'.stateFirst

theorem simulate_constantState (s : State) :
    (constantState m s).Rel (VecRel S.Rel) (constantState m' s) :=
  ⟨S.constBits _, S.constBits _, S.constBits _, S.constBits _, S.constBits _,
    S.constBits _, S.constBits _, S.constBits _⟩

variable {S} [LawfulMonad m] [LawfulMonad m']

theorem simulate_xor3 {x y z : UInt32Var Bit} {x' y' z' : UInt32Var Bit'} (hx : VecRel S.Rel x x')
    (hy : VecRel S.Rel y y') (hz : VecRel S.Rel z z') :
    S.Run (VecRel S.Rel) (xor3 x y z) (xor3 x' y' z') :=
  S.bind (S.xorBits hx hy) fun _ _ hxy => S.xorBits hxy hz

variable {x : UInt32Var Bit} {x' : UInt32Var Bit'}

theorem simulate_bigSigma0 (hx : VecRel S.Rel x x') :
    S.Run (VecRel S.Rel) (bigSigma0 x) (bigSigma0 x') :=
  simulate_xor3 (S.rotr hx 2) (S.rotr hx 13) (S.rotr hx 22)

theorem simulate_bigSigma1 (hx : VecRel S.Rel x x') :
    S.Run (VecRel S.Rel) (bigSigma1 x) (bigSigma1 x') :=
  simulate_xor3 (S.rotr hx 6) (S.rotr hx 11) (S.rotr hx 25)

theorem simulate_smallSigma0 (hx : VecRel S.Rel x x') :
    S.Run (VecRel S.Rel) (smallSigma0 x) (smallSigma0 x') :=
  simulate_xor3 (S.rotr hx 7) (S.rotr hx 18) (S.shr hx 3)

theorem simulate_smallSigma1 (hx : VecRel S.Rel x x') :
    S.Run (VecRel S.Rel) (smallSigma1 x) (smallSigma1 x') :=
  simulate_xor3 (S.rotr hx 17) (S.rotr hx 19) (S.shr hx 10)

theorem simulate_extendSchedule (n : ℕ) {w : List (UInt32Var Bit)} {w' : List (UInt32Var Bit')}
    (hw : Forall₂ (VecRel S.Rel) w w') :
    S.Run (Forall₂ (VecRel S.Rel)) (extendSchedule n w) (extendSchedule n w') := by
  induction n generalizing w w' with
  | zero => exact S.pure hw
  | succ n ih =>
    have hat : ∀ k, VecRel S.Rel (w.getD (w.length - k) (constBits m 0))
        (w'.getD (w'.length - k) (constBits m' 0)) := by
      intro k
      rw [hw.length_eq]
      exact forall₂_getD hw (S.constBits 0) _
    rw [extendSchedule, extendSchedule]
    refine S.bind (simulate_smallSigma1 (hat 2)) fun _ _ hs1 =>
      S.bind (simulate_smallSigma0 (hat 15)) fun _ _ hs0 =>
      S.bind (S.addmany ?_) fun _ _ hwi => ih ?_
    · exact .cons hs1 (.cons (hat 7) (.cons hs0 (.cons (hat 16) .nil)))
    · exact rel_append hw (.cons hwi .nil)

variable {fns : Functions m Bit} {fns' : Functions m' Bit'} {s' : HashState (UInt32Var Bit')}
  {s : HashState (UInt32Var Bit)}

theorem simulate_round (hfns : fns.Simulate S fns') (hs : s.Rel (VecRel S.Rel) s') (k : Word)
    {x : UInt32Var Bit} {x' : UInt32Var Bit'} (hx : VecRel S.Rel x x') :
    S.Run (HashState.Rel (VecRel S.Rel)) (round fns s (k, x)) (round fns' s' (k, x')) := by
  refine S.bind (simulate_bigSigma1 hs.e) fun _ _ hs1 =>
    S.bind (hfns.ch hs.e hs.f hs.g) fun _ _ hch =>
    S.bind (S.addmany ?_) fun _ _ ht1 => S.bind (simulate_bigSigma0 hs.a) fun _ _ hs0 =>
    S.bind (hfns.maj hs.a hs.b hs.c) fun _ _ hmaj => S.bind (S.addmany ?_) fun _ _ ht2 =>
    S.bind (S.addmany ?_) fun _ _ he => S.bind (S.addmany ?_) fun _ _ ha =>
    S.pure ⟨ha, hs.a, hs.b, hs.c, he, hs.e, hs.f, hs.g⟩
  · exact .cons hs.h (.cons hs1 (.cons hch (.cons (S.constBits k) (.cons hx .nil))))
  · exact .cons hs0 (.cons hmaj .nil)
  · exact .cons hs.d (.cons ht1 .nil)
  · exact .cons ht1 (.cons ht2 .nil)

omit [LawfulMonad m] [LawfulMonad m'] in
theorem simulate_feedForward (hfns : fns.Simulate S fns') {s y : UInt32Var Bit}
    {s' y' : UInt32Var Bit'} (hs : VecRel S.Rel s s') (hy : VecRel S.Rel y y') :
    S.Run (VecRel S.Rel) (feedForward fns s y) (feedForward fns' s' y') := by
  rw [feedForward, feedForward, hfns.stateFirst]
  cases fns'.stateFirst
  · exact S.addmany (.cons hy (.cons hs .nil))
  · exact S.addmany (.cons hs (.cons hy .nil))

/-- Readings that agree on the gadgets agree on the compression. -/
theorem simulate_compress (hfns : fns.Simulate S fns') (hs : s.Rel (VecRel S.Rel) s')
    {block : Vector (UInt32Var Bit) 16} {block' : Vector (UInt32Var Bit') 16}
    (hblock : Forall₂ (VecRel S.Rel) block.toList block'.toList) :
    S.Run (HashState.Rel (VecRel S.Rel)) (compress fns s block) (compress fns' s' block') := by
  refine S.bind (simulate_extendSchedule 48 hblock) fun w w' hw =>
    S.bind (S.foldlM ?_ (forall₂_zip roundConstants hw) hs) fun t t' ht => ?_
  · rintro _ _ ⟨k, x⟩ ⟨k', x'⟩ hround ⟨rfl, hx⟩
    exact simulate_round hfns hround k hx
  · exact S.bind (simulate_feedForward hfns hs.a ht.a) fun _ _ ha =>
      S.bind (simulate_feedForward hfns hs.b ht.b) fun _ _ hb =>
      S.bind (simulate_feedForward hfns hs.c ht.c) fun _ _ hc =>
      S.bind (simulate_feedForward hfns hs.d ht.d) fun _ _ hd =>
      S.bind (simulate_feedForward hfns hs.e ht.e) fun _ _ he =>
      S.bind (simulate_feedForward hfns hs.f ht.f) fun _ _ hf =>
      S.bind (simulate_feedForward hfns hs.g ht.g) fun _ _ hg =>
      S.bind (simulate_feedForward hfns hs.h ht.h) fun _ _ hh =>
      S.pure ⟨ha, hb, hc, hd, he, hf, hg, hh⟩

end

end Sha2.Gadget
