import Mathlib.Tactic.IntervalCases
import TlsAttestation.Core.Hash
import TlsAttestation.Lib.Assignments

/-!
# HMAC in the prover's circuit

HMAC of a key and a message that are **not** variables of the circuit: the words of every block are
computed natively. Those of the inner blocks and of the last padding are fresh variables, the outer
key is constant (`CoSnarkProver.HmacWires.Computes`).
-/

namespace TlsAttestation.CoSnarkProver

open Ark ByteEncoding Sha2 Sha2.Gadget Vector

/-! ### The compression gadget -/

section

variable {m : Type → Type} {Bit : Type} [Monad m] [BoolGadgets m Bit]

def ch32 (a b c : UInt32Var Bit) : m (UInt32Var Bit) :=
  Vector.ofFnM fun i => do
    let ab ← BoolGadgets.and a[i] b[i]
    let nac ← BoolGadgets.and (BoolGadgets.not (m := m) a[i]) (c)[i]
    BoolGadgets.xor ab nac

def maj32 (a b c : UInt32Var Bit) : m (UInt32Var Bit) :=
  Vector.ofFnM fun i => do
    let ab ← BoolGadgets.and a[i] b[i]
    let ac ← BoolGadgets.and a[i] (c)[i]
    let bc ← BoolGadgets.and b[i] (c)[i]
    BoolGadgets.xor (← BoolGadgets.xor ab ac) bc

/-- The last additions list the state last. -/
def functions : Functions m Bit := ⟨ch32, maj32, false⟩

/-- One block of SHA-256, with this circuit's `Ch` and `Maj`. -/
def sha256Compress (state : HashState (UInt32Var Bit)) (block : Vector (UInt32Var Bit) 16) :
    m (HashState (UInt32Var Bit)) :=
  compress functions state block

end

def sha256Pad (msg : Bytes) : List (Vector Word 16) :=
  (List.range (numBlocks msg.length)).map (blockAt (pad msg))

/-! ### The gadget -/

def outerPadding : Bytes := 0x80 :: (List.replicate 23 0 ++ beBytes 8 (96 * 8))

def paddingWords : Vector Word 8 := ⟨(wordsOf outerPadding).toArray, by decide⟩

structure HmacWires (Bit : Type) where
  okeyBlock : Vector (UInt32Var Bit) 16
  innerBlocks : List (Vector (UInt32Var Bit) 16)
  outerBlock : Vector (UInt32Var Bit) 16
  output : HashState (UInt32Var Bit)

section

variable {m : Type → Type} {F Bit Fp : Type} [Monad m] [Gadgets m F Bit Fp]

def allocBlock (block : Vector Word 16) : m (Vector (UInt32Var Bit) 16) :=
  Vector.ofFnM fun i => newWitnessBits block[i]

def absorbBlocks : HashState (UInt32Var Bit) → List (Vector Word 16) →
    m (List (Vector (UInt32Var Bit) 16) × HashState (UInt32Var Bit))
  | state, [] => pure ([], state)
  | state, words :: rest => do
    let block ← allocBlock words
    let state ← sha256Compress state block
    let (blocks, final) ← absorbBlocks state rest
    return (block :: blocks, final)

def sha256FromBytes (msg : Bytes) :
    m (List (Vector (UInt32Var Bit) 16) × HashState (UInt32Var Bit)) :=
  absorbBlocks (constantState m initialState) (sha256Pad msg)

variable (m) in
def wordValue (x : UInt32Var Bit) : Word :=
  ((x.mapM (Gadgets.value (m := m))).map word).getD 0

variable (m) in
def stateToBytesNative (state : HashState (UInt32Var Bit)) : Bytes :=
  state.toList.flatMap fun x => beBytes 4 (wordValue m x).toNat

def outerBlock (innerState : HashState (UInt32Var Bit)) (words : Vector (UInt32Var Bit) 16) :
    Vector (UInt32Var Bit) 16 :=
  .ofFn fun i => innerState.toList.getD i words[i]

/-- **HMAC in the circuit**; the program knows key and message. -/
def hmacSha256Circuit (key : Bytes32) (msg : Bytes) : m (HmacWires Bit) := do
  let kPadded := key.toList ++ List.replicate 32 0
  let ikey := kPadded.map (· ^^^ 0x36)
  let okey := kPadded.map (· ^^^ 0x5c)
  let (innerBlocks, innerState) ← sha256FromBytes (ikey ++ msg)
  let okeyBlock := (blockAt okey 0).map (constBits m)
  let outerInitState ← sha256Compress (constantState m initialState) okeyBlock
  -- sixteen words are allocated, and the first eight are not used
  let words ← allocBlock (blockAt (stateToBytesNative m innerState ++ outerPadding) 0)
  let block := outerBlock innerState words
  let output ← sha256Compress outerInitState block
  return ⟨okeyBlock, innerBlocks, block, output⟩

end

/-! ### Native helpers -/

def hmacSha256Native (key msg : Bytes) : Bytes := (hmacSha256 key msg).toList

variable (secret label seed : Bytes)

def tlsPrfNative (nBytes : ℕ) : Bytes :=
  (pHash (m := Id) (hmacSha256Native secret) (label ++ seed) nBytes).run

theorem length_tlsPrfNative (nBytes : ℕ) :
    (tlsPrfNative secret label seed nBytes).length = nBytes :=
  length_pHash (fun _ => by simp [hmacSha256Native]) _ nBytes

theorem tlsPrfNative_take {nBytes : ℕ} (h : 32 ≤ nBytes) :
    (tlsPrfNative secret label seed nBytes).take 32 = hmacSha256Native secret
        (hmacSha256Native secret (label ++ seed) ++ (label ++ seed)) := by
  have hblock : (tlsPrfNative secret label seed nBytes).take 32 = _ :=
    take_pHash (hmacSha256Native secret) (label ++ seed) (n := 32) (by omega) h
      (by simp [hmacSha256Native])
  rw [hblock, List.take_of_length_le (by simp [hmacSha256Native])]

/-! ### The words of an HMAC -/

/-- The words that an HMAC hashes, apart from the inner state. -/
@[ext] structure HmacWords where
  okey : List Word
  inner : List (List Word)
  padding : List Word

namespace HmacWords

variable (key msg : Bytes)

def of : HmacWords where
  okey := (blockAt ((hmacKey key).map (· ^^^ 0x5c)) 0).toList
  inner := (sha256Pad ((hmacKey key).map (· ^^^ 0x36) ++ msg)).map Vector.toList
  padding := wordsOf outerPadding

theorem okey_of :
    (of key msg).okey = (blockAt ((hmacKey key).map (· ^^^ 0x5c)) 0).toList := by
  rw [of]

theorem padding_of : (of key msg).padding = wordsOf outerPadding := by
  rw [of]

theorem of_with_paddingWords :
    { of key msg with padding := paddingWords.toList } = of key msg := by
  have hpadding : paddingWords.toList = (of key msg).padding := by
    rw [padding_of]
    rfl
  rw [hpadding]

def innerState (h : HmacWords) : State := h.inner.foldl Sha2.compress initialState

def output (h : HmacWords) : State :=
  Sha2.compress (Sha2.compress initialState h.okey) (h.innerState.toWords ++ h.padding)

theorem toBytes_innerState_of :
    (of key msg).innerState.toBytes =
      (Sha2.sha256 ((hmacKey key).map (· ^^^ 0x36) ++ msg)).toList := by
  rw [toList_sha256, innerState, of, sha256Pad, List.foldl_map, List.foldl_map]
  rfl

/-- The words of a key and a message have their HMAC as output. -/
theorem toBytes_output_of :
    (of key msg).output.toBytes = hmacSha256Native key msg := by
  have hokey : ((hmacKey key).map (· ^^^ 0x5c)).length = 64 := by
    rw [List.length_map, length_hmacKey]
  have hblocks : numBlocks ((hmacKey key).map (· ^^^ 0x5c) ++
      (Sha2.sha256 ((hmacKey key).map (· ^^^ 0x36) ++ msg)).toList).length = 2 := by
    rw [List.length_append, hokey, Vector.length_toList]
    rfl
  rw [hmacSha256Native, hmacSha256, hmacOuter, toList_sha256, hblocks, pad_eq, List.append_assoc,
    List.length_append, hokey, Vector.length_toList, ← toBytes_innerState_of]
  change _ = (Sha2.compress (Sha2.compress initialState (blockAt _ 0).toList)
    (blockAt _ 1).toList).toBytes
  rw [blockAt_append_zero hokey, blockAt_append_succ hokey, toList_blockAt_state _ (by decide),
    output,
    okey_of, padding_of]
  rfl

end HmacWords

/-! ### Satisfying assignments -/

theorem evaluate_functions : (functions : Functions Id Bool).Evaluate where
  ch x y z := by
    refine word_ext fun i hi => ?_
    have hpure : (ch32 x y z : Id _) = pure (.ofFn fun i => (x[i] && y[i]) ^^ (!x[i] && z[i])) :=
      ofFnM_pure
    change (ch32 x y z : Id _).run[i] = _
    rw [hpure, Id.run_pure, getElem_ofFn]
    simp only [Sha2.ch, BitVec.getLsbD_xor, BitVec.getLsbD_and, BitVec.getLsbD_not,
      getLsbD_word _ hi, decide_eq_true hi, Bool.true_and]
    rfl
  maj x y z := by
    refine word_ext fun i hi => ?_
    have hpure : (maj32 x y z : Id _) =
        pure (.ofFn fun i => (x[i] && y[i]) ^^ (x[i] && z[i]) ^^ (y[i] && z[i])) :=
      ofFnM_pure
    change (maj32 x y z : Id _).run[i] = _
    rw [hpure, Id.run_pure, getElem_ofFn]
    simp only [Sha2.maj, BitVec.getLsbD_xor, BitVec.getLsbD_and, getLsbD_word _ hi]
    rfl

theorem simulate_functions {m m' : Type → Type} {Bit Bit' : Type} [Monad m] [Monad m']
    [LawfulMonad m] [LawfulMonad m'] [BoolGadgets m Bit] [BoolGadgets m' Bit']
    (S : Simulation m m') :
    (functions : Functions m Bit).Simulate S (functions : Functions m' Bit') where
  ch hx hy hz := S.ofFnM fun i => S.bind (S.and (hx i i.isLt) (hy i i.isLt)) fun _ _ hab =>
    S.bind (S.and (S.not (hx i i.isLt)) (hz i i.isLt)) fun _ _ hnac => S.xor hab hnac
  maj hx hy hz := S.ofFnM fun i => S.bind (S.and (hx i i.isLt) (hy i i.isLt)) fun _ _ hab =>
    S.bind (S.and (hx i i.isLt) (hz i i.isLt)) fun _ _ hac =>
    S.bind (S.and (hy i i.isLt) (hz i i.isLt)) fun _ _ hbc =>
    S.bind (S.xor hab hac) fun _ _ h => S.xor h hbc
  stateFirst := rfl

def blockOn (side : Side) (block : Vector (UInt32Var Wire) 16) : List Word :=
  block.toList.map (wordOn side)

namespace HmacWires

def wordsOn (side : Side) (h : HmacWires Wire) : HmacWords where
  okey := blockOn side h.okeyBlock
  inner := h.innerBlocks.map (blockOn side)
  padding := (blockOn side h.outerBlock).drop 8

def outputOn (side : Side) (h : HmacWires Wire) : Bytes := (stateOn side h.output).toBytes

def Computes (side : Side) (key msg : Bytes) (h : HmacWires Wire) : Prop :=
  h.wordsOn side = .of key msg

def Honest (h : HmacWires Wire) : Prop := h.wordsOn .assigned = h.wordsOn .native

end HmacWires

section

variable {F : Type} [Zero F] [One F] [Add F] [Mul F] {s t : HashState (UInt32Var Wire)}

theorem mem_sha256Compress {block : Vector (UInt32Var Wire) 16} :
    t ∈ sha256Compress (m := Sat F) s block ↔
      ∀ side, stateOn side t = Sha2.compress (stateOn side s) (blockOn side block) := by
  refine (determined_compress (fun side => simulate_functions (reading F side)) evaluate_functions s
    block).mem_iff fun t t' ht ht' => ext_stateOn fun side => ?_
  rw [ht, ht']

theorem mem_allocBlock {words : Vector Word 16} {block : Vector (UInt32Var Wire) 16} :
    block ∈ allocBlock (m := Sat F) words ↔ blockOn .native block = words.toList := by
  rw [allocBlock, Sat.mem_ofFnM, blockOn, ← toList_map, toList_inj]
  simp only [mem_newWitnessBits]
  constructor
  · intro h
    refine Vector.ext fun i hi => ?_
    rw [Vector.getElem_map]
    exact h i hi
  · rintro rfl i hi
    exact (getElem_map _ _).symm

/-- **The hash of blocks that are allocated**, on each side that of the words there. -/
theorem mem_absorbBlocks {padded : List (Vector Word 16)}
    {blocks : List (Vector (UInt32Var Wire) 16)} :
    (blocks, t) ∈ absorbBlocks (m := Sat F) s padded ↔
      blocks.map (blockOn .native) = padded.map Vector.toList ∧ ∀ side, stateOn side t =
          (blocks.map (blockOn side)).foldl Sha2.compress (stateOn side s) := by
  induction padded generalizing s blocks with
  | nil =>
    rw [absorbBlocks, Sat.mem_pure, Prod.mk.injEq, List.map_nil, List.map_eq_nil_iff]
    constructor
    · rintro ⟨rfl, rfl⟩
      exact ⟨rfl, fun _ => rfl⟩
    · rintro ⟨rfl, ht⟩
      exact ⟨rfl, ext_stateOn ht⟩
  | cons words rest ih =>
    simp only [absorbBlocks, Sat.mem_bind, mem_allocBlock, mem_sha256Compress]
    constructor
    · rintro ⟨block, hblock, s', hs', ⟨blocks', t'⟩, hrest, heq⟩
      obtain ⟨rfl, rfl⟩ := Prod.mk.injEq .. |>.mp (Sat.mem_pure.1 heq)
      obtain ⟨hnat, ht⟩ := ih.1 hrest
      refine ⟨by rw [List.map_cons, List.map_cons, hblock, hnat], fun side => ?_⟩
      rw [ht, hs', List.map_cons, List.foldl_cons]
    · rintro ⟨hnat, ht⟩
      cases blocks with
      | nil => exact absurd hnat (by simp)
      | cons block blocks =>
        obtain ⟨hblock, hblocks⟩ := List.cons.injEq .. |>.mp hnat
        obtain ⟨s', hs'⟩ := exists_stateOn fun side =>
          Sha2.compress (stateOn side s) (blockOn side block)
        refine ⟨block, hblock, s', hs', (blocks, t), ih.2 ⟨hblocks, fun side => ?_⟩, rfl⟩
        rw [ht, List.map_cons, List.foldl_cons, hs']

theorem stateToBytesNative_eq (s : HashState (UInt32Var Wire)) :
    stateToBytesNative (Sat F) s = (stateOn .native s).toBytes := by
  have hvalue : ∀ x : UInt32Var Wire, wordValue (Sat F) x = wordOn .native x := by
    intro x
    have hpure : x.mapM (Gadgets.value (m := Sat F)) = pure (x.map (Wire.on .native)) :=
      mapM_pure _
    rw [wordValue, hpure]
    rfl
  simp only [stateToBytesNative, hvalue]
  rfl

theorem blockOn_map_constBits (words : Vector Word 16) (side : Side) :
    blockOn side (words.map (constBits (Sat F))) = words.toList := by
  rw [blockOn, Vector.toList_map, List.map_map]
  exact (List.map_congr_left fun w _ => wordOn_constBits side w).trans (List.map_id _)

theorem exists_blockOn (native assigned : Vector Word 16) : ∃ block : Vector (UInt32Var Wire) 16,
    blockOn .native block = native.toList ∧ blockOn .assigned block = assigned.toList := by
  let sides (i : Fin 16) (side : Side) : Word := side.casesOn native[i] assigned[i]
  have hblock : ∀ side, blockOn side (.ofFn fun i => wires (sides i)) =
      (Vector.ofFn fun i => sides i side).toList := by
    intro side
    rw [blockOn, ← Vector.toList_map, Vector.map_ofFn]
    exact congrArg (fun f => (Vector.ofFn f).toList) (funext fun i => wordOn_wires side (sides i))
  refine ⟨.ofFn fun i => wires (sides i), ?_, ?_⟩
  · rw [hblock]
    exact congrArg Vector.toList (Vector.ext fun i hi => getElem_ofFn _)
  · rw [hblock]
    exact congrArg Vector.toList (Vector.ext fun i hi => getElem_ofFn _)

theorem blockOn_outerBlock (side : Side) (s : HashState (UInt32Var Wire))
    (words : Vector (UInt32Var Wire) 16) :
    blockOn side (outerBlock s words) =
      (stateOn side s).toWords ++ (blockOn side words).drop 8 := by
  refine List.ext_getElem (by simp [blockOn, State.toWords]) fun i hi hi' => ?_
  have hi16 : i < 16 := by simpa [blockOn] using hi
  trans wordOn side (s.toList.getD i (words.get ⟨i, hi16⟩))
  · simp only [blockOn, outerBlock, List.getElem_map, Vector.getElem_toList, Vector.getElem_ofFn]
    rfl
  by_cases hlt : i < 8
  · rw [List.getElem_append_left (by simpa [State.toWords] using hlt)]
    interval_cases i <;> rfl
  · rw [List.getElem_append_right (by simpa [State.toWords] using hlt),
      List.getD_eq_default _ _ (by simpa [HashState.toList] using hlt), List.getElem_drop]
    simp only [blockOn, List.getElem_map, Vector.getElem_toList, State.toWords, List.length_cons,
      List.length_nil]
    congr 2
    refine Fin.ext ?_
    change i = 8 + (i - 8)
    omega

/-- The program's words are those of HMAC; of the assigned ones, the outer key is. Either output is
computed from its words. -/
structure HmacWires.Satisfied (key msg : Bytes) (h : HmacWires Wire) : Prop where
  computes_native : h.Computes .native key msg
  okey : ∀ side, (h.wordsOn side).okey = (HmacWords.of key msg).okey
  stateOn_output : ∀ side, stateOn side h.output = (h.wordsOn side).output

theorem satisfied_of_mem {key : Bytes32} {msg : Bytes} {h : HmacWires Wire}
    (hmem : h ∈ hmacSha256Circuit (m := Sat F) key msg) : h.Satisfied key.toList msg := by
  have hkey : hmacKey key.toList = key.toList ++ List.replicate 32 0 := by
    rw [hmacKey_of_length_le (by simp), Vector.length_toList]
  simp only [hmacSha256Circuit, Sat.mem_bind, mem_sha256Compress, mem_allocBlock] at hmem
  obtain ⟨⟨inner, innerState⟩, hhash, outerState, houterState, words, hwords, output, hout,
    rfl⟩ := hmem
  obtain ⟨hinner, hinnerState⟩ := mem_absorbBlocks.1 hhash
  rw [← hkey] at hinner houterState ⊢
  have hokey := blockOn_map_constBits (F := F) (blockAt ((hmacKey key.toList).map (· ^^^ 0x5c)) 0)
  have hdrop : ∀ side, (blockOn side (outerBlock innerState words)).drop 8 =
      (blockOn side words).drop 8 := by
    intro side
    rw [blockOn_outerBlock, List.drop_left' (State.length_toWords _)]
  have hpadding : (blockOn .native (outerBlock innerState words)).drop 8 =
      wordsOf outerPadding := by
    rw [hdrop, hwords, stateToBytesNative_eq, toList_blockAt_state _ (by decide),
      List.drop_left' (State.length_toWords _)]
  have hstate : ∀ side, stateOn side innerState =
      (inner.map (blockOn side)).foldl Sha2.compress initialState := by
    intro side
    rw [hinnerState, stateOn_constantState]
  have houtput' : ∀ side, stateOn side output = Sha2.compress
      (Sha2.compress initialState (blockAt ((hmacKey key.toList).map (· ^^^ 0x5c)) 0).toList)
      ((stateOn side innerState).toWords ++
        (blockOn side (outerBlock innerState words)).drop 8) := by
    intro side
    rw [hdrop, hout, houterState, stateOn_constantState, hokey, blockOn_outerBlock]
  constructor
  · rw [HmacWires.Computes, HmacWires.wordsOn, hokey, hinner, hpadding, HmacWords.of]
  · intro side
    rw [HmacWires.wordsOn, hokey, HmacWords.of]
  · intro side
    rw [HmacWires.wordsOn, hokey, HmacWords.output, HmacWords.innerState, houtput', hstate]

/-- **The padding may be assigned anything**, with every other word as it should be. -/
theorem exists_mem_padding (key : Bytes32) (msg : Bytes) (padding : Vector Word 8) :
    ∃ h ∈ hmacSha256Circuit (m := Sat F) key msg,
      h.wordsOn .assigned = { HmacWords.of key.toList msg with padding := padding.toList } := by
  have hkey : hmacKey key.toList = key.toList ++ List.replicate 32 0 := by
    rw [hmacKey_of_length_le (by simp), Vector.length_toList]
  let padded := sha256Pad ((hmacKey key.toList).map (· ^^^ 0x36) ++ msg)
  let inner := padded.map (·.map (constBits (Sat F)))
  let okeyBlock :=
    (blockAt ((hmacKey key.toList).map (· ^^^ 0x5c)) 0).map (constBits (Sat F))
  let start := constantState (Sat F) initialState
  have hinner : ∀ side, inner.map (blockOn side) = padded.map Vector.toList := by
    intro side
    rw [List.map_map]
    exact List.map_congr_left fun words _ => blockOn_map_constBits words side
  obtain ⟨innerState, hinnerState⟩ := exists_stateOn fun side =>
    (inner.map (blockOn side)).foldl Sha2.compress (stateOn side start)
  obtain ⟨outerState, houterState⟩ := exists_stateOn fun side =>
    Sha2.compress (stateOn side start) (blockOn side okeyBlock)
  obtain ⟨words, hnat, hassigned⟩ := exists_blockOn
    (blockAt (stateToBytesNative (Sat F) innerState ++ outerPadding) 0)
    (Vector.replicate 8 (0 : Word) ++ padding)
  obtain ⟨output, hout⟩ := exists_stateOn fun side =>
    Sha2.compress (stateOn side outerState) (blockOn side (outerBlock innerState words))
  refine ⟨⟨okeyBlock, inner, outerBlock innerState words, output⟩, ?_, ?_⟩
  · rw [hmacSha256Circuit, ← hkey]
    simp only [Sat.mem_bind, mem_sha256Compress, mem_allocBlock]
    exact ⟨(inner, innerState), mem_absorbBlocks.2 ⟨hinner _, hinnerState⟩, outerState, houterState,
      words, hnat, output, hout, rfl⟩
  · rw [HmacWires.wordsOn, hinner, blockOn_map_constBits, blockOn_outerBlock,
      List.drop_left' (State.length_toWords _), hassigned, Vector.toList_append,
      List.drop_left' (Vector.length_toList), HmacWords.of]

theorem exists_mem_honest (key : Bytes32) (msg : Bytes) :
    ∃ h ∈ hmacSha256Circuit (m := Sat F) key msg, h.Honest := by
  obtain ⟨h, hmem, hwords⟩ := exists_mem_padding (F := F) key msg paddingWords
  refine ⟨h, hmem, ?_⟩
  rw [HmacWires.Honest, hwords, HmacWords.of_with_paddingWords,
    (satisfied_of_mem hmem).computes_native]

end

end TlsAttestation.CoSnarkProver
