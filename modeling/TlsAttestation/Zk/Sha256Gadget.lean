import TlsAttestation.Lib.Assignments

/-!
# SHA-256 of constrained bytes

The gadget looks at the prover's own values to compute the padding, which only depends on the
length, so the output is the digest of the *assigned* bytes (`Zk.determined_sha256FromByteVars`).
-/

namespace TlsAttestation.Zk

open Ark ByteEncoding Sha2 Sha2.Gadget

section

variable {m : Type → Type} {Bit : Type} [Monad m] [BoolGadgets m Bit]

/-! ### The gadget -/

def ch (e f g : UInt32Var Bit) : m (UInt32Var Bit) := do
  let ef ← andBits e f
  let neg ← andBits (notBits m e) g
  xorBits ef neg

def maj (a b c : UInt32Var Bit) : m (UInt32Var Bit) := do
  let ab ← andBits a b
  let ac ← andBits a c
  let bc ← andBits b c
  xorBits (← xorBits ab ac) bc

/-- The last additions list the state first. -/
def functions : Functions m Bit := ⟨ch, maj, true⟩

variable (state : HashState (UInt32Var Bit))

/-- One block of SHA-256, with this circuit's `ch` and `maj`. -/
def sha256Compress (block : Vector (UInt32Var Bit) 16) :
    m (HashState (UInt32Var Bit)) :=
  compress functions state block

def stateToByteVars : List (UInt8Var Bit) :=
  state.toList.flatMap bytesOfWord

variable (m) in
def blockVars (paddedVars : List (UInt8Var Bit)) (b : ℕ) : Vector (UInt32Var Bit) 16 :=
  .ofFn fun w =>
    let byte := fun k => paddedVars.getD (64 * b + 4 * w + k) (constBits m 0)
    wordOfBytes (byte 0) (byte 1) (byte 2) (byte 3)

end

section

variable {m : Type → Type} {F Bit Fp : Type} [Monad m] [Gadgets m F Bit Fp]

variable (m) in
def byteValue (b : UInt8Var Bit) : Option UInt8 := do
  return byte (← b.mapM (Gadgets.value (m := m)))

/-- **SHA-256 of constrained bytes**, with constant padding. -/
def sha256FromByteVars (inputVars : List (UInt8Var Bit)) : m (List (UInt8Var Bit)) := do
  let nativeBytes := inputVars.map fun b => (byteValue m b).getD 0
  let padded := pad nativeBytes
  let paddedVars := inputVars ++ (padded.drop inputVars.length).map fun b => constBits m b.toBitVec
  let state ← (List.range (padded.length / 64)).foldlM
    (fun state b => sha256Compress state (blockVars m paddedVars b)) (constantState m initialState)
  return stateToByteVars state

end

/-! ### Correctness -/

theorem evaluate_functions : (functions : Functions Id Bool).Evaluate where
  ch x y z := by simp [functions, ch, Sha2.ch]
  maj x y z := by simp [functions, maj, Sha2.maj]

theorem simulate_functions {m m' : Type → Type} {Bit Bit' : Type} [Monad m] [Monad m']
    [LawfulMonad m] [LawfulMonad m'] [BoolGadgets m Bit] [BoolGadgets m' Bit']
    (S : Simulation m m') :
    (functions : Functions m Bit).Simulate S (functions : Functions m' Bit') where
  ch hx hy hz := S.bind (S.andBits hx hy) fun _ _ hef =>
    S.bind (S.andBits (S.notBits hx) hz) fun _ _ hneg => S.xorBits hef hneg
  maj hx hy hz := S.bind (S.andBits hx hy) fun _ _ hab => S.bind (S.andBits hx hz) fun _ _ hac =>
    S.bind (S.andBits hy hz) fun _ _ hbc => S.bind (S.xorBits hab hac) fun _ _ h => S.xorBits h hbc
  stateFirst := rfl

section

variable {m : Type → Type} {F Bit Fp : Type} [Monad m] [LawfulMonad m] [Gadgets m F Bit Fp]
  {P : ∀ {α : Type}, m α → Prop} (h : Composes @P)
include h

theorem composes_sha256Compress (s : HashState (UInt32Var Bit))
    (block : Vector (UInt32Var Bit) 16) : P (sha256Compress s block) :=
  h.compress
    (fun x y z => h.bind (h.andBits x y) fun _ => h.bind (h.andBits _ z) fun _ => h.xorBits _ _)
    (fun x y z => h.bind (h.andBits x y) fun _ => h.bind (h.andBits x z) fun _ =>
      h.bind (h.andBits y z) fun _ => h.xor3 _ _ _) s block

theorem composes_sha256FromByteVars (inputVars : List (UInt8Var Bit)) :
    P (sha256FromByteVars inputVars) :=
  h.bind (h.foldlM (fun s _ => composes_sha256Compress h s _) _ _) fun _ => h.pure _

end

/-! ### Readings that agree -/

section

variable {m m' : Type → Type} {F Bit Bit' Fp Fp' : Type} [Monad m] [Monad m']
  [Gadgets m F Bit Fp] [Gadgets m' F Bit' Fp']

variable (m) in
def paddedVars (inputVars : List (UInt8Var Bit)) : List (UInt8Var Bit) :=
  inputVars ++ constantBytes m (padding inputVars.length)

/-- A padding depends on the length only. -/
theorem sha256FromByteVars_eq (inputVars : List (UInt8Var Bit)) :
    (sha256FromByteVars inputVars : m _) = (do
      let state ← (List.range (numBlocks inputVars.length)).foldlM
        (fun state b => sha256Compress state (blockVars m (paddedVars m inputVars) b))
        (constantState m initialState)
      return stateToByteVars state) := by
  have hlen : (inputVars.map fun b => (byteValue m b).getD 0).length = inputVars.length :=
    List.length_map _
  rw [sha256FromByteVars, length_pad, hlen, Nat.mul_div_cancel_left _ (by decide), pad_eq, hlen,
    List.drop_left' hlen]
  rfl

variable [LawfulMonad m] [LawfulMonad m'] (S : Simulation m m') {xs : List (UInt8Var Bit)}
  {ys : List (UInt8Var Bit')}

omit [LawfulMonad m] [LawfulMonad m'] in
theorem simulate_constantBytes (bs : Bytes) :
    S.BytesRel (constantBytes m bs) (constantBytes m' bs) :=
  List.forall₂_map_left_iff.2 (List.forall₂_map_right_iff.2
    (List.forall₂_same.2 fun _ _ => S.constBits _))

omit [LawfulMonad m] [LawfulMonad m'] in
theorem simulate_blockVars (h : S.BytesRel xs ys) (b : ℕ) :
    List.Forall₂ (VecRel S.Rel) (blockVars m xs b).toList (blockVars m' ys b).toList := by
  refine VecRel.toList fun w hw => ?_
  rw [blockVars, blockVars, Vector.getElem_ofFn, Vector.getElem_ofFn]
  have hbyte (k : ℕ) := forall₂_getD h (S.constBits 0) (64 * b + 4 * w + k)
  exact (((hbyte 3).append (hbyte 2)).append (hbyte 1)).append (hbyte 0)

omit [LawfulMonad m] [LawfulMonad m'] [Monad m] [Monad m'] in
theorem rel_stateToByteVars {R : Bit → Bit' → Prop} {s : HashState (UInt32Var Bit)}
    {t : HashState (UInt32Var Bit')} (h : s.Rel (VecRel R) t) :
    List.Forall₂ (VecRel R) (stateToByteVars s) (stateToByteVars t) := by
  refine List.rel_flatMap h.toList fun x y hxy => ?_
  refine List.forall₂_map_left_iff.2 (List.forall₂_map_right_iff.2
    (List.forall₂_same.2 fun i _ j hj => ?_))
  rw [byteOfWord, byteOfWord, Vector.getElem_ofFn, Vector.getElem_ofFn]
  exact hxy _ _

/-- Readings that agree on the gadgets agree on the digest. -/
theorem simulate_sha256FromByteVars (h : S.BytesRel xs ys) :
    S.Run S.BytesRel (sha256FromByteVars xs) (sha256FromByteVars ys) := by
  have hpad : S.BytesRel (paddedVars m xs) (paddedVars m' ys) := by
    rw [paddedVars, paddedVars, h.length_eq]
    exact List.rel_append h (simulate_constantBytes S _)
  rw [sha256FromByteVars_eq, sha256FromByteVars_eq, h.length_eq]
  refine S.bind (S.foldlM (R := Eq) ?_ (List.forall₂_same.2 fun _ _ => rfl)
    (simulate_constantState S _)) fun _ _ hstate => S.pure (rel_stateToByteVars hstate)
  rintro s t b _ hst rfl
  exact simulate_compress (simulate_functions S) hst (simulate_blockVars S hpad b)

end

theorem map_byteOn_stateToByteVars (side : Side) (s : HashState (UInt32Var Wire)) :
    (stateToByteVars s).map (byteOn side) = (stateOn side s).toBytes :=
  bytesOn_flatMap_bytesOfWord side s

variable {F : Type} [Zero F] [One F] [Add F] [Mul F]

theorem map_wordOn_blockVars (side : Side) (paddedVars : List (UInt8Var Wire)) (b : ℕ) :
    (blockVars (Sat F) paddedVars b).toList.map (wordOn side) =
      (blockAt (paddedVars.map (byteOn side)) b).toList := by
  rw [← Vector.toList_map]
  congr 1
  refine Vector.ext fun w hw => ?_
  have hbyte : ∀ k, byteOn side (paddedVars.getD k (constBits (Sat F) 0)) =
      (paddedVars.map (byteOn side)).getD k 0 := by
    intro k
    rw [← byteOn_constBits (F := F) side 0, List.getD_map]
    rfl
  rw [Vector.getElem_map, blockVars, Vector.getElem_ofFn, wordOn_wordOfBytes, hbyte, hbyte, hbyte,
    hbyte, blockAt, Vector.getElem_ofFn, wordAt, show 64 * b + 4 * w = 4 * (16 * b + w) by ring]
  rfl

theorem map_byteOn_constantBytes (side : Side) (bs : Bytes) :
    (constantBytes (Sat F) bs).map (byteOn side) = bs := by
  rw [constantBytes, List.map_map]
  exact (List.map_congr_left fun b _ => byteOn_constBits side b).trans (List.map_id _)

variable (inputVars : List (UInt8Var Wire))

/-- In every satisfying assignment, the output is the digest. -/
theorem determined_sha256FromByteVars :
    Determined (sha256FromByteVars (m := Sat F) inputVars) fun out => ∀ side,
      out.map (byteOn side) = (Sha2.sha256 (inputVars.map (byteOn side))).toList := by
  set paddedVars := paddedVars (Sat F) inputVars with hpaddedVars
  have hpad : ∀ side, paddedVars.map (byteOn side) = pad (inputVars.map (byteOn side)) := by
    intro side
    rw [hpaddedVars, Zk.paddedVars, List.map_append, map_byteOn_constantBytes, pad_eq,
      List.length_map]
  have hfold : Determined ((List.range (numBlocks inputVars.length)).foldlM
      (fun state b => sha256Compress (m := Sat F) state (blockVars (Sat F) paddedVars b))
      (constantState (Sat F) initialState)) fun t => ∀ side,
      stateOn side t = stateAfter (pad (inputVars.map (byteOn side)))
        (numBlocks inputVars.length) := by
    have hstep : ∀ (s : HashState (UInt32Var Wire)) (f : Side → State) (b : ℕ),
        (∀ side, stateOn side s = f side) →
        Determined (sha256Compress (m := Sat F) s (blockVars (Sat F) paddedVars b))
          fun t => ∀ side, stateOn side t =
            Sha2.compress (f side) (blockAt (pad (inputVars.map (byteOn side))) b).toList := by
      intro s f b hs
      refine (determined_compress (fun side => simulate_functions (reading F side))
        evaluate_functions s _).mono fun t ht side => ?_
      rw [ht, map_wordOn_blockVars, hpad, hs]
    refine (Determined.foldlM hstep _ fun side => stateOn_constantState side _).mono
      fun t ht side => (ht side).trans ?_
    exact (List.foldl_hom (fun f : Side → State => f side) fun _ _ => rfl).symm
  rw [sha256FromByteVars_eq]
  refine hfold.bind fun t ht => .pure fun side => ?_
  rw [map_byteOn_stateToByteVars, ht, toList_sha256, List.length_map]

/-- **The gadget is SHA-256**, of any number of bytes: the output computes to the digest of what the
input computes to, and in every satisfying assignment the input determines it. -/
theorem sha256FromByteVars_correct :
    (∃ out, out ∈ sha256FromByteVars (m := Sat F) inputVars) ∧
    ∀ out ∈ sha256FromByteVars (m := Sat F) inputVars,
      bytesOn .native out = (Sha2.sha256 (bytesOn .native inputVars)).toList ∧
      bytesOn .assigned out = (Sha2.sha256 (bytesOn .assigned inputVars)).toList ∧
      ∀ inputVars', bytesOn .assigned inputVars' = bytesOn .assigned inputVars →
        ∀ out' ∈ sha256FromByteVars (m := Sat F) inputVars',
          bytesOn .assigned out' = bytesOn .assigned out := by
  have hdig := determined_sha256FromByteVars (F := F)
  refine ⟨(hdig inputVars).exists_mem, fun out hout => ⟨(hdig _).of_mem hout .native,
    (hdig _).of_mem hout .assigned, fun inputVars' hsame out' hout' => ?_⟩⟩
  calc bytesOn .assigned out' = (Sha2.sha256 (bytesOn .assigned inputVars')).toList :=
        (hdig _).of_mem hout' .assigned
    _ = (Sha2.sha256 (bytesOn .assigned inputVars)).toList := by rw [hsame]
    _ = bytesOn .assigned out := ((hdig _).of_mem hout .assigned).symm

end TlsAttestation.Zk
