import TlsAttestation.Lib.Sha256

/-!
# SHA-256 by blocks, HMAC and `P_hash`

A digest is a fold over the blocks of the padded string (`Sha2.toList_sha256`), and the padding only
depends on the length (`Sha2.pad_eq`). `Sha2.hmacSha256` is HMAC (RFC 2104), and `Sha2.pHash` the
expansion of RFC 5246, over a monad, since circuits run it too.
-/

namespace Sha2

open ByteEncoding
open List hiding Vector

/-! ### Block by block -/

def padding (n : ℕ) : Bytes :=
  0x80 :: (List.replicate ((119 - n % 64) % 64) 0 ++ beBytes 8 (8 * n))

theorem pad_eq (msg : Bytes) : pad msg = msg ++ padding msg.length :=
  rfl

def numBlocks (n : ℕ) : ℕ := (n + 72) / 64

theorem length_pad (msg : Bytes) : (pad msg).length = 64 * numBlocks msg.length := by
  rw [pad_eq, padding, numBlocks]
  simp only [length_append, length_cons, length_replicate, length_beBytes]
  omega

def wordAt (bs : Bytes) (i : ℕ) : Word :=
  .ofNat 32 (ofBeBytes [bs.getD (4 * i) 0, bs.getD (4 * i + 1) 0, bs.getD (4 * i + 2) 0,
    bs.getD (4 * i + 3) 0])

theorem length_wordsOf : ∀ bs : Bytes, (wordsOf bs).length = bs.length / 4
  | [] | [_] | [_, _] | [_, _, _] => by simp [wordsOf]
  | b₀ :: b₁ :: b₂ :: b₃ :: bs => by
    rw [wordsOf, length_cons, length_wordsOf bs]
    simp only [length_cons]
    omega

theorem getD_wordsOf : ∀ (bs : Bytes) (i : ℕ), i < (wordsOf bs).length →
    (wordsOf bs).getD i 0 = wordAt bs i
  | [], _, h | [_], _, h | [_, _], _, h | [_, _, _], _, h => absurd h (Nat.not_lt_zero _)
  | b₀ :: b₁ :: b₂ :: b₃ :: bs, 0, _ => rfl
  | b₀ :: b₁ :: b₂ :: b₃ :: bs, i + 1, h => by
    have htail : wordAt (b₀ :: b₁ :: b₂ :: b₃ :: bs) (i + 1) = wordAt bs i := rfl
    rw [wordsOf, getD_cons_succ, htail]
    exact getD_wordsOf bs i (Nat.lt_of_succ_lt_succ h)

def blockAt (bs : Bytes) (b : ℕ) : Vector Word 16 := .ofFn fun w => wordAt bs (16 * b + w)

theorem take_drop_wordsOf {bs : Bytes} {b : ℕ} (h : 64 * (b + 1) ≤ bs.length) :
    ((wordsOf bs).drop (16 * b)).take 16 = (blockAt bs b).toList := by
  have hlen := length_wordsOf bs
  refine ext_getElem (by simp; omega) fun i hi hi' => ?_
  have hi16 : i < 16 := by simpa using hi'
  rw [getElem_take, getElem_drop, ← getD_eq_getElem _ 0, getD_wordsOf _ _ (by omega)]
  simp [blockAt]

theorem absorb_eq_foldl (n : ℕ) (ws : List Word) (s : State) :
    absorb n ws s =
      (List.range n).foldl (fun s b => compress s ((ws.drop (16 * b)).take 16)) s := by
  induction n generalizing ws s with
  | zero => rfl
  | succ n ih =>
    have hshift : ∀ b, (ws.drop 16).drop (16 * b) = ws.drop (16 * (b + 1)) := by
      intro b
      rw [drop_drop, Nat.mul_succ, Nat.add_comm]
    rw [absorb, ih, range_succ_eq_map, foldl_cons, foldl_map]
    simp only [hshift, Nat.mul_zero, drop_zero, Nat.succ_eq_add_one]

def stateAfter (bs : Bytes) (n : ℕ) : State :=
  (List.range n).foldl (fun s b => compress s (blockAt bs b).toList) initialState

theorem toList_sha256 (msg : Bytes) :
    (sha256 msg).toList = (stateAfter (pad msg) (numBlocks msg.length)).toBytes := by
  have hfold : absorb (numBlocks msg.length) (wordsOf (pad msg)) initialState =
      stateAfter (pad msg) (numBlocks msg.length) := by
    rw [absorb_eq_foldl, stateAfter]
    refine foldl_ext _ _ _ fun s b hb => ?_
    have hblock : 64 * (b + 1) ≤ (pad msg).length := by
      rw [length_pad]
      exact Nat.mul_le_mul_left 64 (mem_range.1 hb)
    rw [take_drop_wordsOf hblock]
  rw [sha256, Vector.toList_mk, toList_toArray, ← numBlocks, hfold]

theorem blockAt_append_zero {xs : Bytes} (h : xs.length = 64) (ys : Bytes) :
    blockAt (xs ++ ys) 0 = blockAt xs 0 := by
  refine Vector.ext fun i hi => ?_
  simp only [blockAt, Vector.getElem_ofFn, wordAt]
  rw [getD_append _ _ _ _ (by omega), getD_append _ _ _ _ (by omega),
    getD_append _ _ _ _ (by omega), getD_append _ _ _ _ (by omega)]

theorem blockAt_append_succ {xs : Bytes} (h : xs.length = 64) (ys : Bytes) (b : ℕ) :
    blockAt (xs ++ ys) (b + 1) = blockAt ys b := by
  refine Vector.ext fun i hi => ?_
  have hget : ∀ k, (xs ++ ys).getD (4 * (16 * (b + 1) + i) + k) 0 =
      ys.getD (4 * (16 * b + i) + k) 0 := by
    intro k
    rw [getD_append_right _ _ _ _ (by omega)]
    congr 1
    omega
  simp only [blockAt, Vector.getElem_ofFn, wordAt, hget]
  exact congrArg (fun b₀ => BitVec.ofNat 32 (ofBeBytes [b₀, _, _, _])) (hget 0)

def State.toWords (s : State) : List Word := [s.a, s.b, s.c, s.d, s.e, s.f, s.g, s.h]

theorem State.length_toWords (s : State) : s.toWords.length = 8 := rfl

theorem wordsOf_beBytes_append (w : Word) (bs : Bytes) :
    wordsOf (beBytes 4 w.toNat ++ bs) = w :: wordsOf bs := by
  have hlt : w.toNat < 256 ^ 4 := Nat.lt_of_lt_of_eq w.isLt (by decide)
  have hword : BitVec.ofNat 32 (ofBeBytes (beBytes 4 w.toNat)) = w := by
    rw [ofBeBytes_beBytes, Nat.mod_eq_of_lt hlt, BitVec.ofNat_toNat, BitVec.setWidth_eq]
  exact congrArg (· :: wordsOf bs) hword

theorem wordsOf_toBytes_append (s : State) (bs : Bytes) :
    wordsOf (s.toBytes ++ bs) = s.toWords ++ wordsOf bs := by
  simp only [State.toBytes, flatMap_cons, flatMap_nil, append_nil, append_assoc,
    wordsOf_beBytes_append]
  rfl

theorem toList_blockAt_state (s : State) {bs : Bytes} (h : bs.length = 32) :
    (blockAt (s.toBytes ++ bs) 0).toList = s.toWords ++ wordsOf bs := by
  rw [← take_drop_wordsOf (by simp [h]), Nat.mul_zero, drop_zero, wordsOf_toBytes_append]
  refine take_of_length_le ?_
  rw [length_append, length_wordsOf, h]
  exact le_rfl

/-! ### HMAC -/

def hmacKey (key : Bytes) : Bytes :=
  let k := if 64 < key.length then (sha256 key).toList else key
  k ++ List.replicate (64 - k.length) 0

/-- What the outer hash of HMAC gets: the key under one mask, then the digest of the key under
another mask and the data. -/
def hmacOuter (key data : Bytes) : Bytes :=
  (hmacKey key).map (· ^^^ 0x5c) ++ (sha256 ((hmacKey key).map (· ^^^ 0x36) ++ data)).toList

/-- **HMAC with SHA-256**: a hash of the key and of a hash of the key and the data. -/
def hmacSha256 (key data : Bytes) : Bytes32 := sha256 (hmacOuter key data)

theorem hmacKey_of_length_le {key : Bytes} (h : key.length ≤ 64) :
    hmacKey key = key ++ List.replicate (64 - key.length) 0 := by
  rw [hmacKey, if_neg (by omega)]

theorem length_hmacKey (key : Bytes) : (hmacKey key).length = 64 := by
  rw [hmacKey]
  split
  · simp
  · simp only [length_append, length_replicate]
    omega

/-- The outer hash gets different strings for different keys, whatever the data. -/
theorem hmacKey_eq_of_hmacOuter_eq {key key' data data' : Bytes}
    (h : hmacOuter key data = hmacOuter key' data') : hmacKey key = hmacKey key' := by
  have hmask : Function.Injective fun b : UInt8 => b ^^^ 0x5c :=
    fun _ _ heq => (UInt8.xor_left_inj _).1 heq
  exact map_injective_iff.2 hmask (append_inj_left h (by simp [length_hmacKey]))

/-- Zeros at the end of a short key do not count, and only they. -/
theorem hmacKey_take_eq_iff {key : Bytes} (h : key.length ≤ 64) (n : ℕ) :
    hmacKey (key.take n) = hmacKey key ↔ key.drop n = List.replicate (key.length - n) 0 := by
  have hpad : List.replicate (64 - (key.take n).length) (0 : UInt8) =
      List.replicate (key.length - n) 0 ++ List.replicate (64 - key.length) 0 := by
    rw [replicate_append_replicate, length_take]
    congr 1
    omega
  have hkey : hmacKey key = key.take n ++ (key.drop n ++ List.replicate (64 - key.length) 0) := by
    rw [hmacKey_of_length_le h, ← append_assoc, take_append_drop]
  rw [hmacKey_of_length_le (by rw [length_take]; omega), hkey, hpad, append_cancel_left_eq,
    append_cancel_right_eq, eq_comm]

/-- HKDF (RFC 5869), first step. Without a salt, zeros are taken. -/
def hkdfExtract (salt : Option Bytes) (ikm : Bytes) : Bytes32 :=
  hmacSha256 (salt.getD (List.replicate 32 0)) ikm

def hkdfExpandBlock (prk : Bytes32) (info : Bytes) : Bytes32 :=
  hmacSha256 prk.toList (info ++ [1])

/-! ### Expansion -/

section

variable {m : Type → Type} [Monad m] {β : Type}

def pHashLoop (hmac : List β → m (List β)) (seed : List β) (outputLen : ℕ) :
    ℕ → List β → List β → m (List β)
  | 0, _, output => pure output
  | fuel + 1, a, output =>
    if output.length < outputLen then do
      let a' ← hmac a
      let block ← hmac (a' ++ seed)
      pHashLoop hmac seed outputLen fuel a' (output ++ block)
    else pure output

/-- The expansion of a seed to a length, by a keyed hash. -/
def pHash (hmac : List β → m (List β)) (seed : List β) (outputLen : ℕ) : m (List β) := do
  let output ← pHashLoop hmac seed outputLen outputLen seed []
  return output.take outputLen

end

theorem prefix_pHashLoop (hmac : Bytes → Bytes) (seed : Bytes) (outputLen fuel : ℕ)
    (a output : Bytes) :
    output <+: (pHashLoop (m := Id) hmac seed outputLen fuel a output).run := by
  induction fuel generalizing a output with
  | zero => exact prefix_rfl
  | succ fuel ih =>
    rw [pHashLoop]
    split
    · exact (prefix_append _ _).trans (ih (hmac a) (output ++ hmac (hmac a ++ seed)))
    · exact prefix_rfl

theorem take_pHash (hmac : Bytes → Bytes) (seed : Bytes) {outputLen n : ℕ} (hpos : 0 < outputLen)
    (hle : n ≤ outputLen) (hblock : n ≤ (hmac (hmac seed ++ seed)).length) :
    (pHash (m := Id) hmac seed outputLen).run.take n = (hmac (hmac seed ++ seed)).take n := by
  obtain ⟨fuel, rfl⟩ : ∃ fuel, outputLen = fuel + 1 := ⟨outputLen - 1, by omega⟩
  have hstep : pHashLoop (m := Id) hmac seed (fuel + 1) (fuel + 1) seed [] =
      pHashLoop (m := Id) hmac seed (fuel + 1) fuel (hmac seed) (hmac (hmac seed ++ seed)) := by
    rw [pHashLoop, if_pos (by simp)]
    rfl
  obtain ⟨rest, hrest⟩ := prefix_pHashLoop hmac seed (fuel + 1) fuel (hmac seed)
    (hmac (hmac seed ++ seed))
  rw [pHash, hstep, Id.run_bind, Id.run_pure, take_take, Nat.min_eq_left hle, ← hrest,
    take_append_of_le_length hblock]

theorem le_length_pHashLoop {hmac : Bytes → Bytes} (hpos : ∀ bs, 0 < (hmac bs).length)
    (seed : Bytes) (outputLen fuel : ℕ) (a output : Bytes)
    (hfuel : outputLen ≤ output.length + fuel) :
    outputLen ≤ (pHashLoop (m := Id) hmac seed outputLen fuel a output).run.length := by
  induction fuel generalizing a output with
  | zero => simpa [pHashLoop] using hfuel
  | succ fuel ih =>
    rw [pHashLoop]
    split
    · have hblock := hpos (hmac a ++ seed)
      exact ih (hmac a) (output ++ hmac (hmac a ++ seed)) (by rw [length_append]; omega)
    · rw [Id.run_pure]
      omega

/-- The expansion has the length that was asked for. -/
theorem length_pHash {hmac : Bytes → Bytes} (hpos : ∀ bs, 0 < (hmac bs).length) (seed : Bytes)
    (outputLen : ℕ) : (pHash (m := Id) hmac seed outputLen).run.length = outputLen := by
  have hle := le_length_pHashLoop hpos seed outputLen outputLen seed [] (by simp)
  rw [pHash, Id.run_bind, Id.run_pure, length_take]
  exact Nat.min_eq_left hle

end Sha2
