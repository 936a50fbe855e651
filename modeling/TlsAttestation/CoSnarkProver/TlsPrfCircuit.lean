import TlsAttestation.CoSnarkProver.Circuit
import TlsAttestation.CoSnarkProver.HmacSha256
import TlsAttestation.Zk.Tls12Hmac

/-!
# The derivation circuit of the prover

A chain of HMACs derives `K_MAC`, and the shares have to add up to it. Every call gets its key and
its message **natively**, so an assignment follows the chain exactly if it is honest
(`CoSnarkProver.TlsPrfCircuit.derives_iff`). The chain keys the expansion with 32 bytes of the
master secret, where TLS takes 48 (`CoSnarkProver.TlsPrfCircuit.firstBlock_eq_kMac_iff`).
-/

namespace TlsAttestation.CoSnarkProver

open Ark ByteEncoding Sha2 Sha2.Gadget Sat

variable {r : ℕ}

def kMacFe248 (r : ℕ) (bytes : Bytes32) : ZMod r :=
  fromLeBytesModOrder r (bytes.toList.take 31)

def labelMasterSecret : Bytes := strBytes "master secret"

def labelKeyExpansion : Bytes := strBytes "key expansion"

/-! ### The circuit -/

structure TlsPrfCircuit (r : ℕ) where
  (pShare vShare pmsBytes clientRandom serverRandom : Bytes32)
  (commitment randBinding : ZMod r)

structure PrfTurn (Bit : Type) where
  a : HmacWires Bit
  p : HmacWires Bit

structure TlsPrfWires (Bit Fp : Type) where
  commitment : Fp
  rand : Fp
  a1 : HmacWires Bit
  p1 : HmacWires Bit
  firstTurn : PrfTurn Bit
  laterTurns : List (PrfTurn Bit)
  pVar : Fp
  vVar : Fp

/-- The bits of the first 31 bytes of a state: each word from its most significant byte on, the last
one without its least significant byte. -/
def kMacBits {Bit : Type} (block : HashState (UInt32Var Bit)) : List Bit :=
  block.toList.zipIdx.flatMap fun (word, wordIdx) =>
    let startByte := if wordIdx = 7 then 1 else 0
    ((List.finRange 4).drop startByte).reverse.flatMap fun byteIdx =>
      (byteOfWord word byteIdx).toList

namespace TlsPrfCircuit

def new (r : ℕ) (pShare vShare pmsBytes clientRandom serverRandom randBinding : Bytes32) :
    TlsPrfCircuit r :=
  let randFe := bytes32ToField r randBinding
  { pShare := pShare
    vShare := vShare
    pmsBytes := pmsBytes
    clientRandom := clientRandom
    serverRandom := serverRandom
    commitment := kMacFe248 r pShare + kMacFe248 r vShare + randFe
    randBinding := randFe }

def dummy (r : ℕ) : TlsPrfCircuit r :=
  new r (.replicate 32 0) (.replicate 32 0) (.replicate 32 0) (.replicate 32 0) (.replicate 32 0)
    (.replicate 32 0)

variable (c : TlsPrfCircuit r)

def seedMs : Bytes :=
  labelMasterSecret ++ c.clientRandom.toList ++ c.serverRandom.toList

/-- The master secret, of which the program takes 32 bytes. -/
def msKey : Bytes32 :=
  ⟨(tlsPrfNative c.pmsBytes.toList labelMasterSecret
    (c.clientRandom.toList ++ c.serverRandom.toList) 32).toArray,
    by rw [List.size_toArray, length_tlsPrfNative]⟩

def seedKe : Bytes :=
  labelKeyExpansion ++ c.serverRandom.toList ++ c.clientRandom.toList

section

variable {m : Type → Type} {Bit Fp : Type} [Monad m] [Gadgets m (ZMod r) Bit Fp]

def turn (key : Bytes32) (seed aNative : Bytes) : m (PrfTurn Bit) := do
  let a ← hmacSha256Circuit key aNative
  let p ← hmacSha256Circuit key (stateToBytesNative m a.output ++ seed)
  return ⟨a, p⟩

def turns (key : Bytes32) (seed : Bytes) : ℕ → Bytes → m (List (PrfTurn Bit))
  | 0, _ => pure []
  | n + 1, aNative => do
    let t ← turn key seed aNative
    let ts ← turns key seed n (stateToBytesNative m t.a.output)
    return t :: ts

/-- Each turn starts from the output that the program computed, not from the one in the circuit. -/
def generateConstraints (c : TlsPrfCircuit r) : m (TlsPrfWires Bit Fp) := do
  let commitmentVar ← Gadgets.fpNewInput c.commitment
  let randVar ← Gadgets.fpNewInput c.randBinding
  -- the master secret
  let a1 ← hmacSha256Circuit c.pmsBytes c.seedMs
  let p1 ← hmacSha256Circuit c.pmsBytes (stateToBytesNative m a1.output ++ c.seedMs)
  -- the key expansion: of its five turns, the first has the key
  let firstTurn ← turn c.msKey c.seedKe c.seedKe
  let laterTurns ← turns c.msKey c.seedKe 4 (stateToBytesNative m firstTurn.a.output)
  -- the shares and the commitment
  let prfKMacVar := leBitsToFp m (kMacBits firstTurn.p.output)
  let pVar ← Gadgets.fpNewWitness (kMacFe248 r c.pShare)
  let vVar ← Gadgets.fpNewWitness (kMacFe248 r c.vShare)
  let kMacShareVar := Gadgets.fpAdd (m := m) pVar vVar
  Gadgets.fpEnforceEqual prfKMacVar kMacShareVar
  Gadgets.fpEnforceEqual commitmentVar (Gadgets.fpAdd (m := m) kMacShareVar randVar)
  return ⟨commitmentVar, randVar, a1, p1, firstTurn, laterTurns, pVar, vVar⟩

end

def keyBlock : Bytes :=
  tlsPrfNative c.msKey.toList labelKeyExpansion (c.serverRandom.toList ++ c.clientRandom.toList) 160

end TlsPrfCircuit

/-! ### The chain -/

namespace HmacWires.Satisfied

variable {key msg : Bytes} {h : HmacWires Wire}

theorem outputOn (hsat : h.Satisfied key msg) (side : Side) :
    h.outputOn side = (h.wordsOn side).output.toBytes :=
  congrArg State.toBytes (hsat.stateOn_output side)

theorem outputOn_native (hsat : h.Satisfied key msg) :
    h.outputOn .native = hmacSha256Native key msg := by
  rw [hsat.outputOn, hsat.computes_native, HmacWords.toBytes_output_of]

/-- **A call is honest** exactly if its key and message are the native ones. -/
theorem honest_iff (hsat : h.Satisfied key msg) : h.Honest ↔ h.Computes .assigned key msg := by
  rw [Honest, hsat.computes_native, Computes]

theorem outputOn_of_honest (hsat : h.Satisfied key msg) (hh : h.Honest) :
    h.outputOn .assigned = h.outputOn .native := by
  rw [hsat.outputOn, hsat.outputOn, hh]

end HmacWires.Satisfied

def PrfTurn.Honest (t : PrfTurn Wire) : Prop := t.a.Honest ∧ t.p.Honest

def TurnsChained (side : Side) (key seed : Bytes) : Bytes → List (PrfTurn Wire) → Prop
  | _, [] => True
  | a, t :: ts => t.a.Computes side key a ∧ t.p.Computes side key (t.a.outputOn side ++ seed) ∧
      TurnsChained side key seed (t.a.outputOn side) ts

def TurnsSatisfied (key seed : Bytes) : Bytes → List (PrfTurn Wire) → Prop
  | _, [] => True
  | a, t :: ts => t.a.Satisfied key a ∧ t.p.Satisfied key (t.a.outputOn .native ++ seed) ∧
      TurnsSatisfied key seed (t.a.outputOn .native) ts

/-- Turns are chained exactly if they are honest. -/
theorem turnsChained_iff {key seed a : Bytes} {ts : List (PrfTurn Wire)}
    (hsat : TurnsSatisfied key seed a ts) :
    TurnsChained .assigned key seed a ts ↔ ∀ t ∈ ts, t.Honest := by
  induction ts generalizing a with
  | nil => simp [TurnsChained]
  | cons t ts ih =>
    obtain ⟨ha, hp, hts⟩ := hsat
    rw [TurnsChained, List.forall_mem_cons, PrfTurn.Honest, ← ha.honest_iff, and_assoc]
    -- once the first call is honest, the next message and the next turn are the native ones
    refine and_congr_right fun hhonest => ?_
    rw [ha.outputOn_of_honest hhonest, ← hp.honest_iff, ih hts]

namespace TlsPrfWires

variable (w : TlsPrfWires Wire (ZMod r))

def turns : List (PrfTurn Wire) := w.firstTurn :: w.laterTurns

/-- Every turn hashes what the turn before has put out. -/
def Chained (c : TlsPrfCircuit r) (side : Side) (w : TlsPrfWires Wire (ZMod r)) : Prop :=
  w.a1.Computes side c.pmsBytes.toList c.seedMs ∧
    w.p1.Computes side c.pmsBytes.toList (w.a1.outputOn side ++ c.seedMs) ∧
    TurnsChained side (w.p1.outputOn side) c.seedKe c.seedKe w.turns

/-- In every call, what is assigned is what was computed. -/
def Honest : Prop :=
  w.a1.Honest ∧ w.p1.Honest ∧ ∀ t ∈ w.turns, t.Honest

def packedKMac : ZMod r :=
  leBitsToFp (Sat (ZMod r)) (kMacBits w.firstTurn.p.output)

structure Satisfied (c : TlsPrfCircuit r) (w : TlsPrfWires Wire (ZMod r)) : Prop where
  a1 : w.a1.Satisfied c.pmsBytes.toList c.seedMs
  p1 : w.p1.Satisfied c.pmsBytes.toList (w.a1.outputOn .native ++ c.seedMs)
  turns : TurnsSatisfied c.msKey.toList c.seedKe c.seedKe w.turns
  shares : w.packedKMac = w.pVar + w.vVar
  commitment : w.commitment = w.pVar + w.vVar + w.rand

end TlsPrfWires

theorem kMacBits_eq {Bit : Type} (s : HashState (UInt32Var Bit)) :
    kMacBits s = ((s.toList.flatMap bytesOfWord).take 31).flatMap Vector.toList := by
  have hbytes : List.finRange 4 = [0, 1, 2, 3] := rfl
  simp [kMacBits, HashState.toList, bytesOfWord, hbytes]

theorem TlsPrfWires.packedKMac_eq (w : TlsPrfWires Wire (ZMod r)) :
    w.packedKMac = fromLeBytesModOrder r ((w.firstTurn.p.outputOn .assigned).take 31) := by
  rw [packedKMac, leBitsToFp_eq, kMacBits_eq, map_on_flatMap_toList, ofLeBits_flatMap_bits,
    List.map_take, HmacWires.outputOn, ← bytesOn_flatMap_bytesOfWord, fromLeBytesModOrder]

namespace TlsPrfCircuit

theorem toList_msKey (c : TlsPrfCircuit r) :
    c.msKey.toList = hmacSha256Native c.pmsBytes.toList
      (hmacSha256Native c.pmsBytes.toList c.seedMs ++ c.seedMs) := by
  have htake := tlsPrfNative_take c.pmsBytes.toList labelMasterSecret
    (c.clientRandom.toList ++ c.serverRandom.toList) (le_refl 32)
  rw [List.take_of_length_le (length_tlsPrfNative ..).le] at htake
  rw [seedMs, List.append_assoc]
  exact htake

theorem take_keyBlock (c : TlsPrfCircuit r) :
    c.keyBlock.take 32 = hmacSha256Native c.msKey.toList
      (hmacSha256Native c.msKey.toList c.seedKe ++ c.seedKe) := by
  have htake := tlsPrfNative_take c.msKey.toList labelKeyExpansion
    (c.serverRandom.toList ++ c.clientRandom.toList) (show 32 ≤ 160 by decide)
  rw [seedKe, List.append_assoc]
  exact htake

theorem turns_of_mem {key : Bytes32} {seed a : Bytes} {n : ℕ} {ts : List (PrfTurn Wire)}
    (hmem : ts ∈ turns (m := Sat (ZMod r)) key seed n a) :
    TurnsSatisfied key.toList seed a ts := by
  induction n generalizing a ts with
  | zero =>
    obtain rfl := mem_pure.1 hmem
    trivial
  | succ n ih =>
    simp only [turns, turn, mem_bind, mem_pure] at hmem
    obtain ⟨_, ⟨ha, hha, hp, hhp, rfl⟩, ts', hts', rfl⟩ := hmem
    rw [stateToBytesNative_eq] at hhp hts'
    exact ⟨satisfied_of_mem hha, satisfied_of_mem hhp, ih hts'⟩

theorem satisfied_of_mem {c : TlsPrfCircuit r} {w : TlsPrfWires Wire (ZMod r)}
    (hmem : w ∈ c.generateConstraints (m := Sat (ZMod r))) : w.Satisfied c := by
  simp only [generateConstraints, turn, mem_bind, mem_pure, mem_fpNewInput,
    mem_fpNewWitness, mem_fpEnforceEqual, fpAdd_eq, true_and] at hmem
  obtain ⟨commitment, rand, a1, ha1, p1, hp1, _, ⟨a, ha, p, hp, rfl⟩, later, hlater, pVar, vVar, _,
    hshares, _, hcomm, rfl⟩ := hmem
  rw [stateToBytesNative_eq] at hp1 hp hlater
  exact ⟨CoSnarkProver.satisfied_of_mem ha1, CoSnarkProver.satisfied_of_mem hp1,
    ⟨CoSnarkProver.satisfied_of_mem ha, CoSnarkProver.satisfied_of_mem hp, turns_of_mem hlater⟩,
    hshares, hcomm⟩

end TlsPrfCircuit

namespace TlsPrfWires

variable {c : TlsPrfCircuit r} {w : TlsPrfWires Wire (ZMod r)}

/-- The chain holds exactly if the assignment is honest. -/
theorem chained_iff (hsat : w.Satisfied c) : w.Chained c .assigned ↔ w.Honest := by
  rw [Chained, Honest, ← hsat.a1.honest_iff]
  refine and_congr_right fun ha1 => ?_
  rw [hsat.a1.outputOn_of_honest ha1, ← hsat.p1.honest_iff]
  refine and_congr_right fun hp1 => ?_
  have hkey : w.p1.outputOn .assigned = c.msKey.toList := by
    rw [hsat.p1.outputOn_of_honest hp1, hsat.p1.outputOn_native, hsat.a1.outputOn_native,
      c.toList_msKey]
  rw [hkey, turnsChained_iff hsat.turns]

theorem firstBlock_of_honest (hsat : w.Satisfied c) (hhonest : w.Honest) :
    w.firstTurn.p.outputOn .assigned = c.keyBlock.take 32 := by
  obtain ⟨ha, hp, -⟩ := hsat.turns
  have hturn : w.firstTurn.Honest := hhonest.2.2 _ List.mem_cons_self
  rw [hp.outputOn_of_honest hturn.2, hp.outputOn_native, ha.outputOn_native, c.take_keyBlock]

theorem packedKMac_of_honest (hsat : w.Satisfied c) (hhonest : w.Honest) :
    w.packedKMac = fromLeBytesModOrder r (c.keyBlock.take 31) := by
  rw [packedKMac_eq, firstBlock_of_honest hsat hhonest, List.take_take, Nat.min_eq_left (by decide)]

end TlsPrfWires

/-! ### Satisfying assignments that exist -/

namespace TlsPrfCircuit

theorem exists_honest_turn (key : Bytes32) (seed a : Bytes) :
    ∃ t ∈ turn (m := Sat (ZMod r)) key seed a, t.Honest := by
  obtain ⟨ha, hha, hhonest⟩ := exists_mem_honest (F := ZMod r) key a
  obtain ⟨hp, hhp, hhonest'⟩ := exists_mem_honest (F := ZMod r) key
    (stateToBytesNative (Sat (ZMod r)) ha.output ++ seed)
  exact ⟨⟨ha, hp⟩, mem_bind.2 ⟨ha, hha, mem_bind.2 ⟨hp, hhp, rfl⟩⟩, hhonest, hhonest'⟩

theorem exists_honest_turns (key : Bytes32) (seed : Bytes) (n : ℕ) (a : Bytes) :
    ∃ ts ∈ turns (m := Sat (ZMod r)) key seed n a, ∀ t ∈ ts, t.Honest := by
  induction n generalizing a with
  | zero => exact ⟨[], rfl, by simp⟩
  | succ n ih =>
    obtain ⟨t, ht, hhonest⟩ := exists_honest_turn key seed a
    obtain ⟨ts, hts, hrest⟩ := ih (stateToBytesNative (Sat (ZMod r)) t.a.output)
    exact ⟨t :: ts, mem_bind.2 ⟨t, ht, mem_bind.2 ⟨ts, hts, rfl⟩⟩,
      List.forall_mem_cons.2 ⟨hhonest, hrest⟩⟩

variable (c : TlsPrfCircuit r) (padding : Vector Word 8)

def wordsWithPadding : HmacWords :=
  { HmacWords.of c.msKey.toList
      (hmacSha256Native c.msKey.toList c.seedKe ++ c.seedKe) with padding := padding.toList }

/-- **For every padding there is a satisfying assignment**, otherwise honest. -/
theorem exists_mem_withPadding :
    ∃ w ∈ c.generateConstraints (m := Sat (ZMod r)),
      w.a1.Honest ∧ w.p1.Honest ∧ w.firstTurn.a.Honest ∧ (∀ t ∈ w.laterTurns, t.Honest) ∧
        w.firstTurn.p.wordsOn .assigned = c.wordsWithPadding padding := by
  obtain ⟨a1, ha1, hhonest₁⟩ := exists_mem_honest (F := ZMod r) c.pmsBytes c.seedMs
  obtain ⟨p1, hp1, hhonest₂⟩ := exists_mem_honest (F := ZMod r) c.pmsBytes
    (stateToBytesNative (Sat (ZMod r)) a1.output ++ c.seedMs)
  obtain ⟨a, ha, hhonest₃⟩ := exists_mem_honest (F := ZMod r) c.msKey c.seedKe
  obtain ⟨p, hp, hwords⟩ := exists_mem_padding (F := ZMod r) c.msKey
    (stateToBytesNative (Sat (ZMod r)) a.output ++ c.seedKe) padding
  obtain ⟨later, hlater, hhonest₄⟩ := exists_honest_turns (r := r) c.msKey c.seedKe 4
    (stateToBytesNative (Sat (ZMod r)) a.output)
  let kMac : ZMod r := leBitsToFp (Sat (ZMod r)) (kMacBits p.output)
  have hbytes : stateToBytesNative (Sat (ZMod r)) a.output =
      hmacSha256Native c.msKey.toList c.seedKe :=
    (stateToBytesNative_eq _).trans (CoSnarkProver.satisfied_of_mem ha).outputOn_native
  -- the shares and the commitment are assigned what the constraints ask for
  refine ⟨⟨kMac, 0, a1, p1, ⟨a, p⟩, later, kMac, 0⟩, ?_, hhonest₁, hhonest₂, hhonest₃, hhonest₄, ?_⟩
  · simp only [generateConstraints, turn, mem_bind, mem_pure, mem_fpNewInput,
      mem_fpNewWitness, mem_fpEnforceEqual, fpAdd_eq, true_and]
    exact ⟨kMac, 0, a1, ha1, p1, hp1, ⟨a, p⟩, ⟨a, ha, p, hp, rfl⟩, later, hlater, kMac, 0, (),
      (add_zero _).symm, (), by rw [add_zero, add_zero], rfl⟩
  · rw [hwords, hbytes, wordsWithPadding]

theorem exists_mem_honest :
    ∃ w ∈ c.generateConstraints (m := Sat (ZMod r)), w.Honest := by
  obtain ⟨w, hmem, ha1, hp1, ha, hlater, hwords⟩ := c.exists_mem_withPadding paddingWords
  obtain ⟨hsat, hsat', -⟩ := (satisfied_of_mem hmem).turns
  have hp : w.firstTurn.p.Honest := by
    rw [HmacWires.Honest, hwords, hsat'.computes_native, hsat.outputOn_native, wordsWithPadding,
      HmacWords.of_with_paddingWords]
  exact ⟨w, hmem, ha1, hp1, List.forall_mem_cons.2 ⟨⟨ha, hp⟩, hlater⟩⟩

theorem wordsWithPadding_ne :
    ((dummy Bls12377.r).wordsWithPadding (.replicate 8 0)).output.toBytes.take 31 ≠
      (dummy Bls12377.r).keyBlock.take 31 := by
  have htake : (dummy Bls12377.r).keyBlock.take 31 =
      ((dummy Bls12377.r).keyBlock.take 32).take 31 := by
    rw [List.take_take, Nat.min_eq_left (by decide)]
  rw [htake, take_keyBlock]
  decide +kernel

/-! ### What the circuit proves -/

variable (w : TlsPrfWires Wire (ZMod r))

/-- **A satisfying assignment derives its key**, call by call, exactly if it is honest. -/
theorem derives_iff (hmem : w ∈ c.generateConstraints (m := Sat (ZMod r))) :
    (w.Chained c .assigned ∧ w.packedKMac = fromLeBytesModOrder r (c.keyBlock.take 31)) ↔
      w.Honest := by
  have hsat := satisfied_of_mem hmem
  rw [w.chained_iff hsat]
  exact and_iff_left_of_imp (w.packedKMac_of_honest hsat)

theorem derives_dummy : ∃ w ∈ (dummy Bls12377.r).generateConstraints
    (m := Sat (ZMod Bls12377.r)), w.Honest ∧ w.Chained (dummy Bls12377.r) .assigned ∧
      w.packedKMac = fromLeBytesModOrder Bls12377.r ((dummy Bls12377.r).keyBlock.take 31) := by
  obtain ⟨w, hmem, hhonest⟩ := exists_mem_honest (dummy Bls12377.r)
  exact ⟨w, hmem, hhonest, (derives_iff _ w hmem).2 hhonest⟩

/-- **A proof with a key that is not derived**: zeros in place of the padding. -/
theorem exists_other_kMac : ∃ w ∈ (dummy Bls12377.r).generateConstraints
    (m := Sat (ZMod Bls12377.r)), ¬w.Chained (dummy Bls12377.r) .assigned ∧
      w.packedKMac ≠ fromLeBytesModOrder Bls12377.r ((dummy Bls12377.r).keyBlock.take 31) := by
  obtain ⟨w, hmem, -, -, -, -, hwords⟩ :=
    exists_mem_withPadding (dummy Bls12377.r) (.replicate 8 0)
  have hsat := satisfied_of_mem hmem
  obtain ⟨-, hp, -⟩ := hsat.turns
  have hne : w.packedKMac ≠
      fromLeBytesModOrder Bls12377.r ((dummy Bls12377.r).keyBlock.take 31) := by
    rw [w.packedKMac_eq, hp.outputOn, hwords, Ne,
      fromLeBytesModOrder_inj Bls12377.le_r (by simp [keyBlock, length_tlsPrfNative]) (by simp)]
    exact wordsWithPadding_ne
  refine ⟨w, hmem, fun hchained => hne ?_, hne⟩
  exact w.packedKMac_of_honest hsat ((w.chained_iff hsat).1 hchained)

/-! ### The key of the session -/

/-- The master secret of TLS: 48 bytes, where `msKey` stops after 32. -/
def masterSecret : Bytes :=
  tlsPrfNative c.pmsBytes.toList labelMasterSecret (c.clientRandom.toList ++ c.serverRandom.toList)
    48

/-- What the first block of the key expansion hashes under a secret: `A(1)` and the seed. -/
def blockData (secret : Bytes) : Bytes :=
  hmacSha256Native secret c.seedKe ++ c.seedKe

/-- The first block of the key expansion under a secret of any length. -/
def firstBlock (secret : Bytes) : Bytes :=
  hmacSha256Native secret (c.blockData secret)

/-- The two strings that SHA-256 hashes last, for the block of the circuit and for that of TLS. -/
def outerMessages : Set Bytes :=
  {hmacOuter c.msKey.toList (c.blockData c.msKey.toList),
    hmacOuter c.masterSecret (c.blockData c.masterSecret)}

theorem take_masterSecret : c.masterSecret.take 32 = c.msKey.toList := by
  rw [toList_msKey, masterSecret, tlsPrfNative_take _ _ _ (by decide), seedMs, List.append_assoc]

theorem kMac_eq_firstBlock :
    Zk.deriveKMacFromPms c.pmsBytes.toList c.clientRandom.toList c.serverRandom.toList =
      c.firstBlock c.masterSecret := by
  have htake := tlsPrfNative_take c.masterSecret labelKeyExpansion
    (c.serverRandom.toList ++ c.clientRandom.toList) (show 32 ≤ 128 by decide)
  rw [firstBlock, blockData, seedKe, List.append_assoc]
  exact htake

/-- The secrets are one key for HMAC exactly if what the circuit leaves out is zero. -/
theorem hmacKey_msKey_eq_iff :
    hmacKey c.msKey.toList = hmacKey c.masterSecret ↔
      c.masterSecret.drop 32 = List.replicate 16 0 := by
  have hlen : c.masterSecret.length = 48 := length_tlsPrfNative ..
  rw [← take_masterSecret, hmacKey_take_eq_iff (by omega), hlen]

/-- Secrets that are one key for HMAC have one first block. -/
theorem firstBlock_congr {s s' : Bytes} (h : hmacKey s = hmacKey s') :
    c.firstBlock s = c.firstBlock s' := by
  simp only [firstBlock, blockData, hmacSha256Native, hmacSha256, hmacOuter, h]

/-- **The first block is the key of the session** exactly if the last 16 bytes of the master secret
are zero, unless SHA-256 collides on the two strings that it hashes last. -/
theorem firstBlock_eq_kMac_iff (hmem : w ∈ c.generateConstraints (m := Sat (ZMod r)))
    (hhonest : w.Honest) (hhash : NoCollision c.outerMessages) :
    w.firstTurn.p.outputOn .assigned =
        Zk.deriveKMacFromPms c.pmsBytes.toList c.clientRandom.toList c.serverRandom.toList ↔
      c.masterSecret.drop 32 = List.replicate 16 0 := by
  rw [w.firstBlock_of_honest (satisfied_of_mem hmem) hhonest, kMac_eq_firstBlock, take_keyBlock,
    ← hmacKey_msKey_eq_iff]
  refine ⟨fun heq => ?_, c.firstBlock_congr⟩
  exact hmacKey_eq_of_hmacOuter_eq
    (hhash.eq (congrArg DigestBytes.fromBytes (Vector.toList_inj.1 heq)))

theorem firstBlock_dummy_ne : (dummy Bls12377.r).firstBlock (dummy Bls12377.r).msKey.toList ≠
    (dummy Bls12377.r).firstBlock (dummy Bls12377.r).masterSecret := by
  decide +kernel

theorem firstBlock_eq_kMac_iff_dummy : NoCollision (dummy Bls12377.r).outerMessages ∧
    ∃ w ∈ (dummy Bls12377.r).generateConstraints (m := Sat (ZMod Bls12377.r)), w.Honest ∧
      (w.firstTurn.p.outputOn .assigned = Zk.deriveKMacFromPms
          (dummy Bls12377.r).pmsBytes.toList (dummy Bls12377.r).clientRandom.toList
          (dummy Bls12377.r).serverRandom.toList ↔
        (dummy Bls12377.r).masterSecret.drop 32 = List.replicate 16 0) := by
  have hhash : NoCollision (dummy Bls12377.r).outerMessages :=
    .of_ne fun heq => firstBlock_dummy_ne (congrArg (Vector.toList ∘ DigestBytes.asBytes) heq)
  obtain ⟨w, hmem, hhonest⟩ := exists_mem_honest (dummy Bls12377.r)
  exact ⟨hhash, w, hmem, hhonest, firstBlock_eq_kMac_iff _ w hmem hhonest hhash⟩

/-- In the session of the setup, it is not. -/
theorem exists_firstBlock_ne_kMac : ∃ w ∈ (dummy Bls12377.r).generateConstraints
    (m := Sat (ZMod Bls12377.r)), w.Honest ∧ w.firstTurn.p.outputOn .assigned ≠ Zk.deriveKMacFromPms
        (dummy Bls12377.r).pmsBytes.toList (dummy Bls12377.r).clientRandom.toList
        (dummy Bls12377.r).serverRandom.toList := by
  obtain ⟨w, hmem, hhonest⟩ := exists_mem_honest (dummy Bls12377.r)
  refine ⟨w, hmem, hhonest, fun heq => firstBlock_dummy_ne ?_⟩
  rw [w.firstBlock_of_honest (satisfied_of_mem hmem) hhonest, take_keyBlock] at heq
  exact heq.trans (kMac_eq_firstBlock _)

end TlsPrfCircuit

end TlsAttestation.CoSnarkProver
