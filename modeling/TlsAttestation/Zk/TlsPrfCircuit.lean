import TlsAttestation.Lib.ArkField
import TlsAttestation.Zk.HmacSha256Gadget

/-!
# The circuit of the handshake proof

The witnesses are the two shares of `K_MAC`; in the second mode also the pre-master secret and the
random values of the handshake.

| public input | enforced to be |
|---|---|
| `k_mac_commitment` | the packed exclusive or of the shares, plus `rand_binding` |
| | (second mode) the packed derived key, plus `rand_binding` |
| `pms_hash` | (second mode) the packed digest of the pre-master secret |

Packing keeps 254 of the 256 bits of a key (`Zk.TlsPrfCircuit.sharesMatch_iff`). The two derivations
allocate the random values **each for itself** (`Zk.TlsPrfCircuit.singleSession_iff`).
-/

namespace TlsAttestation.Zk

open Ark ByteEncoding Sha2
open List hiding Vector

open Ark.Bn254 (Fr r)

/-! ### Packing -/

/-- 32 bytes as a field element, without the last two bits. -/
def bytes32ToFr (bytes : Bytes32) : Fr :=
  fromLeBytesModOrder r (bytes.set 31 (bytes[31] &&& 0x3F)).toList

def kMacCommitment (kMac : Bytes32) (randBindingFe : Fr) : Fr :=
  bytes32ToFr kMac + randBindingFe

def pmsHash (pms : Bytes) : Fr := bytes32ToFr (Sha2.sha256 pms)

/-- The key is shared by exclusive or. -/
def xorShares (p v : Bytes32) : Bytes32 := zipBytes (· ^^^ ·) p v

theorem xorShares_zero (key : Bytes32) : xorShares key (.replicate 32 0) = key := by
  refine Vector.ext fun i hi => ?_
  rw [xorShares, Vector.getElem_zipWith, Vector.getElem_replicate, UInt8.xor_zero]

/-- The first 254 bits as a field element: the last two bits of 32 bytes are dropped. -/
def packBytesToFpvar (m : Type → Type) {Bit Fp : Type} [Gadgets m Fr Bit Fp]
    (bytes : List (UInt8Var Bit)) : Fp :=
  leBitsToFp m ((bytes.flatMap Vector.toList).take 254)

def packed (n : ℕ) : Fr := ((n % 2 ^ 254 : ℕ) : Fr)

theorem ofLeBytes_append_singleton (bs : Bytes) (b : UInt8) :
    ofLeBytes (bs ++ [b]) = ofLeBytes bs + 256 ^ bs.length * b.toNat := by
  induction bs with
  | nil => simp [ofLeBytes]
  | cons c bs ih =>
    rw [cons_append, ofLeBytes, ofLeBytes, ih, length_cons, Nat.pow_succ']
    ring

/-- **The native packing** is the packing of the integer. -/
theorem bytes32ToFr_eq (bytes : Bytes32) :
    bytes32ToFr bytes = packed (ofLeBytes bytes.toList) := by
  obtain ⟨front, b, rfl⟩ : ∃ (front : Vector UInt8 31) (b : UInt8), bytes = front.push b :=
    ⟨bytes.pop, bytes.back, (Vector.push_pop_back bytes).symm⟩
  have hset : (front.push b).set 31 ((front.push b)[31] &&& 0x3F) = front.push (b &&& 0x3F) := by
    refine Vector.ext fun i hi => ?_
    by_cases hlast : i < 31
    · simp [hlast, hlast.ne']
    · simp [show i = 31 by omega]
  have hmask : (b &&& 0x3F).toNat = b.toNat % 64 := by
    rw [UInt8.toNat_and]
    exact Nat.and_two_pow_sub_one_eq_mod b.toNat 6
  have hfront : ofLeBytes front.toList < 256 ^ 31 := by
    have hlt := ofLeBytes_lt front.toList
    rwa [Vector.length_toList] at hlt
  have hpow : (2 : ℕ) ^ 254 = 256 ^ 31 * 64 := by norm_num
  rw [bytes32ToFr, hset, fromLeBytesModOrder, packed, Vector.toList_push, Vector.toList_push,
    ofLeBytes_append_singleton, ofLeBytes_append_singleton, Vector.length_toList, hmask, hpow,
    Nat.mod_mul, Nat.add_mul_mod_self_left, Nat.mod_eq_of_lt hfront,
    Nat.add_mul_div_left _ _ (by norm_num), Nat.div_eq_of_lt hfront, Nat.zero_add]

/-- **The packing** is that of the assigned integer. -/
theorem packBytesToFpvar_eq (xs : List (UInt8Var Wire)) :
    packBytesToFpvar (Sat Fr) xs = packed (ofLeBytes (bytesOn .assigned xs)) := by
  rw [packBytesToFpvar, leBitsToFp_eq, map_take, map_on_flatMap_toList, ofLeBits_take,
    ofLeBits_flatMap_bits, packed]

/-! ### The circuit -/

/-- The second mode is the one with a premaster secret. -/
structure TlsPrfCircuit where
  (kMacCommitmentFe randBindingFe : Fr)
  pmsHashFe : Option Fr
  (kMacProverShare kMacVerifierShare : Bytes32)
  preMasterSecret : Option Bytes
  (clientRandom serverRandom : Option Bytes32)

structure PrfWires (Bit Fp : Type) where
  expectedPmsHash : Fp
  pmsVars : List (UInt8Var Bit)
  masterSecret : Derivation Bit
  keyBlock : Derivation Bit

structure TlsPrfWires (Bit Fp : Type) where
  expectedCommitment : Fp
  randBinding : Fp
  pVars : List (UInt8Var Bit)
  vVars : List (UInt8Var Bit)
  prf : Option (PrfWires Bit Fp)

namespace TlsPrfCircuit

variable (kMacProverShare kMacVerifierShare randBinding : Bytes32)

def new : TlsPrfCircuit where
  kMacCommitmentFe :=
    kMacCommitment (xorShares kMacProverShare kMacVerifierShare) (bytes32ToFr randBinding)
  randBindingFe := bytes32ToFr randBinding
  pmsHashFe := none
  kMacProverShare := kMacProverShare
  kMacVerifierShare := kMacVerifierShare
  preMasterSecret := none
  clientRandom := none
  serverRandom := none

def withTlsPrf (preMasterSecret : Bytes) (clientRandom serverRandom : Bytes32) : TlsPrfCircuit where
  kMacCommitmentFe :=
    kMacCommitment (xorShares kMacProverShare kMacVerifierShare) (bytes32ToFr randBinding)
  randBindingFe := bytes32ToFr randBinding
  pmsHashFe := some (pmsHash preMasterSecret)
  kMacProverShare := kMacProverShare
  kMacVerifierShare := kMacVerifierShare
  preMasterSecret := some preMasterSecret
  clientRandom := some clientRandom
  serverRandom := some serverRandom

def dummy : TlsPrfCircuit := new (.replicate 32 1) (.replicate 32 2) (.replicate 32 0)

def dummyFullPrf : TlsPrfCircuit :=
  withTlsPrf (.replicate 32 1) (.replicate 32 2) (.replicate 32 0) (List.replicate 48 0)
    (.replicate 32 0) (.replicate 32 0)

section

variable {m : Type → Type} {Bit Fp : Type} [Monad m] [Gadgets m Fr Bit Fp] (c : TlsPrfCircuit)

def prfInputs : Option (Bytes × Bytes32 × Bytes32 × Fr) := do
  return (← c.preMasterSecret, ← c.clientRandom, ← c.serverRandom, ← c.pmsHashFe)

def generatePrfConstraints (expectedCommitment randBinding : Fp) (pms : Bytes)
    (cr sr : Bytes32) (pmsHashFe : Fr) : m (PrfWires Bit Fp) := do
  let expectedPmsHash ← Gadgets.fpNewInput pmsHashFe
  let pmsVars ← newWitnessBytes pms
  -- the digest of the pre-master secret
  let pmsHashByteVars ← sha256FromByteVars pmsVars
  Gadgets.fpEnforceEqual (packBytesToFpvar m pmsHashByteVars) expectedPmsHash
  -- the derivation of the key
  let masterSecret ← tls12MasterSecretConstrained pmsVars cr sr
  let keyBlock ← tls12KeyExpansionConstrained masterSecret.output cr sr
  let packedDerived := packBytesToFpvar m (keyBlock.output.take 32)
  Gadgets.fpEnforceEqual (Gadgets.fpAdd (m := m) packedDerived randBinding) expectedCommitment
  return ⟨expectedPmsHash, pmsVars, masterSecret, keyBlock⟩

/-- The exclusive or of the shares is committed to; in the second mode, so is the key derived from
the premaster secret. -/
def generateConstraints : m (TlsPrfWires Bit Fp) := do
  let expectedCommitment ← Gadgets.fpNewInput c.kMacCommitmentFe
  let randBinding ← Gadgets.fpNewInput c.randBindingFe
  let pVars ← newWitnessBytes c.kMacProverShare.toList
  let vVars ← newWitnessBytes c.kMacVerifierShare.toList
  let xorVars ← (pVars.zip vVars).mapM fun pv => xorBits pv.1 pv.2
  let packedKMac := packBytesToFpvar m xorVars
  Gadgets.fpEnforceEqual (Gadgets.fpAdd (m := m) packedKMac randBinding) expectedCommitment
  match c.prfInputs with
  | some (pms, cr, sr, pmsHashFe) => do
    let prf ← generatePrfConstraints expectedCommitment randBinding pms cr sr pmsHashFe
    return ⟨expectedCommitment, randBinding, pVars, vVars, some prf⟩
  | none => return ⟨expectedCommitment, randBinding, pVars, vVars, none⟩

end

end TlsPrfCircuit

/-! ### Satisfying assignments -/

def TlsPrfWires.kMac (w : TlsPrfWires Wire Fr) : Bytes :=
  List.zipWith (· ^^^ ·) (bytesOn .assigned w.pVars) (bytesOn .assigned w.vVars)

structure PrfValues where
  (pms masterSecretCr masterSecretSr keyBlockCr keyBlockSr : Bytes)

namespace PrfValues

variable (v : PrfValues)

def masterSecret : Bytes :=
  tlsPrfSha256 v.pms labelMasterSecret (v.masterSecretCr ++ v.masterSecretSr) 48

def keyBlock : Bytes :=
  tlsPrfSha256 v.masterSecret labelKeyExpansion (v.keyBlockSr ++ v.keyBlockCr) 96

def lengths : ℕ × ℕ × ℕ × ℕ × ℕ :=
  (v.pms.length, v.masterSecretCr.length, v.masterSecretSr.length, v.keyBlockCr.length,
    v.keyBlockSr.length)

def ofSession (pms cr sr : Bytes) : PrfValues := ⟨pms, cr, sr, cr, sr⟩

theorem length_take_keyBlock : (v.keyBlock.take 32).length = 32 := by
  rw [length_take, keyBlock, length_tlsPrfSha256]
  rfl

def kMac : Bytes32 :=
  ⟨(v.keyBlock.take 32).toArray, by rw [List.size_toArray, length_take_keyBlock]⟩

theorem toList_kMac : v.kMac.toList = v.keyBlock.take 32 := rfl

/-- **Within one session**, the key is that of TLS. -/
theorem take_keyBlock_ofSession (pms cr sr : Bytes) :
    (ofSession pms cr sr).keyBlock.take 32 = deriveKMacFromPms pms cr sr :=
  take_tlsPrfSha256 _ _ _ (by decide) (by decide)

end PrfValues

open PrfValues

namespace PrfWires

def derivedKMac (prf : PrfWires Wire Fr) : Bytes := (bytesOn .assigned prf.keyBlock.output).take 32

def values (side : Side) (prf : PrfWires Wire Fr) : PrfValues where
  pms := bytesOn side prf.pmsVars
  masterSecretCr := bytesOn side prf.masterSecret.crVars
  masterSecretSr := bytesOn side prf.masterSecret.srVars
  keyBlockCr := bytesOn side prf.keyBlock.crVars
  keyBlockSr := bytesOn side prf.keyBlock.srVars

end PrfWires

theorem determined_xorVars (pVars vVars : List (UInt8Var Wire)) :
    Determined ((pVars.zip vVars).mapM fun pv => (xorBits pv.1 pv.2 : Sat Fr _)) fun zs =>
      ∀ side, bytesOn side zs =
        List.zipWith (· ^^^ ·) (bytesOn side pVars) (bytesOn side vVars) := by
  refine (Determined.mapM (fun pv : UInt8Var Wire × UInt8Var Wire =>
    determined_xorByte pv.1 pv.2) _).mono fun zs hzs side => ?_
  rw [bytesOn, map_eq_map_of_forall₂ (hzs.imp fun _ _ h => h side), zipWith_map,
    zip_eq_zipWith, map_zipWith]

namespace TlsPrfCircuit

/-- What the second mode enforces. -/
structure PrfSatisfied (expectedCommitment randBinding : Fr) (pms : Bytes)
    (cr sr : Bytes32) (prf : PrfWires Wire Fr) : Prop where
  pmsVars : bytesOn .native prf.pmsVars = pms
  pmsHash : packed (ofLeBytes (Sha2.sha256 (bytesOn .assigned prf.pmsVars)).toList) =
    prf.expectedPmsHash
  masterSecret : prf.masterSecret ∈ tls12MasterSecretConstrained (m := Sat Fr) prf.pmsVars cr sr
  keyBlock : prf.keyBlock ∈ tls12KeyExpansionConstrained (m := Sat Fr) prf.masterSecret.output cr sr
  commitment : packed (ofLeBytes prf.derivedKMac) + randBinding = expectedCommitment

theorem mem_generatePrfConstraints {expectedCommitment randBinding pmsHashFe : Fr} {pms : Bytes}
    {cr sr : Bytes32} {prf : PrfWires Wire Fr} :
    prf ∈ generatePrfConstraints (m := Sat Fr) expectedCommitment randBinding pms cr sr pmsHashFe ↔
      PrfSatisfied expectedCommitment randBinding pms cr sr prf := by
  simp only [generatePrfConstraints, Sat.mem_bind, Sat.mem_pure, mem_fpNewInput,
    mem_newWitnessBytes, mem_fpEnforceEqual, fpAdd_eq, packBytesToFpvar_eq, true_and]
  have hhash := determined_sha256FromByteVars (F := Fr)
  constructor
  · rintro ⟨h, pmsVars, hpms, hash, hhash', -, hpack, ms, hms, kb, hkb, -, hcomm, rfl⟩
    rw [bytesOn, (hhash pmsVars).of_mem hhash'] at hpack
    rw [bytesOn, map_take] at hcomm
    exact ⟨hpms, hpack, hms, hkb, hcomm⟩
  · rintro ⟨hpms, hpack, hms, hkb, hcomm⟩
    obtain ⟨hash, hmem⟩ := (hhash prf.pmsVars).exists_mem
    refine ⟨prf.expectedPmsHash, prf.pmsVars, hpms, hash, hmem, (), ?_, prf.masterSecret, hms,
      prf.keyBlock, hkb, (), ?_, rfl⟩
    · rwa [bytesOn, (hhash prf.pmsVars).of_mem hmem]
    · rwa [bytesOn, map_take]

/-- What the circuit enforces. -/
theorem mem_generateConstraints {c : TlsPrfCircuit} {w : TlsPrfWires Wire Fr} :
    w ∈ c.generateConstraints (m := Sat Fr) ↔ bytesOn .native w.pVars = c.kMacProverShare.toList ∧
        bytesOn .native w.vVars = c.kMacVerifierShare.toList ∧
        packed (ofLeBytes w.kMac) + w.randBinding = w.expectedCommitment ∧
        match c.prfInputs with
        | some (pms, cr, sr, _) =>
          ∃ prf, w.prf = some prf ∧ PrfSatisfied w.expectedCommitment w.randBinding pms cr sr prf
        | none => w.prf = none := by
  simp only [generateConstraints, Sat.mem_bind, mem_fpNewInput, mem_newWitnessBytes,
    mem_fpEnforceEqual, fpAdd_eq, packBytesToFpvar_eq, true_and]
  constructor
  · rintro ⟨cmt, rb, pVars, hp, vVars, hv, zs, hzs, -, hcomm, hw⟩
    rw [(determined_xorVars pVars vVars).of_mem hzs] at hcomm
    cases hins : c.prfInputs with
    | none =>
      rw [hins] at hw
      obtain rfl := Sat.mem_pure.1 hw
      exact ⟨hp, hv, hcomm, rfl⟩
    | some inputs =>
      rw [hins] at hw
      obtain ⟨prf, hprf, rfl⟩ := hw
      exact ⟨hp, hv, hcomm, prf, rfl, mem_generatePrfConstraints.1 hprf⟩
  · obtain ⟨cmt, rb, pVars, vVars, prf'⟩ := w
    rintro ⟨hp, hv, hcomm, hprf⟩
    obtain ⟨zs, hzs⟩ := (determined_xorVars pVars vVars).exists_mem
    refine ⟨cmt, rb, pVars, hp, vVars, hv, zs, hzs, (), ?_, ?_⟩
    · rwa [(determined_xorVars pVars vVars).of_mem hzs]
    · cases hins : c.prfInputs with
      | none =>
        rw [hins] at hprf
        obtain rfl : prf' = none := hprf
        exact Sat.mem_pure.2 rfl
      | some inputs =>
        rw [hins] at hprf
        obtain ⟨prf, hsome, hsat⟩ := hprf
        obtain rfl : prf' = some prf := hsome
        exact ⟨prf, mem_generatePrfConstraints.2 hsat, rfl⟩

/-! ### An assignment of the second mode -/

def prfWires (values : Side → PrfValues) : PrfWires Wire Fr where
  expectedPmsHash := packed (ofLeBytes (Sha2.sha256 (values .assigned).pms).toList)
  pmsVars := byteWires fun side => (values side).pms
  masterSecret := ⟨byteWires fun side => (values side).masterSecretCr,
    byteWires fun side => (values side).masterSecretSr,
    byteWires fun side => (values side).masterSecret⟩
  keyBlock := ⟨byteWires fun side => (values side).keyBlockCr,
    byteWires fun side => (values side).keyBlockSr,
    byteWires fun side => (values side).keyBlock⟩

def shareWires (native assigned : Bytes32) : List (UInt8Var Wire) :=
  byteWires fun side =>
    match side with
    | .native => native.toList
    | .assigned => assigned.toList

def assignment (c : TlsPrfCircuit) (p v : Bytes32) (values : Side → PrfValues) (rand : Fr) :
    TlsPrfWires Wire Fr where
  expectedCommitment := bytes32ToFr (xorShares p v) + rand
  randBinding := rand
  pVars := shareWires c.kMacProverShare p
  vVars := shareWires c.kMacVerifierShare v
  prf := some (prfWires values)

section

variable {values : Side → PrfValues}

def SameLengths (values : Side → PrfValues) : Prop :=
  (values .native).lengths = (values .assigned).lengths

theorem values_prfWires (h : SameLengths values) (side : Side) :
    (prfWires values).values side = values side := by
  obtain ⟨hpms, hcr, hsr, hcr', hsr'⟩ : _ ∧ _ ∧ _ ∧ _ ∧ _ := by
    simpa only [SameLengths, lengths, Prod.mk.injEq] using h
  rw [PrfWires.values, prfWires, bytesOn_byteWires hpms, bytesOn_byteWires hcr,
    bytesOn_byteWires hsr, bytesOn_byteWires hcr', bytesOn_byteWires hsr']

theorem bytesOn_masterSecret_prfWires (side : Side) :
    bytesOn side (prfWires values).masterSecret.output = (values side).masterSecret := by
  refine bytesOn_byteWires (w := fun side => (values side).masterSecret) ?_ side
  rw [masterSecret, masterSecret, length_tlsPrfSha256, length_tlsPrfSha256]

theorem bytesOn_keyBlock_prfWires (side : Side) :
    bytesOn side (prfWires values).keyBlock.output = (values side).keyBlock := by
  refine bytesOn_byteWires (w := fun side => (values side).keyBlock) ?_ side
  rw [keyBlock, keyBlock, length_tlsPrfSha256, length_tlsPrfSha256]

variable (native assigned : Bytes32)

theorem bytesOn_native_shareWires :
    bytesOn .native (shareWires native assigned) = native.toList :=
  bytesOn_byteWires (by simp) .native

theorem bytesOn_assigned_shareWires :
    bytesOn .assigned (shareWires native assigned) = assigned.toList :=
  bytesOn_byteWires (by simp) .assigned

/-- **Any free values can be assigned**, if the packed keys agree. -/
theorem assignment_mem {c : TlsPrfCircuit} {pms : Bytes} {cr sr : Bytes32} {pmsHashFe : Fr}
    (hins : c.prfInputs = some (pms, cr, sr, pmsHashFe)) (hlen : pms.length ≤ 64)
    (hnat : values .native = .ofSession pms cr.toList sr.toList) (hsame : SameLengths values)
    {p v : Bytes32}
    (hpack : bytes32ToFr (xorShares p v) = bytes32ToFr (values .assigned).kMac)
    (rand : Fr) : c.assignment p v values rand ∈ c.generateConstraints (m := Sat Fr) := by
  have hvals := values_prfWires hsame
  have hpmsLen : (prfWires values).pmsVars.length ≤ 64 := by
    have h := congrArg (fun u => u.pms.length) ((hvals .native).trans hnat)
    rw [← length_map (byteOn .native)]
    exact h.le.trans hlen
  have hmsLen : (prfWires values).masterSecret.output.length ≤ 64 := by
    rw [← length_map (byteOn .native), ← bytesOn, bytesOn_masterSecret_prfWires,
      masterSecret, length_tlsPrfSha256]
    decide
  refine mem_generateConstraints.2 ⟨?_, ?_, ?_, ?_⟩
  · exact bytesOn_native_shareWires _ p
  · exact bytesOn_native_shareWires _ v
  · rw [TlsPrfWires.kMac, assignment, bytesOn_assigned_shareWires, bytesOn_assigned_shareWires,
      ← Vector.toList_zipWith, ← bytes32ToFr_eq]
    rfl
  · rw [hins]
    refine ⟨_, rfl, ?_, ?_, ?_, ?_, ?_⟩
    · exact congrArg PrfValues.pms ((hvals .native).trans hnat)
    · exact congrArg (fun u => packed (ofLeBytes (Sha2.sha256 u.pms).toList)) (hvals .assigned)
    · refine mem_tls12MasterSecretConstrained.2 ⟨?_, ?_, hpmsLen, fun side => ?_⟩
      · exact congrArg masterSecretCr ((hvals .native).trans hnat)
      · exact congrArg masterSecretSr ((hvals .native).trans hnat)
      · rw [bytesOn_masterSecret_prfWires, ← hvals side]
        rfl
    · refine mem_tls12KeyExpansionConstrained.2 ⟨?_, ?_, hmsLen, fun side => ?_⟩
      · exact congrArg keyBlockCr ((hvals .native).trans hnat)
      · exact congrArg keyBlockSr ((hvals .native).trans hnat)
      · rw [bytesOn_keyBlock_prfWires, bytesOn_masterSecret_prfWires, ← hvals side]
        rfl
    · change packed (ofLeBytes (prfWires values).derivedKMac) + rand = _
      rw [PrfWires.derivedKMac, bytesOn_keyBlock_prfWires, ← toList_kMac, ← bytes32ToFr_eq, ← hpack]
      rfl

theorem derivedKMac_prfWires (values : Side → PrfValues) :
    (prfWires values).derivedKMac = (values .assigned).kMac.toList := by
  rw [PrfWires.derivedKMac, bytesOn_keyBlock_prfWires, toList_kMac]

end

def dummySession : PrfValues :=
  .ofSession (List.replicate 48 0) (Vector.replicate 32 0).toList (Vector.replicate 32 0).toList

/-- What the program computes, next to what the prover assigns. -/
def onSides (native assigned : PrfValues) : Side → PrfValues
  | .native => native
  | .assigned => assigned

def dummyValues (assigned : PrfValues) : Side → PrfValues := onSides dummySession assigned

theorem sameLengths_dummyValues {assigned : PrfValues}
    (h : dummySession.lengths = assigned.lengths) : SameLengths (dummyValues assigned) := h

theorem values_dummyValues {u : PrfValues} (h : dummySession.lengths = u.lengths) :
    (prfWires (dummyValues u)).values .assigned = u :=
  values_prfWires (sameLengths_dummyValues h) .assigned

def dummyAssignment (key : Bytes32) (assigned : PrfValues) : TlsPrfWires Wire Fr :=
  dummyFullPrf.assignment key (.replicate 32 0) (dummyValues assigned) 0

theorem kMac_dummyAssignment (key : Bytes32) (assigned : PrfValues) :
    (dummyAssignment key assigned).kMac = key.toList := by
  rw [TlsPrfWires.kMac, dummyAssignment, assignment, bytesOn_assigned_shareWires,
    bytesOn_assigned_shareWires, ← Vector.toList_zipWith]
  exact congrArg Vector.toList (xorShares_zero key)

theorem dummyAssignment_mem {key : Bytes32} {assigned : PrfValues}
    (hlengths : dummySession.lengths = assigned.lengths)
    (hpack : bytes32ToFr key = bytes32ToFr assigned.kMac) :
    dummyAssignment key assigned ∈ dummyFullPrf.generateConstraints (m := Sat Fr) := by
  have hins : dummyFullPrf.prfInputs = some (List.replicate 48 0, .replicate 32 0,
      .replicate 32 0, pmsHash (List.replicate 48 0)) := rfl
  refine assignment_mem hins (by decide) rfl (sameLengths_dummyValues hlengths) ?_ 0
  rw [xorShares_zero, hpack]
  rfl

/-! ### The shares and the derived key -/

section

variable {c : TlsPrfCircuit} {w : TlsPrfWires Wire Fr} {prf : PrfWires Wire Fr}

theorem PrfSatisfied.keyBlock_eq {cmt rb : Fr} {pms : Bytes} {cr sr : Bytes32}
    (h : PrfSatisfied cmt rb pms cr sr prf) (side : Side) :
    bytesOn side prf.keyBlock.output = (prf.values side).keyBlock := by
  obtain ⟨-, -, -, hms⟩ := mem_tls12MasterSecretConstrained.1 h.masterSecret
  obtain ⟨-, -, -, hkb⟩ := mem_tls12KeyExpansionConstrained.1 h.keyBlock
  rw [hkb, hms]
  rfl

section

variable (hw : w ∈ c.generateConstraints (m := Sat Fr))

include hw

theorem prfSatisfied_of_mem (hprf : w.prf = some prf) : ∃ pms cr sr,
      PrfSatisfied w.expectedCommitment w.randBinding pms cr sr prf := by
  obtain ⟨-, -, -, h⟩ := mem_generateConstraints.1 hw
  cases hins : c.prfInputs with
  | none =>
    rw [hins] at h
    exact nomatch hprf.symm.trans h
  | some inputs =>
    rw [hins] at h
    obtain ⟨prf', hsome, hsat⟩ := h
    obtain rfl : prf = prf' := Option.some.inj (hprf.symm.trans hsome)
    exact ⟨_, _, _, hsat⟩

theorem derivedKMac_eq (hprf : w.prf = some prf) :
    prf.derivedKMac = (prf.values .assigned).keyBlock.take 32 := by
  obtain ⟨_, _, _, hsat⟩ := prfSatisfied_of_mem hw hprf
  rw [PrfWires.derivedKMac, hsat.keyBlock_eq]

theorem length_derivedKMac (hprf : w.prf = some prf) : prf.derivedKMac.length = 32 := by
  rw [derivedKMac_eq hw hprf, length_take_keyBlock]

theorem length_kMac : w.kMac.length = 32 := by
  obtain ⟨hp, hv, -⟩ := mem_generateConstraints.1 hw
  have hp' := congrArg List.length hp
  have hv' := congrArg List.length hv
  rw [length_map, Vector.length_toList] at hp' hv'
  rw [TlsPrfWires.kMac, length_zipWith, length_map, length_map, hp', hv']
  rfl

theorem packed_kMac_eq (hprf : w.prf = some prf) :
    packed (ofLeBytes w.kMac) = packed (ofLeBytes prf.derivedKMac) := by
  obtain ⟨_, _, _, hsat⟩ := prfSatisfied_of_mem hw hprf
  obtain ⟨-, -, hcomm, -⟩ := mem_generateConstraints.1 hw
  exact add_right_cancel (hcomm.trans hsat.commitment.symm)

end

/-- The bits above the 254th, and how often the order was taken off. -/
def lost (n : ℕ) : ℕ × ℕ := (n / 2 ^ 254, n % 2 ^ 254 / r)

theorem eq_iff_lost_eq {x y : ℕ} (h : packed x = packed y) : x = y ↔ lost x = lost y := by
  refine ⟨fun heq => congrArg lost heq, fun hlost => ?_⟩
  obtain ⟨hhigh, hquot⟩ := Prod.mk.injEq .. |>.mp hlost
  have hmod := (ZMod.natCast_eq_natCast_iff' _ _ r).1 h
  have hlow : x % 2 ^ 254 = y % 2 ^ 254 := by
    rw [← Nat.div_add_mod (x % 2 ^ 254) r, hquot, hmod, Nat.div_add_mod]
  rw [← Nat.div_add_mod x (2 ^ 254), hhigh, hlow, Nat.div_add_mod]

/-- **The shares combine to the derived key** exactly if packing loses the same of both. -/
theorem sharesMatch_iff (hw : w ∈ c.generateConstraints (m := Sat Fr)) (hprf : w.prf = some prf) :
    w.kMac = prf.derivedKMac ↔ lost (ofLeBytes w.kMac) =
      lost (ofLeBytes ((prf.values .assigned).keyBlock.take 32)) := by
  have hlen : w.kMac.length = prf.derivedKMac.length := by
    rw [length_kMac hw, length_derivedKMac hw hprf]
  rw [← derivedKMac_eq hw hprf, ← eq_iff_lost_eq (packed_kMac_eq hw hprf), ofLeBytes_inj hlen]

theorem sharesMatch_dummySession :
    (dummyAssignment dummySession.kMac dummySession).kMac =
      (prfWires (dummyValues dummySession)).derivedKMac := by
  refine (sharesMatch_iff (dummyAssignment_mem rfl rfl) rfl).2 ?_
  rw [kMac_dummyAssignment, toList_kMac, values_dummyValues rfl]

variable (key : Bytes32)

/-- The other key with the same packing. -/
def flipLastBit : Bytes32 := key.set 31 (key[31] ^^^ 0x80)

theorem bytes32ToFr_flipLastBit :
    bytes32ToFr (flipLastBit key) = bytes32ToFr key := by
  have hmask (b : UInt8) : (b ^^^ 0x80) &&& 0x3F = b &&& 0x3F := by
    rw [← UInt8.toNat_inj, UInt8.toNat_and, UInt8.toNat_xor, UInt8.toNat_and,
      Nat.and_xor_distrib_right]
    exact Nat.xor_zero _
  rw [bytes32ToFr, bytes32ToFr, flipLastBit, Vector.getElem_set_self, Vector.set_set, hmask]

theorem flipLastBit_ne : flipLastBit key ≠ key := by
  intro heq
  have hlast : key[31] ^^^ (0x80 : UInt8) = key[31] ^^^ 0 := by
    rw [UInt8.xor_zero]
    exact (Vector.getElem_set_self (by decide)).symm.trans (congrArg (fun k => k[31]) heq)
  exact absurd ((UInt8.xor_right_inj _).1 hlast) (by decide)

/-- **The shares need not combine to the derived key**, but for its last bit. -/
theorem exists_sharesMismatch : ∃ (c : TlsPrfCircuit) (w : TlsPrfWires Wire Fr)
    (prf : PrfWires Wire Fr), w ∈ c.generateConstraints (m := Sat Fr) ∧ w.prf = some prf ∧
      w.kMac ≠ prf.derivedKMac := by
  refine ⟨dummyFullPrf, dummyAssignment (flipLastBit dummySession.kMac) dummySession, _,
    dummyAssignment_mem rfl (bytes32ToFr_flipLastBit _), rfl, fun heq => ?_⟩
  rw [kMac_dummyAssignment, derivedKMac_prfWires] at heq
  exact flipLastBit_ne _ (Vector.toList_inj.1 heq)

/-- One pair of nonces is used throughout, and the derived key is that session's. -/
def SingleSession (prf : PrfWires Wire Fr) : Prop :=
  ∃ cr sr, prf.values .assigned = .ofSession (bytesOn .assigned prf.pmsVars) cr sr ∧
    prf.derivedKMac = deriveKMacFromPms (bytesOn .assigned prf.pmsVars) cr sr

/-- **The derivations are of one session** exactly if both copies of the random values are the same.
-/
theorem singleSession_iff (hw : w ∈ c.generateConstraints (m := Sat Fr)) (hprf : w.prf = some prf) :
    SingleSession prf ↔
      bytesOn .assigned prf.masterSecret.crVars = bytesOn .assigned prf.keyBlock.crVars ∧
        bytesOn .assigned prf.masterSecret.srVars = bytesOn .assigned prf.keyBlock.srVars := by
  constructor
  · rintro ⟨cr, sr, hvals, -⟩
    obtain ⟨-, hcr, hsr, hcr', hsr'⟩ := PrfValues.mk.injEq .. |>.mp hvals
    exact ⟨hcr.trans hcr'.symm, hsr.trans hsr'.symm⟩
  · rintro ⟨hcr, hsr⟩
    have hvals : prf.values .assigned = .ofSession (bytesOn .assigned prf.pmsVars)
        (bytesOn .assigned prf.masterSecret.crVars)
        (bytesOn .assigned prf.masterSecret.srVars) := by
      rw [PrfWires.values, ofSession, hcr, hsr]
    refine ⟨_, _, hvals, ?_⟩
    rw [derivedKMac_eq hw hprf, hvals, take_keyBlock_ofSession]

end

theorem singleSession_dummySession : SingleSession (prfWires (dummyValues dummySession)) := by
  have hmem : dummyAssignment dummySession.kMac dummySession ∈ _ := dummyAssignment_mem rfl rfl
  have hvals := values_dummyValues (u := dummySession) rfl
  refine (singleSession_iff hmem rfl).2 ⟨?_, ?_⟩
  · exact (congrArg masterSecretCr hvals).trans (congrArg keyBlockCr hvals).symm
  · exact (congrArg masterSecretSr hvals).trans (congrArg keyBlockSr hvals).symm

/-- **No circuit of the second mode keeps the derivations in one session**: the prover may assign
another client random to the key expansion. -/
theorem exists_splitSession_of_prfInputs {c : TlsPrfCircuit} {pms : Bytes} {cr sr : Bytes32}
    {pmsHashFe : Fr} (hins : c.prfInputs = some (pms, cr, sr, pmsHashFe)) (hlen : pms.length ≤ 64) :
    ∃ (w : TlsPrfWires Wire Fr) (prf : PrfWires Wire Fr),
      w ∈ c.generateConstraints (m := Sat Fr) ∧ w.prf = some prf ∧ ¬ SingleSession prf := by
  let session := ofSession pms cr.toList sr.toList
  let split : PrfValues := { session with keyBlockCr := (flipLastBit cr).toList }
  have hsame : SameLengths (onSides session split) := by
    simp [SameLengths, onSides, lengths, session, split, ofSession]
  refine ⟨c.assignment split.kMac (.replicate 32 0) (onSides session split) 0, _,
    assignment_mem hins hlen rfl hsame ?_ 0, rfl, ?_⟩
  · rw [xorShares_zero]
    rfl
  · rintro ⟨cr', sr', hvals, -⟩
    rw [values_prfWires hsame] at hvals
    obtain ⟨-, hcr, -, hcr', -⟩ := PrfValues.mk.injEq .. |>.mp hvals
    exact flipLastBit_ne cr (Vector.toList_inj.1 (hcr'.trans hcr.symm))

/-- The derivations need not be of one session. -/
theorem exists_splitSession : ∃ (c : TlsPrfCircuit) (w : TlsPrfWires Wire Fr)
    (prf : PrfWires Wire Fr), w ∈ c.generateConstraints (m := Sat Fr) ∧ w.prf = some prf ∧
      ¬ SingleSession prf :=
  ⟨dummyFullPrf, exists_splitSession_of_prfInputs rfl (by decide)⟩

end TlsPrfCircuit

/-! ### The circuit of the transcript -/

structure PgpBindingCircuit where
  (queryCommitmentFe responseCommitmentFe transcriptCommitmentFe randBindingFe : Fr)
  (queryHash responseHash : Bytes32)

structure PgpBindingWires (Bit Fp : Type) where
  (expQueryCommit expResponseCommit expTranscriptCommit randBinding : Fp)
  (qhVars rhVars : List (UInt8Var Bit))

def pgpTranscriptCommitment (queryHash responseHash : Bytes32) (randBindingFe : Fr) : Fr :=
  bytes32ToFr (Sha2.sha256 (queryHash.toList ++ responseHash.toList)) + randBindingFe

namespace PgpBindingCircuit

def new (queryHash responseHash randBinding : Bytes32) : PgpBindingCircuit where
  queryCommitmentFe := bytes32ToFr queryHash + bytes32ToFr randBinding
  responseCommitmentFe := bytes32ToFr responseHash + bytes32ToFr randBinding
  transcriptCommitmentFe := pgpTranscriptCommitment queryHash responseHash (bytes32ToFr randBinding)
  randBindingFe := bytes32ToFr randBinding
  queryHash := queryHash
  responseHash := responseHash

/-- The constraints. -/
def generateConstraints {m : Type → Type} {Bit Fp : Type} [Monad m] [Gadgets m Fr Bit Fp]
    (c : PgpBindingCircuit) : m (PgpBindingWires Bit Fp) := do
  let expQueryCommit ← Gadgets.fpNewInput c.queryCommitmentFe
  let expResponseCommit ← Gadgets.fpNewInput c.responseCommitmentFe
  let expTranscriptCommit ← Gadgets.fpNewInput c.transcriptCommitmentFe
  let randBinding ← Gadgets.fpNewInput c.randBindingFe
  let qhVars ← newWitnessBytes c.queryHash.toList
  let rhVars ← newWitnessBytes c.responseHash.toList
  Gadgets.fpEnforceEqual (Gadgets.fpAdd (m := m) (packBytesToFpvar m qhVars) randBinding)
    expQueryCommit
  Gadgets.fpEnforceEqual (Gadgets.fpAdd (m := m) (packBytesToFpvar m rhVars) randBinding)
    expResponseCommit
  let digestVars ← sha256FromByteVars (qhVars ++ rhVars)
  Gadgets.fpEnforceEqual (Gadgets.fpAdd (m := m) (packBytesToFpvar m digestVars) randBinding)
    expTranscriptCommit
  return ⟨expQueryCommit, expResponseCommit, expTranscriptCommit, randBinding, qhVars, rhVars⟩

/-- What the circuit enforces. -/
theorem mem_generateConstraints {c : PgpBindingCircuit} {w : PgpBindingWires Wire Fr} :
    w ∈ c.generateConstraints (m := Sat Fr) ↔ bytesOn .native w.qhVars = c.queryHash.toList ∧
        bytesOn .native w.rhVars = c.responseHash.toList ∧
        packed (ofLeBytes (bytesOn .assigned w.qhVars)) + w.randBinding = w.expQueryCommit ∧
        packed (ofLeBytes (bytesOn .assigned w.rhVars)) + w.randBinding = w.expResponseCommit ∧
        packed (ofLeBytes (Sha2.sha256 (bytesOn .assigned w.qhVars ++
          bytesOn .assigned w.rhVars)).toList) + w.randBinding = w.expTranscriptCommit := by
  simp only [generateConstraints, Sat.mem_bind, Sat.mem_pure, mem_fpNewInput,
    mem_newWitnessBytes, mem_fpEnforceEqual, fpAdd_eq, packBytesToFpvar_eq, true_and]
  have hdig (xs ys) := determined_sha256FromByteVars (F := Fr) (xs ++ ys)
  constructor
  · rintro ⟨q, t, u, rand, qh, hqh, rh, hrh, -, hq, -, ht, out, hout, -, hu, rfl⟩
    rw [bytesOn, (hdig qh rh).of_mem hout, map_append] at hu
    exact ⟨hqh, hrh, hq, ht, hu⟩
  · rintro ⟨hqh, hrh, hq, ht, hu⟩
    obtain ⟨out, hout⟩ := (hdig w.qhVars w.rhVars).exists_mem
    refine ⟨_, _, _, _, w.qhVars, hqh, w.rhVars, hrh, (), hq, (), ht, out, hout, (), ?_, rfl⟩
    rwa [bytesOn, (hdig w.qhVars w.rhVars).of_mem hout, map_append]

end PgpBindingCircuit

end TlsAttestation.Zk
