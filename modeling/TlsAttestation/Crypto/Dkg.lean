import TlsAttestation.Crypto.FrostAdapter
import TlsAttestation.Lib.PedersenDkg

/-!
# The adapter for key generation

`tls_attestation_crypto::dkg`: the three parts. The crate promises that all arrive at the sum of the
same commitments (`DkgCrates.Lawful`). The participant at position `i` has the identifier `i + 1`,
**as a number of 16 bits** (`DkgCrates.identifierAt`).
-/

namespace TlsAttestation

open ByteEncoding Fallible Frost PedersenDkg

/-- The crates of key generation. A map that comes out is in the order in which it is gone through.
-/
structure DkgCrates (F G : Type) [Field F] [AddCommGroup G] [Module F G] extends
    FrostCrates F G where
  /-- The function `Identifier::try_from`. -/
  identifierTryFrom : UInt16 → Except String (Identifier F)
  /-- What a call of the first part draws. -/
  (Random Round1Secret Round1Package Round2Secret Round2Package : Type)
  part1 : Identifier F → (maxSigners minSigners : UInt16) → Random →
    Except String (Round1Secret × Round1Package)
  part2 : Round1Secret → (Finmap fun _ : Identifier F => Round1Package) →
    Except String (Round2Secret × AList fun _ : Identifier F => Round2Package)
  part3 : Round2Secret → (Finmap fun _ : Identifier F => Round1Package) →
    (Finmap fun _ : Identifier F => Round2Package) →
    Except String (KeyPackage F G × PublicKeyPackage F G)
  round1ToVec : Round1Package → Except String Bytes
  round2ToVec : Round2Package → Except String Bytes
  round2FromSlice : Bytes → Except String Round2Package

namespace DkgCrates

variable {F G : Type} [Field F] [AddCommGroup G] [Module F G]

/-- What is documented of the crate. -/
structure Lawful (D : DkgCrates F G) : Prop where
  /-- Only zero is not an identifier. -/
  exists_identifier : ∀ n : UInt16, n ≠ 0 → ∃ id, D.identifierTryFrom n = .ok id
  /-- Different numbers are different identifiers. -/
  identifier_injective : ∀ {m n : UInt16} {id : Identifier F},
    D.identifierTryFrom m = .ok id → D.identifierTryFrom n = .ok id → m = n
  /-- The numbers of signers are accepted if they make sense. -/
  exists_part1 : ∀ (id : Identifier F) {maxSigners minSigners : UInt16} (random : D.Random),
    2 ≤ minSigners → minSigners ≤ maxSigners → ∃ r, D.part1 id maxSigners minSigners random = .ok r
  /-- There is one package for each of the others. -/
  mem_part2 : ∀ {s r1 s' out}, D.part2 s r1 = .ok (s', out) → ∀ id, id ∈ out ↔ id ∈ r1
  /-- There has to be one package of each of the others. -/
  keys_part3 : ∀ {s r1 r2 out}, D.part3 s r1 r2 = .ok out → r2.keys = r1.keys
  /-- The key of the group is the sum of the commitments. -/
  verifyingKey_eq_sum : ∃ secretCommitment : D.Round1Package → G,
    ∀ {id maxSigners minSigners random s p r1 s' out r2 key pub},
      D.part1 id maxSigners minSigners random = .ok (s, p) → D.part2 s r1 = .ok (s', out) →
      D.part3 s' r1 r2 = .ok (key, pub) →
      pub.verifyingKey = secretCommitment p + (r1.entries.map fun e => secretCommitment e.2).sum

end DkgCrates

section

variable {F G : Type} [Field F] [AddCommGroup G] [Module F G] (D : DkgCrates F G)

/-- The identifier of a position, counted with 16 bits. -/
def DkgCrates.identifierAt (position : ℕ) : Except String (Identifier F) :=
  D.identifierTryFrom (.ofNat (position + 1))

structure DkgParticipantOutput (F G : Type) [Zero F] where
  participant : FrostParticipant F G
  groupKey : FrostGroupKey F G

/-- A secret polynomial, and the package to broadcast. -/
def dkgPart1 (identifier : Identifier F) (maxSigners minSigners : UInt16) (random : D.Random) :
    Except CryptoError (D.Round1Secret × D.Round1Package) :=
  (D.part1 identifier maxSigners minSigners random).mapError fun e =>
    .invalidKeyMaterial s!"DKG part1 failed: {e}"

/-- A share for each of the others, from their broadcasts. -/
def dkgPart2 (round1State : D.Round1Secret)
    (round1Packages : Finmap fun _ : Identifier F => D.Round1Package) :
    Except CryptoError (D.Round2Secret × AList fun _ : Identifier F => D.Round2Package) :=
  (D.part2 round1State round1Packages).mapError fun e =>
    .invalidKeyMaterial s!"DKG part2 failed: {e}"

def verifierToId (allVerifierIdsInOrder : List VerifierId) :
    Except CryptoError (Finmap fun _ : VerifierId => Identifier F) :=
  allVerifierIdsInOrder.zipIdx.foldlM (fun m p => do
    let frostId ← (D.identifierAt p.2).mapError fun e =>
      .invalidKeyMaterial s!"DKG identifier assignment at index {p.2}: {e}"
    return m.insert p.1 frostId) ∅

/-- The key share and the group key, from the shares of the others. -/
def dkgPart3 (myVerifierId : VerifierId) (myIdentifier : Identifier F)
    (round2State : D.Round2Secret) (round1Packages : Finmap fun _ : Identifier F => D.Round1Package)
    (round2Packages : Finmap fun _ : Identifier F => D.Round2Package)
    (allVerifierIdsInOrder : List VerifierId) :
    Except CryptoError (DkgParticipantOutput F G) := do
  let (keyPackage, pubKeyPackage) ← (D.part3 round2State round1Packages round2Packages).mapError
    fun e => .invalidKeyMaterial s!"DKG part3 failed: {e}"
  let verifierToId ← verifierToId D allVerifierIdsInOrder
  return ⟨⟨keyPackage, myIdentifier, myVerifierId⟩, ⟨pubKeyPackage, verifierToId⟩⟩

variable {D}

theorem part3_of_dkgPart3 {v : VerifierId} {id : Identifier F} {s : D.Round2Secret}
    {r1 : Finmap fun _ : Identifier F => D.Round1Package}
    {r2 : Finmap fun _ : Identifier F => D.Round2Package} {all : List VerifierId}
    {out : DkgParticipantOutput F G} (h : dkgPart3 D v id s r1 r2 all = .ok out) :
    D.part3 s r1 r2 = .ok (out.participant.keyPackage, out.groupKey.pubKeyPackage) := by
  simp only [dkgPart3, do_eq_ok] at h
  obtain ⟨_, hpart3, _, _, rfl⟩ := h
  exact hpart3

end

/-! ### Crates to run the protocol with -/

abbrev Wide := ZMod 65537

instance fact_prime_wide : Fact (Nat.Prime 65537) := ⟨by norm_num⟩

namespace Wide

variable (x : Wide)

def toBytes : Bytes := beBytes 3 x.val

def ofBytes (bytes : Bytes) : Wide := (ofBeBytes bytes : Wide)

@[simp] theorem ofBytes_toBytes : ofBytes (toBytes x) = x := by
  have hlt : x.val < 256 ^ 3 := (ZMod.val_lt x).trans (by decide)
  rw [ofBytes, toBytes, ofBeBytes_beBytes, Nat.mod_eq_of_lt hlt, ZMod.natCast_zmod_val]

@[simp] theorem length_toBytes : (toBytes x).length = 3 := length_beBytes 3 _

def encode : Bytes32 := bytesAt 32 0 (toBytes x)

def decode (b : Bytes32) : Wide := ofBytes (bytesAt 3 0 b.toList).toList

theorem decode_encode : decode (encode x) = x := by
  have hfirst : (bytesAt 3 0 (encode x).toList).toList = toBytes x := by
    refine List.ext_getElem (by simp) fun i hi _ => ?_
    have hi : i < 3 := by simpa using hi
    simp [bytesAt, encode, show i < 32 by omega]
  rw [decode, hfirst, ofBytes_toBytes]

theorem encode_injective : Function.Injective encode := Function.LeftInverse.injective decode_encode

def suite : Ciphersuite Wide Wide 32 32 where
  base := 1
  base_ne_zero := one_ne_zero
  exists_smul_base g := ⟨g, by simp⟩
  bindingFactor Y package i := i + Y + (package.signingCommitments.entries.card : Wide)
  challenge R Y m := R + Y + (ofBeBytes m : Wide)
  nonce random s := s + (ofBeBytes random.toList : Wide)
  serializeElement := encode
  deserializeElement b :=
    if encode (decode b) = b then
      if decode b = 0 then .error .invalidIdentityElement else .ok (decode b)
    else .error .malformedElement
  serializeScalar := encode
  deserializeScalar b := if encode (decode b) = b then .ok (decode b) else .error .malformedScalar
  deserializeElement_eq_ok b g := by
    constructor
    · intro h
      split_ifs at h with hb h0
      obtain rfl := Except.ok.inj h
      exact ⟨h0, hb⟩
    · rintro ⟨hg, rfl⟩
      simp [decode_encode, hg]
  serializeElement_injective := encode_injective
  deserializeScalar_eq_ok b s := by
    constructor
    · intro h
      split_ifs at h with hb
      obtain rfl := Except.ok.inj h
      exact hb
    · rintro rfl
      simp [decode_encode]
  errorText := (toySuite 31 31).errorText

def parseCommitments (bytes : Bytes) : Except String (SigningCommitments Wide) :=
  let c : SigningCommitments Wide := ⟨ofBytes (bytes.take 3), ofBytes (bytes.drop 3)⟩
  if c.hidingCommitment = 0 ∨ c.bindingCommitment = 0 then .error "identity" else .ok c

def frostCrates : FrostCrates Wide Wide where
  toCiphersuite := suite
  stdRng seed := (seed, seed.map (· + 1))
  debugStr := String.quote
  keyPackageJson k :=
    toBytes k.identifier ++ toBytes k.signingShare ++ toBytes k.verifyingShare ++
      toBytes k.verifyingKey ++ beBytes 2 k.minSigners
  commitmentsJson c := toBytes c.hidingCommitment ++ toBytes c.bindingCommitment
  parseCommitments := parseCommitments
  shareJson := toBytes
  parseShare bytes := .ok (ofBytes bytes)
  packageJson package := package.message
  parseCommitments_json c d := by
    have htake : (toBytes c.hidingCommitment ++ toBytes c.bindingCommitment).take 3 =
        toBytes c.hidingCommitment := List.take_left' (length_toBytes _)
    have hdrop : (toBytes c.hidingCommitment ++ toBytes c.bindingCommitment).drop 3 =
        toBytes c.bindingCommitment := List.drop_left' (length_toBytes _)
    simp only [parseCommitments, htake, hdrop, ofBytes_toBytes]
    split_ifs with h
    · simp only [false_iff]
      rintro ⟨⟨h₁, h₂⟩, -⟩
      exact h.elim h₁ h₂
    · simp [not_or.1 h]
  parseShare_json z := by rw [ofBytes_toBytes]

def identifierTryFrom (n : UInt16) : Except String (Identifier Wide) :=
  if h : (n.toNat : Wide) ≠ 0 then .ok ⟨n.toNat, h⟩ else .error "Invalid for this field."

def dkgSuite : PedersenDkg.Suite Wide Wide := ⟨1, fun id Y R => id + Y + R⟩

/-- Small crates for key generation. -/
def crates : DkgCrates Wide Wide where
  toFrostCrates := frostCrates
  identifierTryFrom := identifierTryFrom
  Random := ℕ → Wide
  Round1Secret := PedersenDkg.Round1Secret Wide Wide
  Round1Package := PedersenDkg.Round1Package Wide Wide
  Round2Secret := PedersenDkg.Round2Secret Wide Wide
  Round2Package := Wide
  part1 id maxSigners minSigners :=
    part1 dkgSuite id maxSigners.toNat minSigners.toNat
  part2 := part2 dkgSuite
  part3 := part3 dkgSuite
  round1ToVec p := .ok (p.commitment.flatMap toBytes ++ toBytes p.proofOfKnowledge.R ++
    toBytes p.proofOfKnowledge.z)
  round2ToVec z := .ok (toBytes z)
  round2FromSlice bytes := .ok (ofBytes bytes)

theorem natCast_toNat_inj {m n : UInt16} : (m.toNat : Wide) = n.toNat ↔ m = n := by
  have hm : m.toNat < 65537 := m.toNat_lt.trans (by decide)
  have hn : n.toNat < 65537 := n.toNat_lt.trans (by decide)
  rw [ZMod.natCast_eq_natCast_iff', Nat.mod_eq_of_lt hm, Nat.mod_eq_of_lt hn, UInt16.toNat_inj]

theorem identifierTryFrom_eq_ok {n : UInt16} {id : Identifier Wide} :
    identifierTryFrom n = .ok id ↔ (n.toNat : Wide) = id := by
  rw [identifierTryFrom]
  split
  · rw [Except.ok.injEq, Subtype.ext_iff]
  · next h =>
    simp only [reduceCtorEq, false_iff]
    exact fun hid => h (hid ▸ id.2)

theorem lawful_crates : crates.Lawful where
  exists_identifier n hn := by
    have hne : (n.toNat : Wide) ≠ 0 := by
      intro h0
      exact hn (natCast_toNat_inj.1 (h0.trans Nat.cast_zero.symm))
    exact ⟨⟨n.toNat, hne⟩, identifierTryFrom_eq_ok.2 rfl⟩
  identifier_injective hm hn :=
    natCast_toNat_inj.1 ((identifierTryFrom_eq_ok.1 hm).trans (identifierTryFrom_eq_ok.1 hn).symm)
  exists_part1 id _ _ random hmin hle := exists_part1 id random hmin hle
  mem_part2 h := (part2_eq_ok h).2
  keys_part3 h := (part3_eq_ok h).1
  verifyingKey_eq_sum := by
    refine ⟨fun p => secretCommitment p.commitment, fun h₁ h₂ h₃ => ?_⟩
    rw [(part3_eq_ok h₃).2, (part2_eq_ok h₂).1, commitment_of_part1 h₁]
    rfl

end Wide

end TlsAttestation
