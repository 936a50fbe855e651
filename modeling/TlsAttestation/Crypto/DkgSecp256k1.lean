import TlsAttestation.Crypto.DvrfSecp256k1
import Mathlib.Data.Multiset.Sort

/-!
# Key generation on secp256k1

`tls_attestation_crypto::dkg_secp256k1`: the three parts, and `run_secp256k1_dkg`, which takes all
participants through them. Numbers are cast to 16 bits; where the cast leaves no participant, the
result is empty for every threshold.
-/

namespace TlsAttestation

open Collect Fallible Frost

structure Secp256k1DkgCrates (F G : Type) [Field F] [AddCommGroup G] [Module F G] extends
    Secp256k1Crates F G where
  /-- The function `Identifier::try_from`. -/
  identifierTryFrom : UInt16 → Except String (Identifier F)
  /-- The order of identifiers. -/
  identifierOrder : LinearOrder (Identifier F)
  /-- What a call of the first part draws. -/
  (Random Round1Secret Round1Package Round2Secret Round2Package : Type)
  part1 : Identifier F → (maxSigners minSigners : UInt16) → Random →
    Except String (Round1Secret × Round1Package)
  part2 : Round1Secret → (Finmap fun _ : Identifier F => Round1Package) →
    Except String (Round2Secret × AList fun _ : Identifier F => Round2Package)
  part3 : Round2Secret → (Finmap fun _ : Identifier F => Round1Package) →
    (Finmap fun _ : Identifier F => Round2Package) →
    Except String (KeyPackage F G × PublicKeyPackage F G)

structure Secp256k1DkgParticipantOutput (F G : Type) [Zero F] where
  participant : Secp256k1FrostParticipant F G
  groupKey : Secp256k1GroupKey F G

section

variable {F G : Type} [Field F] [AddCommGroup G] [Module F G] [DecidableEq F]
  (D : Secp256k1DkgCrates F G)

/-! ### The parts -/

/-- A secret polynomial, and the package to broadcast. -/
def secp256k1DkgPart1 (identifier : Identifier F) (maxSigners minSigners : UInt16)
    (random : D.Random) : Except CryptoError (D.Round1Secret × D.Round1Package) :=
  (D.part1 identifier maxSigners minSigners random).mapError fun e =>
    .invalidKeyMaterial s!"secp256k1 DKG part1 failed: {e}"

/-- A share for each of the others, from their broadcasts. -/
def secp256k1DkgPart2 (round1State : D.Round1Secret)
    (round1Packages : Finmap fun _ : Identifier F => D.Round1Package) :
    Except CryptoError (D.Round2Secret × AList fun _ : Identifier F => D.Round2Package) :=
  (D.part2 round1State round1Packages).mapError fun e =>
    .invalidKeyMaterial s!"secp256k1 DKG part2 failed: {e}"

/-- The key share and the group key, from the shares of the others. -/
def secp256k1DkgPart3 (myVerifierId : VerifierId) (myIdentifier : Identifier F)
    (round2State : D.Round2Secret) (round1Packages : Finmap fun _ : Identifier F => D.Round1Package)
    (round2Packages : Finmap fun _ : Identifier F => D.Round2Package)
    (allVerifierIdsInOrder : List VerifierId) :
    Except CryptoError (Secp256k1DkgParticipantOutput F G) := do
  let (keyPackage, pubKeyPackage) ← (D.part3 round2State round1Packages round2Packages).mapError
    fun e => .invalidKeyMaterial s!"secp256k1 DKG part3 failed: {e}"
  let identifiers := (myIdentifier ::ₘ round1Packages.keys.val).sort D.identifierOrder.le
  return ⟨⟨keyPackage, myVerifierId⟩,
    ⟨pubKeyPackage, collect (allVerifierIdsInOrder.zip identifiers)⟩⟩

/-! ### The ceremony -/

def inboundRound2 (identifiers : List (Identifier F))
    (round2Outbound : List (AList fun _ : Identifier F => D.Round2Package)) (i : ℕ)
    (myId : Identifier F) : Finmap fun _ : Identifier F => D.Round2Package :=
  collect ((identifiers.zip round2Outbound).zipIdx.filterMap fun s =>
    if s.2 = i then none else (s.1.2.lookup myId).map fun pkg => (s.1.1, pkg))

def elementAt {α ε : Type} (l : List α) (i : ℕ) : Except (Stop ε) α :=
  okOr l[i]? (.panic s!"index out of bounds: the len is {l.length} but the index is {i}")

/-- **All participants, in one process**; `i` draws `random i`. -/
def runSecp256k1Dkg (verifierIds : List VerifierId) (threshold : ℕ) (random : ℕ → D.Random) :
    Except (Stop CryptoError) (List (Secp256k1DkgParticipantOutput F G)) := do
  let n : UInt16 := .ofNat verifierIds.length
  let t : UInt16 := .ofNat threshold
  let identifiers ← (List.range' 1 n.toNat).mapM fun i =>
    expect (D.identifierTryFrom (.ofNat i)) "valid identifier"
  let round1 ← identifiers.zipIdx.mapM fun p =>
    (secp256k1DkgPart1 D p.1 n t (random p.2)).mapError .error
  let round1Packages := collect (identifiers.zip (round1.map Prod.snd))
  let round2 ← (identifiers.zip (round1.map Prod.fst)).mapM fun p =>
    (secp256k1DkgPart2 D p.2 (round1Packages.erase p.1)).mapError .error
  (identifiers.zip (round2.map Prod.fst)).zipIdx.mapM fun p => do
    let myVid ← elementAt verifierIds p.2
    (secp256k1DkgPart3 D myVid p.1.1 p.1.2 (round1Packages.erase p.1.1)
      (inboundRound2 D identifiers (round2.map Prod.snd) p.2 p.1.1) verifierIds).mapError .error

end

end TlsAttestation
