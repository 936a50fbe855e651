import TlsAttestation.Crypto.FrostAdapter

/-!
# Distributed randomness on secp256k1

The construction of `FrostDvRF` in two calls: `Secp256k1Dvrf.partialEval` at each participant, and
`Secp256k1Dvrf.combine`. Nothing ties the partial evaluations of one call to each other or to the
input, and `partialEval` can be called again.
-/

namespace TlsAttestation

open ByteEncoding Collect Fallible Frost

/-- Elements have 33 bytes, scalars 32. -/
structure Secp256k1Crates (F G : Type) [Field F] [AddCommGroup G] [Module F G] extends
    Ciphersuite F G 33 32 where
  /-- Two draws of 32 bytes from a seed. -/
  stdRng : Bytes32 → Bytes32 × Bytes32

structure Secp256k1GroupKey (F G : Type) [Zero F] where
  pubKeyPackage : PublicKeyPackage F G
  verifierToId : Finmap fun _ : VerifierId => Identifier F

structure Secp256k1FrostParticipant (F G : Type) [Zero F] where
  keyPackage : KeyPackage F G
  verifierId : VerifierId
deriving DecidableEq

structure Secp256k1Commitment (F G : Type) [Zero F] where
  identifier : Identifier F
  inner : SigningCommitments G
deriving DecidableEq

structure Secp256k1SignatureShare (F : Type) [Zero F] where
  identifier : Identifier F
  inner : F
deriving DecidableEq

structure Secp256k1ThresholdApproval where
  aggregateSignatureBytes : Vector UInt8 65
  groupVerifyingKeyBytes : Vector UInt8 33
deriving DecidableEq

structure Secp256k1DvrfInput where
  alpha : DigestBytes
deriving DecidableEq

structure Secp256k1PartialEval (F G : Type) [Zero F] where
  verifierId : VerifierId
  commitment : Secp256k1Commitment F G
  nonces : SigningNonces F
deriving DecidableEq

structure Secp256k1DvrfProof where
  sigma : Vector UInt8 65
  groupVerifyingKey : Vector UInt8 33
deriving DecidableEq

structure Secp256k1DvrfOutput where
  rand : DigestBytes
  proof : Secp256k1DvrfProof
deriving DecidableEq

section

variable {F G : Type} [Field F] [AddCommGroup G] [Module F G] (C : Secp256k1Crates F G)

/-! ### The adapter -/

namespace Secp256k1FrostParticipant

variable (p : Secp256k1FrostParticipant F G)

def round1 (random : Bytes32 × Bytes32) :
    SigningNonces F × Secp256k1Commitment F G :=
  let nonces := C.nonces p.keyPackage.signingShare random
  (nonces, ⟨p.keyPackage.identifier, C.commitments nonces⟩)

/-- What the seed of the nonces is a hash of. Of the key package, only the share goes in. -/
def dvrfNonceSeedPreimage (alpha : Bytes) : Bytes :=
  strBytes "tls-attestation/dvrf-nonce-seed/secp256k1/v1" ++ [0] ++
    lengthPrefixed 8 (C.serializeScalar p.keyPackage.signingShare).toList ++ lengthPrefixed 8 alpha

def dvrfNonceSeed (alpha : Bytes) : Bytes32 :=
  Sha2.sha256 (p.dvrfNonceSeedPreimage C alpha)

def round1Dvrf (alpha : Bytes) : SigningNonces F × Secp256k1Commitment F G :=
  p.round1 C (C.stdRng (p.dvrfNonceSeed C alpha))

variable [DecidableEq F] [DecidableEq G]

def round2 (package : SigningPackage F G) (nonces : SigningNonces F) :
    Except CryptoError (Secp256k1SignatureShare F) := do
  let share ← (C.sign package nonces p.keyPackage).mapError fun e =>
    .aggregationFailed (C.errorText e)
  return ⟨p.keyPackage.identifier, share⟩

end Secp256k1FrostParticipant

variable [DecidableEq F]

def secp256k1BuildSigningPackage (commitments : List (Secp256k1Commitment F G))
    (message : DigestBytes) : SigningPackage F G :=
  ⟨collect (commitments.map fun c => (c.identifier, c.inner)), message.asBytes.toList⟩

variable [DecidableEq G]

def Secp256k1GroupKey.verifyingKeyBytes (k : Secp256k1GroupKey F G) : Vector UInt8 33 :=
  if k.pubKeyPackage.verifyingKey = 0 then .replicate 33 0
  else C.serializeElement k.pubKeyPackage.verifyingKey

/-- The approval from the shares. A neutral commitment has no bytes. -/
def secp256k1AggregateSignatureShares (package : SigningPackage F G)
    (shares : List (Secp256k1SignatureShare F)) (groupKey : Secp256k1GroupKey F G) :
    Except CryptoError Secp256k1ThresholdApproval := do
  let shareMap := collect (shares.map fun s => (s.identifier, s.inner))
  let signature ← (C.aggregate package shareMap groupKey.pubKeyPackage).mapError fun e =>
    .aggregationFailed (C.errorText e)
  ensure (signature.R ≠ 0) (.aggregationFailed (C.errorText .invalidIdentityElement))
  return ⟨C.serializeSignature signature, groupKey.verifyingKeyBytes C⟩

def secp256k1VerifyApproval (approval : Secp256k1ThresholdApproval) (message : DigestBytes) :
    Except CryptoError Unit := do
  let vk ← (C.deserializeElement approval.groupVerifyingKeyBytes).mapError fun e =>
    .invalidKeyMaterial s!"vk deserialize: {C.errorText e}"
  let sig ← (C.deserializeSignature approval.aggregateSignatureBytes).mapError fun e =>
    .invalidKeyMaterial s!"sig deserialize: {C.errorText e}"
  (C.verify vk message.asBytes.toList sig).mapError fun e =>
    .signatureVerificationFailed s!"verify: {C.errorText e}"

/-! ### The evaluation -/

namespace Secp256k1Dvrf

omit [DecidableEq F] [DecidableEq G] in
/-- Round one, with nonces that the input and the key share determine. -/
def partialEval (participant : Secp256k1FrostParticipant F G) (input : Secp256k1DvrfInput) :
    Except CryptoError (Secp256k1PartialEval F G) :=
  let out := participant.round1Dvrf C input.alpha.asBytes.toList
  .ok ⟨participant.verifierId, out.2, out.1⟩

def round2Share (package : SigningPackage F G)
    (e : Secp256k1PartialEval F G × Secp256k1FrostParticipant F G) :
    Except CryptoError (Secp256k1SignatureShare F) :=
  e.2.round2 C package e.1.nonces

def round2Shares (participants : List (Secp256k1FrostParticipant F G))
    (partialEvals : List (Secp256k1PartialEval F G)) (package : SigningPackage F G) :
    Except CryptoError (List (Secp256k1SignatureShare F)) :=
  (partialEvals.zip participants).mapM (round2Share C package)

def combinePackage (input : Secp256k1DvrfInput) (partialEvals : List (Secp256k1PartialEval F G)) :
    SigningPackage F G :=
  secp256k1BuildSigningPackage (partialEvals.map (·.commitment)) input.alpha

def deriveRand (sigma : Vector UInt8 65) : DigestBytes :=
  (CanonicalHasher.new "dvrf-output/secp256k1/v1").updateFixed sigma |>.finalize

/-- Round two and the aggregation, for all participants at once. -/
def combine (groupKey : Secp256k1GroupKey F G) (input : Secp256k1DvrfInput)
    (partialEvals : List (Secp256k1PartialEval F G))
    (participants : List (Secp256k1FrostParticipant F G)) :
    Except CryptoError Secp256k1DvrfOutput := do
  let package := combinePackage input partialEvals
  let shares ← round2Shares C participants partialEvals package
  let approval ← secp256k1AggregateSignatureShares C package shares groupKey
  let sigma := approval.aggregateSignatureBytes
  return ⟨deriveRand sigma, ⟨sigma, approval.groupVerifyingKeyBytes⟩⟩

/-- **Verify** an output, under the key in its proof. -/
def verify (input : Secp256k1DvrfInput) (output : Secp256k1DvrfOutput) :
    Except CryptoError Unit := do
  secp256k1VerifyApproval C ⟨output.proof.sigma, output.proof.groupVerifyingKey⟩ input.alpha
  ensure (deriveRand output.proof.sigma = output.rand)
    (.aggregationFailed "DVRF.Verify: rand mismatch — proof is invalid")

end Secp256k1Dvrf

end

end TlsAttestation
