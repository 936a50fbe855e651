import TlsAttestation.Crypto.FrostAdapter
import TlsAttestation.Lib.FrostSigning

/-!
# Distributed randomness from FROST

`tls_attestation_crypto::dvrf`: the group signs the input `α`, and the randomness is a digest of the
signature. It is not unique: every commitment `R` has a valid signature (`FrostDvRF.verify_eq_ok`),
with its own digest. Enough honest participants evaluate (`FrostDvRF.evaluate_complete`).
-/

namespace TlsAttestation

open ByteEncoding Fallible Frost
open List hiding Vector

structure DvRFInput where
  bytes : DigestBytes
deriving DecidableEq

theorem DvRFInput.bytes_injective : Function.Injective DvRFInput.bytes := by
  rintro ⟨_⟩ ⟨_⟩ h
  exact congrArg _ h

def DvRFInput.forSession (sessionId : SessionId) (proverId : ProverId) (nonce : Nonce)
    (epoch : Epoch) (quorumHash : DigestBytes) : DvRFInput where
  bytes := (CanonicalHasher.new "tls-attestation/dvrf-input/v1")
    |>.updateFixed sessionId.asBytes
    |>.updateFixed proverId.asBytes
    |>.updateFixed nonce.asBytes
    |>.updateU64 epoch.val
    |>.updateDigest quorumHash
    |>.finalize

structure DvRFProof where
  aggregateSignature : Vector UInt8 64
  groupVerifyingKey : Bytes32
  alphaBytes : Bytes32
deriving DecidableEq

structure DvRFOutput where
  value : DigestBytes
  proof : DvRFProof
deriving DecidableEq

inductive DvRFError where
  | insufficientShares (needed got : ℕ)
  | verificationFailed (reason : String)
  | evaluationFailed (reason : String)
deriving DecidableEq

def DvRFError.display : DvRFError → String
  | .insufficientShares needed got => s!"insufficient shares: need {needed}, got {got}"
  | .verificationFailed reason => s!"DVRF verification failed: {reason}"
  | .evaluationFailed reason => s!"DVRF evaluation failed: {reason}"

namespace FrostDvRF

def outputHasher (sigBytes : Vector UInt8 64) : CanonicalHasher :=
  (CanonicalHasher.new "tls-attestation/dvrf-output/v1").updateFixed sigBytes

def outputValue (sigBytes : Vector UInt8 64) : DigestBytes := (outputHasher sigBytes).finalize

section

variable {F G : Type} [Field F] [DecidableEq F] [AddCommGroup G] [DecidableEq G] [Module F G]
  (C : FrostCrates F G)

def round1Outputs (alpha : DvRFInput) (participants : List (FrostParticipant F G)) :
    List (FrostParticipant F G × SigningNonces F × FrostCommitment F G) :=
  participants.map fun p => (p, p.round1Dvrf C alpha.bytes.asBytes.toList)

variable (groupKey : FrostGroupKey F G)

def signingPackage (alpha : DvRFInput)
    (participants : List (FrostParticipant F G)) : Except DvRFError (SigningPackage F G) := do
  let commitmentPairs := (round1Outputs C alpha participants).map fun o =>
    (o.1.verifierId, C.commitmentsJson o.2.2.inner)
  let built ← (buildSigningPackage C commitmentPairs alpha.bytes groupKey).mapError fun e =>
    .evaluationFailed e.display
  return built.1

def shareEntry (package : SigningPackage F G)
    (o : FrostParticipant F G × SigningNonces F × FrostCommitment F G) :
    Except DvRFError (VerifierId × Bytes) := do
  let share ← (o.1.round2 C package o.2.1).mapError fun e => .evaluationFailed e.display
  return (o.1.verifierId, C.shareJson share.inner)

/-- Both rounds over `alpha`; the value is a digest of the signature. -/
def evaluate (alpha : DvRFInput)
    (participants : List (FrostParticipant F G)) : Except DvRFError DvRFOutput := do
  ensure (participants ≠ []) (.insufficientShares 1 0)
  let package ← signingPackage C groupKey alpha participants
  let shareEntries ← (round1Outputs C alpha participants).mapM (shareEntry C package)
  let approval ← (aggregateSignatureShares C package shareEntries groupKey alpha.bytes).mapError
    fun e => .evaluationFailed e.display
  let sigBytes := approval.aggregateSignatureBytes
  return ⟨outputValue sigBytes, ⟨sigBytes, groupKey.verifyingKeyBytes C, alpha.bytes.asBytes⟩⟩

def groupOutput (alpha : DvRFInput) (sig : Frost.Signature F G) :
    DvRFOutput :=
  let sigBytes := C.serializeSignature sig
  ⟨outputValue sigBytes, ⟨sigBytes, groupKey.verifyingKeyBytes C, alpha.bytes.asBytes⟩⟩

/-- **Verify** an output. The key is the one in the proof. -/
def verify (alpha : DvRFInput) (output : DvRFOutput) : Except DvRFError Unit := do
  ensure (output.proof.alphaBytes = alpha.bytes.asBytes)
    (.verificationFailed "proof alpha_bytes does not match provided DVRF input α")
  let vk ← (C.deserializeElement output.proof.groupVerifyingKey).mapError fun e =>
    .verificationFailed (C.errorText e)
  let sig ← (C.deserializeSignature output.proof.aggregateSignature).mapError fun e =>
    .verificationFailed (C.errorText e)
  (C.verify vk alpha.bytes.asBytes.toList sig).mapError fun e =>
    .verificationFailed (C.errorText e)
  ensure (output.value = outputValue output.proof.aggregateSignature)
    (.verificationFailed "DVRF output value does not match signature hash")

/-! ### What is accepted -/

variable {C}

variable {alpha : DvRFInput} {output : DvRFOutput}

omit [DecidableEq F] in
theorem verify_eq_ok {u : Unit} :
    verify C alpha output = .ok u ↔ output.proof.alphaBytes = alpha.bytes.asBytes ∧
      (∃ Y, (Y ≠ 0 ∧ C.serializeElement Y = output.proof.groupVerifyingKey) ∧
        ∃ sig, (sig.R ≠ 0 ∧ C.serializeSignature sig = output.proof.aggregateSignature) ∧
          C.verify Y alpha.bytes.asBytes.toList sig = .ok ()) ∧
      output.value = outputValue output.proof.aggregateSignature := by
  simp only [verify, do_eq_ok, C.deserializeElement_eq_ok, C.deserializeSignature_eq_ok]
  constructor
  · rintro ⟨_, halpha, Y, hY, sig, hsig, _, hver, hvalue⟩
    exact ⟨halpha, ⟨Y, hY, sig, hsig, hver⟩, hvalue⟩
  · rintro ⟨halpha, ⟨Y, hY, sig, hsig, hver⟩, hvalue⟩
    exact ⟨(), halpha, Y, hY, sig, hsig, (), hver, hvalue⟩

variable {groupKey : FrostGroupKey F G} {participants : List (FrostParticipant F G)}

/-- **An evaluation** returns the digest of a signature on `α`. -/
theorem evaluate_spec (h : evaluate C groupKey alpha participants = .ok output) :
    ∃ sig, C.verify groupKey.pubKeyPackage.verifyingKey alpha.bytes.asBytes.toList sig = .ok () ∧
      output = groupOutput C groupKey alpha sig := by
  simp only [evaluate, signingPackage, buildSigningPackage, aggregateSignatureShares, do_eq_ok] at h
  obtain ⟨_, _, package, ⟨built, ⟨m, _, hbuilt⟩, hpkg⟩, entries, _, approval,
    ⟨shares, _, sig, hsig, happ⟩, hout⟩ := h
  subst hbuilt hpkg happ hout
  exact ⟨sig, Ciphersuite.verify_of_aggregate_eq_ok hsig, rfl⟩

/-- **An evaluated output verifies**, unless the key or the commitment is neutral. -/
theorem verify_iff_of_evaluate (h : evaluate C groupKey alpha participants = .ok output) :
    verify C alpha output = .ok () ↔ groupKey.pubKeyPackage.verifyingKey ≠ 0 ∧
      ∃ sig, sig.R ≠ 0 ∧ C.serializeSignature sig = output.proof.aggregateSignature := by
  obtain ⟨sig, hsig, rfl⟩ := evaluate_spec h
  rw [verify_eq_ok]
  constructor
  · rintro ⟨-, ⟨Y, ⟨hY, hbytes⟩, sig', ⟨hR, hsig'⟩, -⟩, -⟩
    obtain rfl := C.serializeElement_injective hbytes
    exact ⟨hY, sig', hR, hsig'⟩
  · rintro ⟨hkey, sig', hR, hsig'⟩
    obtain rfl := C.serializeSignature_injective hsig'
    exact ⟨rfl, ⟨_, ⟨hkey, rfl⟩, sig', ⟨hR, rfl⟩, hsig⟩, rfl⟩

/-! ### Honest participants -/

section

variable (C) (groupKey : FrostGroupKey F G) (alpha : DvRFInput)
  (participants : List (FrostParticipant F G)) (p : FrostParticipant F G)

def signer : Frost.Signer F G :=
  ⟨p.keyPackage, (p.round1Dvrf C alpha.bytes.asBytes.toList).1⟩

def groupSignature : Frost.Signature F G :=
  C.groupSignature groupKey.pubKeyPackage.verifyingKey (participants.map (signer C alpha))
    alpha.bytes.asBytes.toList

def groupShare : F :=
  C.shareOf groupKey.pubKeyPackage.verifyingKey (participants.map (signer C alpha))
    alpha.bytes.asBytes.toList (signer C alpha p)

/-- **Honest participants** that the group key knows, with no neutral element. -/
structure Honest : Prop where
  signers :
    HonestSigners C.toCiphersuite groupKey.pubKeyPackage (participants.map (signer C alpha))
  known : ∀ p ∈ participants,
    groupKey.verifierToIdentifier p.verifierId = some p.keyPackage.identifier
  key : groupKey.pubKeyPackage.verifyingKey ≠ 0
  commitment : (groupSignature C groupKey alpha participants).R ≠ 0

variable {C groupKey alpha participants}

theorem evaluate_honest (h : Honest C groupKey alpha participants) :
    evaluate C groupKey alpha participants =
      .ok (groupOutput C groupKey alpha (groupSignature C groupKey alpha participants)) := by
  have hne : participants ≠ [] := by
    rintro rfl
    exact h.commitment (zero_smul F C.base)
  have hagg := C.aggregate_honest (m := alpha.bytes.asBytes.toList) h.signers
  rw [Ciphersuite.signerPackage, map_map, map_map] at hagg
  simp only [evaluate, signingPackage, buildSigningPackage, round1Outputs, shareEntry,
    aggregateSignatureShares, FrostParticipant.round2, mapM_eq_ok, forall₂_map_left_iff, map_map,
    do_eq_ok, collectCommitments_eq_ok, collectShares_eq_ok]
  refine ⟨(), hne, _, ⟨_, ⟨_, ⟨participants.map fun p => ⟨p.keyPackage.identifier,
      C.commitments (signer C alpha p).nonces⟩, ?_, rfl⟩, rfl⟩, rfl⟩, participants.map fun p =>
      (p.verifierId, C.shareJson (groupShare C groupKey alpha participants p)), ?_, _,
    ⟨_, ⟨participants.map fun p => ⟨p.keyPackage.identifier,
      groupShare C groupKey alpha participants p⟩, ?_, rfl⟩, _, ?_, rfl⟩, rfl⟩
  · rw [forall₂_map_right_iff, forall₂_same]
    intro p hp
    have hnonces := h.signers.nonces _ (mem_map_of_mem hp)
    exact FrostCommitment.fromBytes_eq_ok.2 ⟨h.known p hp, (C.parseCommitments_json _ _).2
      ⟨⟨C.smul_base_ne_zero hnonces.1, C.smul_base_ne_zero hnonces.2⟩, rfl⟩⟩
  · rw [forall₂_map_right_iff, forall₂_same, map_map]
    intro p hp
    have hsign := C.sign_honest (m := alpha.bytes.asBytes.toList) h.signers (mem_map_of_mem hp)
    rw [Ciphersuite.signerPackage, map_map] at hsign
    exact ⟨_, ⟨_, hsign, rfl⟩, rfl⟩
  · rw [forall₂_map_left_iff, forall₂_map_right_iff, forall₂_same]
    intro p hp
    exact FrostSignatureShare.fromBytes_eq_ok.2 ⟨h.known p hp, C.parseShare_json _⟩
  · rw [map_map, map_map]
    exact hagg

/-- **Enough participants evaluate**, to one output in all orders, which verifies. -/
theorem evaluate_complete (h : Honest C groupKey alpha participants) :
    ∃ output, verify C alpha output = .ok () ∧ ∀ participants',
      participants'.Perm participants → evaluate C groupKey alpha participants' = .ok output := by
  have hver := Ciphersuite.verify_of_aggregate_eq_ok
    (C.aggregate_honest (m := alpha.bytes.asBytes.toList) h.signers)
  refine ⟨groupOutput C groupKey alpha (groupSignature C groupKey alpha participants),
    verify_eq_ok.2 ⟨rfl, ⟨_, ⟨h.key, rfl⟩, _, ⟨h.commitment, rfl⟩, hver⟩, rfl⟩, ?_⟩
  intro participants' hperm
  have hsigners := h.signers.perm (hperm.map (signer C alpha))
  have hsame : groupSignature C groupKey alpha participants' =
      groupSignature C groupKey alpha participants :=
    C.groupSignature_perm hsigners.nodup (hperm.map _) _
  rw [evaluate_honest ⟨hsigners, fun p hp => h.known p (hperm.subset hp), h.key,
    hsame ▸ h.commitment⟩, hsame]

end

/-! ### Uniqueness -/

variable (C)

/-- A key and an input determine the value, whoever evaluates and whatever is verified. -/
structure Unique (groupKey : FrostGroupKey F G) (alpha : DvRFInput) : Prop where
  evaluate : ∀ ps ps' o o', FrostDvRF.evaluate C groupKey alpha ps = .ok o →
    FrostDvRF.evaluate C groupKey alpha ps' = .ok o' → o.value = o'.value
  verify : ∀ o o', FrostDvRF.verify C alpha o = .ok () → FrostDvRF.verify C alpha o' = .ok () →
    o.proof.groupVerifyingKey = groupKey.verifyingKeyBytes C →
    o'.proof.groupVerifyingKey = groupKey.verifyingKeyBytes C → o.value = o'.value

def outputOf (alpha : DvRFInput) (s r : F) : DvRFOutput :=
  let sigBytes := C.serializeSignature (C.signatureOf s r alpha.bytes.asBytes.toList)
  ⟨outputValue sigBytes, ⟨sigBytes, C.serializeElement (s • C.base), alpha.bytes.asBytes⟩⟩

def outputPreimage (alpha : DvRFInput) (s r : F) : Bytes :=
  (outputHasher (C.serializeSignature (C.signatureOf s r alpha.bytes.asBytes.toList))).inner

variable {C}

omit [DecidableEq F] in
theorem verify_outputOf {s r : F} (hs : s ≠ 0) (hr : r ≠ 0) :
    verify C alpha (outputOf C alpha s r) = .ok () :=
  verify_eq_ok.2 ⟨rfl, ⟨_, ⟨C.smul_base_ne_zero hs, rfl⟩, _, ⟨C.smul_base_ne_zero hr, rfl⟩,
    C.verify_signatureOf s r _⟩, rfl⟩

omit [DecidableEq F] [DecidableEq G] in
theorem outputPreimage_injective (alpha : DvRFInput) (s : F) :
    Function.Injective (outputPreimage C alpha s) := by
  intro r r' h
  have hbytes := List.append_cancel_left h
  have hsig := C.serializeSignature_injective (Vector.toList_inj.1 hbytes)
  exact C.smul_base_injective (congrArg Signature.R hsig)

/-- **Uniqueness never holds**: any two nonces give two outputs that verify. -/
theorem not_unique {alpha : DvRFInput} {s r t : F}
    (hkey : s • C.base = groupKey.pubKeyPackage.verifyingKey) (hs : s ≠ 0) (hr : r ≠ 0) (ht : t ≠ 0)
    (hne : r ≠ t) (hhash : NoCollision {outputPreimage C alpha s r, outputPreimage C alpha s t}) :
    ¬ Unique C groupKey alpha := by
  intro hunique
  have hbytes : C.serializeElement (s • C.base) = groupKey.verifyingKeyBytes C := by
    rw [hkey, FrostGroupKey.verifyingKeyBytes]
  have hvalue : (outputOf C alpha s r).value = (outputOf C alpha s t).value :=
    hunique.verify _ _ (verify_outputOf hs hr) (verify_outputOf hs ht) hbytes hbytes
  exact hne (outputPreimage_injective alpha s (hhash.eq hvalue))

end

/-! ### Two sets of participants, two values -/

/-- The shares are on the line `5 + 7 * x`, so the key of the group is `5`. -/
def toyParticipant (i : ToyMember) : FrostParticipant Toy Toy where
  keyPackage := ⟨i.id, (5 + 7 * i.number : ℕ), (5 + 7 * i.number : ℕ), (5 : ℕ), 2⟩
  identifier := i.id
  verifierId := .fromBytes (.replicate 32 (Toy.toByte i.id))

def toyGroupKey : FrostGroupKey Toy Toy :=
  let members := [toyParticipant .alice, toyParticipant .bob, toyParticipant .carol]
  { pubKeyPackage :=
      ⟨members.foldl (fun m p => m.insert p.identifier p.keyPackage.verifyingShare) ∅, (5 : ℕ)⟩
    verifierToId := members.foldl (fun m p => m.insert p.verifierId p.identifier) ∅ }

def toyAlpha : DvRFInput := ⟨.zero⟩

def toyOutput (sig : Frost.Signature Toy Toy) : DvRFOutput :=
  ⟨outputValue (toyCrates.serializeSignature sig),
    ⟨toyCrates.serializeSignature sig, toyGroupKey.verifyingKeyBytes toyCrates,
      toyAlpha.bytes.asBytes⟩⟩

set_option maxRecDepth 100000 in
theorem evaluate_toy_first_two :
    evaluate toyCrates toyGroupKey toyAlpha [toyParticipant .alice, toyParticipant .bob] =
      .ok (toyOutput ⟨97, 26⟩) := by
  decide +kernel

theorem verify_iff_of_evaluate_toy : verify toyCrates toyAlpha (toyOutput ⟨97, 26⟩) = .ok () :=
  (verify_iff_of_evaluate evaluate_toy_first_two).2 ⟨by decide, ⟨97, 26⟩, by decide, rfl⟩

set_option maxRecDepth 100000 in
theorem honest_toy :
    Honest toyCrates toyGroupKey toyAlpha [toyParticipant .alice, toyParticipant .bob] := by
  refine ⟨⟨by decide, ⟨2, le_rfl, ⟨_, 5, isShared_line 7 5, by decide, ?_⟩, ?_, ?_, ?_⟩,
    by decide +kernel⟩, by decide, by decide, by decide +kernel⟩
  all_goals
    rintro _ ⟨s, hs, rfl⟩
    revert s
    decide +kernel

theorem evaluate_complete_toy : ∃ output, verify toyCrates toyAlpha output = .ok () ∧
    ∀ participants', participants'.Perm [toyParticipant .alice, toyParticipant .bob] →
      evaluate toyCrates toyGroupKey toyAlpha participants' = .ok output :=
  evaluate_complete honest_toy

set_option maxRecDepth 100000 in
theorem evaluate_toy_outer_two :
    evaluate toyCrates toyGroupKey toyAlpha [toyParticipant .alice, toyParticipant .carol] =
      .ok (toyOutput ⟨20, 69⟩) := by
  decide +kernel

set_option maxRecDepth 100000 in
/-- Two honest evaluations of one input differ. -/
theorem evaluate_toy_values_differ :
    ∃ o o', evaluate toyCrates toyGroupKey toyAlpha [toyParticipant .alice, toyParticipant .bob] =
        .ok o ∧
      evaluate toyCrates toyGroupKey toyAlpha [toyParticipant .alice, toyParticipant .carol] =
        .ok o' ∧
      o.value ≠ o'.value :=
  ⟨_, _, evaluate_toy_first_two, evaluate_toy_outer_two, by decide +kernel⟩

set_option maxRecDepth 100000 in
theorem not_unique_toy : ¬ Unique toyCrates toyGroupKey toyAlpha :=
  not_unique (s := 5) (r := 1) (t := 2) (by decide) (by decide) (by decide) (by decide)
    (by decide) (.of_ne (by decide +kernel))

end FrostDvRF

end TlsAttestation
