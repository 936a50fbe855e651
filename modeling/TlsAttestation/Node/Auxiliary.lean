import TlsAttestation.Attestation.Approval
import TlsAttestation.Attestation.Verify
import TlsAttestation.Node.FrostAux

/-!
# The auxiliary verifier node

`tls_attestation_node::auxiliary`: a verifier is asked to sign an envelope digest that it cannot
recompute. What it lets through for a package it lets through with every digest
(`AuxiliaryVerifierNode.verifyAndSign_eq_ok`).
-/

namespace TlsAttestation

open Fallible AuxiliaryVerifier

structure AuxiliaryVerifierNode (SigningKey : Type) where
  verifier : AuxiliaryVerifier
  signer : PrototypeThresholdSigner SigningKey
  verifierId_eq : verifier.verifierId = signer.verifierId

namespace AuxiliaryVerifierNode

variable {SigningKey : Type}

def new (signer : PrototypeThresholdSigner SigningKey) (policy : VerificationPolicy) :
    AuxiliaryVerifierNode SigningKey where
  verifier := ⟨signer.verifierId, policy⟩
  signer := signer
  verifierId_eq := rfl

variable (node : AuxiliaryVerifierNode SigningKey)

def verifierId : VerifierId := node.signer.verifierId

variable [Signer SigningKey]

/-- Check the package, then sign the claimed digest, which is not compared with the package. -/
def verifyAndSign (package : AttestationPackage)
    (statement : StatementPayload) (claimedEnvelopeDigest : DigestBytes) (now : UnixTimestamp) :
    Except NodeError PartialSignature :=
  let result := node.verifier.check package statement now
  if !result.approved then
    .error (.attestation (.evidenceVerificationFailed (result.failureReason.getD "")))
  else
    let signedDigest := approvalSignedDigest claimedEnvelopeDigest
    (node.signer.signPartial signedDigest.asBytes.toList).mapError .crypto

/-! ### Which digests are signed -/

variable {node : AuxiliaryVerifierNode SigningKey} {package : AttestationPackage}
  {statement : StatementPayload} {now : UnixTimestamp}

theorem verifyAndSign_eq_ok {claimed : DigestBytes} {signature : PartialSignature} :
    node.verifyAndSign package statement claimed now = .ok signature ↔
      (node.verifier.check package statement now).approved = true ∧
        signature = ⟨node.verifierId, (Signer.sign node.signer.keyPair.signingKey
          (approvalSignedDigest claimed).asBytes.toList).toList⟩ := by
  unfold verifyAndSign
  by_cases happ : (node.verifier.check package statement now).approved = true
  · rw [if_neg (by simp [happ]), mapError_eq_ok, PrototypeThresholdSigner.signPartial,
      Except.ok.injEq]
    exact ⟨fun h => ⟨happ, h.symm⟩, fun h => h.2.symm⟩
  · rw [if_pos (by simp [happ])]
    simp [happ]

/-- For one package and statement, a node signs one digest only. -/
def SignsOneDigest (package : AttestationPackage)
    (statement : StatementPayload) (now : UnixTimestamp) : Prop :=
  ∃ digest, ∀ (claimed : DigestBytes) (signature : PartialSignature),
    node.verifyAndSign package statement claimed now = .ok signature → claimed = digest

/-- **The node has no digest of its own**, except where it signs nothing. -/
theorem signsOneDigest_iff :
    node.SignsOneDigest package statement now ↔
      (node.verifier.check package statement now).approved = false := by
  constructor
  · rintro ⟨digest, hone⟩
    by_contra happ
    -- Any digest other than the one is signed as well.
    obtain ⟨other, hother⟩ : ∃ other : DigestBytes, other ≠ digest := exists_ne digest
    exact hother (hone other _ (verifyAndSign_eq_ok.2 ⟨by simpa using happ, rfl⟩))
  · intro hrefused
    refine ⟨.zero, fun claimed signature h => ?_⟩
    obtain ⟨happ, -⟩ := verifyAndSign_eq_ok.1 h
    rw [hrefused] at happ
    exact absurd happ Bool.false_ne_true

def auditorNode : AuxiliaryVerifierNode AttestationEnvelope.DigestKey :=
  .new ⟨⟨auditor.verifierId, ⟨[7]⟩⟩⟩ .permissive

/-- Two claimed digests are signed for one package. -/
theorem not_signsOneDigest_auditorNode :
    (∀ claimed, ∃ signature, auditorNode.verifyAndSign auditedPackage
      auditedStatement claimed ⟨150⟩ = .ok signature) ∧
      ¬ auditorNode.SignsOneDigest auditedPackage auditedStatement ⟨150⟩ := by
  have happ : (auditorNode.verifier.check auditedPackage auditedStatement ⟨150⟩).approved = true :=
    approved_result.2 (basicChecks_build rfl rfl rfl (by decide) (.inl rfl) (by decide))
  have hsigned (claimed : DigestBytes) : ∃ signature, auditorNode.verifyAndSign
      auditedPackage auditedStatement claimed ⟨150⟩ = .ok signature :=
    ⟨_, verifyAndSign_eq_ok.2 ⟨happ, rfl⟩⟩
  refine ⟨hsigned, ?_⟩
  rintro ⟨digest, hone⟩
  obtain ⟨signature, hzero⟩ := hsigned .zero
  obtain ⟨signature', hones⟩ := hsigned (.fromBytes (.replicate 32 1))
  have hequal := (hone _ _ hzero).trans (hone _ _ hones).symm
  exact absurd hequal (by decide)

end AuxiliaryVerifierNode

end TlsAttestation
