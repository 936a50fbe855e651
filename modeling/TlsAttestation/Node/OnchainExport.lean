import TlsAttestation.Attestation.Onchain
import TlsAttestation.Node.QuorumIntegrity

/-!
# From the coordinator to the chain

Signed is the digest under the tag for approvals; the on-chain check takes the digest of the
envelope. So nothing that the coordinator returns passes (`onChainVerify_ne_ok_of_run`).
-/

namespace TlsAttestation

open ByteEncoding Frost

def FrostAttestationEnvelope.preimage (env : FrostAttestationEnvelope) : Bytes :=
  (AttestationEnvelope.digestHasher env.session env.randomness env.transcript env.statement
    env.coordinatorEvidence).inner

/-- The two strings are different. -/
theorem FrostAttestationEnvelope.preimage_ne (env : FrostAttestationEnvelope)
    (digest : DigestBytes) : env.preimage ≠ approvalPreimage digest := by
  intro h
  have hfields : env.preimage = domainPrefixed "tls-attestation/envelope/v1" ++ _ :=
    CanonicalHasher.inner_foldl_update (AttestationEnvelope.updates
      ⟨env.session, env.randomness, env.transcript, env.statement, env.coordinatorEvidence,
        ⟨env.session.quorum, [], [], .zero⟩, env.envelopeDigest⟩) _
  rw [hfields, approvalPreimage] at h
  have htags := domain_eq_of_append_eq (by decide) (by decide) h
  exact absurd htags (by decide)

theorem approvalSignedDigest_ne {env : FrostAttestationEnvelope}
    (hdig : env.envelopeDigest = AttestationEnvelope.computeDigest env.session env.randomness
      env.transcript env.statement env.coordinatorEvidence)
    (hhash : NoCollision {env.preimage, approvalPreimage env.envelopeDigest}) :
    env.envelopeDigest ≠ approvalSignedDigest env.envelopeDigest := by
  intro h
  have hsame : sha256 env.preimage = sha256 (approvalPreimage env.envelopeDigest) := by
    calc sha256 env.preimage = env.envelopeDigest := hdig.symm
      _ = approvalSignedDigest env.envelopeDigest := h
  exact env.preimage_ne _ (hhash.eq hsame)

variable {S F G N K : Type} [SessionStore S] [Field F] [DecidableEq F] [AddCommGroup G] [Module F G]
  [DecidableEq G] [LawfulSessionStore S] {C : NodeCrates F G} {c : CoordinatorNode} {draws : Draws}
  {request : AttestationRequest} {response : RVec UInt8} {groupKey : FrostGroupKey F G}
  {w w' : World S F G N} {env : FrostAttestationEnvelope} {senders : List VerifierId}

/-- **No envelope passes the on-chain check**, on whatever path it has come. -/
theorem onChainVerify_ne_ok_of_run {path : SigningPath F G N}
    (h : (path.run C c draws request response groupKey).run w = .ok (env, senders) w')
    (hkey : groupKey.pubKeyPackage.verifyingKey ≠ 0)
    (hhash : NoCollision {env.preimage, approvalPreimage env.envelopeDigest})
    (hchal : ∀ R, Set.InjOn (C.challenge R groupKey.pubKeyPackage.verifyingKey)
      {env.envelopeDigest.asBytes.toList,
        (approvalSignedDigest env.envelopeDigest).asBytes.toList})
    (D : Ed25519Dalek C.toFrostCrates K) (statementDigest dvrfValue : Bytes32)
    (threshold verifierCount : UInt8) :
    (extractOnChainAttestation statementDigest dvrfValue env.envelopeDigest.asBytes
      env.frostApproval threshold verifierCount).verify D ≠ .ok () := by
  obtain ⟨hatt, -⟩ := SigningPath.attested_run h
  refine verify_extractOnChainAttestation_ne_ok hatt.approved hkey fun R hR => ?_
  have hbytes := hchal R (by simp) (by simp) hR
  exact approvalSignedDigest_ne hatt.envelopeDigest hhash
    (DigestBytes.asBytes_injective (Vector.toList_inj.1 hbytes))

/-! ### A small run -/

set_option maxRecDepth 100000 in
theorem membersDigest_residue_ne :
    (ofBeBytes membersDigest.asBytes.toList : Toy) ≠
      (ofBeBytes (approvalSignedDigest membersDigest).asBytes.toList : Toy) := by
  decide +kernel

theorem challenge_membersDigest_ne (R Y : Toy) :
    toyNodeCrates.challenge R Y membersDigest.asBytes.toList ≠
      toyNodeCrates.challenge R Y (approvalSignedDigest membersDigest).asBytes.toList := by
  intro h
  exact membersDigest_residue_ne (add_left_cancel h)

theorem membersDigest_ne : membersDigest ≠ approvalSignedDigest membersDigest := by
  intro h
  have hresidue := membersDigest_residue_ne
  rw [← h] at hresidue
  exact hresidue rfl

theorem verifyingKey_toyGroupKey_ne_zero :
    FrostDvRF.toyGroupKey.pubKeyPackage.verifyingKey ≠ 0 := by
  decide

/-- **No statement about the small run** passes the check. -/
theorem onChainVerify_ne_ok_toyMembers :
    ∃ env senders w', toyAttest toyMembers = .ok (env, senders) w' ∧
      ∀ statementDigest dvrfValue threshold verifierCount,
        (extractOnChainAttestation statementDigest dvrfValue env.envelopeDigest.asBytes
          env.frostApproval threshold verifierCount).verify toyEd25519 ≠ .ok () := by
  obtain ⟨env, w', hrun, hdig⟩ := exists_of_outcome outcome_members
  refine ⟨env, _, w', hrun, onChainVerify_ne_ok_of_run hrun verifyingKey_toyGroupKey_ne_zero ?_ ?_
    toyEd25519⟩
  · refine NoCollision.of_ne fun hsame => membersDigest_ne ?_
    rw [← hdig]
    exact (SigningPath.attested_run hrun).1.envelopeDigest.trans hsame
  · intro R
    rw [hdig, Set.injOn_pair]
    intro hR
    exact absurd hR (challenge_membersDigest_ne R _)

/-- A signature by two of three is rejected. -/
theorem onChainVerify_rejects_toyMembers :
    ∃ env senders w', toyAttest toyMembers = .ok (env, senders) w' ∧
      (extractOnChainAttestation (.replicate 32 1) (.replicate 32 2) env.envelopeDigest.asBytes
        env.frostApproval 2 3).verify toyEd25519 ≠ .ok () := by
  obtain ⟨env, w', hrun, hdig⟩ := exists_of_outcome outcome_members
  refine ⟨env, _, w', hrun, ?_⟩
  refine verify_extractOnChainAttestation_ne_ok (SigningPath.attested_run hrun).1.approved
    verifyingKey_toyGroupKey_ne_zero fun R => ?_
  rw [hdig]
  exact challenge_membersDigest_ne R _

end TlsAttestation
