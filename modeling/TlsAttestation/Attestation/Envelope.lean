import TlsAttestation.Attestation.Package
import TlsAttestation.Crypto.Threshold

/-!
# Envelopes

`tls_attestation_attestation::envelope`: the final artifact, with a digest over its fields
(`AttestationEnvelope.Agree.of_preimage_eq`). Not hashed are the session's own digest, the two role
texts, and the content of the statement.
-/

namespace TlsAttestation

open ByteEncoding

structure RandomnessBinding where
  id : RandomnessId
  value : DigestBytes
  epoch : Epoch
  sessionBinding : DigestBytes
deriving DecidableEq

/-- What is delivered; its digest does not cover the approval. -/
structure AttestationEnvelope where
  session : SessionContext
  randomness : RandomnessBinding
  transcript : TranscriptCommitments
  statement : StatementPayload
  coordinatorEvidence : CoordinatorEvidence
  thresholdApproval : ThresholdApproval
  envelopeDigest : DigestBytes
deriving DecidableEq

namespace AttestationEnvelope

variable (session : SessionContext) (randomness : RandomnessBinding)
  (transcript : TranscriptCommitments) (statement : StatementPayload)
  (coordinatorEvidence : CoordinatorEvidence)

def digestHasher : CanonicalHasher :=
  (CanonicalHasher.new "tls-attestation/envelope/v1")
    |>.updateSession session.sessionId session.proverId session.coordinatorId session.quorum
      session.epoch session.createdAt session.expiresAt session.nonce
    |>.updateFixed randomness.id.asBytes
    |>.updateDigest randomness.value
    |>.updateU64 randomness.epoch.val
    |>.updateDigest randomness.sessionBinding
    |>.updateDigest transcript.query.digest
    |>.updateDigest transcript.response.digest
    |>.updateDigest transcript.sessionTranscriptDigest
    |>.updateBytes (strBytes statement.derivationTag.1)
    |>.updateDigest statement.statementDigest
    |>.updateBytes (strBytes coordinatorEvidence.engineTag.1)
    |>.updateDigest coordinatorEvidence.evidenceDigest
    |>.updateDigest coordinatorEvidence.packageDigest

def computeDigest : DigestBytes :=
  (digestHasher session randomness transcript statement coordinatorEvidence).finalize

variable (thresholdApproval : ThresholdApproval)

def assemble :
    AttestationEnvelope where
  session := session
  randomness := randomness
  transcript := transcript
  statement := statement
  coordinatorEvidence := coordinatorEvidence
  thresholdApproval := thresholdApproval
  envelopeDigest := computeDigest session randomness transcript statement coordinatorEvidence

variable (e : AttestationEnvelope)

def verifyDigest : Bool :=
  e.envelopeDigest =
    computeDigest e.session e.randomness e.transcript e.statement e.coordinatorEvidence

theorem verifyDigest_assemble :
    (assemble session randomness transcript statement coordinatorEvidence
      thresholdApproval).verifyDigest = true := by
  simp [verifyDigest, assemble]

def preimage : Bytes :=
  (digestHasher e.session e.randomness e.transcript e.statement e.coordinatorEvidence).inner

theorem verifyDigest_iff {e : AttestationEnvelope} :
    e.verifyDigest = true ↔ e.envelopeDigest = sha256 e.preimage := by
  rw [verifyDigest, decide_eq_true_iff]
  rfl

/-! ### Reading the fields back -/

def updates : List Update :=
  e.session.updates ++ [⟨.fixed 16, e.randomness.id.asBytes⟩, ⟨.digest, e.randomness.value⟩,
      ⟨.u64, e.randomness.epoch.val⟩, ⟨.digest, e.randomness.sessionBinding⟩,
      ⟨.digest, e.transcript.query.digest⟩, ⟨.digest, e.transcript.response.digest⟩,
      ⟨.digest, e.transcript.sessionTranscriptDigest⟩,
      ⟨.bytes, ⟨strBytes e.statement.derivationTag.1, e.statement.derivationTag.2⟩⟩,
      ⟨.digest, e.statement.statementDigest⟩,
      ⟨.bytes, ⟨strBytes e.coordinatorEvidence.engineTag.1, e.coordinatorEvidence.engineTag.2⟩⟩,
      ⟨.digest, e.coordinatorEvidence.evidenceDigest⟩,
      ⟨.digest, e.coordinatorEvidence.packageDigest⟩]

theorem preimage_eq :
    e.preimage = (CanonicalHasher.run "tls-attestation/envelope/v1" e.updates).inner :=
  rfl

/-- They agree on everything their digests are about. -/
structure Agree (e₁ e₂ : AttestationEnvelope) : Prop where
  session : e₁.session = e₂.session
  randomness : e₁.randomness = e₂.randomness
  transcript : e₁.transcript = e₂.transcript
  statement : e₁.statement = e₂.statement
  coordinatorEvidence : e₁.coordinatorEvidence = e₂.coordinatorEvidence

/-- They agree on what is stored but not hashed. -/
structure AgreeOnUnhashed (e₁ e₂ : AttestationEnvelope) : Prop where
  sessionDigest : e₁.session.sessionDigest = e₂.session.sessionDigest
  queryRole : e₁.transcript.query.role = e₂.transcript.query.role
  responseRole : e₁.transcript.response.role = e₂.transcript.response.role
  content : e₁.statement.content = e₂.statement.content

variable {e₁ e₂ : AttestationEnvelope}

/-- The hashed string determines the hashed fields. -/
theorem Agree.of_preimage_eq (h : e₁.preimage = e₂.preimage)
    (hrest : AgreeOnUnhashed e₁ e₂) : Agree e₁ e₂ := by
  rw [preimage_eq, preimage_eq] at h
  have hupd := CanonicalHasher.run_inj _ _ h rfl
  obtain ⟨⟨⟨_⟩, ⟨_⟩, ⟨_⟩, ⟨_, _⟩, ⟨_⟩, ⟨_⟩, ⟨_⟩, ⟨_⟩, _⟩, ⟨⟨_⟩, _, ⟨_⟩, _⟩, ⟨⟨_, _⟩, ⟨_, _⟩, _⟩,
    ⟨_, _, _⟩, ⟨_, _, _⟩, _, _⟩ := e₁
  obtain ⟨⟨⟨_⟩, ⟨_⟩, ⟨_⟩, ⟨_, _⟩, ⟨_⟩, ⟨_⟩, ⟨_⟩, ⟨_⟩, _⟩, ⟨⟨_⟩, _, ⟨_⟩, _⟩, ⟨⟨_, _⟩, ⟨_, _⟩, _⟩,
    ⟨_, _, _⟩, ⟨_, _, _⟩, _, _⟩ := e₂
  obtain ⟨hdig, hqr, hrr, hcont⟩ := hrest
  simp only [updates, SessionContext.updates, List.cons_append, List.nil_append, List.cons.injEq,
    Sigma.mk.injEq, heq_eq_eq, true_and, and_true, Subtype.mk.injEq, strBytes_injective.eq_iff,
    Subtype.val_inj] at hupd hdig hqr hrr hcont
  simp only [hupd, hdig, hqr, hrr, hcont]
  exact ⟨rfl, rfl, rfl, rfl, rfl⟩

theorem Agree.agreeOnUnhashed (h : Agree e₁ e₂) :
    AgreeOnUnhashed e₁ e₂ where
  sessionDigest := by rw [h.session]
  queryRole := by rw [h.transcript]
  responseRole := by rw [h.transcript]
  content := by rw [h.statement]

/-- **What an envelope's digest is evidence of**: two envelopes with one digest agree everywhere
exactly if they do on the four fields outside the hash. -/
theorem agree_iff_of_envelopeDigest_eq (h₁ : e₁.verifyDigest = true) (h₂ : e₂.verifyDigest = true)
    (hdig : e₁.envelopeDigest = e₂.envelopeDigest)
    (hhash : NoCollision {e₁.preimage, e₂.preimage}) :
    Agree e₁ e₂ ↔ AgreeOnUnhashed e₁ e₂ := by
  refine ⟨Agree.agreeOnUnhashed, fun hrest => Agree.of_preimage_eq (hhash.eq ?_) hrest⟩
  rw [← verifyDigest_iff.1 h₁, ← verifyDigest_iff.1 h₂, hdig]

/-! ### One signed digest, two statements -/

def soloSession : SessionContext :=
  .new (.fromBytes (.replicate 16 0)) (.fromBytes (.replicate 32 0)) (.fromBytes (.replicate 32 1))
    ⟨.ofList [.fromBytes (.replicate 32 1)], 1⟩ ⟨0⟩ ⟨100⟩ ⟨200⟩ (.fromBytes (.replicate 32 42))

/-- The given content, under the digest of the statement with the content `[1]`. -/
def soloEnvelope (content : RVec UInt8) : AttestationEnvelope :=
  let randomness := .fromBytes (.replicate 32 1)
  let transcript := TranscriptCommitments.build soloSession.sessionId randomness [0x51] [0x52]
  let statement := StatementPayload.new (.ofList [1]) (.ofString "result/v1")
    transcript.sessionTranscriptDigest
  let evidence := ExportableEvidence.new prototypeEngineTag (.ofList [])
  let package := AttestationPackage.build soloSession randomness transcript evidence
  assemble soloSession ⟨.fromBytes (.replicate 16 0), randomness, ⟨0⟩, .zero⟩ transcript
    { statement with content } ⟨evidence.engineTag, evidence.evidenceDigest, package.packageDigest⟩
    ⟨soloSession.quorum, [], [], .zero⟩

theorem preimage_soloEnvelope (c₁ c₂ : RVec UInt8) :
    (soloEnvelope c₁).preimage = (soloEnvelope c₂).preimage := rfl

theorem verifyDigest_soloEnvelope (content : RVec UInt8) :
    (soloEnvelope content).verifyDigest = true :=
  verifyDigest_assemble _ _ _ _ _ _

theorem agree_iff_soloEnvelope :
    Agree (soloEnvelope (.ofList [1])) (soloEnvelope (.ofList [2])) ↔
      AgreeOnUnhashed (soloEnvelope (.ofList [1])) (soloEnvelope (.ofList [2])) := by
  refine agree_iff_of_envelopeDigest_eq (verifyDigest_soloEnvelope _) (verifyDigest_soloEnvelope _)
    rfl ?_
  rw [preimage_soloEnvelope (.ofList [1]) (.ofList [2])]
  exact .self _

/-- **The content of a statement can be replaced**, with the same digest. -/
theorem soloEnvelope_content_free :
    (soloEnvelope (.ofList [1])).verifyDigest = true ∧
      (soloEnvelope (.ofList [2])).verifyDigest = true ∧
      (soloEnvelope (.ofList [1])).envelopeDigest = (soloEnvelope (.ofList [2])).envelopeDigest ∧
      ¬ Agree (soloEnvelope (.ofList [1])) (soloEnvelope (.ofList [2])) := by
  refine ⟨verifyDigest_soloEnvelope _, verifyDigest_soloEnvelope _, rfl, fun h => ?_⟩
  exact absurd h.agreeOnUnhashed.content (by decide)

end AttestationEnvelope

end TlsAttestation
