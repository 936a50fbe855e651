import TlsAttestation.Attestation.Dctls
import TlsAttestation.Crypto.Dvrf

/-!
# The auxiliary verifier

`tls_attestation_attestation::verify`: `AuxiliaryVerifier.check` is about package and statement;
`AuxiliaryVerifier.checkFull` goes on with the randomness, the three records, a query and a
response. The two groups can be of different sessions (`AuxiliaryVerifier.boundToPackage_iff`).
-/

namespace TlsAttestation

open ByteEncoding Fallible Frost

/-- What the verifier accepts. No tags means all of them. -/
structure VerificationPolicy where
  allowedEngineTags : List String
  allowedStatementTags : List String
  maxSessionDurationSecs : UInt64
deriving DecidableEq

def VerificationPolicy.permissive : VerificationPolicy where
  allowedEngineTags := ["prototype-attestation/v1", "dx-dctls/commitment-v1"]
  allowedStatementTags := []
  maxSessionDurationSecs := 3600

structure VerificationResult where
  verifierId : VerifierId
  packageDigest : DigestBytes
  approved : Bool
  failureReason : Option String
deriving DecidableEq

structure AuxiliaryVerifier where
  verifierId : VerifierId
  policy : VerificationPolicy
deriving DecidableEq

def saturatingSub (a b : UInt64) : UInt64 := if a < b then 0 else a - b

namespace AuxiliaryVerifier

variable (v : AuxiliaryVerifier) (package : AttestationPackage)

def result (checks : Except String Unit) :
    VerificationResult :=
  match checks with
  | .ok () => ⟨v.verifierId, package.packageDigest, true, none⟩
  | .error reason => ⟨v.verifierId, package.packageDigest, false, some reason⟩

/-! The verifier does not call the functions that made the digests of the package. It has the same
computations once more, from the fields of the package. -/

variable (package : AttestationPackage)

def expectedSessionDigest : DigestBytes :=
  let sc := package.sessionContext
  let h := (CanonicalHasher.new "tls-attestation/session-context/v1")
    |>.updateFixed sc.sessionId.asBytes
    |>.updateFixed sc.proverId.asBytes
    |>.updateFixed sc.coordinatorId.asBytes
    |>.updateU64 sc.epoch.val
    |>.updateU64 sc.createdAt.secs
    |>.updateU64 sc.expiresAt.secs
    |>.updateFixed sc.nonce.asBytes
    |>.updateU64 sc.quorum.threshold
    |>.updateU64 (.ofNat sc.quorum.verifiers.1.length)
  (sc.quorum.verifiers.1.foldl (fun h v => h.updateFixed v.asBytes) h).finalize

def expectedSessionTranscriptDigest : DigestBytes :=
  let tc := package.transcriptCommitments
  (CanonicalHasher.new "tls-attestation/session-transcript/v1")
    |>.updateFixed package.sessionContext.sessionId.asBytes
    |>.updateDigest tc.query.digest
    |>.updateDigest tc.response.digest
    |>.finalize

def expectedEvidenceDigest : DigestBytes :=
  (CanonicalHasher.new "tls-attestation/evidence/v1")
    |>.updateBytes (strBytes package.evidence.engineTag.1)
    |>.updateBytes package.evidence.bytes.1
    |>.finalize

/-! Each of them agrees with the function of the producer. -/

theorem expectedSessionDigest_eq :
    expectedSessionDigest package = let sc := package.sessionContext
      SessionContext.computeDigest sc.sessionId sc.proverId sc.coordinatorId sc.quorum sc.epoch
        sc.createdAt sc.expiresAt sc.nonce :=
  rfl

theorem expectedSessionTranscriptDigest_eq :
    expectedSessionTranscriptDigest package =
      computeSessionTranscriptDigest package.sessionContext.sessionId
        package.transcriptCommitments.query.digest package.transcriptCommitments.response.digest :=
  rfl

theorem expectedEvidenceDigest_eq :
    expectedEvidenceDigest package =
      computeEvidenceDigest package.evidence.engineTag.1 package.evidence.bytes.1 :=
  rfl

def basicChecks (statement : StatementPayload) (now : UnixTimestamp) : Except String Unit := do
  let sc := package.sessionContext
  ensure (sc.isExpired now = false) "session has expired"
  ensure (sc.sessionDigest = expectedSessionDigest package) "session digest mismatch"
  ensure (statement.verifyDigest package.transcriptCommitments.sessionTranscriptDigest)
    "statement digest does not match transcript"
  ensure (package.packageDigest = AttestationPackage.computeDigest sc.sessionDigest
      package.randomnessValue package.transcriptCommitments.sessionTranscriptDigest
      package.evidence.evidenceDigest)
    "package digest mismatch"
  ensure (package.evidence.engineTag.1 ∈ v.policy.allowedEngineTags)
    s!"engine tag '{package.evidence.engineTag.1}' is not in policy"
  ensure (v.policy.allowedStatementTags = [] ∨
      statement.derivationTag.1 ∈ v.policy.allowedStatementTags)
    s!"statement tag '{statement.derivationTag.1}' is not in policy"
  let duration := saturatingSub sc.expiresAt.secs sc.createdAt.secs
  ensure (duration ≤ v.policy.maxSessionDurationSecs)
    s!"session duration {duration}s exceeds policy maximum {v.policy.maxSessionDurationSecs}s"
  ensure (package.transcriptCommitments.sessionTranscriptDigest =
      expectedSessionTranscriptDigest package)
    "session transcript digest is inconsistent with query/response commitments"
  ensure (package.evidence.evidenceDigest = expectedEvidenceDigest package)
    "evidence digest is inconsistent with engine tag and bytes"

/-- A package is approved if the time, its digests and the policy pass; the first failure is the
reason. -/
def check (statement : StatementPayload) (now : UnixTimestamp) : VerificationResult :=
  v.result package (v.basicChecks package statement now)

section

variable {F G : Type} [Field F] [AddCommGroup G] [DecidableEq G] [Module F G] (C : FrostCrates F G)

def dctlsChecks (package : AttestationPackage) (dctlsEvidence : DctlsEvidence)
    (dvrfOutput : DvRFOutput) (dvrfInput : DvRFInput) (serverCertHash : DigestBytes)
    (query response : Bytes) (nowSecs : UInt64) : Except String Unit := do
  (FrostDvRF.verify C dvrfInput dvrfOutput).mapError fun e =>
    s!"DVRF proof verification failed: {e.display}"
  (verifyHspProof C.debugStr nowSecs dctlsEvidence.hspProof dvrfOutput.value
    serverCertHash).mapError fun e => s!"HSP proof verification failed: {e.display}"
  (verifyQueryRecord dctlsEvidence.queryRecord query response).mapError fun e =>
    s!"QP proof verification failed: {e.display}"
  (verifyPgpProof dctlsEvidence.pgpProof dvrfOutput.value dctlsEvidence.hspProof).mapError
    fun e => s!"PGP proof verification failed: {e.display}"
  ensure (package.randomnessValue = dvrfOutput.value)
    "package randomness_value does not match DVRF output"
  let _ ← (verifyTranscriptConsistency dctlsEvidence.hspProof dctlsEvidence.queryRecord
    dctlsEvidence.pgpProof).mapError fun e =>
      s!"transcript binding consistency check failed: {e.display}"

/-- **The full check**, with the randomness and the records. -/
def checkFull (v : AuxiliaryVerifier) (package : AttestationPackage)
    (statement : StatementPayload) (dctlsEvidence : DctlsEvidence) (dvrfOutput : DvRFOutput)
    (dvrfInput : DvRFInput) (serverCertHash : DigestBytes) (query response : Bytes)
    (now : UnixTimestamp) (nowSecs : UInt64) : VerificationResult :=
  let basic := v.check package statement now
  if !basic.approved then basic
  else v.result package (dctlsChecks C package dctlsEvidence dvrfOutput dvrfInput serverCertHash
    query response nowSecs)

end

/-! ### What is approved -/

variable {package : AttestationPackage}

theorem approved_result {v : AuxiliaryVerifier} {checks : Except String Unit} :
    (v.result package checks).approved = true ↔ checks = .ok () := by
  rcases checks with reason | ⟨⟩ <;> simp [result]

/-- A package built from a fresh session passes the basic check. -/
theorem basicChecks_build {v : AuxiliaryVerifier}
    {now : UnixTimestamp} {sc : SessionContext} {randomnessValue : DigestBytes}
    {query response : Bytes} {engineTag derivationTag : RString} {bytes content : RVec UInt8}
    (hpkg : package = .build sc randomnessValue
      (.build sc.sessionId randomnessValue query response) (.new engineTag bytes))
    (hdig : sc.sessionDigest = SessionContext.computeDigest sc.sessionId sc.proverId
      sc.coordinatorId sc.quorum sc.epoch sc.createdAt sc.expiresAt sc.nonce)
    (hnow : sc.isExpired now = false) (hengine : engineTag.1 ∈ v.policy.allowedEngineTags)
    (htag : v.policy.allowedStatementTags = [] ∨ derivationTag.1 ∈ v.policy.allowedStatementTags)
    (hduration : saturatingSub sc.expiresAt.secs sc.createdAt.secs ≤
      v.policy.maxSessionDurationSecs) :
    v.basicChecks package (.new content derivationTag
      package.transcriptCommitments.sessionTranscriptDigest) now = .ok () := by
  subst hpkg
  simp only [basicChecks, do_eq_ok]
  rw [expectedSessionDigest_eq, expectedSessionTranscriptDigest_eq, expectedEvidenceDigest_eq]
  exact ⟨(), hnow, (), hdig, (), by simp [StatementPayload.verifyDigest, StatementPayload.new],
    (), rfl, (), hengine, (), htag, (), hduration, (), rfl, rfl⟩

/-! ### What an approval binds -/

/-- The records, the input of the randomness and the commitments are all of the package's
session. -/
structure BoundToPackage (package : AttestationPackage) (dctlsEvidence : DctlsEvidence)
    (dvrfInput : DvRFInput) (query response : Bytes) : Prop where
  hspProof : dctlsEvidence.hspProof.sessionId = package.sessionContext.sessionId
  queryRecord : dctlsEvidence.queryRecord.sessionId = package.sessionContext.sessionId
  pgpProof : dctlsEvidence.pgpProof.sessionId = package.sessionContext.sessionId
  dvrfInput : ∃ quorumHash, dvrfInput = .forSession package.sessionContext.sessionId
    package.sessionContext.proverId package.sessionContext.nonce package.sessionContext.epoch
    quorumHash
  query : package.transcriptCommitments.query.digest = (TranscriptCommitment.compute "query"
    package.sessionContext.sessionId package.randomnessValue query).digest
  response : package.transcriptCommitments.response.digest =
    (TranscriptCommitment.compute "response" package.sessionContext.sessionId
      package.randomnessValue response).digest

/-- **The comparisons that are not made**, with the session of the handshake, the input of the
randomness, and the digest of the transcript. -/
structure ComparedToPackage (package : AttestationPackage) (dctlsEvidence : DctlsEvidence)
    (dvrfOutput : DvRFOutput) (query response : Bytes) : Prop where
  session : dctlsEvidence.hspProof.sessionId = package.sessionContext.sessionId
  alpha : ∃ quorumHash, dvrfOutput.proof.alphaBytes = (DvRFInput.forSession
    package.sessionContext.sessionId package.sessionContext.proverId package.sessionContext.nonce
    package.sessionContext.epoch quorumHash).bytes.asBytes
  transcript : package.transcriptCommitments.sessionTranscriptDigest =
    (TranscriptCommitments.build package.sessionContext.sessionId package.randomnessValue query
      response).sessionTranscriptDigest

section

variable {F G : Type} [Field F] [AddCommGroup G] [DecidableEq G] [Module F G] {C : FrostCrates F G}
  {v : AuxiliaryVerifier} {package : AttestationPackage} {statement : StatementPayload}
  {dctlsEvidence : DctlsEvidence} {dvrfOutput : DvRFOutput} {dvrfInput : DvRFInput}
  {serverCertHash : DigestBytes} {query response : Bytes} {now : UnixTimestamp} {nowSecs : UInt64}

theorem approved_checkFull_iff :
    (v.checkFull C package statement dctlsEvidence dvrfOutput dvrfInput serverCertHash query
      response now nowSecs).approved = true ↔
      v.basicChecks package statement now = .ok () ∧
        dctlsChecks C package dctlsEvidence dvrfOutput dvrfInput serverCertHash query response
          nowSecs = .ok () := by
  unfold checkFull check
  rcases v.basicChecks package statement now with reason | ⟨⟩
  · simp [result]
  · exact approved_result.trans (by simp)

def transcriptPreimages (package : AttestationPackage) (query response : Bytes) : Set Bytes :=
  let tc := package.transcriptCommitments
  let given := TranscriptCommitments.build package.sessionContext.sessionId package.randomnessValue
    query response
  {(sessionTranscriptHasher package.sessionContext.sessionId tc.query.digest
      tc.response.digest).inner,
    (sessionTranscriptHasher package.sessionContext.sessionId given.query.digest
      given.response.digest).inner}

theorem of_approved_checkFull
    (happ : (v.checkFull C package statement dctlsEvidence dvrfOutput dvrfInput
      serverCertHash query response now nowSecs).approved = true) :
    dctlsEvidence.hspProof.sessionId = dctlsEvidence.queryRecord.sessionId ∧
      dctlsEvidence.hspProof.sessionId = dctlsEvidence.pgpProof.sessionId ∧
      dvrfOutput.proof.alphaBytes = dvrfInput.bytes.asBytes ∧
      package.transcriptCommitments.sessionTranscriptDigest = computeSessionTranscriptDigest
        package.sessionContext.sessionId package.transcriptCommitments.query.digest
        package.transcriptCommitments.response.digest := by
  obtain ⟨hbasic, hdctls⟩ := approved_checkFull_iff.1 happ
  simp only [basicChecks, do_eq_ok] at hbasic
  rw [expectedSessionTranscriptDigest_eq] at hbasic
  obtain ⟨_, _, _, _, _, _, _, _, _, _, _, _, _, _, _, htr, _⟩ := hbasic
  simp only [dctlsChecks, do_eq_ok] at hdctls
  obtain ⟨_, hver, _, _, _, _, _, _, _, _, _, hcons, _⟩ := hdctls
  obtain ⟨hqr, hpgp, -⟩ := verifyTranscriptConsistency_eq_ok.1 hcons
  exact ⟨hqr, hpgp, (FrostDvRF.verify_eq_ok.1 hver).1, htr⟩

/-- **What an approval is missing**: exactly the three comparisons. -/
theorem boundToPackage_iff
    (happ : (v.checkFull C package statement dctlsEvidence dvrfOutput dvrfInput
      serverCertHash query response now nowSecs).approved = true)
    (hhash : NoCollision (transcriptPreimages package query response)) :
    BoundToPackage package dctlsEvidence dvrfInput query response ↔
      ComparedToPackage package dctlsEvidence dvrfOutput query response := by
  obtain ⟨hqr, hpgp, halpha, htr⟩ := of_approved_checkFull happ
  constructor
  · rintro ⟨hses, -, -, ⟨quorumHash, rfl⟩, hquery, hresp⟩
    refine ⟨hses, ⟨quorumHash, halpha⟩, ?_⟩
    rw [htr, hquery, hresp]
    rfl
  · rintro ⟨hses, ⟨quorumHash, hinput⟩, hdig⟩
    rw [htr] at hdig
    obtain ⟨hquery, hresp⟩ := eq_of_sessionTranscriptHasher (hhash.eq hdig)
    refine ⟨hses, hqr ▸ hses, hpgp ▸ hses, ⟨quorumHash, ?_⟩, hquery, hresp⟩
    exact DvRFInput.bytes_injective (DigestBytes.asBytes_injective (halpha.symm.trans hinput))

/-- **Any records will do**, if they were made from an output that verifies. -/
theorem approved_checkFull {sessionId : SessionId} {sps : SessionParamsSecret}
    {spp : SessionParamsPublic} {content : RVec UInt8} {derivationTag : RString}
    (hbasic : v.basicChecks package statement now = .ok ())
    (hver : FrostDvRF.verify C dvrfInput dvrfOutput = .ok ())
    (hrandomness : package.randomnessValue = dvrfOutput.value)
    (hage : ¬ hspProofExpired (.generate sessionId dvrfOutput.value sps spp) nowSecs) :
    (v.checkFull C package statement (.generate sessionId dvrfOutput.value sps spp query response
      content derivationTag) dvrfOutput dvrfInput spp.serverCertHash query response now
        nowSecs).approved = true := by
  refine approved_checkFull_iff.2 ⟨hbasic, ?_⟩
  simp only [dctlsChecks, do_eq_ok]
  exact ⟨(), hver, (), verifyHspProof_generate hage, (), verifyQueryRecord_build _ _ _ _, (),
    verifyPgpProof_generate _ _ _ _ _ _, (), hrandomness, _,
    verifyTranscriptConsistency_eq_ok.2 ⟨rfl, rfl, rfl, rfl, rfl, rfl⟩, trivial⟩

end

/-! ### Records of another session -/

def auditedSession : SessionContext :=
  .new (.fromBytes (.replicate 16 0)) (.fromBytes (.replicate 32 0)) (.fromBytes (.replicate 32 1))
    ⟨.ofList [.fromBytes (.replicate 32 1)], 1⟩ ⟨0⟩ ⟨100⟩ ⟨200⟩ (.fromBytes (.replicate 32 42))

def auditedInput : DvRFInput :=
  .forSession auditedSession.sessionId auditedSession.proverId auditedSession.nonce
    auditedSession.epoch .zero

def auditedOutput : DvRFOutput := FrostDvRF.outputOf toyCrates auditedInput (3 : ℕ) (5 : ℕ)

def auditedPackage : AttestationPackage :=
  .build auditedSession auditedOutput.value
    (.build auditedSession.sessionId auditedOutput.value [0x51] [0x52])
    (.new (.ofString dctlsEngineTag) (.ofList []))

def auditedStatement : StatementPayload :=
  .new (.ofList [1]) (.ofString "result/v1")
    auditedPackage.transcriptCommitments.sessionTranscriptDigest

def auditedParams : SessionParamsPublic where
  serverCertHash := .zero
  tlsVersion := 0x0304
  serverName := .ofString "example.org"
  establishedAt := 100

def auditedEvidence (sessionId : SessionId) (query response : Bytes) : DctlsEvidence :=
  .generate sessionId auditedOutput.value ⟨.zero, .zero⟩ auditedParams query response
    (.ofList [1]) (.ofString "result/v1")

def auditor : AuxiliaryVerifier := ⟨.fromBytes (.replicate 32 1), .permissive⟩

theorem approved_auditedEvidence (sessionId : SessionId) (query response : Bytes) :
    (auditor.checkFull toyCrates auditedPackage auditedStatement
      (auditedEvidence sessionId query response) auditedOutput auditedInput
        auditedParams.serverCertHash query response ⟨150⟩ 150).approved = true := by
  have hbasic : auditor.basicChecks auditedPackage auditedStatement ⟨150⟩ = .ok () :=
    basicChecks_build rfl rfl rfl (by decide) (.inl rfl) (by decide)
  have hver : FrostDvRF.verify toyCrates auditedInput auditedOutput = .ok () :=
    FrostDvRF.verify_outputOf (by decide) (by decide)
  refine approved_checkFull hbasic hver rfl fun h => ?_
  exact absurd (show hspProofMaxAgeSecs < 150 - auditedParams.establishedAt from h.2.2) (by decide)

/-- The records of the package's own session are bound to it. -/
theorem boundToPackage_auditedEvidence :
    BoundToPackage auditedPackage (auditedEvidence auditedSession.sessionId [0x51] [0x52])
      auditedInput [0x51] [0x52] := by
  refine (boundToPackage_iff (approved_auditedEvidence _ _ _) ?_).2 ⟨rfl, ⟨.zero, rfl⟩, rfl⟩
  -- Both transcripts hash the same string.
  exact NoCollision.self _

/-- Records of another session are approved. -/
theorem not_boundToPackage_auditedEvidence :
    (auditor.checkFull toyCrates auditedPackage auditedStatement
      (auditedEvidence (.fromBytes (.replicate 16 1)) [0x53] [0x54]) auditedOutput auditedInput
        auditedParams.serverCertHash [0x53] [0x54] ⟨150⟩ 150).approved = true ∧
      ¬ BoundToPackage auditedPackage
        (auditedEvidence (.fromBytes (.replicate 16 1)) [0x53] [0x54]) auditedInput [0x53] [0x54] :=
  ⟨approved_auditedEvidence _ _ _, fun h => absurd h.hspProof (by decide)⟩

end AuxiliaryVerifier

end TlsAttestation
