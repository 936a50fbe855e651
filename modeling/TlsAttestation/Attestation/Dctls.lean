import TlsAttestation.Attestation.Package

/-!
# The proofs of a TLS session

`tls_attestation_attestation::dctls`: three records about one session, with a hash over each. A
check of one takes the session from it; `verifyTranscriptConsistency` compares the three. Records
that were made together pass (`DctlsEvidence.verifyAll_generate`).
-/

namespace TlsAttestation

open ByteEncoding Fallible

def dctlsEngineTag : String := "dx-dctls/commitment-v1"

/-! ### Errors -/

inductive DctlsError where
  | randMismatch
  | commitmentMismatch (which : String)
  | proofBindingMismatch (which : String)
  | certHashMismatch
  | unknownEngineTag (tag : String)
  | zkProofFailed (reason : String)
deriving DecidableEq

def DctlsError.display : DctlsError → String
  | .randMismatch => "DVRF randomness mismatch"
  | .commitmentMismatch which => s!"commitment mismatch: {which}"
  | .proofBindingMismatch which => s!"proof binding mismatch: {which}"
  | .certHashMismatch => "certificate hash mismatch"
  | .unknownEngineTag tag => s!"unknown engine tag: {tag}"
  | .zkProofFailed reason => s!"ZK proof failed: {reason}"

/-! ### The handshake -/

structure SessionParamsSecret where
  dvrfExporter : DigestBytes
  sessionNonce : DigestBytes
deriving DecidableEq

structure SessionParamsPublic where
  serverCertHash : DigestBytes
  tlsVersion : UInt16
  serverName : RString
  establishedAt : UInt64
deriving DecidableEq

/-- Evidence that the session was established with the randomness. -/
structure HSPProof where
  sessionId : SessionId
  (randValue dvrfExporter commitment serverCertHash handshakeTranscriptHash : DigestBytes)
  tlsVersion : UInt16
  serverName : RString
  establishedAt : UInt64
  engineTag : String
  zkProof : Option Bytes
  zkBinding : Option DigestBytes
deriving DecidableEq

namespace HSPProof

def computeHandshakeTranscriptHash (serverCertHash : DigestBytes) (tlsVersion : UInt16)
    (serverName : String) (establishedAt : UInt64) : DigestBytes :=
  (CanonicalHasher.new "tls-attestation/hsp-ht/v1")
    |>.updateDigest serverCertHash
    |>.updateU64 tlsVersion.toUInt64
    |>.updateBytes (strBytes serverName)
    |>.updateU64 establishedAt
    |>.finalize

def computeCommitment (sessionId : SessionId)
    (randValue dvrfExporter serverCertHash handshakeTranscriptHash : DigestBytes) : DigestBytes :=
  (CanonicalHasher.new "tls-attestation/hsp/v1")
    |>.updateFixed sessionId.asBytes
    |>.updateDigest randValue
    |>.updateDigest dvrfExporter
    |>.updateDigest serverCertHash
    |>.updateDigest handshakeTranscriptHash
    |>.finalize

def generate (sessionId : SessionId) (randValue : DigestBytes) (sps : SessionParamsSecret)
    (spp : SessionParamsPublic) : HSPProof :=
  let handshakeTranscriptHash := computeHandshakeTranscriptHash spp.serverCertHash spp.tlsVersion
    spp.serverName.1 spp.establishedAt
  { sessionId, randValue, handshakeTranscriptHash
    dvrfExporter := sps.dvrfExporter
    commitment := computeCommitment sessionId randValue sps.dvrfExporter spp.serverCertHash
      handshakeTranscriptHash
    serverCertHash := spp.serverCertHash
    tlsVersion := spp.tlsVersion
    serverName := spp.serverName
    establishedAt := spp.establishedAt
    engineTag := dctlsEngineTag
    zkProof := none
    zkBinding := none }

def proofDigest (p : HSPProof) : DigestBytes :=
  (CanonicalHasher.new "tls-attestation/hsp-proof/v1")
    |>.updateFixed p.sessionId.asBytes
    |>.updateDigest p.randValue
    |>.updateDigest p.commitment
    |>.updateDigest p.serverCertHash
    |>.updateDigest p.handshakeTranscriptHash
    |>.finalize

end HSPProof

def hspProofMaxAgeSecs : UInt64 := 24 * 3600

/-- Too long ago; no time, or one in the future, is not. -/
def hspProofExpired (proof : HSPProof) (nowSecs : UInt64) : Prop :=
  0 < proof.establishedAt ∧ proof.establishedAt < nowSecs ∧
    hspProofMaxAgeSecs < nowSecs - proof.establishedAt

instance (proof : HSPProof) (nowSecs : UInt64) : Decidable (hspProofExpired proof nowSecs) :=
  inferInstanceAs (Decidable (_ ∧ _ ∧ _))

/-- Checks a handshake proof against the randomness and the certificate the verifier expects, and
its age. `debugStr` is how `{:?}` prints a string, which rests on tables of Unicode; it only shows
in the text of an error. -/
def verifyHspProof (debugStr : String → String) (nowSecs : UInt64) (proof : HSPProof)
    (expectedRand expectedServerCertHash : DigestBytes) : Except DctlsError Unit := do
  ensure (proof.engineTag = dctlsEngineTag)
    (.commitmentMismatch ("engine_tag mismatch: expected " ++ debugStr dctlsEngineTag ++
      ", got " ++ debugStr proof.engineTag))
  ensure (proof.randValue = expectedRand) .randMismatch
  ensure (proof.serverCertHash = expectedServerCertHash) .certHashMismatch
  ensure (proof.zkProof = none)
    (.commitmentMismatch ("zk_proof present but no verifying key supplied — " ++
      "use verify_hsp_proof_with_zk instead"))
  ensure (¬ hspProofExpired proof nowSecs)
    (.commitmentMismatch (s!"HSP proof has expired (established_at={proof.establishedAt}, " ++
      s!"age={nowSecs - proof.establishedAt}s, max={hspProofMaxAgeSecs}s)"))
  ensure (proof.handshakeTranscriptHash = HSPProof.computeHandshakeTranscriptHash
      proof.serverCertHash proof.tlsVersion proof.serverName.1 proof.establishedAt)
    (.commitmentMismatch "handshake_transcript_hash")
  ensure (proof.commitment = HSPProof.computeCommitment proof.sessionId proof.randValue
      proof.dvrfExporter proof.serverCertHash proof.handshakeTranscriptHash)
    (.commitmentMismatch "HSP commitment")

/-! ### The exchange -/

structure QueryRecord where
  sessionId : SessionId
  (randValue queryCommitment responseCommitment transcriptCommitment : DigestBytes)
deriving DecidableEq

namespace QueryRecord

def sideCommitment (domain : String) (sessionId : SessionId) (randValue : DigestBytes)
    (data : Bytes) : DigestBytes :=
  (CanonicalHasher.new domain)
    |>.updateFixed sessionId.asBytes
    |>.updateDigest randValue
    |>.updateBytes data
    |>.finalize

def computeQueryCommitment : SessionId → DigestBytes → Bytes → DigestBytes :=
  sideCommitment "tls-attestation/query-commitment/v1"

def computeResponseCommitment : SessionId → DigestBytes → Bytes → DigestBytes :=
  sideCommitment "tls-attestation/response-commitment/v1"

def computeTranscriptCommitment (queryCommitment responseCommitment : DigestBytes) :
    DigestBytes :=
  (CanonicalHasher.new "tls-attestation/qp-transcript/v1")
    |>.updateDigest queryCommitment
    |>.updateDigest responseCommitment
    |>.finalize

def build (sessionId : SessionId) (randValue : DigestBytes) (query response : Bytes) :
    QueryRecord :=
  let queryCommitment := computeQueryCommitment sessionId randValue query
  let responseCommitment := computeResponseCommitment sessionId randValue response
  { sessionId, randValue, queryCommitment, responseCommitment
    transcriptCommitment := computeTranscriptCommitment queryCommitment responseCommitment }

end QueryRecord

/-- Recompute the three commitments of a record, from the query and the response. -/
def verifyQueryRecord (record : QueryRecord) (query response : Bytes) :
    Except DctlsError Unit := do
  ensure (record.queryCommitment =
      QueryRecord.computeQueryCommitment record.sessionId record.randValue query)
    (.commitmentMismatch "query commitment")
  ensure (record.responseCommitment =
      QueryRecord.computeResponseCommitment record.sessionId record.randValue response)
    (.commitmentMismatch "response commitment")
  ensure (record.transcriptCommitment = QueryRecord.computeTranscriptCommitment
      record.queryCommitment record.responseCommitment)
    (.commitmentMismatch "QP transcript commitment")

/-! ### The statement -/

structure Statement where
  content : RVec UInt8
  derivationTag : RString
  statementDigest : DigestBytes
deriving DecidableEq

def Statement.computeDigest (content : Bytes) (derivationTag : String)
    (transcriptCommitment : DigestBytes) : DigestBytes :=
  (CanonicalHasher.new "tls-attestation/pgp-statement/v1")
    |>.updateBytes (strBytes derivationTag)
    |>.updateDigest transcriptCommitment
    |>.updateBytes content
    |>.finalize

def Statement.derive (content : RVec UInt8) (derivationTag : RString)
    (transcriptCommitment : DigestBytes) : Statement where
  content := content
  derivationTag := derivationTag
  statementDigest := computeDigest content.1 derivationTag.1 transcriptCommitment

structure PGPProof where
  sessionId : SessionId
  statement : Statement
  (pgpCommitment hspProofDigest qpTranscriptCommitment : DigestBytes)
deriving DecidableEq

namespace PGPProof

def computeCommitment (sessionId : SessionId)
    (randValue qpTranscriptCommitment statementDigest hspCommitment : DigestBytes) :
    DigestBytes :=
  (CanonicalHasher.new "tls-attestation/pgp/v1")
    |>.updateFixed sessionId.asBytes
    |>.updateDigest randValue
    |>.updateDigest qpTranscriptCommitment
    |>.updateDigest statementDigest
    |>.updateDigest hspCommitment
    |>.finalize

def generate (sessionId : SessionId) (randValue : DigestBytes) (qp : QueryRecord)
    (statement : Statement) (hspProof : HSPProof) : PGPProof where
  sessionId := sessionId
  statement := statement
  pgpCommitment := computeCommitment sessionId randValue qp.transcriptCommitment
    statement.statementDigest hspProof.commitment
  hspProofDigest := hspProof.proofDigest
  qpTranscriptCommitment := qp.transcriptCommitment

end PGPProof

/-- Recompute the commitment and the digest of the statement, and ask for the same handshake. -/
def verifyPgpProof (proof : PGPProof) (randValue : DigestBytes) (hspProof : HSPProof) :
    Except DctlsError Unit := do
  ensure (proof.pgpCommitment = PGPProof.computeCommitment proof.sessionId randValue
      proof.qpTranscriptCommitment proof.statement.statementDigest hspProof.commitment)
    (.commitmentMismatch "PGP commitment")
  ensure (proof.hspProofDigest = hspProof.proofDigest) (.proofBindingMismatch "HSP proof digest")
  ensure (proof.statement.statementDigest = Statement.computeDigest proof.statement.content.1
      proof.statement.derivationTag.1 proof.qpTranscriptCommitment)
    (.commitmentMismatch "statement digest")

/-! ### The three together -/

structure TranscriptBinding where
  sessionId : SessionId
  (randValue hspCommitment qpTranscriptCommitment pgpCommitment bindingDigest : DigestBytes)
deriving DecidableEq

def TranscriptBinding.build (hsp : HSPProof) (qr : QueryRecord) (pgp : PGPProof) :
    TranscriptBinding where
  sessionId := hsp.sessionId
  randValue := hsp.randValue
  hspCommitment := hsp.commitment
  qpTranscriptCommitment := qr.transcriptCommitment
  pgpCommitment := pgp.pgpCommitment
  bindingDigest := (CanonicalHasher.new "tls-attestation/transcript-binding/v1")
    |>.updateFixed hsp.sessionId.asBytes
    |>.updateDigest hsp.randValue
    |>.updateDigest hsp.commitment
    |>.updateDigest qr.transcriptCommitment
    |>.updateDigest pgp.pgpCommitment
    |>.finalize

/-- The three records are of one session, with one transcript and one handshake; the randomness is
compared in the first two only. -/
def verifyTranscriptConsistency (hsp : HSPProof) (qr : QueryRecord) (pgp : PGPProof) :
    Except DctlsError TranscriptBinding := do
  ensure (hsp.sessionId = qr.sessionId)
    (.proofBindingMismatch "HSP session_id does not match QP session_id")
  ensure (hsp.sessionId = pgp.sessionId)
    (.proofBindingMismatch "HSP session_id does not match PGP session_id")
  ensure (hsp.randValue = qr.randValue) .randMismatch
  ensure (pgp.qpTranscriptCommitment = qr.transcriptCommitment)
    (.proofBindingMismatch "PGP qp_transcript_commitment does not match QP transcript")
  ensure (pgp.hspProofDigest = hsp.proofDigest)
    (.proofBindingMismatch "PGP hsp_proof_digest does not match HSP proof")
  return .build hsp qr pgp

structure DctlsEvidence where
  hspProof : HSPProof
  queryRecord : QueryRecord
  pgpProof : PGPProof
deriving DecidableEq

namespace DctlsEvidence

/-- Each record by itself, and then the three with each other. -/
def verifyAll (debugStr : String → String) (nowSecs : UInt64) (e : DctlsEvidence)
    (randValue serverCertHash : DigestBytes) (query response : Bytes) : Except DctlsError TranscriptBinding := do
  verifyHspProof debugStr nowSecs e.hspProof randValue serverCertHash
  verifyQueryRecord e.queryRecord query response
  verifyPgpProof e.pgpProof randValue e.hspProof
  verifyTranscriptConsistency e.hspProof e.queryRecord e.pgpProof

def generate (sessionId : SessionId) (randValue : DigestBytes) (sps : SessionParamsSecret)
    (spp : SessionParamsPublic) (query response : Bytes) (content : RVec UInt8)
    (derivationTag : RString) : DctlsEvidence :=
  let hspProof := HSPProof.generate sessionId randValue sps spp
  let queryRecord := QueryRecord.build sessionId randValue query response
  let statement := Statement.derive content derivationTag queryRecord.transcriptCommitment
  ⟨hspProof, queryRecord, PGPProof.generate sessionId randValue queryRecord statement hspProof⟩

end DctlsEvidence

/-! ### What the checks let through -/

/-- **Consistent records** are of one session and one randomness, and refer to each other. -/
theorem verifyTranscriptConsistency_eq_ok {hsp : HSPProof} {qr : QueryRecord} {pgp : PGPProof}
    {b : TranscriptBinding} :
    verifyTranscriptConsistency hsp qr pgp = .ok b ↔
      hsp.sessionId = qr.sessionId ∧ hsp.sessionId = pgp.sessionId ∧
      hsp.randValue = qr.randValue ∧ pgp.qpTranscriptCommitment = qr.transcriptCommitment ∧
      pgp.hspProofDigest = hsp.proofDigest ∧ TranscriptBinding.build hsp qr pgp = b := by
  simp only [verifyTranscriptConsistency, do_eq_ok]
  constructor
  · rintro ⟨_, hqr, _, hpgp, _, hrand, _, htr, _, hdig, hb⟩
    exact ⟨hqr, hpgp, hrand, htr, hdig, hb⟩
  · rintro ⟨hqr, hpgp, hrand, htr, hdig, hb⟩
    exact ⟨(), hqr, (), hpgp, (), hrand, (), htr, (), hdig, hb⟩

structure HSPProof.Matches (proof : HSPProof) (expectedRand expectedServerCertHash : DigestBytes) :
    Prop where
  engineTag : proof.engineTag = dctlsEngineTag
  randValue : proof.randValue = expectedRand
  serverCertHash : proof.serverCertHash = expectedServerCertHash
  zkProof : proof.zkProof = none
  handshakeTranscriptHash : proof.handshakeTranscriptHash = computeHandshakeTranscriptHash
    proof.serverCertHash proof.tlsVersion proof.serverName.1 proof.establishedAt
  commitment : proof.commitment = computeCommitment proof.sessionId proof.randValue
    proof.dvrfExporter proof.serverCertHash proof.handshakeTranscriptHash

variable {debugStr : String → String} {nowSecs : UInt64}

/-- **A handshake proof passes** if it matches and is not too old. -/
theorem verifyHspProof_eq_ok {proof : HSPProof}
    {expectedRand expectedServerCertHash : DigestBytes} :
    verifyHspProof debugStr nowSecs proof expectedRand expectedServerCertHash = .ok () ↔
      proof.Matches expectedRand expectedServerCertHash ∧ ¬ hspProofExpired proof nowSecs := by
  simp only [verifyHspProof, do_eq_ok]
  constructor
  · rintro ⟨_, htag, _, hrand, _, hcert, _, hzk, _, hage, _, hht, hhsp⟩
    exact ⟨⟨htag, hrand, hcert, hzk, hht, hhsp⟩, hage⟩
  · rintro ⟨⟨htag, hrand, hcert, hzk, hht, hhsp⟩, hage⟩
    exact ⟨(), htag, (), hrand, (), hcert, (), hzk, (), hage, (), hht, hhsp⟩

theorem not_hspProofExpired_iff {proof : HSPProof} :
    ¬ hspProofExpired proof nowSecs ↔ proof.establishedAt = 0 ∨ nowSecs ≤ proof.establishedAt ∨
      nowSecs.toNat ≤ proof.establishedAt.toNat + hspProofMaxAgeSecs.toNat := by
  have hzero : (0 : UInt64).toNat = 0 := rfl
  simp only [hspProofExpired, not_and, ← UInt64.toNat_inj, UInt64.le_iff_toNat_le,
    UInt64.lt_iff_toNat_lt, hzero]
  by_cases hlt : proof.establishedAt.toNat < nowSecs.toNat
  · rw [UInt64.toNat_sub_of_le _ _ (UInt64.le_iff_toNat_le.2 hlt.le)]
    omega
  · omega

theorem verifyHspProof_generate {sessionId : SessionId} {randValue : DigestBytes}
    {sps : SessionParamsSecret} {spp : SessionParamsPublic}
    (hage : ¬ hspProofExpired (.generate sessionId randValue sps spp) nowSecs) :
    verifyHspProof debugStr nowSecs (.generate sessionId randValue sps spp) randValue
      spp.serverCertHash =
      .ok () := by
  exact verifyHspProof_eq_ok.2 ⟨⟨rfl, rfl, rfl, rfl, rfl, rfl⟩, hage⟩

theorem verifyQueryRecord_build (sessionId : SessionId) (randValue : DigestBytes)
    (query response : Bytes) :
    verifyQueryRecord (.build sessionId randValue query response) query response = .ok () := by
  simp only [verifyQueryRecord, do_eq_ok]
  exact ⟨(), rfl, (), rfl, rfl⟩

theorem verifyPgpProof_generate (sessionId : SessionId) (randValue : DigestBytes)
    (qp : QueryRecord) (content : RVec UInt8) (derivationTag : RString) (hspProof : HSPProof) :
    verifyPgpProof (.generate sessionId randValue qp
      (.derive content derivationTag qp.transcriptCommitment) hspProof) randValue hspProof =
        .ok () := by
  simp only [verifyPgpProof, do_eq_ok]
  exact ⟨(), rfl, (), rfl, rfl⟩

/-- Records made together pass all checks. -/
theorem DctlsEvidence.verifyAll_generate {sessionId : SessionId} {randValue : DigestBytes}
    {sps : SessionParamsSecret} {spp : SessionParamsPublic}
    (hage : ¬ hspProofExpired (.generate sessionId randValue sps spp) nowSecs)
    (query response : Bytes) (content : RVec UInt8) (derivationTag : RString) :
    ∃ b, (generate sessionId randValue sps spp query response content derivationTag).verifyAll
      debugStr nowSecs randValue spp.serverCertHash query response = .ok b := by
  simp only [verifyAll, bind_eq_ok]
  exact ⟨_, (), verifyHspProof_generate hage, (), verifyQueryRecord_build _ _ _ _, (),
    verifyPgpProof_generate _ _ _ _ _ _,
    verifyTranscriptConsistency_eq_ok.2 ⟨rfl, rfl, rfl, rfl, rfl, rfl⟩⟩

/-! ### How old a checked proof can be

The time of the handshake is chosen by the prover. A proof that says 0 is never too old, and
neither is one that names a time to come, until that time is a day ago.
-/

def HSPProof.EstablishedWithin (proof : HSPProof) (nowSecs : UInt64) : Prop :=
  (nowSecs.toNat : ℤ) - hspProofMaxAgeSecs.toNat ≤ proof.establishedAt.toNat ∧
    proof.establishedAt ≤ nowSecs

/-- **Freshness of an accepted proof**: exactly for proofs that do not match anyway, or whose time
is not in the future and, once the clock is past the first day, not 0. -/
theorem establishedWithin_of_verifyHspProof_iff (nowSecs : UInt64) (proof : HSPProof)
    (expectedRand expectedServerCertHash : DigestBytes) :
    (verifyHspProof debugStr nowSecs proof expectedRand expectedServerCertHash = .ok () →
        proof.EstablishedWithin nowSecs) ↔
      (proof.Matches expectedRand expectedServerCertHash → proof.establishedAt ≤ nowSecs ∧
        (proof.establishedAt = 0 → nowSecs ≤ hspProofMaxAgeSecs)) := by
  have hzero : (0 : UInt64).toNat = 0 := rfl
  simp only [verifyHspProof_eq_ok, not_hspProofExpired_iff, HSPProof.EstablishedWithin, and_imp]
  simp only [← UInt64.toNat_inj, UInt64.le_iff_toNat_le, hzero]
  refine forall_congr' fun _ => ?_
  omega

def undatedProof : HSPProof :=
  .generate ⟨.replicate 16 0⟩ .zero ⟨.zero, .zero⟩ ⟨.zero, 0x0304, .ofString "bank.example", 0⟩

/-- A proof without a time is accepted forever. -/
theorem verifyHspProof_undatedProof :
    (∀ debugStr nowSecs, verifyHspProof debugStr nowSecs undatedProof .zero .zero = .ok ()) ∧
      ¬ undatedProof.EstablishedWithin 1700000000 := by
  refine ⟨fun _ _ => verifyHspProof_generate (not_hspProofExpired_iff.2 (.inl rfl)), ?_⟩
  have hestablished : undatedProof.establishedAt = 0 := rfl
  simp only [HSPProof.EstablishedWithin, hestablished]
  decide

end TlsAttestation
