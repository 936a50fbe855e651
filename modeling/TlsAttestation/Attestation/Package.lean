import TlsAttestation.Attestation.Session
import TlsAttestation.Crypto.Transcript

/-!
# Statements and packages

`tls_attestation_attestation::statement` and the data of `tls_attestation_attestation::engine`. Each
carries its own digest, computed by the constructor and recomputed by whoever checks.
-/

namespace TlsAttestation

open ByteEncoding

/-! ### Statements -/

structure StatementPayload where
  content : RVec UInt8
  derivationTag : RString
  statementDigest : DigestBytes
deriving DecidableEq

def deriveStatementDigest (derivationTag : String) (sessionTranscriptDigest : DigestBytes)
    (content : Bytes) : DigestBytes :=
  (CanonicalHasher.new "tls-attestation/statement/v1")
    |>.updateBytes (strBytes derivationTag)
    |>.updateDigest sessionTranscriptDigest
    |>.updateBytes content
    |>.finalize

namespace StatementPayload

def new (content : RVec UInt8) (derivationTag : RString) (sessionTranscriptDigest : DigestBytes) :
    StatementPayload where
  content := content
  derivationTag := derivationTag
  statementDigest := deriveStatementDigest derivationTag.1 sessionTranscriptDigest content.1

def verifyDigest (s : StatementPayload) (sessionTranscriptDigest : DigestBytes) : Bool :=
  s.statementDigest = deriveStatementDigest s.derivationTag.1 sessionTranscriptDigest s.content.1

end StatementPayload

/-! ### Evidence and packages -/

structure ExportableEvidence where
  engineTag : RString
  bytes : RVec UInt8
  evidenceDigest : DigestBytes
deriving DecidableEq

def computeEvidenceDigest (engineTag : String) (bytes : Bytes) : DigestBytes :=
  (CanonicalHasher.new "tls-attestation/evidence/v1")
    |>.updateBytes (strBytes engineTag)
    |>.updateBytes bytes
    |>.finalize

def ExportableEvidence.new (engineTag : RString) (bytes : RVec UInt8) : ExportableEvidence where
  engineTag := engineTag
  bytes := bytes
  evidenceDigest := computeEvidenceDigest engineTag.1 bytes.1

structure CoordinatorEvidence where
  engineTag : RString
  evidenceDigest : DigestBytes
  packageDigest : DigestBytes
deriving DecidableEq

structure AttestationPackage where
  sessionContext : SessionContext
  randomnessValue : DigestBytes
  transcriptCommitments : TranscriptCommitments
  evidence : ExportableEvidence
  packageDigest : DigestBytes
deriving DecidableEq

namespace AttestationPackage

def computeDigest (sessionDigest randomnessValue sessionTranscriptDigest evidenceDigest :
    DigestBytes) : DigestBytes :=
  (CanonicalHasher.new "tls-attestation/attestation-package/v1")
    |>.updateDigest sessionDigest
    |>.updateDigest randomnessValue
    |>.updateDigest sessionTranscriptDigest
    |>.updateDigest evidenceDigest
    |>.finalize

def build (sessionContext : SessionContext) (randomnessValue : DigestBytes)
    (transcriptCommitments : TranscriptCommitments) (evidence : ExportableEvidence) :
    AttestationPackage where
  sessionContext := sessionContext
  randomnessValue := randomnessValue
  transcriptCommitments := transcriptCommitments
  evidence := evidence
  packageDigest := computeDigest sessionContext.sessionDigest randomnessValue
    transcriptCommitments.sessionTranscriptDigest evidence.evidenceDigest

end AttestationPackage

/-! ### The prototype engine -/

def prototypeEngineTag : RString := .ofString "prototype-attestation/v1"

/-- The prototype engine: its evidence has the lengths of query and response only. -/
def PrototypeAttestationEngine.execute (session : SessionContext) (randomness : DigestBytes)
    (query response : Bytes) :
    Except AttestationError (TranscriptCommitments × ExportableEvidence) :=
  let evidenceBytes := strBytes ("\x7b\"engine\":\"prototype\",\"query_len\":" ++
    toString query.length ++ ",\"response_len\":" ++ toString response.length ++
    ",\"session_id\":\"" ++ session.sessionId.display ++ "\"\x7d")
  .ok (.build session.sessionId randomness query response,
    .new prototypeEngineTag (.ofList evidenceBytes))

end TlsAttestation
