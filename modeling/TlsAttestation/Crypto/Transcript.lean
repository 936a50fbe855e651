import TlsAttestation.Core.CanonicalRuns

/-!
# Transcript commitments

`tls_attestation_crypto::transcript`: query and response, each committed to under the session and
its randomness, and one digest over both commitments.
-/

namespace TlsAttestation

open ByteEncoding

structure TranscriptCommitment where
  role : String
  digest : DigestBytes
deriving DecidableEq

namespace TranscriptCommitment

def compute (role : String) (sessionId : SessionId) (randomnessValue : DigestBytes)
    (data : Bytes) : TranscriptCommitment where
  role := role
  digest := (CanonicalHasher.new s!"tls-attestation/transcript/{role}/v1")
    |>.updateFixed sessionId.asBytes
    |>.updateDigest randomnessValue
    |>.updateBytes data
    |>.finalize

end TranscriptCommitment

structure TranscriptCommitments where
  query : TranscriptCommitment
  response : TranscriptCommitment
  sessionTranscriptDigest : DigestBytes
deriving DecidableEq

variable (sessionId : SessionId) (query response : DigestBytes)

def sessionTranscriptHasher :
    CanonicalHasher :=
  (CanonicalHasher.new "tls-attestation/session-transcript/v1")
    |>.updateFixed sessionId.asBytes
    |>.updateDigest query
    |>.updateDigest response

def computeSessionTranscriptDigest :
    DigestBytes :=
  (sessionTranscriptHasher sessionId query response).finalize

theorem eq_of_sessionTranscriptHasher {s s' : SessionId} {q q' r r' : DigestBytes}
    (h : (sessionTranscriptHasher s q r).inner = (sessionTranscriptHasher s' q' r').inner) :
    q = q' ∧ r = r' := by
  have hupd := CanonicalHasher.run_inj [⟨.fixed 16, s.asBytes⟩, ⟨.digest, q⟩, ⟨.digest, r⟩]
    [⟨.fixed 16, s'.asBytes⟩, ⟨.digest, q'⟩, ⟨.digest, r'⟩] h rfl
  simp only [List.cons.injEq, Sigma.mk.injEq, heq_eq_eq, true_and, and_true] at hupd
  exact hupd.2

def TranscriptCommitments.build (randomnessValue : DigestBytes)
    (query response : Bytes) : TranscriptCommitments :=
  let queryCommitment := TranscriptCommitment.compute "query" sessionId randomnessValue query
  let responseCommitment :=
    TranscriptCommitment.compute "response" sessionId randomnessValue response
  { query := queryCommitment
    response := responseCommitment
    sessionTranscriptDigest :=
      computeSessionTranscriptDigest sessionId queryCommitment.digest responseCommitment.digest }

end TlsAttestation
