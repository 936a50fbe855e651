import TlsAttestation.Attestation.Verify

/-!
# Engines and their packages

`tls_attestation_attestation::engine`: the two engines that need no network. A package that was made
with the constructors is approved whenever policy and time admit it
(`AuxiliaryVerifier.honestPackage_approved`).
-/

namespace TlsAttestation

open ByteEncoding

/-! ### The prototype of the dx-DCTLS engine -/

namespace PrototypeDctlsEngine

def dvrfExporter (session : SessionContext) (randomness : DigestBytes) : DigestBytes :=
  (CanonicalHasher.new "tls-attestation/prototype-exporter/v1")
    |>.updateFixed session.sessionId.asBytes
    |>.updateDigest randomness
    |>.finalize

def sessionNonce (session : SessionContext) : DigestBytes :=
  (CanonicalHasher.new "tls-attestation/prototype-session-nonce/v1")
    |>.updateFixed session.sessionId.asBytes
    |>.finalize

def dctlsEvidence (session : SessionContext) (randomness : DigestBytes) (query response : Bytes)
    (serverCertHash : DigestBytes) : DctlsEvidence :=
  let sps : SessionParamsSecret := ⟨dvrfExporter session randomness, sessionNonce session⟩
  let spp : SessionParamsPublic :=
    { serverCertHash
      tlsVersion := 0x0304
      serverName := .ofString s!"prototype-server/{session.sessionId.display}"
      establishedAt := session.createdAt.secs }
  let hspProof := HSPProof.generate session.sessionId randomness sps spp
  let queryRecord := QueryRecord.build session.sessionId randomness query response
  let statement := Statement.derive (.ofList (strBytes "attested-session"))
    (.ofString "dx-dctls/prototype-statement/v1")
    queryRecord.transcriptCommitment
  ⟨hspProof, queryRecord,
    PGPProof.generate session.sessionId randomness queryRecord statement hspProof⟩

variable (toVec : DctlsEvidence → Except String (RVec UInt8))

/-- The records of a session, with commitments. Evidence that cannot be serialized becomes `{}`. -/
def executeDctls (session : SessionContext) (randomness : DigestBytes) (query response : Bytes)
    (serverCertHash : DigestBytes) :
    Except AttestationError (TranscriptCommitments × ExportableEvidence × DctlsEvidence) :=
  let evidence := dctlsEvidence session randomness query response serverCertHash
  let transcriptCommitments :=
    TranscriptCommitments.build session.sessionId randomness query response
  let evidenceBytes :=
    match toVec evidence with
    | .ok bytes => bytes
    | .error _ => .ofList (strBytes "\x7b\x7d")
  .ok (transcriptCommitments, .new (.ofString dctlsEngineTag) evidenceBytes, evidence)

/-- **The engine** as the coordinator calls it, with the certificate zero. -/
def execute (session : SessionContext) (randomness : DigestBytes) (query response : Bytes) :
    Except AttestationError (TranscriptCommitments × ExportableEvidence) := do
  let (tc, ev, _) ← executeDctls toVec session randomness query response
    (.fromBytes (.replicate 32 0))
  return (tc, ev)

end PrototypeDctlsEngine

/-! ### What engines return -/

/-- It commits to its transcript, and exports evidence under its tag. -/
def Commits (engineTag : String) (execute : SessionContext → DigestBytes → Bytes → Bytes →
    Except AttestationError (TranscriptCommitments × ExportableEvidence)) : Prop :=
  ∀ session randomness query response, ∃ (tag : RString) (bytes : RVec UInt8), tag.1 = engineTag ∧
    execute session randomness query response =
      .ok (.build session.sessionId randomness query response, .new tag bytes)

theorem commits_prototypeAttestationEngine :
    Commits prototypeEngineTag.1 PrototypeAttestationEngine.execute :=
  fun _ _ _ _ => ⟨prototypeEngineTag, _, rfl, rfl⟩

theorem commits_prototypeDctlsEngine (toVec : DctlsEvidence → Except String (RVec UInt8)) :
    Commits dctlsEngineTag (PrototypeDctlsEngine.execute toVec) :=
  fun _ _ _ _ => ⟨.ofString dctlsEngineTag, _, rfl, rfl⟩

namespace AuxiliaryVerifier

/-- What the verifier asks beyond the digests. -/
structure Admits (v : AuxiliaryVerifier) (sc : SessionContext) (engineTag derivationTag : String)
    (now : UnixTimestamp) : Prop where
  time : now.secs ≤ sc.expiresAt.secs
  engine : engineTag ∈ v.policy.allowedEngineTags
  statement : v.policy.allowedStatementTags = [] ∨ derivationTag ∈ v.policy.allowedStatementTags
  duration : saturatingSub sc.expiresAt.secs sc.createdAt.secs ≤ v.policy.maxSessionDurationSecs

variable {execute : SessionContext → DigestBytes → Bytes → Bytes →
  Except AttestationError (TranscriptCommitments × ExportableEvidence)}

/-- The package of an engine that commits is approved. -/
theorem check_build_of_commits {engineTag : String}
    (hexec : Commits engineTag execute) {v : AuxiliaryVerifier} {sc : SessionContext}
    (hdig : sc.sessionDigest = SessionContext.computeDigest sc.sessionId sc.proverId
      sc.coordinatorId sc.quorum sc.epoch sc.createdAt sc.expiresAt sc.nonce)
    {derivationTag : RString} {now : UnixTimestamp}
    (hadmits : v.Admits sc engineTag derivationTag.1 now) (randomness : DigestBytes)
    (query response : Bytes) (content : RVec UInt8) :
    ∃ tc evidence, execute sc randomness query response = .ok (tc, evidence) ∧
      let package := AttestationPackage.build sc randomness tc evidence
      v.check package (.new content derivationTag tc.sessionTranscriptDigest) now =
        ⟨v.verifierId, package.packageDigest, true, none⟩ := by
  obtain ⟨tag, bytes, rfl, hok⟩ := hexec sc randomness query response
  have hnow : sc.isExpired now = false := by
    rw [SessionContext.isExpired, UnixTimestamp.hasExpired, decide_eq_false_iff_not]
    exact UInt64.not_lt.2 hadmits.time
  have hchk : v.basicChecks
      (.build sc randomness (.build sc.sessionId randomness query response) (.new tag bytes))
      (.new content derivationTag (TranscriptCommitments.build sc.sessionId randomness query
          response).sessionTranscriptDigest)
      now = .ok () :=
    basicChecks_build rfl hdig hnow hadmits.engine hadmits.statement hadmits.duration
  exact ⟨_, _, hok, congrArg (v.result _) hchk⟩

/-- **Honest packages are approved**, of both engines, while the session lasts and by every policy
that admits them. -/
theorem honestPackage_approved (v : AuxiliaryVerifier) (sessionId : SessionId)
    (proverId : ProverId) (coordinatorId : VerifierId) (quorum : QuorumSpec) (epoch : Epoch)
    (createdAt expiresAt : UnixTimestamp) (nonce : Nonce) (randomness : DigestBytes)
    (query response : Bytes) (content : RVec UInt8) (derivationTag : RString)
    (now : UnixTimestamp) {sc : SessionContext}
    (hsc : sc = .new sessionId proverId coordinatorId quorum epoch createdAt expiresAt nonce)
    {engineTag : String}
    (hengine : (engineTag = prototypeEngineTag.1 ∧ execute = PrototypeAttestationEngine.execute) ∨
      (engineTag = dctlsEngineTag ∧ ∃ toVec, execute = PrototypeDctlsEngine.execute toVec))
    (hadmits : v.Admits sc engineTag derivationTag.1 now) :
    ∃ tc evidence, execute sc randomness query response = .ok (tc, evidence) ∧
      let package := AttestationPackage.build sc randomness tc evidence
      v.check package (.new content derivationTag tc.sessionTranscriptDigest) now =
        ⟨v.verifierId, package.packageDigest, true, none⟩ := by
  have hexec : Commits engineTag execute := by
    rcases hengine with ⟨rfl, rfl⟩ | ⟨rfl, toVec, rfl⟩
    · exact commits_prototypeAttestationEngine
    · exact commits_prototypeDctlsEngine toVec
  refine check_build_of_commits hexec ?_ hadmits randomness query response content
  rw [hsc]
  rfl

def briefSession : SessionContext :=
  .new (.fromBytes (.replicate 16 0)) (.fromBytes (.replicate 32 0)) (.fromBytes (.replicate 32 1))
    ⟨.ofList [.fromBytes (.replicate 32 1)], 1⟩ ⟨0⟩ ⟨100⟩ ⟨50⟩ (.fromBytes (.replicate 32 42))

/-- A session of one second, whose package is approved in it. -/
theorem honestPackage_approved_briefSession :
    auditor.Admits briefSession prototypeEngineTag.1 "result/v1" ⟨101⟩ ∧ ∃ tc evidence,
        PrototypeAttestationEngine.execute briefSession .zero [0x51] [0x52] = .ok (tc, evidence) ∧
        let package := AttestationPackage.build briefSession .zero tc evidence
        auditor.check package (.new (.ofList [1]) (.ofString "result/v1")
          tc.sessionTranscriptDigest) ⟨101⟩ =
            ⟨auditor.verifierId, package.packageDigest, true, none⟩ := by
  have hadmits : auditor.Admits briefSession prototypeEngineTag.1 "result/v1" ⟨101⟩ :=
    ⟨by decide, by decide, .inl rfl, by decide⟩
  refine ⟨hadmits, ?_⟩
  exact honestPackage_approved auditor (.fromBytes (.replicate 16 0)) (.fromBytes (.replicate 32 0))
    (.fromBytes (.replicate 32 1)) ⟨.ofList [.fromBytes (.replicate 32 1)], 1⟩
    ⟨0⟩ ⟨100⟩ ⟨50⟩ (.fromBytes (.replicate 32 42)) .zero [0x51] [0x52] (.ofList [1])
    (.ofString "result/v1") ⟨101⟩ rfl (.inl ⟨rfl, rfl⟩) hadmits

end AuxiliaryVerifier

end TlsAttestation
