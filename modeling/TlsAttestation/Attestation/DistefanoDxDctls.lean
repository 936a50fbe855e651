import TlsAttestation.Attestation.DxDctls
import TlsAttestation.Attestation.Session

/-!
# dx-DCTLS for TLS 1.3

`distefano_dx_dctls`: the traffic secrets stay shared, and both parties are committed to their
shares. Nothing relates the session of the two-party proof to that of the exchange
(`DistefanoDxDctlsProof.consistent_iff`).
-/

namespace TlsAttestation

open ByteEncoding Fallible

/-! ### The two-party computation -/

structure Tls13SecretParams where
  transcriptHash : Bytes32
  dheSecret : Bytes32
  serverName : RString

structure TrafficShare where
  clientKeyShare : Bytes32
  serverKeyShare : Bytes32

abbrev ProverTrafficShare := TrafficShare

abbrev VerifierTrafficShare := TrafficShare

structure V2pcProof where
  sessionId : SessionId
  (sv proverShareCommitment verifierShareCommitment jointCommitment sessionBinding : DigestBytes)
deriving DecidableEq

namespace V2pcProof

def shareCommitment (domain : String) (sessionId : SessionId) (sv : DigestBytes)
    (share : TrafficShare) : DigestBytes :=
  (CanonicalHasher.new domain)
    |>.updateFixed sessionId.asBytes
    |>.updateDigest sv
    |>.updateFixed share.clientKeyShare
    |>.updateFixed share.serverKeyShare
    |>.finalize

variable (sessionId : SessionId)

def computeProverCommitment (sv : DigestBytes) (spp : ProverTrafficShare) :
    DigestBytes :=
  shareCommitment "tls-attestation/v2pc/prover-commit/v1" sessionId sv spp

def computeVerifierCommitment (sv : DigestBytes) (spv : VerifierTrafficShare) : DigestBytes :=
  shareCommitment "tls-attestation/v2pc/verifier-commit/v1" sessionId sv spv

def computeJointCommitment (proverCommit verifierCommit : DigestBytes) : DigestBytes :=
  (transcriptHasher "tls-attestation/v2pc/joint-commit/v1" proverCommit verifierCommit).finalize

def computeSessionBinding (sv jointCommitment serverCertHash : DigestBytes) :
    DigestBytes :=
  (sessionBindingHasher "tls-attestation/v2pc/session-binding/v1" sessionId sv jointCommitment
    serverCertHash).finalize

end V2pcProof

open V2pcProof

structure V2pcExecutor where
  execute : SessionId → DigestBytes → Tls13SecretParams →
    Except AttestationError (ProverTrafficShare × VerifierTrafficShare × V2pcProof)
  verify : V2pcProof → DigestBytes → Except AttestationError Unit

/-! The executor of the crate, which commits but does not hide. -/

namespace CommitmentV2pcExecutor

def deriveTrafficMaterial (sv : DigestBytes) (sp : Tls13SecretParams) :
    Bytes32 × Bytes32 :=
  let derive (label : String) : Bytes32 :=
    Sha2.sha256 (strBytes "tls-attestation/tls13-key-derive/v1\x00" ++ sv.asBytes.toList ++
      sp.transcriptHash.toList ++ sp.dheSecret.toList ++ strBytes label)
  (derive "c-traffic", derive "s-traffic")

/-- The prover's server share is its client share, rotated. -/
def splitShares (material : Bytes32 × Bytes32) (sessionId : SessionId)
    (sv : DigestBytes) : ProverTrafficShare × VerifierTrafficShare :=
  let proverSeed := Sha2.sha256 (strBytes "tls-attestation/v2pc/prover-seed/v1\x00" ++
    sessionId.asBytes.toList ++ sv.asBytes.toList)
  let pServer : Bytes32 :=
    .ofFn fun i => proverSeed.get ⟨(i + 7) % 32, Nat.mod_lt _ (by decide)⟩
  (⟨proverSeed, pServer⟩,
    ⟨material.1.zipWith (· ^^^ ·) proverSeed, material.2.zipWith (· ^^^ ·) pServer⟩)

def execute (sessionId : SessionId) (sv : DigestBytes) (sp : Tls13SecretParams) :
    Except AttestationError (ProverTrafficShare × VerifierTrafficShare × V2pcProof) :=
  let (spp, spv) := splitShares (deriveTrafficMaterial sv sp) sessionId sv
  let pc := computeProverCommitment sessionId sv spp
  let vc := computeVerifierCommitment sessionId sv spv
  let jc := computeJointCommitment pc vc
  .ok (spp, spv, {
    sessionId, sv
    proverShareCommitment := pc
    verifierShareCommitment := vc
    jointCommitment := jc
    -- the certificate is not known here; the session fills it in
    sessionBinding := computeSessionBinding sessionId sv jc .zero })

def verify (pi2pc : V2pcProof) (sv : DigestBytes) : Except AttestationError Unit := do
  ensure (pi2pc.sv = sv) (.crypto "v2PC: sv mismatch")
  ensure (pi2pc.jointCommitment = computeJointCommitment pi2pc.proverShareCommitment
    pi2pc.verifierShareCommitment) (.crypto "v2PC: joint commitment mismatch")

end CommitmentV2pcExecutor

def commitmentV2pcExecutor : V2pcExecutor :=
  ⟨CommitmentV2pcExecutor.execute, CommitmentV2pcExecutor.verify⟩

/-! ### The bundle -/

structure DistefanoHspProof where
  sessionId : SessionId
  sv : DigestBytes
  pi2pc : V2pcProof
  serverCertHash : DigestBytes
  tlsVersion : UInt16
  serverName : RString
  establishedAt : UInt64
deriving DecidableEq

structure DistefanoQueryRecord where
  sessionId : SessionId
  (queryCommitment responseCommitment transcriptCommitment : DigestBytes)
  serverAuthTag : Vector UInt8 16
deriving DecidableEq

/-- Commitments to query and response under the session; the tag of the server is kept beside
them. -/
def DistefanoQueryRecord.commit (sessionId : SessionId) (query response : Bytes)
    (serverAuthTag : Vector UInt8 16) : DistefanoQueryRecord :=
  let commitField (domain : String) (data : Bytes) : DigestBytes :=
    (CanonicalHasher.new domain).updateFixed sessionId.asBytes |>.updateBytes data |>.finalize
  let queryCommitment := commitField "tls-attestation/distefano-qp/query/v1" query
  let responseCommitment := commitField "tls-attestation/distefano-qp/response/v1" response
  { sessionId, queryCommitment, responseCommitment, serverAuthTag
    transcriptCommitment := (transcriptHasher "tls-attestation/distefano-qp/transcript/v1"
      queryCommitment responseCommitment).finalize }

/-- A dx-DCTLS proof. -/
structure DistefanoDxDctlsProof where
  piHsp : DistefanoHspProof
  queryRecord : DistefanoQueryRecord
  statement : RVec UInt8
  proofDigest : DigestBytes
  crossBinding : DigestBytes
deriving DecidableEq

namespace DistefanoDxDctlsProof

def computeCrossBinding (sessionBinding transcriptCommitment : DigestBytes) : DigestBytes :=
  (crossBindingHasher "tls-attestation/distefano-pgp/cross-binding/v1" sessionBinding
    transcriptCommitment).finalize

def computeProofDigest (sessionId : SessionId) (transcriptCommitment : DigestBytes)
    (statement : Bytes) : DigestBytes :=
  (proofHasher "tls-attestation/distefano-pgp/proof/v1" sessionId transcriptCommitment
    statement).finalize

def generate (piHsp : DistefanoHspProof) (queryRecord : DistefanoQueryRecord)
    (statement : RVec UInt8) : DistefanoDxDctlsProof :=
  { piHsp, queryRecord, statement
    proofDigest := computeProofDigest queryRecord.sessionId queryRecord.transcriptCommitment
      statement.1
    crossBinding := computeCrossBinding piHsp.pi2pc.sessionBinding
      queryRecord.transcriptCommitment }

end DistefanoDxDctlsProof

inductive DistefanoError where
  | svMismatch
  | jointCommitmentMismatch
  | sessionBindingMismatch
  | crossBindingMismatch
  | proofDigestMismatch
  | sessionIdMismatch
deriving DecidableEq

open DistefanoDxDctlsProof in
/-- Recompute the joint commitment, both bindings and the digest of a bundle. -/
def verifyDistefanoDxDctls (proof : DistefanoDxDctlsProof)
    (expectedSv expectedServerCertHash : DigestBytes) : Except DistefanoError Unit := do
  let pi2pc := proof.piHsp.pi2pc
  ensure (pi2pc.sv = expectedSv) .svMismatch
  ensure (pi2pc.jointCommitment = computeJointCommitment pi2pc.proverShareCommitment
    pi2pc.verifierShareCommitment) .jointCommitmentMismatch
  ensure (pi2pc.sessionBinding = computeSessionBinding pi2pc.sessionId expectedSv
    pi2pc.jointCommitment expectedServerCertHash) .sessionBindingMismatch
  ensure (proof.crossBinding = computeCrossBinding pi2pc.sessionBinding
    proof.queryRecord.transcriptCommitment) .crossBindingMismatch
  ensure (proof.piHsp.sessionId = proof.queryRecord.sessionId) .sessionIdMismatch
  ensure (proof.proofDigest = computeProofDigest proof.queryRecord.sessionId
    proof.queryRecord.transcriptCommitment proof.statement.1) .proofDigestMismatch

open DistefanoDxDctlsProof in
theorem verifyDistefanoDxDctls_eq_ok {proof : DistefanoDxDctlsProof} {sv cert : DigestBytes} :
    verifyDistefanoDxDctls proof sv cert = .ok () ↔ proof.piHsp.pi2pc.sv = sv ∧
      proof.piHsp.pi2pc.jointCommitment = computeJointCommitment
        proof.piHsp.pi2pc.proverShareCommitment proof.piHsp.pi2pc.verifierShareCommitment ∧
      proof.piHsp.pi2pc.sessionBinding = computeSessionBinding
        proof.piHsp.pi2pc.sessionId sv proof.piHsp.pi2pc.jointCommitment cert ∧
      proof.crossBinding = computeCrossBinding proof.piHsp.pi2pc.sessionBinding
        proof.queryRecord.transcriptCommitment ∧
      proof.piHsp.sessionId = proof.queryRecord.sessionId ∧
      proof.proofDigest = computeProofDigest proof.queryRecord.sessionId
        proof.queryRecord.transcriptCommitment proof.statement.1 := by
  simp only [verifyDistefanoDxDctls, do_eq_ok, exists_and_left, exists_const]

/-! ### A whole session -/

structure DistefanoAttestationSession where
  sessionId : SessionId
  spp : ProverTrafficShare
  spv : VerifierTrafficShare
  piHsp : DistefanoHspProof

namespace DistefanoAttestationSession

/-- The two parties run `executor`, and the binding is put into its proof afterwards. -/
def hsp (nowSecs : UInt64) (sessionId : SessionId) (sv : DigestBytes) (sp : Tls13SecretParams)
    (serverCertHash : DigestBytes) (tlsVersion : UInt16) (executor : V2pcExecutor) :
    Except AttestationError DistefanoAttestationSession := do
  let (spp, spv, pi2pc) ← executor.execute sessionId sv sp
  let sessionBinding := computeSessionBinding sessionId sv pi2pc.jointCommitment serverCertHash
  return {
    sessionId, spp, spv
    piHsp := {
      sessionId, sv, serverCertHash, tlsVersion
      pi2pc := { pi2pc with sessionBinding }
      serverName := sp.serverName
      establishedAt := nowSecs } }

def qp (s : DistefanoAttestationSession) (query response : Bytes)
    (serverAuthTag : Vector UInt8 16) : DistefanoQueryRecord :=
  .commit s.sessionId query response serverAuthTag

def pgp (s : DistefanoAttestationSession) (queryRecord : DistefanoQueryRecord)
    (statement : RVec UInt8) : DistefanoDxDctlsProof :=
  .generate s.piHsp queryRecord statement

/-- The bundles of a session are accepted. -/
theorem verifyDistefanoDxDctls_pgp {nowSecs : UInt64} {sessionId : SessionId}
    {sv cert : DigestBytes}
    {sp : Tls13SecretParams} {tlsVersion : UInt16} {s : DistefanoAttestationSession}
    (h : hsp nowSecs sessionId sv sp cert tlsVersion commitmentV2pcExecutor = .ok s)
    (query response : Bytes) (tag : Vector UInt8 16) (statement : RVec UInt8) :
    verifyDistefanoDxDctls (s.pgp (s.qp query response tag) statement) sv cert = .ok () := by
  obtain rfl := Except.ok.inj h
  exact verifyDistefanoDxDctls_eq_ok.2 ⟨rfl, rfl, rfl, rfl, rfl, rfl⟩

end DistefanoAttestationSession

/-! ### One session -/

namespace DistefanoDxDctlsProof

/-- **An accepted bundle is of one session**, with the verifier's values, exactly if the handshake
repeats those of the two-party proof, and the verifier's certificate. -/
theorem consistent_iff {proof : DistefanoDxDctlsProof} {sv cert : DigestBytes}
    (hok : verifyDistefanoDxDctls proof sv cert = .ok ()) :
    (proof.piHsp.sessionId = proof.piHsp.pi2pc.sessionId ∧
        proof.piHsp.pi2pc.sessionId = proof.queryRecord.sessionId ∧
        proof.piHsp.sv = sv ∧ proof.piHsp.serverCertHash = cert) ↔
      proof.piHsp.sessionId = proof.piHsp.pi2pc.sessionId ∧
        proof.piHsp.sv = proof.piHsp.pi2pc.sv ∧ proof.piHsp.serverCertHash = cert := by
  obtain ⟨hsv, -, -, -, hses, -⟩ := verifyDistefanoDxDctls_eq_ok.1 hok
  rw [hsv]
  constructor
  · rintro ⟨h2pc, -, hrand, hcert⟩
    exact ⟨h2pc, hrand, hcert⟩
  · rintro ⟨h2pc, hrand, hcert⟩
    exact ⟨h2pc, h2pc.symm.trans hses, hrand, hcert⟩

def sampleParams : Tls13SecretParams :=
  ⟨.replicate 32 0, .replicate 32 0, .ofString "bank.example"⟩

theorem consistent_honest :
    ∃ s, DistefanoAttestationSession.hsp 0 ⟨.replicate 16 0⟩ .zero sampleParams .zero 0x0304
        commitmentV2pcExecutor = .ok s ∧
      let proof := s.pgp (s.qp [] [] (.replicate 16 0)) (.ofList [])
      proof.piHsp.sessionId = proof.piHsp.pi2pc.sessionId ∧
        proof.piHsp.pi2pc.sessionId = proof.queryRecord.sessionId ∧
        proof.piHsp.sv = .zero ∧ proof.piHsp.serverCertHash = .zero := by
  obtain ⟨s, hs⟩ : ∃ s, DistefanoAttestationSession.hsp 0 ⟨.replicate 16 0⟩ .zero sampleParams .zero
      0x0304 commitmentV2pcExecutor = .ok s := ⟨_, rfl⟩
  refine ⟨s, hs, (consistent_iff (s.verifyDistefanoDxDctls_pgp hs [] [] _ _)).2 ?_⟩
  obtain rfl := Except.ok.inj hs
  exact ⟨rfl, rfl, rfl⟩

def mixed (pi2pc : V2pcProof) (other : DistefanoHspProof) (queryRecord : DistefanoQueryRecord)
    (statement : RVec UInt8) : DistefanoDxDctlsProof :=
  .generate { other with pi2pc } queryRecord statement

/-- A two-party proof is accepted with the handshake of another session. -/
theorem verifyDistefanoDxDctls_mixed :
    ∃ s s', DistefanoAttestationSession.hsp 0 ⟨.replicate 16 0⟩ .zero sampleParams .zero 0x0304
        commitmentV2pcExecutor = .ok s ∧
      DistefanoAttestationSession.hsp 0 ⟨.replicate 16 1⟩
        (.fromBytes (.replicate 32 1)) sampleParams
        (.fromBytes (.replicate 32 1)) 0x0304 commitmentV2pcExecutor = .ok s' ∧
      let proof := mixed s.piHsp.pi2pc s'.piHsp (s'.qp [] [] (.replicate 16 0)) (.ofList [])
      verifyDistefanoDxDctls proof .zero .zero = .ok () ∧
        proof.piHsp.sessionId ≠ proof.piHsp.pi2pc.sessionId ∧
        proof.queryRecord.sessionId ≠ proof.piHsp.pi2pc.sessionId ∧
        proof.piHsp.sv ≠ .zero ∧ proof.piHsp.serverCertHash ≠ .zero := by
  refine ⟨_, _, rfl, rfl, verifyDistefanoDxDctls_eq_ok.2 ⟨rfl, rfl, rfl, rfl, rfl, rfl⟩, ?_⟩
  refine ⟨?_, ?_, ?_, ?_⟩
  · exact (by decide : (⟨.replicate 16 1⟩ : SessionId) ≠ ⟨.replicate 16 0⟩)
  · exact (by decide : (⟨.replicate 16 1⟩ : SessionId) ≠ ⟨.replicate 16 0⟩)
  · exact (by decide : DigestBytes.fromBytes (.replicate 32 1) ≠ .zero)
  · exact (by decide : DigestBytes.fromBytes (.replicate 32 1) ≠ .zero)

end DistefanoDxDctlsProof

end TlsAttestation
