import TlsAttestation.Attestation.DxDctls
import TlsAttestation.Attestation.Session
import TlsAttestation.Lib.Hmac

/-!
# dx-DCTLS for TLS 1.2

`deco_dx_dctls`: a co-SNARK reveals the shared key, and the exchange is committed to under it. The
digests of an accepted bundle lead down to the **transcript commitment**, and no further
(`DecoDxDctlsProof.agree_iff`).
-/

namespace TlsAttestation

open ByteEncoding Fallible

/-! ### Keys -/

def kMacPreimage (kMac : Bytes32) : Bytes :=
  strBytes "tls-attestation/co-snark/k-mac/v1\x00" ++ kMac.toList

def kMacCommitment (kMac : Bytes32) : DigestBytes := sha256 (kMacPreimage kMac)

theorem kMacPreimage_injective : Function.Injective kMacPreimage := by
  intro k k' h
  rw [kMacPreimage, kMacPreimage, List.append_cancel_left_eq] at h
  exact Vector.toList_inj.1 h

/-! ### The handshake -/

structure DecoHspProof where
  sessionId : SessionId
  rand : DigestBytes
  groth16Bytes : Bytes
  kMacCommitmentBytes : Bytes
  randBindingBytes : Bytes
  kMac : Bytes32
  sessionBinding : DigestBytes
deriving DecidableEq

namespace DecoHspProof

def sessionBindingOf (sessionId : SessionId) (rand kMacCommitment serverCertHash : DigestBytes) :
    CanonicalHasher :=
  sessionBindingHasher "tls-attestation/deco-dx-dctls/hsp-binding/v1" sessionId rand kMacCommitment
    serverCertHash

def computeSessionBinding (sessionId : SessionId)
    (rand kMacCommitment serverCertHash : DigestBytes) : DigestBytes :=
  (sessionBindingOf sessionId rand kMacCommitment serverCertHash).finalize

end DecoHspProof

/-! ### The exchange -/

structure DecoQueryRecord where
  sessionId : SessionId
  (queryCommitment responseCommitment transcriptCommitment : DigestBytes)
  serverMacTag : Bytes32
deriving DecidableEq

namespace DecoQueryRecord

def commitField (sessionId : SessionId) (kMac : Bytes32) (field : String) (data : Bytes) :
    DigestBytes :=
  (CanonicalHasher.new "tls-attestation/deco-qp")
    |>.updateBytes (strBytes field)
    |>.updateFixed sessionId.asBytes
    |>.updateFixed kMac
    |>.updateBytes data
    |>.finalize

def computeMac (kMac : Bytes32) (data : Bytes) : Bytes32 :=
  Sha2.hmacSha256 kMac.toList data

/-- Commitments to query and response under the session and `K_MAC`, and the tag of the response. -/
def commit (sessionId : SessionId) (kMac : Bytes32) (query response : Bytes) :
    DecoQueryRecord :=
  let queryCommitment := commitField sessionId kMac "query" query
  let responseCommitment := commitField sessionId kMac "response" response
  { sessionId, queryCommitment, responseCommitment
    transcriptCommitment := (transcriptHasher "tls-attestation/deco-qp/transcript/v1"
      queryCommitment responseCommitment).finalize
    serverMacTag := computeMac kMac response }

end DecoQueryRecord

/-! ### The bundle -/

/-- A dx-DCTLS proof. -/
structure DecoDxDctlsProof where
  piHsp : DecoHspProof
  queryRecord : DecoQueryRecord
  statement : RVec UInt8
  proofDigest : DigestBytes
  crossBinding : DigestBytes
deriving DecidableEq

namespace DecoDxDctlsProof

def crossBindingOf (sessionBinding transcriptCommitment : DigestBytes) : CanonicalHasher :=
  crossBindingHasher "tls-attestation/deco-pgp/cross-binding/v1" sessionBinding transcriptCommitment

def proofDigestOf (sessionId : SessionId) (transcriptCommitment : DigestBytes)
    (statement : Bytes) : CanonicalHasher :=
  proofHasher "tls-attestation/deco-pgp/proof/v1" sessionId transcriptCommitment statement

def generate (piHsp : DecoHspProof) (queryRecord : DecoQueryRecord) (statement : RVec UInt8) :
    DecoDxDctlsProof :=
  { piHsp, queryRecord, statement
    proofDigest := (proofDigestOf queryRecord.sessionId queryRecord.transcriptCommitment
      statement.1).finalize
    crossBinding :=
      (crossBindingOf piHsp.sessionBinding queryRecord.transcriptCommitment).finalize }

end DecoDxDctlsProof

inductive DecoDctlsError where
  | randMismatch
  | hspSessionBindingMismatch
  | crossBindingMismatch
  | proofDigestMismatch
  | coSnarkVerifyFailed
  | sessionIdMismatch
deriving DecidableEq

/-- Recompute the bindings and the digest of a bundle. The tag of the response is not checked. -/
def verifyDecoDxDctls (proof : DecoDxDctlsProof)
    (expectedRand expectedServerCertHash : DigestBytes) :
    Except DecoDctlsError Unit := do
  ensure (proof.piHsp.rand = expectedRand) .randMismatch
  ensure (proof.piHsp.sessionBinding = DecoHspProof.computeSessionBinding proof.piHsp.sessionId
    expectedRand
      (kMacCommitment proof.piHsp.kMac) expectedServerCertHash) .hspSessionBindingMismatch
  ensure (proof.crossBinding = (DecoDxDctlsProof.crossBindingOf proof.piHsp.sessionBinding
    proof.queryRecord.transcriptCommitment).finalize) .crossBindingMismatch
  ensure (proof.piHsp.sessionId = proof.queryRecord.sessionId) .sessionIdMismatch
  ensure (proof.proofDigest = (DecoDxDctlsProof.proofDigestOf proof.queryRecord.sessionId
    proof.queryRecord.transcriptCommitment proof.statement.1).finalize) .proofDigestMismatch

theorem verifyDecoDxDctls_eq_ok {proof : DecoDxDctlsProof} {rand cert : DigestBytes} :
    verifyDecoDxDctls proof rand cert = .ok () ↔ proof.piHsp.rand = rand ∧
      proof.piHsp.sessionBinding = (DecoHspProof.sessionBindingOf proof.piHsp.sessionId rand
        (kMacCommitment proof.piHsp.kMac) cert).finalize ∧
      proof.crossBinding = (DecoDxDctlsProof.crossBindingOf proof.piHsp.sessionBinding
        proof.queryRecord.transcriptCommitment).finalize ∧
      proof.piHsp.sessionId = proof.queryRecord.sessionId ∧
      proof.proofDigest = (DecoDxDctlsProof.proofDigestOf proof.queryRecord.sessionId
        proof.queryRecord.transcriptCommitment proof.statement.1).finalize := by
  simp only [verifyDecoDxDctls, do_eq_ok, exists_and_left, exists_const]
  rw [DecoHspProof.computeSessionBinding]

/-! ### What the digests fix -/

namespace DecoDxDctlsProof

/-- **SHA-256 does not collide** on the strings of two bundles. -/
structure CollisionFree (rand cert : DigestBytes) (p p' : DecoDxDctlsProof) : Prop where
  kMac : NoCollision {kMacPreimage p.piHsp.kMac, kMacPreimage p'.piHsp.kMac}
  sessionBinding : NoCollision {(DecoHspProof.sessionBindingOf p.piHsp.sessionId rand
      (kMacCommitment p.piHsp.kMac) cert).inner,
      (DecoHspProof.sessionBindingOf p'.piHsp.sessionId rand (kMacCommitment p'.piHsp.kMac)
        cert).inner}
  crossBinding : NoCollision
    {(crossBindingOf p.piHsp.sessionBinding p.queryRecord.transcriptCommitment).inner,
      (crossBindingOf p'.piHsp.sessionBinding p'.queryRecord.transcriptCommitment).inner}
  proofDigest : NoCollision
    {(proofDigestOf p.queryRecord.sessionId p.queryRecord.transcriptCommitment p.statement.1).inner,
      (proofDigestOf p'.queryRecord.sessionId p'.queryRecord.transcriptCommitment
        p'.statement.1).inner}

theorem hashed_fields_eq {rand cert : DigestBytes} {p p' : DecoDxDctlsProof}
    (hhash : CollisionFree rand cert p p') (hok : verifyDecoDxDctls p rand cert = .ok ())
    (hok' : verifyDecoDxDctls p' rand cert = .ok ()) (hdig : p.proofDigest = p'.proofDigest)
    (hcross : p.crossBinding = p'.crossBinding) :
    p.piHsp.sessionId = p'.piHsp.sessionId ∧ p.piHsp.kMac = p'.piHsp.kMac ∧
      p.statement = p'.statement ∧ p.queryRecord.sessionId = p'.queryRecord.sessionId ∧
      p.queryRecord.transcriptCommitment = p'.queryRecord.transcriptCommitment := by
  obtain ⟨-, hses, hcb, -, hpd⟩ := verifyDecoDxDctls_eq_ok.1 hok
  obtain ⟨-, hsession', hcb', -, hpd'⟩ := verifyDecoDxDctls_eq_ok.1 hok'
  obtain ⟨hrec, htr, hstmt⟩ : _ ∧ _ ∧ _ := by
    rw [hpd, hpd'] at hdig
    exact proofHasher_inj (hhash.proofDigest.eq hdig)
  have hbind : p.piHsp.sessionBinding = p'.piHsp.sessionBinding := by
    rw [hcb, hcb'] at hcross
    exact (crossBindingHasher_inj (hhash.crossBinding.eq hcross)).1
  obtain ⟨hsid, -, hcomm, -⟩ : _ ∧ _ ∧ _ ∧ _ := by
    rw [hses, hsession'] at hbind
    exact sessionBindingHasher_inj (hhash.sessionBinding.eq hbind)
  exact ⟨hsid, kMacPreimage_injective (hhash.kMac.eq hcomm), hstmt, hrec, htr⟩

def swapUnchecked (p : DecoDxDctlsProof) (queryCommitment responseCommitment : DigestBytes)
    (serverMacTag : Bytes32) : DecoDxDctlsProof :=
  { p with
    queryRecord := { p.queryRecord with queryCommitment, responseCommitment, serverMacTag } }

theorem collisionFree_swapUnchecked (p : DecoDxDctlsProof) (rand cert qc rc : DigestBytes)
    (tag : Bytes32) : CollisionFree rand cert p (p.swapUnchecked qc rc tag) :=
  -- both bundles hash the same strings
  ⟨.self _, .self _, .self _, .self _⟩

def sampleHsp : DecoHspProof where
  sessionId := ⟨.replicate 16 0⟩
  rand := .zero
  groth16Bytes := []
  kMacCommitmentBytes := []
  randBindingBytes := []
  kMac := .replicate 32 0
  sessionBinding := DecoHspProof.computeSessionBinding ⟨.replicate 16 0⟩ .zero
    (kMacCommitment (.replicate 32 0)) .zero

def sampleBundle : DecoDxDctlsProof :=
  .generate sampleHsp
    (.commit ⟨.replicate 16 0⟩ (.replicate 32 0) (strBytes "GET /") (strBytes "200 OK"))
    (.ofList (strBytes "200 OK"))

theorem verifyDecoDxDctls_sampleBundle : verifyDecoDxDctls sampleBundle .zero .zero = .ok () :=
  verifyDecoDxDctls_eq_ok.2 ⟨rfl, rfl, rfl, rfl, rfl⟩

theorem queryCommitment_sampleBundle_ne :
    sampleBundle.queryRecord.queryCommitment ≠ .zero := by
  decide +kernel

/-- **Two accepted bundles with the same digests agree** exactly if their records have the same
commitments and the same tag. -/
theorem agree_iff {rand cert : DigestBytes} {p p' : DecoDxDctlsProof}
    (hhash : CollisionFree rand cert p p') (hok : verifyDecoDxDctls p rand cert = .ok ())
    (hok' : verifyDecoDxDctls p' rand cert = .ok ()) (hdig : p.proofDigest = p'.proofDigest)
    (hcross : p.crossBinding = p'.crossBinding) :
    (p.piHsp.sessionId = p'.piHsp.sessionId ∧ p.piHsp.kMac = p'.piHsp.kMac ∧
        p.statement = p'.statement ∧ p.queryRecord = p'.queryRecord) ↔
      p.queryRecord.queryCommitment = p'.queryRecord.queryCommitment ∧
        p.queryRecord.responseCommitment = p'.queryRecord.responseCommitment ∧
        p.queryRecord.serverMacTag = p'.queryRecord.serverMacTag := by
  obtain ⟨hsid, hkey, hstmt, hrec, htr⟩ :=
    hashed_fields_eq hhash hok hok' hdig hcross
  constructor
  · rintro ⟨-, -, -, h⟩
    rw [h]
    exact ⟨rfl, rfl, rfl⟩
  · rintro ⟨hquery, hresp, htag⟩
    refine ⟨hsid, hkey, hstmt, ?_⟩
    rcases hp : p.queryRecord with ⟨_, _, _, _, _⟩
    rcases hp' : p'.queryRecord with ⟨_, _, _, _, _⟩
    simp only [hp, hp'] at hrec htr hquery hresp htag
    rw [hrec, htr, hquery, hresp, htag]

/-- The honest bundle, and the same with its record wiped. -/
theorem agree_iff_sampleBundle :
    ¬ (sampleBundle.piHsp.sessionId = sampleBundle.piHsp.sessionId ∧
        sampleBundle.piHsp.kMac = sampleBundle.piHsp.kMac ∧
        sampleBundle.statement = sampleBundle.statement ∧
        sampleBundle.queryRecord =
          (sampleBundle.swapUnchecked .zero .zero (.replicate 32 0)).queryRecord) := by
  refine fun h => queryCommitment_sampleBundle_ne ?_
  exact ((agree_iff (collisionFree_swapUnchecked sampleBundle .zero .zero .zero .zero
    (.replicate 32 0)) verifyDecoDxDctls_sampleBundle verifyDecoDxDctls_sampleBundle rfl rfl).1 h).1

/-- **A bundle for any query**: without the commitments and the server's tag it is accepted, with
the same digests. -/
theorem verifyDecoDxDctls_wiped :
    verifyDecoDxDctls sampleBundle .zero .zero = .ok () ∧
      verifyDecoDxDctls (sampleBundle.swapUnchecked .zero .zero (.replicate 32 0)) .zero .zero =
        .ok () ∧
      CollisionFree .zero .zero sampleBundle
        (sampleBundle.swapUnchecked .zero .zero (.replicate 32 0)) ∧
      sampleBundle.proofDigest =
        (sampleBundle.swapUnchecked .zero .zero (.replicate 32 0)).proofDigest ∧
      sampleBundle.crossBinding =
        (sampleBundle.swapUnchecked .zero .zero (.replicate 32 0)).crossBinding ∧
      sampleBundle.queryRecord ≠
        (sampleBundle.swapUnchecked .zero .zero (.replicate 32 0)).queryRecord := by
  refine ⟨verifyDecoDxDctls_sampleBundle, verifyDecoDxDctls_sampleBundle,
    collisionFree_swapUnchecked _ _ _ _ _ _, rfl, rfl, fun h => queryCommitment_sampleBundle_ne ?_⟩
  rw [h]
  rfl

end DecoDxDctlsProof

end TlsAttestation
