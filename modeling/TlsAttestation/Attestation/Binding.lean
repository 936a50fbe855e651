import TlsAttestation.Attestation.Verify

/-!
# What the digests of checked records determine

Packages and records are trees of digests, recomputed by a check. So the digest at the top
determines the leaves (`AttestationPackage.agree_of_packageDigest_eq`,
`DctlsEvidence.eq_of_bindingDigest_eq`), as far as SHA-256 does not collide.
-/

namespace TlsAttestation

open ByteEncoding Fallible AuxiliaryVerifier CanonicalHasher

/-! ### Strings of digests -/

def taggedDigests (domain : String) (ds : List DigestBytes) : Bytes :=
  domainPrefixed domain ++ ds.flatMap fun d => d.asBytes.toList

def sessionDigests (domain : String) (sessionId : SessionId) (ds : List DigestBytes) : Bytes :=
  domainPrefixed domain ++ (sessionId.asBytes.toList ++ ds.flatMap fun d => d.asBytes.toList)

variable {ds ds' : List DigestBytes}

theorem flatMap_digest_inj
    (h : (ds.flatMap fun d => d.asBytes.toList) = ds'.flatMap fun d => d.asBytes.toList)
    (hlen : ds.length = ds'.length) : ds = ds' := by
  have hnil : (ds.flatMap fun d => d.asBytes.toList) ++ [] =
      (ds'.flatMap fun d => d.asBytes.toList) ++ [] := by rw [h]
  exact (selfDelimiting_digest.flatMap hlen hnil).1

theorem taggedDigests_inj {domain : String} (h : taggedDigests domain ds = taggedDigests domain ds')
    (hlen : ds.length = ds'.length) :
    ds = ds' :=
  flatMap_digest_inj (List.append_cancel_left h) hlen

theorem sessionDigests_inj {domain : String} {s s' : SessionId}
    (h : sessionDigests domain s ds = sessionDigests domain s' ds')
    (hlen : ds.length = ds'.length) :
    s = s' ∧ ds = ds' := by
  obtain ⟨hs, h⟩ := selfDelimiting_vector (List.append_cancel_left h)
  exact ⟨SessionId.asBytes_injective hs, flatMap_digest_inj h hlen⟩

/-! ### Packages -/

namespace AttestationPackage

variable (p : AttestationPackage)

/-- The strings that are hashed in the check of a package. -/
def sessionPreimage : Bytes :=
  domainPrefixed "tls-attestation/session-context/v1" ++ p.sessionContext.bytes

def transcriptPreimage : Bytes :=
  (sessionTranscriptHasher p.sessionContext.sessionId p.transcriptCommitments.query.digest
    p.transcriptCommitments.response.digest).inner

def evidencePreimage : Bytes :=
  domainPrefixed "tls-attestation/evidence/v1" ++
    (lengthPrefixed 8 (strBytes p.evidence.engineTag.1) ++ lengthPrefixed 8 p.evidence.bytes.1)

def packagePreimage : Bytes :=
  taggedDigests "tls-attestation/attestation-package/v1" [p.sessionContext.sessionDigest,
    p.randomnessValue, p.transcriptCommitments.sessionTranscriptDigest, p.evidence.evidenceDigest]

/-- **SHA-256 does not collide** on the strings of two packages. -/
structure CollisionFree (p p' : AttestationPackage) : Prop where
  session : NoCollision {p.sessionPreimage, p'.sessionPreimage}
  transcript : NoCollision {p.transcriptPreimage, p'.transcriptPreimage}
  evidence : NoCollision {p.evidencePreimage, p'.evidencePreimage}
  package : NoCollision {p.packagePreimage, p'.packagePreimage}

/-- Everything but the role texts of the transcript commitments. -/
structure Agree (p p' : AttestationPackage) : Prop where
  sessionContext : p.sessionContext = p'.sessionContext
  randomnessValue : p.randomnessValue = p'.randomnessValue
  query : p.transcriptCommitments.query.digest = p'.transcriptCommitments.query.digest
  response : p.transcriptCommitments.response.digest = p'.transcriptCommitments.response.digest
  sessionTranscriptDigest : p.transcriptCommitments.sessionTranscriptDigest =
    p'.transcriptCommitments.sessionTranscriptDigest
  engineTag : p.evidence.engineTag = p'.evidence.engineTag
  bytes : p.evidence.bytes = p'.evidence.bytes

/-- Every digest of the package is the hash of its string. -/
structure Recomputed (p : AttestationPackage) : Prop where
  session : p.sessionContext.sessionDigest = sha256 p.sessionPreimage
  transcript : p.transcriptCommitments.sessionTranscriptDigest = sha256 p.transcriptPreimage
  evidence : p.evidence.evidenceDigest = sha256 p.evidencePreimage
  package : p.packageDigest = sha256 p.packagePreimage

theorem recomputed_of_approved {v : AuxiliaryVerifier} {p : AttestationPackage}
    {statement : StatementPayload} {now : UnixTimestamp}
    (h : (v.check p statement now).approved = true) : p.Recomputed := by
  have hchk := approved_result.1 h
  simp only [basicChecks, do_eq_ok] at hchk
  rw [expectedSessionDigest_eq, expectedSessionTranscriptDigest_eq,
    expectedEvidenceDigest_eq] at hchk
  obtain ⟨_, _, _, hses, _, _, _, hpkg, _, _, _, _, _, _, _, htr, hev⟩ :=
    hchk
  refine ⟨?_, htr, ?_, ?_⟩
  · rw [hses, SessionContext.computeDigest, finalize, inner_updateSession]
    rfl
  · rw [hev, computeEvidenceDigest, finalize]
    simp only [inner_updateBytes, inner_new, List.append_assoc, evidencePreimage]
  · rw [hpkg, AttestationPackage.computeDigest, finalize]
    simp only [inner_updateDigest, inner_new, List.append_assoc,
      packagePreimage, taggedDigests, List.flatMap_cons, List.flatMap_nil, List.append_nil]

/-- **The digest of an approved package determines it**, whatever the policy and the time. -/
theorem agree_of_packageDigest_eq {v v' : AuxiliaryVerifier} {p p' : AttestationPackage}
    {statement statement' : StatementPayload} {now now' : UnixTimestamp}
    (h : (v.check p statement now).approved = true)
    (h' : (v'.check p' statement' now').approved = true)
    (hdig : p.packageDigest = p'.packageDigest) (hhash : CollisionFree p p') : Agree p p' := by
  obtain ⟨hses, htr, hev, hpkg⟩ := recomputed_of_approved h
  obtain ⟨hsession', htranscript', hevidence', hpackage'⟩ := recomputed_of_approved h'
  -- The four digests below the package digest agree, and so do the strings they are hashes of.
  rw [hpkg, hpackage'] at hdig
  have hds := taggedDigests_inj (hhash.package.eq hdig) rfl
  simp only [List.cons.injEq, and_true] at hds
  obtain ⟨hsd, hvalue, htd, hed⟩ := hds
  have hcontext := List.append_cancel_left (hhash.session.eq (by rw [← hses, hsd, hsession']))
  obtain ⟨hfields, -⟩ := SessionContext.bytes_append_inj (congrArg (· ++ []) hcontext)
  obtain ⟨hquery, hresp⟩ := eq_of_sessionTranscriptHasher
    (hhash.transcript.eq (by rw [← htr, htd, htranscript']))
  have hstring := List.append_cancel_left (hhash.evidence.eq (by rw [← hev, hed, hevidence']))
  obtain ⟨htag, hbytes⟩ := selfDelimiting_rstring hstring
  refine ⟨?_, hvalue, hquery, hresp, htd, htag, selfDelimiting_rbytes.injective hbytes⟩
  rw [← hfields, ← hsd]

def relabelledPackage : AttestationPackage :=
  { auditedPackage with
    transcriptCommitments :=
      { auditedPackage.transcriptCommitments with
        query := { auditedPackage.transcriptCommitments.query with
          role := "request" } } }

theorem agree_relabelledPackage : relabelledPackage ≠ auditedPackage ∧
      Agree relabelledPackage auditedPackage := by
  have haudited : auditor.basicChecks auditedPackage auditedStatement ⟨150⟩ = .ok () :=
    basicChecks_build rfl rfl rfl (by decide) (.inl rfl) (by decide)
  -- No check reads the role, so the same checks pass, and the strings are the same.
  have hrelabelled : auditor.basicChecks relabelledPackage
      auditedStatement ⟨150⟩ = .ok () := haudited
  refine ⟨fun h => ?_, agree_of_packageDigest_eq (approved_result.2 hrelabelled)
    (approved_result.2 haudited) rfl
    ⟨.self _, .self _, .self _, .self _⟩⟩
  have hrole := congrArg (fun p => p.transcriptCommitments.query.role) h
  exact absurd hrole (by decide)

end AttestationPackage

/-! ### Checked records -/

namespace DctlsEvidence

def eraseZkBinding (e : DctlsEvidence) : DctlsEvidence :=
  { e with hspProof := { e.hspProof with zkBinding := none } }

/-- No time, a time in the future, or one at most 24 hours ago. -/
def Fresh (e : DctlsEvidence) (nowSecs : UInt64) : Prop :=
  e.hspProof.establishedAt = 0 ∨ nowSecs ≤ e.hspProof.establishedAt ∨
    nowSecs.toNat - e.hspProof.establishedAt.toNat ≤ 24 * 3600

theorem fresh_iff {e : DctlsEvidence} {nowSecs : UInt64} :
    e.Fresh nowSecs ↔ ¬ hspProofExpired e.hspProof nowSecs := by
  have hmax : hspProofMaxAgeSecs.toNat = 24 * 3600 := rfl
  rw [not_hspProofExpired_iff, Fresh, hmax, Nat.sub_le_iff_le_add']

def regenerate (e : DctlsEvidence) (randValue serverCertHash : DigestBytes)
    (query response : Bytes) : DctlsEvidence :=
  .generate e.hspProof.sessionId randValue ⟨e.hspProof.dvrfExporter, .zero⟩
    ⟨serverCertHash, e.hspProof.tlsVersion, e.hspProof.serverName, e.hspProof.establishedAt⟩
    query response e.pgpProof.statement.content e.pgpProof.statement.derivationTag

variable {debugStr : String → String} {e e' : DctlsEvidence} {nowSecs nowSecs' : UInt64}
  {randValue serverCertHash randValue' serverCertHash' : DigestBytes} {b b' : TranscriptBinding}
  {query response : Bytes}

/-- **Checked records are regenerated ones**, but for `zkBinding`. -/
theorem eraseZkBinding_of_verifyAll
    (h : e.verifyAll debugStr nowSecs randValue serverCertHash query response = .ok b) :
    e.eraseZkBinding = e.regenerate randValue serverCertHash query response ∧ e.Fresh nowSecs ∧
      b = .build e.hspProof e.queryRecord e.pgpProof := by
  simp only [verifyAll, verifyQueryRecord, verifyPgpProof, do_eq_ok,
    verifyTranscriptConsistency_eq_ok] at h
  obtain ⟨_, hver, _, ⟨_, hq, _, hr, ht⟩, _, ⟨_, hpgp, _, hdig, hst⟩, hqr, hses, hqrand,
    hqp, -, hb⟩ := h
  obtain ⟨⟨htag, hrand, hcert, hzk, hht, hhsp⟩, hage⟩ := verifyHspProof_eq_ok.1 hver
  refine ⟨?_, fresh_iff.2 hage, hb.symm⟩
  clear hb hage hver
  obtain ⟨⟨sid, rv, ex, cm, ch, hth, ver, name, est, tag, zk, zb⟩, ⟨qsid, qrv, qc, rc, tc⟩,
    ⟨psid, ⟨content, dtag, sd⟩, pc, hpd, qpt⟩⟩ := e
  simp only at htag hrand hcert hzk hht hhsp hq hr ht hpgp hdig hst hqr hses hqrand hqp
  -- First the fields that are copied, then those that are hashes of them.
  subst htag hrand hcert hzk hqr hses hqrand hqp
  subst hq hr ht hht hhsp hst hpgp hdig
  rfl

variable (debugStr) in
theorem verifyAll_of_eraseZkBinding {sessionId : SessionId} {sps : SessionParamsSecret}
    {spp : SessionParamsPublic} {content : RVec UInt8}
    {derivationTag : RString} (hfresh : e.Fresh nowSecs)
    (he : e.eraseZkBinding =
      .generate sessionId randValue sps spp query response content derivationTag) :
    ∃ b, e.verifyAll debugStr nowSecs randValue spp.serverCertHash query response = .ok b := by
  have herase : e.verifyAll debugStr nowSecs randValue spp.serverCertHash query response =
      e.eraseZkBinding.verifyAll debugStr nowSecs randValue spp.serverCertHash query response := rfl
  have hhsp : e.eraseZkBinding.hspProof = .generate sessionId randValue sps spp := by
    rw [he]
    rfl
  have hage : ¬ hspProofExpired (.generate sessionId randValue sps spp) nowSecs := by
    rw [← hhsp]
    exact fresh_iff.1 hfresh
  rw [herase, he]
  exact verifyAll_generate hage query response content derivationTag

/-- **The checks are exact**: what passes is, but for `zkBinding`, what is made for one session with
these values, not too long ago. -/
theorem verifyAll_iff :
    (∃ b, e.verifyAll debugStr nowSecs randValue serverCertHash query response = .ok b) ↔
      (∃ (sessionId : SessionId) (sps : SessionParamsSecret) (spp : SessionParamsPublic)
        (content : RVec UInt8) (derivationTag : RString), spp.serverCertHash = serverCertHash ∧
          e.eraseZkBinding =
            .generate sessionId randValue sps spp query response content derivationTag) ∧
        e.Fresh nowSecs := by
  constructor
  · rintro ⟨b, h⟩
    obtain ⟨he, hfresh, -⟩ := eraseZkBinding_of_verifyAll h
    exact ⟨⟨_, _, _, _, _, rfl, he⟩, hfresh⟩
  · rintro ⟨⟨sessionId, sps, spp, content, derivationTag, rfl, he⟩, hfresh⟩
    exact verifyAll_of_eraseZkBinding debugStr hfresh he

/-! ### The binding digest -/

def handshakePreimage (e : DctlsEvidence) : Bytes :=
  domainPrefixed "tls-attestation/hsp-ht/v1" ++ (e.hspProof.serverCertHash.asBytes.toList ++
    (beBytes 8 e.hspProof.tlsVersion.toUInt64.toNat ++
      (lengthPrefixed 8 (strBytes e.hspProof.serverName.1) ++
        beBytes 8 e.hspProof.establishedAt.toNat)))

def hspPreimage (e : DctlsEvidence) : Bytes :=
  sessionDigests "tls-attestation/hsp/v1" e.hspProof.sessionId [e.hspProof.randValue,
    e.hspProof.dvrfExporter, e.hspProof.serverCertHash, e.hspProof.handshakeTranscriptHash]

def sidePreimage (domain : String) (e : DctlsEvidence) (data : RVec UInt8) : Bytes :=
  domainPrefixed domain ++ (e.queryRecord.sessionId.asBytes.toList ++
    (e.queryRecord.randValue.asBytes.toList ++ lengthPrefixed 8 data.1))

def exchangePreimage (e : DctlsEvidence) : Bytes :=
  taggedDigests "tls-attestation/qp-transcript/v1"
    [e.queryRecord.queryCommitment, e.queryRecord.responseCommitment]

def statementPreimage (e : DctlsEvidence) : Bytes :=
  domainPrefixed "tls-attestation/pgp-statement/v1" ++
    (lengthPrefixed 8 (strBytes e.pgpProof.statement.derivationTag.1) ++
      (e.pgpProof.qpTranscriptCommitment.asBytes.toList ++
        lengthPrefixed 8 e.pgpProof.statement.content.1))

def pgpPreimage (e : DctlsEvidence) : Bytes :=
  sessionDigests "tls-attestation/pgp/v1" e.pgpProof.sessionId [e.hspProof.randValue,
    e.pgpProof.qpTranscriptCommitment, e.pgpProof.statement.statementDigest, e.hspProof.commitment]

def bindingPreimage (e : DctlsEvidence) : Bytes :=
  sessionDigests "tls-attestation/transcript-binding/v1" e.hspProof.sessionId [e.hspProof.randValue,
    e.hspProof.commitment, e.queryRecord.transcriptCommitment, e.pgpProof.pgpCommitment]

theorem sidePreimage_inj {domain : String} {e e' : DctlsEvidence} {data data' : RVec UInt8}
    (h : e.sidePreimage domain data = e'.sidePreimage domain data') : data = data' := by
  obtain ⟨-, hrest⟩ := selfDelimiting_vector (List.append_cancel_left h)
  obtain ⟨-, hdata⟩ := selfDelimiting_digest hrest
  exact selfDelimiting_rbytes.injective hdata

/-- **SHA-256 does not collide** on the strings of two exchanges. -/
structure CollisionFree (e e' : DctlsEvidence) (query response query' response' : RVec UInt8) :
    Prop where
  binding : NoCollision {e.bindingPreimage, e'.bindingPreimage}
  hsp : NoCollision {e.hspPreimage, e'.hspPreimage}
  handshake : NoCollision {e.handshakePreimage, e'.handshakePreimage}
  exchange : NoCollision {e.exchangePreimage, e'.exchangePreimage}
  query : NoCollision {e.sidePreimage "tls-attestation/query-commitment/v1" query,
    e'.sidePreimage "tls-attestation/query-commitment/v1" query'}
  response : NoCollision {e.sidePreimage "tls-attestation/response-commitment/v1" response,
    e'.sidePreimage "tls-attestation/response-commitment/v1" response'}
  pgp : NoCollision {e.pgpPreimage, e'.pgpPreimage}
  statement : NoCollision {e.statementPreimage, e'.statementPreimage}

/-- Every digest of the records is the hash of its string. -/
structure Recomputed (e : DctlsEvidence) (query response : RVec UInt8) : Prop where
  hsp : e.hspProof.commitment = sha256 e.hspPreimage
  handshake : e.hspProof.handshakeTranscriptHash = sha256 e.handshakePreimage
  exchange : e.queryRecord.transcriptCommitment = sha256 e.exchangePreimage
  query : e.queryRecord.queryCommitment =
    sha256 (e.sidePreimage "tls-attestation/query-commitment/v1" query)
  response : e.queryRecord.responseCommitment =
    sha256 (e.sidePreimage "tls-attestation/response-commitment/v1" response)
  pgp : e.pgpProof.pgpCommitment = sha256 e.pgpPreimage
  statement : e.pgpProof.statement.statementDigest = sha256 e.statementPreimage

theorem recomputed_generate (sessionId : SessionId) (randValue : DigestBytes)
    (sps : SessionParamsSecret) (spp : SessionParamsPublic) (query response content : RVec UInt8)
    (derivationTag : RString) :
    (generate sessionId randValue sps spp query.1 response.1 content derivationTag).Recomputed
      query response := by
  constructor
  case hsp | pgp =>
    simp [generate, HSPProof.generate, HSPProof.computeCommitment, PGPProof.generate,
      PGPProof.computeCommitment, finalize, hspPreimage, pgpPreimage, sessionDigests]
  case handshake =>
    simp [generate, HSPProof.generate, HSPProof.computeHandshakeTranscriptHash,
      finalize, handshakePreimage]
  case exchange =>
    simp [generate, QueryRecord.build, QueryRecord.computeTranscriptCommitment,
      finalize, exchangePreimage, taggedDigests]
  case query | response =>
    simp [generate, QueryRecord.build, QueryRecord.computeQueryCommitment,
      QueryRecord.computeResponseCommitment, QueryRecord.sideCommitment, finalize,
      sidePreimage]
  case statement =>
    simp [generate, PGPProof.generate, Statement.derive, Statement.computeDigest,
      finalize, statementPreimage]

theorem bindingDigest_build (e : DctlsEvidence) :
    (TranscriptBinding.build e.hspProof e.queryRecord e.pgpProof).bindingDigest =
      sha256 e.bindingPreimage := by
  simp [TranscriptBinding.build, finalize, bindingPreimage, sessionDigests]

theorem recomputed_of_verifyAll {query response : RVec UInt8}
    (h : e.verifyAll debugStr nowSecs randValue serverCertHash query.1 response.1 = .ok b) :
    e.Recomputed query response ∧ b.bindingDigest = sha256 e.bindingPreimage ∧
      e.eraseZkBinding = e.regenerate e.hspProof.randValue e.hspProof.serverCertHash query.1
        response.1 := by
  obtain ⟨he, -, rfl⟩ := eraseZkBinding_of_verifyAll h
  have hrand : e.hspProof.randValue = randValue := congrArg (·.hspProof.randValue) he
  have hcert : e.hspProof.serverCertHash = serverCertHash := congrArg (·.hspProof.serverCertHash) he
  have hrecomputed : e.eraseZkBinding.Recomputed query response := by
    rw [he]
    exact recomputed_generate _ _ _ _ _ _ _ _
  -- None of the strings contains `zkBinding`.
  obtain ⟨hhsp, hht, hexch, hquery, hresp, hpgp, hstmt⟩ := hrecomputed
  refine ⟨⟨hhsp, hht, hexch, hquery, hresp, hpgp, hstmt⟩, bindingDigest_build e, ?_⟩
  rw [hrand, hcert, he]

theorem toUInt64_injective : Function.Injective UInt16.toUInt64 := by
  intro a b h
  have := congrArg UInt64.toNat h
  simpa [← UInt16.toNat_inj] using this

section

variable {query response query' response' : RVec UInt8} (hmade : e.Recomputed query response)
  (hmade' : e'.Recomputed query' response')
  (hhash : CollisionFree e e' query response query' response')

include hmade hmade' hhash

theorem handshake_eq (h : e.hspProof.commitment = e'.hspProof.commitment) :
    e.hspProof.dvrfExporter = e'.hspProof.dvrfExporter ∧
      e.hspProof.serverCertHash = e'.hspProof.serverCertHash ∧
      e.hspProof.tlsVersion = e'.hspProof.tlsVersion ∧
      e.hspProof.serverName = e'.hspProof.serverName ∧
      e.hspProof.establishedAt = e'.hspProof.establishedAt := by
  rw [hmade.hsp, hmade'.hsp] at h
  obtain ⟨-, hds⟩ := sessionDigests_inj (hhash.hsp.eq h) rfl
  simp only [List.cons.injEq, and_true] at hds
  obtain ⟨-, hexp, hcert, hht⟩ := hds
  rw [hmade.handshake, hmade'.handshake] at hht
  obtain ⟨-, hrest⟩ := selfDelimiting_digest (List.append_cancel_left (hhash.handshake.eq hht))
  obtain ⟨hvers, hrest⟩ := selfDelimiting_u64 hrest
  obtain ⟨hname, htime⟩ := selfDelimiting_rstring hrest
  exact ⟨hexp, hcert, toUInt64_injective hvers, hname, selfDelimiting_u64.injective htime⟩

theorem exchange_eq (h : e.queryRecord.transcriptCommitment = e'.queryRecord.transcriptCommitment) :
    query = query' ∧ response = response' := by
  rw [hmade.exchange, hmade'.exchange] at h
  have hds := taggedDigests_inj (hhash.exchange.eq h) rfl
  simp only [List.cons.injEq, and_true] at hds
  obtain ⟨hquery, hresp⟩ := hds
  rw [hmade.query, hmade'.query] at hquery
  rw [hmade.response, hmade'.response] at hresp
  exact ⟨sidePreimage_inj (hhash.query.eq hquery), sidePreimage_inj (hhash.response.eq hresp)⟩

theorem statement_eq (h : e.pgpProof.pgpCommitment = e'.pgpProof.pgpCommitment) :
    e.pgpProof.statement.derivationTag = e'.pgpProof.statement.derivationTag ∧
      e.pgpProof.statement.content = e'.pgpProof.statement.content := by
  rw [hmade.pgp, hmade'.pgp] at h
  obtain ⟨-, hds⟩ := sessionDigests_inj (hhash.pgp.eq h) rfl
  simp only [List.cons.injEq, and_true] at hds
  obtain ⟨-, -, hdig, -⟩ := hds
  rw [hmade.statement, hmade'.statement] at hdig
  obtain ⟨htag, hrest⟩ :=
    selfDelimiting_rstring (List.append_cancel_left (hhash.statement.eq hdig))
  obtain ⟨-, hcont⟩ := selfDelimiting_digest hrest
  exact ⟨htag, selfDelimiting_rbytes.injective hcont⟩

end

/-- **The binding digest determines the exchange and the records**, but for `zkBinding`. -/
theorem eq_of_bindingDigest_eq {query response query' response' : RVec UInt8}
    (h : e.verifyAll debugStr nowSecs randValue serverCertHash query.1 response.1 = .ok b)
    (h' : e'.verifyAll debugStr nowSecs' randValue' serverCertHash' query'.1 response'.1 = .ok b')
    (hdig : b.bindingDigest = b'.bindingDigest)
    (hhash : CollisionFree e e' query response query' response') :
    query = query' ∧ response = response' ∧ e.eraseZkBinding = e'.eraseZkBinding := by
  obtain ⟨hmade, hb, he⟩ := recomputed_of_verifyAll h
  obtain ⟨hmade', hb', he'⟩ := recomputed_of_verifyAll h'
  rw [hb, hb'] at hdig
  -- From the binding down: the three commitments, then what each of them is a commitment to.
  obtain ⟨hses, hds⟩ := sessionDigests_inj (hhash.binding.eq hdig) rfl
  simp only [List.cons.injEq, and_true] at hds
  obtain ⟨hrand, hhsp, hqr, hpgp⟩ := hds
  obtain ⟨hexp, hcert, hvers, hname, htime⟩ := handshake_eq hmade hmade' hhash hhsp
  obtain ⟨rfl, rfl⟩ := exchange_eq hmade hmade' hhash hqr
  obtain ⟨htag, hcont⟩ := statement_eq hmade hmade' hhash hpgp
  refine ⟨rfl, rfl, ?_⟩
  rw [he, he', regenerate, regenerate, hses, hrand, hexp, hcert, hvers, hname, htime, htag, hcont]

def oneByte : RVec UInt8 := .ofList [1]

def exchangeEvidence : DctlsEvidence :=
  auditedEvidence (.fromBytes (.replicate 16 0)) oneByte.1 oneByte.1

def reboundEvidence : DctlsEvidence :=
  { exchangeEvidence with
    hspProof := { exchangeEvidence.hspProof with zkBinding := some .zero } }

/-- Two sets of records, one binding digest. -/
theorem eraseZkBinding_reboundEvidence :
    reboundEvidence ≠ exchangeEvidence ∧
      reboundEvidence.eraseZkBinding = exchangeEvidence.eraseZkBinding := by
  have hfresh : exchangeEvidence.Fresh 150 := .inr (.inr (by decide))
  have hfresh' : reboundEvidence.Fresh 150 := hfresh
  have hmade : exchangeEvidence.eraseZkBinding = .generate (.fromBytes (.replicate 16 0))
    auditedOutput.value ⟨.zero, .zero⟩ auditedParams oneByte.1
    oneByte.1 (.ofList [1]) (.ofString "result/v1") := rfl
  obtain ⟨b, hb⟩ := verifyAll_of_eraseZkBinding String.quote hfresh hmade
  obtain ⟨b', hb'⟩ := verifyAll_of_eraseZkBinding String.quote hfresh' hmade
  have hdig : b'.bindingDigest = b.bindingDigest := by
    rw [(eraseZkBinding_of_verifyAll hb).2.2, (eraseZkBinding_of_verifyAll hb').2.2]
    rfl
  obtain ⟨-, -, herase⟩ := eq_of_bindingDigest_eq hb' hb hdig
    ⟨.self _, .self _, .self _, .self _, .self _, .self _, .self _, .self _⟩
  refine ⟨fun h => ?_, herase⟩
  have hbind : some DigestBytes.zero = none := congrArg (·.hspProof.zkBinding) h
  exact absurd hbind (by simp)

end DctlsEvidence

end TlsAttestation
