import TlsAttestation.Attestation.Dctls
import TlsAttestation.Lib.Groth16
import TlsAttestation.Zk.Circuit

/-!
# The Groth16 backend

`GrothZkBackend` of the `zk` crate: handshake proofs that hide the exporter. The four public inputs
protect the session, and the randomness and the certificate up to their last byte
(`Zk.GrothZkBackend.agree_of_verifySessionParams`), and nothing else
(`Zk.GrothZkBackend.verifySessionParams_altered`).
-/

namespace TlsAttestation.Zk

open Ark ByteEncoding Fallible

open Ark.Bn254 (Fr r)

inductive ZkError where
  | setup (reason : String)
  | prove (reason : String)
  | serialize (reason : String)
  | badProof (reason : String)
deriving DecidableEq

def ZkError.display : ZkError → String
  | .setup reason => s!"trusted setup failed: {reason}"
  | .prove reason => s!"proof generation failed: {reason}"
  | .serialize reason => s!"serialization failed: {reason}"
  | .badProof reason => s!"invalid proof: {reason}"

structure GrothZkBackend (G : Groth16 Fr) where
  pk : G.ProvingKey
  pvk : G.VerifyingKey

namespace GrothZkBackend

variable {G : Groth16 Fr}

/-! ### The code -/

def hspCircuit (sessionId : SessionId)
    (randValue dvrfExporter serverCertHash htHash : DigestBytes) : HspCircuit :=
  let sidFe := bytes16ToFe r sessionId.asBytes
  let randFe := bytes31ToFe r randValue.asBytes
  let certFe := bytes31ToFe r serverCertHash.asBytes
  let dvrfFe := bytes31ToFe r dvrfExporter.asBytes
  let htFe := bytes31ToFe r htHash.asBytes
  { sessionIdFe := sidFe
    randFe := randFe
    certHashFe := certFe
    zkBinding := mimc7Sponge [sidFe, randFe, dvrfFe, certFe, htFe] (mimcConstants r)
    dvrfExporterFe := dvrfFe
    htHashFe := htFe }

variable (b : GrothZkBackend G)

def proveHspInternal (ρ : G.Randomness) (sessionId : SessionId)
    (randValue dvrfExporter serverCertHash htHash : DigestBytes) :
    Except ZkError (DigestBytes × Bytes) := do
  let circuit := hspCircuit sessionId randValue dvrfExporter serverCertHash htHash
  let proof ← (G.createProof (discard (circuit.generateConstraints (m := Synth Fr))) b.pk
    ρ).mapError fun e => .prove e.display
  return (.fromBytes (bytesAt 32 0 (Ark.serialize circuit.zkBinding)), G.serializeProof proof)

def publicInputs (sessionId : SessionId) (randValue serverCertHash zkBinding : DigestBytes) :
    List Fr :=
  [bytes16ToFe r sessionId.asBytes, bytes31ToFe r randValue.asBytes,
    bytes31ToFe r serverCertHash.asBytes, fromLeBytesModOrder r zkBinding.asBytes.toList]

def verifyHspZk (sessionId : SessionId)
    (randValue serverCertHash zkBinding : DigestBytes) (proofBytes : Bytes) :
    Except ZkError Unit := do
  let proof ← (G.deserializeProof proofBytes).mapError fun _ => .badProof "deserialization failed"
  let ok ← (G.verify b.pvk (publicInputs sessionId randValue serverCertHash zkBinding)
    proof).mapError fun e => .badProof e.display
  ensure (ok = true) (.badProof "Groth16 verification rejected")

/-- **The proof of a handshake**, without its exporter. -/
def proveSessionParams (ρ : G.Randomness) (sessionId : SessionId)
    (randValue : DigestBytes) (sps : SessionParamsSecret) (spp : SessionParamsPublic) :
    Except DctlsError HSPProof := do
  let htHash := HSPProof.computeHandshakeTranscriptHash spp.serverCertHash spp.tlsVersion
    spp.serverName.1 spp.establishedAt
  let commitment := HSPProof.computeCommitment sessionId randValue sps.dvrfExporter
    spp.serverCertHash htHash
  let (zkBinding, proofBytes) ← (b.proveHspInternal ρ sessionId randValue sps.dvrfExporter
    spp.serverCertHash htHash).mapError fun e => .zkProofFailed e.display
  return {
    sessionId, randValue, commitment
    -- the verifier must not see it
    dvrfExporter := .zero
    serverCertHash := spp.serverCertHash
    handshakeTranscriptHash := htHash
    tlsVersion := spp.tlsVersion
    serverName := spp.serverName
    establishedAt := spp.establishedAt
    engineTag := "dx-dctls/groth16-mimc7-v1"
    zkProof := some proofBytes
    zkBinding := some zkBinding }

def zkFields (proof : HSPProof) : Option (DigestBytes × Bytes) :=
  match proof.zkBinding, proof.zkProof with
  | some zkBinding, some proofBytes => some (zkBinding, proofBytes)
  | _, _ => none

/-- Compare the public fields of a record, and verify the proof in it. -/
def verifySessionParams (proof : HSPProof)
    (randValue serverCertHash : DigestBytes) : Except DctlsError Unit := do
  ensure (proof.randValue = randValue) .randMismatch
  ensure (proof.serverCertHash = serverCertHash) .certHashMismatch
  let (zkBinding, proofBytes) ← okOr (zkFields proof) (.zkProofFailed "missing ZK proof fields")
  (b.verifyHspZk proof.sessionId randValue serverCertHash zkBinding proofBytes).mapError
    fun e => .zkProofFailed e.display

/-! ### What is assumed of the scheme -/

/-- **A proof verifies for exactly the public inputs** of its satisfied circuit, and survives being
written down. -/
structure ProvesExactly (b : GrothZkBackend G) : Prop where
  verify_iff : ∀ {c : HspCircuit} {ρ : G.Randomness} {π : G.Proof}, c.Satisfied →
    G.createProof (discard (c.generateConstraints (m := Synth Fr))) b.pk ρ = .ok π →
      ∀ inputs, G.verify b.pvk inputs π = .ok true ↔ inputs = c.publicInputs
  deserializeProof_serializeProof : ∀ π, G.deserializeProof (G.serializeProof π) = .ok π

/-! ### What the checks say -/

theorem satisfied_hspCircuit (sessionId : SessionId)
    (randValue dvrfExporter serverCertHash htHash : DigestBytes) :
    (hspCircuit sessionId randValue dvrfExporter serverCertHash htHash).Satisfied := rfl

/-- **The circuits enforce the sponge**: the gadget is the function, and each circuit is satisfied
exactly by the sponge of its inputs. -/
theorem circuits_enforce_sponge :
    (∀ (F : Type) [CommRing F] (inputs : List F) (constants : Vector F mimcRounds),
      (mimc7SpongeGadget inputs constants : Sat F F) = pure (mimc7Sponge inputs constants)) ∧
    (∀ (c : HspCircuit) (w : HspWires Fr), w ∈ c.generateConstraints (m := Sat Fr) ↔
      mimc7Sponge [w.sessionId, w.rand, w.dvrfExporter, w.certHash, w.htHash] (mimcConstants r) =
        w.binding) ∧
    (∀ (c : BindingCircuit) (w : BindingWires Fr), w ∈ c.generateConstraints (m := Sat Fr) ↔
        mimc7Sponge [w.sessionId, w.rand, w.hspCommit, w.qpTranscript, w.pgpCommit]
          (mimcConstants r) = w.binding) ∧
    ∀ (sessionId : SessionId) (randValue dvrfExporter serverCertHash htHash : DigestBytes),
      let c := hspCircuit sessionId randValue dvrfExporter serverCertHash htHash
      ⟨c.sessionIdFe, c.randFe, c.certHashFe, c.zkBinding, c.dvrfExporterFe, c.htHashFe⟩ ∈
        c.generateConstraints (m := Sat Fr) :=
  ⟨fun _ _ => mimc7SpongeGadget_eq, fun _ _ => HspCircuit.mem_generateConstraints,
    fun _ _ => BindingCircuit.mem_generateConstraints,
    fun _ _ _ _ _ => HspCircuit.mem_generateConstraints.2 rfl⟩

variable {b : GrothZkBackend G} {sessionId : SessionId}
  {randValue serverCertHash zkBinding : DigestBytes} {proof : HSPProof} {proofBytes : Bytes}

theorem verifyHspZk_eq_ok :
    b.verifyHspZk sessionId randValue serverCertHash zkBinding proofBytes = .ok () ↔
      ∃ π, G.deserializeProof proofBytes = .ok π ∧
        G.verify b.pvk (publicInputs sessionId randValue serverCertHash zkBinding) π =
          .ok true := by
  simp only [verifyHspZk, do_eq_ok, exists_eq_right]

theorem zkFields_eq_some :
    zkFields proof = some (zkBinding, proofBytes) ↔
      proof.zkBinding = some zkBinding ∧ proof.zkProof = some proofBytes := by
  unfold zkFields
  rcases proof.zkBinding with _ | x <;> rcases proof.zkProof with _ | y <;> simp

theorem verifySessionParams_eq_ok :
    b.verifySessionParams proof randValue serverCertHash = .ok () ↔
      proof.randValue = randValue ∧ proof.serverCertHash = serverCertHash ∧
        ∃ zkBinding proofBytes, proof.zkBinding = some zkBinding ∧ proof.zkProof = some proofBytes ∧
          b.verifyHspZk proof.sessionId randValue serverCertHash zkBinding proofBytes = .ok () := by
  simp only [verifySessionParams, do_eq_ok, exists_and_left, exists_const, Prod.exists,
    zkFields_eq_some, and_assoc]

variable {spp : SessionParamsPublic} {sps : SessionParamsSecret} {ρ : G.Randomness}

theorem exists_of_proveSessionParams
    (h : b.proveSessionParams ρ sessionId randValue sps spp = .ok proof) :
    ∃ π, G.createProof (discard ((hspCircuit sessionId randValue sps.dvrfExporter
        spp.serverCertHash proof.handshakeTranscriptHash).generateConstraints
          (m := Synth Fr))) b.pk ρ = .ok π ∧
      proof.zkProof = some (G.serializeProof π) ∧
      proof.zkBinding = some (.fromBytes (bytesAt 32 0 (Ark.serialize
        (hspCircuit sessionId randValue
        sps.dvrfExporter spp.serverCertHash proof.handshakeTranscriptHash).zkBinding))) ∧
      proof.sessionId = sessionId ∧ proof.randValue = randValue ∧
      proof.serverCertHash = spp.serverCertHash := by
  simp only [proveSessionParams, proveHspInternal, do_eq_ok] at h
  obtain ⟨_, ⟨π, hπ, rfl⟩, rfl⟩ := h
  exact ⟨π, hπ, rfl, rfl, rfl, rfl, rfl⟩

theorem bytes16ToFe_inj {b c : Vector UInt8 16} : bytes16ToFe r b = bytes16ToFe r c ↔ b = c := by
  rw [bytes16ToFe, bytes16ToFe, fromLeBytesModOrder_inj Bn254.le_r (by simp) (by simp),
    Vector.toList_inj]

theorem bytes31ToFe_inj {b c : Bytes32} :
    bytes31ToFe r b = bytes31ToFe r c ↔ b.toList.take 31 = c.toList.take 31 := by
  rw [bytes31ToFe, bytes31ToFe, fromLeBytesModOrder_inj Bn254.le_r (by simp) (by simp)]

theorem publicInputs_eq_iff {sessionId' : SessionId}
    {randValue' dvrfExporter serverCertHash' htHash : DigestBytes} :
    publicInputs sessionId' randValue' serverCertHash' zkBinding =
        (hspCircuit sessionId randValue dvrfExporter serverCertHash htHash).publicInputs ↔
      sessionId' = sessionId ∧
      randValue'.asBytes.toList.take 31 = randValue.asBytes.toList.take 31 ∧
      serverCertHash'.asBytes.toList.take 31 = serverCertHash.asBytes.toList.take 31 ∧
      fromLeBytesModOrder r zkBinding.asBytes.toList =
        (hspCircuit sessionId randValue dvrfExporter serverCertHash htHash).zkBinding := by
  simp only [publicInputs, HspCircuit.publicInputs, List.cons.injEq, and_true]
  refine and_congr ?_ (and_congr bytes31ToFe_inj (and_congr bytes31ToFe_inj Iff.rfl))
  exact bytes16ToFe_inj.trans SessionId.asBytes_injective.eq_iff

theorem fromLeBytesModOrder_bytesAt_serialize (x : Fr) :
    fromLeBytesModOrder r (bytesAt 32 0 (Ark.serialize x)).toList = x := by
  let v : Bytes32 := ⟨(Ark.serialize x).toArray, length_serialize x⟩
  have hv : bytesAt 32 0 (Ark.serialize x) = v := bytesAt_zero v
  rw [hv]
  exact fromLeBytesModOrder_serialize Bn254.r_le x

/-! ### A backend that keeps the assumption -/

def transparentBackend : GrothZkBackend (Groth16.transparent r) := ⟨(), ()⟩

theorem createProof_transparentBackend (c : HspCircuit) :
    (Groth16.transparent r).createProof (discard (c.generateConstraints (m := Synth Fr))) () () =
      .ok (c.publicInputs.flatMap Ark.serialize) := by
  obtain ⟨cs, hcs, hins⟩ := c.assigns_generateConstraints.exists_synthesize
  rw [← hins]
  exact Groth16.createProof_transparent hcs

theorem provesExactly_transparentBackend : transparentBackend.ProvesExactly where
  verify_iff := by
    intro c ρ π _ hπ inputs
    obtain rfl := Except.ok.inj ((createProof_transparentBackend c).symm.trans hπ)
    exact Groth16.verify_transparent Bn254.r_le
  deserializeProof_serializeProof _ := rfl

theorem exists_proveHspInternal_transparentBackend (sessionId : SessionId)
    (randValue dvrfExporter serverCertHash htHash : DigestBytes) :
    ∃ result, transparentBackend.proveHspInternal () sessionId randValue dvrfExporter serverCertHash
      htHash = .ok result := by
  have hcreate := createProof_transparentBackend
    (hspCircuit sessionId randValue dvrfExporter serverCertHash htHash)
  simp only [proveHspInternal, do_eq_ok]
  exact ⟨_, _, hcreate, rfl⟩

theorem exists_proveSessionParams_transparentBackend (sessionId : SessionId)
    (randValue : DigestBytes) (sps : SessionParamsSecret) (spp : SessionParamsPublic) :
    ∃ proof, transparentBackend.proveSessionParams () sessionId randValue sps spp = .ok proof ∧
      proof.randValue = randValue ∧ proof.serverCertHash = spp.serverCertHash ∧
      proof.tlsVersion = spp.tlsVersion ∧ proof.serverName = spp.serverName ∧
      proof.establishedAt = spp.establishedAt := by
  obtain ⟨⟨zkBinding, proofBytes⟩, hinternal⟩ :=
    exists_proveHspInternal_transparentBackend sessionId
    randValue sps.dvrfExporter spp.serverCertHash
    (HSPProof.computeHandshakeTranscriptHash spp.serverCertHash spp.tlsVersion spp.serverName.1
      spp.establishedAt)
  simp only [proveSessionParams, hinternal, do_eq_ok]
  exact ⟨_, ⟨_, rfl, rfl⟩, rfl, rfl, rfl, rfl, rfl⟩

/-! ### Which fields are protected -/

/-- **A handshake proof that agrees with another one** where it counts can borrow its Groth16 proof.
-/
theorem verifySessionParams_of_agree (hexact : b.ProvesExactly) (proof' : HSPProof)
    (hproof : b.proveSessionParams ρ sessionId randValue sps spp = .ok proof)
    (hzkProof : proof'.zkProof = proof.zkProof) (hzkBinding : proof'.zkBinding = proof.zkBinding)
    (hses : proof'.sessionId = proof.sessionId)
    (hrand : proof'.randValue.asBytes.toList.take 31 = proof.randValue.asBytes.toList.take 31)
    (hcert : proof'.serverCertHash.asBytes.toList.take 31 =
      proof.serverCertHash.asBytes.toList.take 31) :
    b.verifySessionParams proof' proof'.randValue proof'.serverCertHash = .ok () := by
  obtain ⟨π, hπ, hbytes, hbind, hsid, hrandValue, hcertHash⟩ :=
    exists_of_proveSessionParams hproof
  refine verifySessionParams_eq_ok.2
    ⟨rfl, rfl, _, _, hzkBinding.trans hbind, hzkProof.trans hbytes, ?_⟩
  refine verifyHspZk_eq_ok.2 ⟨π, hexact.deserializeProof_serializeProof π, ?_⟩
  refine (hexact.verify_iff (satisfied_hspCircuit _ _ _ _ _) hπ _).2 (publicInputs_eq_iff.2 ?_)
  rw [hses, hsid, hrand, hrandValue, hcert, hcertHash]
  exact ⟨rfl, rfl, rfl, fromLeBytesModOrder_bytesAt_serialize _⟩

def sampleSpp : SessionParamsPublic := ⟨.zero, 0x0303, .ofString "bank.example", 1⟩

def lastByteSet : DigestBytes := .fromBytes ((Vector.replicate 32 0).set 31 1 thirtyOne_lt)

/-- Other last bytes, which the circuit drops on purpose. -/
def alteredBytes (proof : HSPProof) : HSPProof :=
  { proof with randValue := lastByteSet, serverCertHash := lastByteSet }

/-- Other values of the fields that are in no public input. -/
def alteredFields (proof : HSPProof) : HSPProof :=
  { proof with
    commitment := .zero
    handshakeTranscriptHash := .zero
    tlsVersion := 0x0304
    serverName := .ofString "other.example"
    establishedAt := 2 }

theorem exists_altered :
    ∃ proof, transparentBackend.proveSessionParams () ⟨.replicate 16 0⟩ .zero ⟨.zero, .zero⟩
        sampleSpp = .ok proof ∧
      proof.randValue = .zero ∧ proof.serverCertHash = .zero ∧ proof.tlsVersion = 0x0303 ∧
      proof.serverName.1 = "bank.example" ∧ proof.establishedAt = 1 ∧
      transparentBackend.verifySessionParams (alteredBytes proof) lastByteSet lastByteSet = .ok () ∧
      transparentBackend.verifySessionParams (alteredFields proof) .zero .zero = .ok () := by
  obtain ⟨proof, hproof, hrand, hcert, hvers, hname, htime⟩ :=
    exists_proveSessionParams_transparentBackend ⟨.replicate 16 0⟩ .zero ⟨.zero, .zero⟩ sampleSpp
  have htake : lastByteSet.asBytes.toList.take 31 = DigestBytes.zero.asBytes.toList.take 31 := by
    decide
  have hbytes := verifySessionParams_of_agree provesExactly_transparentBackend (alteredBytes proof)
    hproof rfl rfl rfl (by rw [hrand]; exact htake) (by rw [hcert]; exact htake)
  have hfields := verifySessionParams_of_agree provesExactly_transparentBackend
    (alteredFields proof) hproof rfl rfl rfl rfl rfl
  rw [show (alteredFields proof).randValue = .zero from hrand,
    show (alteredFields proof).serverCertHash = .zero from hcert] at hfields
  exact ⟨proof, hproof, hrand, hcert, hvers, congrArg Subtype.val hname, htime, hbytes, hfields⟩

/-- **What a Groth16 proof protects**: the session, and the first 31 bytes of the randomness and of
the certificate's hash. -/
theorem agree_of_verifySessionParams {b : GrothZkBackend G} (hexact : b.ProvesExactly)
    {sessionId : SessionId} {randValue : DigestBytes} {proof : HSPProof}
    (hproof : b.proveSessionParams ρ sessionId randValue sps spp = .ok proof) {proof' : HSPProof}
    (hzkProof : proof'.zkProof = proof.zkProof) (_hzkBinding : proof'.zkBinding = proof.zkBinding)
    {randValue' serverCertHash' : DigestBytes}
    (hok : b.verifySessionParams proof' randValue' serverCertHash' = .ok ()) :
    proof'.sessionId = proof.sessionId ∧
      proof'.randValue.asBytes.toList.take 31 = proof.randValue.asBytes.toList.take 31 ∧
      proof'.serverCertHash.asBytes.toList.take 31 =
        proof.serverCertHash.asBytes.toList.take 31 := by
  obtain ⟨π, hπ, hbytes, -, hses, hrand, hcert⟩ := exists_of_proveSessionParams hproof
  obtain ⟨hrand', hcert', zkBinding, proofBytes, -, hproofBytes, hzk⟩ :=
    verifySessionParams_eq_ok.1 hok
  obtain ⟨π', hdeserialize, hver⟩ := verifyHspZk_eq_ok.1 hzk
  -- the Groth16 proof is the one that was made
  obtain rfl : G.serializeProof π = proofBytes := by
    rw [← Option.some_inj, ← hbytes, ← hzkProof, hproofBytes]
  obtain rfl : π = π' := by
    have hback := hexact.deserializeProof_serializeProof π
    exact Except.ok.inj (hback.symm.trans hdeserialize)
  -- so its public inputs are those of the honest circuit
  have hins := (hexact.verify_iff (satisfied_hspCircuit _ _ _ _ _) hπ _).1 hver
  obtain ⟨hsid, hrandFe, hcertFe, -⟩ := publicInputs_eq_iff.1 hins
  rw [hrand', hcert', hses, hrand, hcert]
  exact ⟨hsid, hrandFe, hcertFe⟩

theorem agree_of_verifySessionParams_altered :
    ∃ proof, transparentBackend.proveSessionParams () ⟨.replicate 16 0⟩ .zero ⟨.zero, .zero⟩
        sampleSpp = .ok proof ∧
      transparentBackend.verifySessionParams (alteredBytes proof) lastByteSet lastByteSet = .ok () ∧
      (alteredBytes proof).sessionId = proof.sessionId ∧
      (alteredBytes proof).randValue.asBytes.toList.take 31 =
        proof.randValue.asBytes.toList.take 31 ∧
      (alteredBytes proof).serverCertHash.asBytes.toList.take 31 =
        proof.serverCertHash.asBytes.toList.take 31 := by
  obtain ⟨proof, hproof, -, -, -, -, -, hok, -⟩ := exists_altered
  exact ⟨proof, hproof, hok,
    agree_of_verifySessionParams provesExactly_transparentBackend hproof rfl rfl hok⟩

/-- **A Groth16 proof in another handshake proof**: by design the last bytes are not protected; and
neither are version, name and time, which are not recomputed. -/
theorem verifySessionParams_altered :
    transparentBackend.ProvesExactly ∧
      ∃ proof, transparentBackend.proveSessionParams () ⟨.replicate 16 0⟩ .zero ⟨.zero, .zero⟩
          sampleSpp = .ok proof ∧
        ((alteredBytes proof).zkProof = proof.zkProof ∧
          (alteredBytes proof).zkBinding = proof.zkBinding ∧
          transparentBackend.verifySessionParams (alteredBytes proof) lastByteSet lastByteSet =
            .ok () ∧
          (alteredBytes proof).randValue ≠ proof.randValue ∧
          (alteredBytes proof).serverCertHash ≠ proof.serverCertHash) ∧
        (alteredFields proof).zkProof = proof.zkProof ∧
        (alteredFields proof).zkBinding = proof.zkBinding ∧
        transparentBackend.verifySessionParams (alteredFields proof) .zero .zero = .ok () ∧
        (alteredFields proof).tlsVersion ≠ proof.tlsVersion ∧
        (alteredFields proof).serverName ≠ proof.serverName ∧
        (alteredFields proof).establishedAt ≠ proof.establishedAt := by
  obtain ⟨proof, hproof, hrand, hcert, hvers, hname, htime, hbytes, hfields⟩ := exists_altered
  refine ⟨provesExactly_transparentBackend, proof, hproof, ⟨rfl, rfl, hbytes, ?_, ?_⟩, rfl, rfl,
    hfields, ?_, ?_, ?_⟩
  · rw [hrand]
    exact (by decide : lastByteSet ≠ .zero)
  · rw [hcert]
    exact (by decide : lastByteSet ≠ .zero)
  · rw [hvers]
    exact (by decide : (0x0304 : UInt16) ≠ 0x0303)
  · rw [Ne, Subtype.ext_iff, hname]
    exact (by decide : "other.example" ≠ "bank.example")
  · rw [htime]
    exact (by decide : (2 : UInt64) ≠ 1)

end GrothZkBackend

end TlsAttestation.Zk
