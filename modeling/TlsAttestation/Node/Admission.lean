import TlsAttestation.Node.FrostAux
import TlsAttestation.Zk.Completeness

/-!
# What a node signs on

Before a node draws nonces it checks who signs (`FrostAuxiliaryNode.admitted_of_round1`) and the
evidence; all of it is optional. The proof of the handshake is checked only if there is a verifying
key **too**, and its randomness never (`FrostAuxiliaryNode.hspAdmission_iff`); the records only
among themselves (`FrostAuxiliaryNode.evidenceSession_iff`). And a node never expects the digest
that a proof of the second mode carries (`FrostAuxiliaryNode.hspExecution_answered_iff`).
-/

namespace TlsAttestation

open ByteEncoding Fallible Frost

namespace FrostAuxiliaryNode

/-! ### The registry -/

/-- The first epoch, or the registry's with active signers. -/
def Admitted (registry : ParticipantRegistry) (registryEpoch : RegistryEpoch)
    (signerSet : List VerifierId) : Prop :=
  registryEpoch = .genesis ∨ registryEpoch = registry.epoch ∧ ∀ v ∈ signerSet, registry.IsActive v

variable {registry : ParticipantRegistry}

theorem checkAdmission_eq_ok {registryEpoch : RegistryEpoch} {signerSet : List VerifierId}
    {epochMismatch : RegistryEpoch → String} {denied : VerifierId → RegistryError → String} :
    checkAdmission (some registry) registryEpoch signerSet epochMismatch denied = .ok () ↔
      Admitted registry registryEpoch signerSet := by
  have hloop : (signerSet.forM fun vid => (do
      let _ ← (registry.getActive vid).mapError fun e => NodeError.signingAdmission (denied vid e)
      : Except NodeError Unit)) = .ok () ↔ ∀ v ∈ signerSet, registry.IsActive v := by
    rw [forM_eq_ok]
    simp only [do_eq_ok, and_true, ParticipantRegistry.exists_getActive_eq_ok]
  simp only [checkAdmission, do_eq_ok, exists_and_left, exists_const, Admitted]
  by_cases hgenesis : registryEpoch = .genesis
  · simp [hgenesis]
  · rw [if_pos hgenesis, hloop]
    simp [hgenesis]

variable {F G : Type} [Field F] [AddCommGroup G] [Module F G] {C : NodeCrates F G}

def RecordsAccepted (C : NodeCrates F G) (systemSecs : UInt64) (req : FrostRound1Request)
    (evidence : DctlsEvidence) : Prop :=
  ∃ randValue serverCertHash, digestFromSlice req.randValueBytes = some randValue ∧
    digestFromSlice req.serverCertHashBytes = some serverCertHash ∧
    verifyHspProof C.debugStr systemSecs evidence.hspProof randValue serverCertHash = .ok () ∧
    verifyPgpProof evidence.pgpProof randValue evidence.hspProof = .ok () ∧
    ∃ b, verifyTranscriptConsistency evidence.hspProof evidence.queryRecord evidence.pgpProof =
      .ok b

variable {req : FrostRound1Request}

theorem checkEvidence_eq_ok {systemSecs : UInt64} :
    checkEvidence C systemSecs req = .ok () ↔ (req.hspProofBytes ≠ [] ∧ req.hspPvkBytes ≠ [] →
        C.verifyHspZk req.sessionId req.hspProofBytes req.hspPvkBytes = .ok ()) ∧
      (req.dctlsEvidenceBytes ≠ [] →
        ∃ evidence, C.parseEvidence req.dctlsEvidenceBytes = .ok evidence ∧
          RecordsAccepted C systemSecs req evidence) := by
  unfold checkEvidence RecordsAccepted
  by_cases hzk : req.hspProofBytes ≠ [] ∧ req.hspPvkBytes ≠ []
  · by_cases hrecs : req.dctlsEvidenceBytes ≠ []
    · simp [hzk, hrecs, exists_eq_ok]
    · simp [hzk, hrecs]
  · by_cases hrecs : req.dctlsEvidenceBytes ≠ []
    · simp [hzk, hrecs, exists_eq_ok]
    · simp [hzk, hrecs]

variable {n : FrostAuxiliaryNode F G}

theorem frostRound1Checks_eq_ok {systemSecs : UInt64} {now : UnixTimestamp} :
    frostRound1Checks C systemSecs n req now = .ok () ↔
      now.secs ≤ req.roundExpiresAt.secs ∧ n.verifierId ∈ req.signerSet ∧
      checkRegistry n.registry req = .ok () ∧
      req.signedDigest = approvalSignedDigest req.envelopeDigest ∧
      checkEvidence C systemSecs req = .ok () := by
  simp only [frostRound1Checks, do_eq_ok, exists_and_left, exists_and_right, exists_const,
    exists_eq_ok]

omit [AddCommGroup G] [Module F G] in
theorem handshakeBindingRound1Checks_eq_ok
    {req : HandshakeBindingRound1Request} {now : UnixTimestamp} :
    handshakeBindingRound1Checks n req now = .ok () ↔
      now.secs ≤ req.roundExpiresAt.secs ∧ n.verifierId ∈ req.signerSet ∧
      checkHandshakeBindingRegistry n.registry req = .ok () := by
  simp only [handshakeBindingRound1Checks, do_eq_ok, exists_and_left, exists_const]

/-- **Registry admission**: an answer in round one, of either protocol, is for admitted signers. -/
theorem admitted_of_round1 (hn : n.registry = some registry) :
    (∀ ambient req now resp n', (frostRound1 C ambient req now).run n = .ok resp n' →
      Admitted registry req.registryEpoch req.signerSet) ∧
    ∀ ambient req now resp n', (handshakeBindingRound1 C ambient req now).run n = .ok resp n' →
      Admitted registry req.registryEpoch req.signerSet := by
  constructor
  · intro ambient req now resp n' h
    obtain ⟨-, -, hreg, -⟩ := frostRound1Checks_eq_ok.1 (run_frostRound1_eq_ok.1 h).1
    rw [hn, checkRegistry] at hreg
    exact checkAdmission_eq_ok.1 hreg
  · intro ambient req now resp n' h
    obtain ⟨-, -, hreg⟩ :=
      handshakeBindingRound1Checks_eq_ok.1 (run_handshakeBindingRound1_eq_ok.1 h).1
    rw [hn, checkHandshakeBindingRegistry] at hreg
    exact checkAdmission_eq_ok.1 hreg

def soloRegistry (status : ParticipantStatus) : ParticipantRegistry where
  epoch := ⟨1⟩
  participants := ParticipantTable.empty.insert
    ⟨soloParticipant.verifierId, .fromBytes (.replicate 32 0), status, ⟨1⟩⟩

/-- A request to the only member is answered, if nothing waits for the session. -/
theorem run_frostRound1_solo (C : NodeCrates Toy Toy) (n : FrostAuxiliaryNode Toy Toy)
    (req : FrostRound1Request) (hn : n.participant = soloParticipant)
    (hpend : n.pending req.sessionId = none)
    (hset : req.signerSet = [soloParticipant.verifierId])
    (hdig : req.signedDigest = approvalSignedDigest req.envelopeDigest)
    (hreg : checkRegistry n.registry req = .ok ()) (hev : checkEvidence C 0 req = .ok ()) :
    (frostRound1 C (soloAmbient 0) req ⟨0⟩).run n =
      .ok (frostRound1Response C (soloAmbient 0) n req)
        { n with pending := (Function.update (evictExpired 0 n.pending) req.sessionId
          (some (frostRound1Pending C (soloAmbient 0) n req))) } := by
  refine run_frostRound1_eq_ok.2 ⟨frostRound1Checks_eq_ok.2 ?_, ?_, rfl, rfl⟩
  · refine ⟨UInt64.zero_le, ?_, hreg, hdig, hev⟩
    rw [hset, verifierId, hn]
    exact List.mem_singleton_self _
  · rw [evictExpired, hpend]
    rfl

theorem run_frostRound1_soloRequest (status : ParticipantStatus) (sessionId : SessionId)
    (digest : DigestBytes) (registryEpoch : RegistryEpoch)
    (hadm : Admitted (soloRegistry status) registryEpoch [soloParticipant.verifierId]) :
    ∃ resp n', (frostRound1 soloCrates (soloAmbient 0) (soloRequest sessionId digest registryEpoch)
      ⟨0⟩).run (withRegistry soloParticipant (soloRegistry status)) = .ok resp n' := by
  have hreg : checkRegistry (some (soloRegistry status))
      (soloRequest sessionId digest registryEpoch) = .ok () := by
    rw [checkRegistry]
    exact checkAdmission_eq_ok.2 hadm
  exact ⟨_, _, run_frostRound1_solo _ _ _ rfl rfl rfl rfl hreg
    (checkEvidence_eq_ok.2 ⟨by simp [soloRequest], by simp [soloRequest]⟩)⟩

/-- An active signer of the registry's epoch. -/
theorem admitted_of_round1_soloRequest :
    ∃ resp n', (frostRound1 soloCrates (soloAmbient 0) (soloRequest ⟨.replicate 16 0⟩ .zero ⟨1⟩)
        ⟨0⟩).run (withRegistry soloParticipant (soloRegistry .active)) = .ok resp n' ∧
      Admitted (soloRegistry .active) ⟨1⟩ [soloParticipant.verifierId] := by
  have hact : (soloRegistry .active).IsActive soloParticipant.verifierId :=
    ⟨_, AList.lookup_insert _, rfl⟩
  obtain ⟨resp, n', hrun⟩ := run_frostRound1_soloRequest .active ⟨.replicate 16 0⟩ .zero ⟨1⟩
    (.inr ⟨rfl, by simpa using hact⟩)
  exact ⟨resp, n', hrun, (admitted_of_round1 rfl).1 _ _ _ _ _ hrun⟩

/-- **A revoked signer** is admitted by a request of the first epoch. -/
theorem run_frostRound1_revoked :
    ∃ resp n', (frostRound1 soloCrates (soloAmbient 0)
        (soloRequest ⟨.replicate 16 0⟩ .zero .genesis) ⟨0⟩).run
          (withRegistry soloParticipant (soloRegistry .revoked)) = .ok resp n' ∧
      RegistryEpoch.genesis ≠ (soloRegistry .revoked).epoch ∧
      ¬ (soloRegistry .revoked).IsActive soloParticipant.verifierId := by
  obtain ⟨resp, n', hrun⟩ := run_frostRound1_soloRequest .revoked ⟨.replicate 16 0⟩ .zero .genesis
    (.inl rfl)
  refine ⟨resp, n', hrun, by decide, ?_⟩
  rintro ⟨p, hp, hact⟩
  obtain rfl := Option.some.inj ((AList.lookup_insert _).symm.trans hp)
  exact absurd hact (by decide)

end FrostAuxiliaryNode

/-! ### The proof of the handshake -/

/-- The text of an error under `{:?}`. -/
def Zk.CoSnarkError.debug (debugStr : String → String) : Zk.CoSnarkError → String
  | .setup message => "Setup(" ++ debugStr message ++ ")"
  | .prove message => "Prove(" ++ debugStr message ++ ")"
  | .verify => "Verify"
  | .serialize message => "Serialize(" ++ debugStr message ++ ")"

structure ZkCrates where
  groth16 : Ark.Groth16 Ark.Bn254.Fr
  parseHspProof : Bytes → Except String Zk.HspProof
  deserializePvk : Bytes → Except Ark.SerializationError groth16.VerifyingKey
  /-- A key has points, so it does not fit into nothing. -/
  deserializePvk_nil : deserializePvk [] = .error .ioError

namespace ZkCrates

variable (Z : ZkCrates)

/-- Read the proof and its key from bytes, and verify; no digest is expected. -/
def verifyHspZk (debugStr : String → String) (sessionId : SessionId)
    (hspProofBytes hspPvkBytes : Bytes) : Except String Unit := do
  let session := sessionId.display
  let proof ← (Z.parseHspProof hspProofBytes).mapError fun e =>
    s!"π_HSP deserialization failed for session {session}: {e}"
  let pvk ← (Z.deserializePvk hspPvkBytes).mapError fun e =>
    s!"HSP verifying key deserialization failed for session {session}: {e.display}"
  (Zk.coSnarkVerify Z.groth16 pvk proof none).mapError fun e =>
    s!"ZKP.Verify(π_HSP, rand) failed for session {session}: {e.debug debugStr}"

def Passed (req : FrostRound1Request) (proof : Zk.HspProof) : Prop :=
  ∃ pvk, Z.deserializePvk req.hspPvkBytes = .ok pvk ∧
    Zk.coSnarkVerify Z.groth16 pvk proof none = .ok ()

theorem verifyHspZk_eq_ok (debugStr : String → String) (req : FrostRound1Request) :
    Z.verifyHspZk debugStr req.sessionId req.hspProofBytes req.hspPvkBytes = .ok () ↔
      ∃ proof, Z.parseHspProof req.hspProofBytes = .ok proof ∧ Z.Passed req proof := by
  simp only [verifyHspZk, Passed, do_eq_ok]

theorem hspPvkBytes_ne_nil {Z : ZkCrates} {req : FrostRound1Request} {proof : Zk.HspProof}
    (h : Z.Passed req proof) : req.hspPvkBytes ≠ [] := by
  obtain ⟨pvk, hpvk, -⟩ := h
  intro hnil
  rw [hnil, Z.deserializePvk_nil] at hpvk
  cases hpvk

end ZkCrates

def RandEncoded (req : FrostRound1Request) (proof : Zk.HspProof) : Prop :=
  ∃ rand, digestFromSlice req.randValueBytes = some rand ∧
    Ark.deserialize Ark.Bn254.r proof.randBindingBytes = .ok (Zk.bytes32ToFr rand.asBytes)

def NodeCrates.withZk {F G : Type} [Field F] [AddCommGroup G] [Module F G] (C : NodeCrates F G)
    (Z : ZkCrates) : NodeCrates F G :=
  { C with verifyHspZk := Z.verifyHspZk C.debugStr }

namespace FrostAuxiliaryNode

variable {F G : Type} [Field F] [AddCommGroup G] [Module F G] {C : NodeCrates F G} {Z : ZkCrates}
  {ambient : Ambient} {req : FrostRound1Request} {now : UnixTimestamp}
  {n n' : FrostAuxiliaryNode F G} {resp : FrostRound1Response}

/-- **The proof of the handshake** of a request that is answered was verified for its randomness
exactly if there was a key with it, and the proof is for that randomness. -/
theorem hspAdmission_iff (hbytes : req.hspProofBytes ≠ [])
    (hok : (frostRound1 (C.withZk Z) ambient req now).run n = .ok resp n') :
    (∃ proof, Z.parseHspProof req.hspProofBytes = .ok proof ∧ Z.Passed req proof ∧
        RandEncoded req proof) ↔
      req.hspPvkBytes ≠ [] ∧
        ∃ proof, Z.parseHspProof req.hspProofBytes = .ok proof ∧ RandEncoded req proof := by
  obtain ⟨-, -, -, -, hev⟩ := frostRound1Checks_eq_ok.1 (run_frostRound1_eq_ok.1 hok).1
  constructor
  · rintro ⟨proof, hparse, hpassed, hrand⟩
    exact ⟨ZkCrates.hspPvkBytes_ne_nil hpassed, proof, hparse, hrand⟩
  · rintro ⟨hpvk, proof, hparse, hrand⟩
    have hzk := (checkEvidence_eq_ok.1 hev).1 ⟨hbytes, hpvk⟩
    obtain ⟨proof', hparse', hpassed⟩ := (Z.verifyHspZk_eq_ok C.debugStr req).1 hzk
    obtain rfl : proof = proof' := Except.ok.inj (hparse.symm.trans hparse')
    exact ⟨proof, hparse, hpassed, hrand⟩

noncomputable def zeroZk : ZkCrates where
  groth16 := Ark.Groth16.ideal Ark.Bn254.Fr
  parseHspProof bytes :=
    if bytes = [1] then .ok (Zk.zeroProof (.replicate 32 0)) else .error "expected value"
  deserializePvk bytes := if bytes = [] then .error .ioError else .ok Zk.mode1Statements
  deserializePvk_nil := rfl

def hspRequest (hspProofBytes hspPvkBytes randValueBytes : Bytes) : FrostRound1Request :=
  { soloRequest ⟨.replicate 16 0⟩ .zero .genesis with hspProofBytes, hspPvkBytes, randValueBytes }

theorem run_frostRound1_hspRequest {hspProofBytes hspPvkBytes : Bytes} (randValueBytes : Bytes)
    (h : hspProofBytes ≠ [] ∧ hspPvkBytes ≠ [] →
      zeroZk.verifyHspZk soloCrates.debugStr ⟨.replicate 16 0⟩ hspProofBytes hspPvkBytes = .ok ()) :
    ∃ resp n', (frostRound1 (soloCrates.withZk zeroZk) (soloAmbient 0)
      (hspRequest hspProofBytes hspPvkBytes randValueBytes) ⟨0⟩).run (new soloParticipant) =
        .ok resp n' :=
  ⟨_, _, run_frostRound1_solo _ _ _ rfl rfl rfl rfl rfl
    (checkEvidence_eq_ok.2 ⟨h, by simp [hspRequest, soloRequest]⟩)⟩

theorem verifyHspZk_zeroZk (debugStr : String → String) :
    zeroZk.verifyHspZk debugStr ⟨.replicate 16 0⟩ [1] [1] = .ok () :=
  (zeroZk.verifyHspZk_eq_ok debugStr (hspRequest [1] [1] [])).2
    ⟨Zk.zeroProof (.replicate 32 0), rfl, Zk.mode1Statements, rfl,
      Zk.coSnarkVerify_zeroProof Zk.bytes32ToFr_zero⟩

theorem hspAdmission_zero :
    ∃ proof, zeroZk.parseHspProof [1] = .ok proof ∧
      zeroZk.Passed (hspRequest [1] [1] (List.replicate 32 0)) proof ∧
      RandEncoded (hspRequest [1] [1] (List.replicate 32 0)) proof := by
  obtain ⟨resp, n', hrun⟩ :=
    run_frostRound1_hspRequest (List.replicate 32 0) fun _ => verifyHspZk_zeroZk _
  refine (hspAdmission_iff (by simp [hspRequest]) hrun).2
    ⟨by simp [hspRequest], _, rfl, .zero, ?_, ?_⟩
  · decide
  · rw [DigestBytes.zero, Zk.bytes32ToFr_zero]
    exact Ark.deserialize_serialize Ark.Bn254.r_le 0

/-- **Two answers without a check**: bytes without a key, and a proof for another randomness. -/
theorem run_frostRound1_unverified :
    (∃ resp n', (frostRound1 (soloCrates.withZk zeroZk) (soloAmbient 0)
      (hspRequest [0] [] []) ⟨0⟩).run (new soloParticipant) = .ok resp n') ∧
      (∀ proof, zeroZk.parseHspProof [0] ≠ .ok proof) ∧
      (∃ resp n', (frostRound1 (soloCrates.withZk zeroZk) (soloAmbient 0)
        (hspRequest [1] [1] (List.replicate 32 1)) ⟨0⟩).run (new soloParticipant) = .ok resp n') ∧
      ∀ proof, zeroZk.parseHspProof [1] = .ok proof →
        ¬ RandEncoded (hspRequest [1] [1] (List.replicate 32 1)) proof := by
  refine ⟨run_frostRound1_hspRequest [] fun h => absurd rfl h.2, fun proof h => ?_,
    run_frostRound1_hspRequest _ fun _ => verifyHspZk_zeroZk _, ?_⟩
  · cases h
  · rintro proof hproof ⟨rand, hrand, hread⟩
    obtain rfl := Except.ok.inj hproof
    obtain rfl : DigestBytes.fromBytes (.replicate 32 1) = rand :=
      Option.some.inj (Eq.trans (by decide) hrand)
    have hzero : Ark.deserialize Ark.Bn254.r (Zk.zeroProof (.replicate 32 0)).randBindingBytes =
      .ok 0 := Ark.deserialize_serialize Ark.Bn254.r_le 0
    exact absurd (Except.ok.inj (hzero.symm.trans hread)) (by decide)

/-! ### A proof that was made as intended -/

def Answered (C : NodeCrates F G) (ambient : Ambient) (n : FrostAuxiliaryNode F G)
    (req : FrostRound1Request) (now : UnixTimestamp) : Prop :=
  ∃ resp n', (frostRound1 C ambient req now).run n = .ok resp n'

variable {req : FrostRound1Request} {n : FrostAuxiliaryNode F G}

theorem answered_iff :
    Answered C ambient n req now ↔ frostRound1Checks C ambient.systemSecs n req now = .ok () ∧
      evictExpired ambient.evictedAt n.pending req.sessionId = none := by
  constructor
  · rintro ⟨resp, n', hrun⟩
    obtain ⟨hchk, hpend, -⟩ := run_frostRound1_eq_ok.1 hrun
    exact ⟨hchk, hpend⟩
  · rintro ⟨hchk, hpend⟩
    exact ⟨_, _, run_frostRound1_eq_ok.2 ⟨hchk, hpend, rfl, rfl⟩⟩

/-- A request with a proof is answered if it would be without, and the proof passes. -/
theorem answered_iff_of_hspProof (hproof : req.hspProofBytes ≠ []) (hpvk : req.hspPvkBytes ≠ []) :
    Answered (C.withZk Z) ambient n req now ↔
      Answered (C.withZk Z) ambient n { req with hspProofBytes := [] } now ∧
        Z.verifyHspZk C.debugStr req.sessionId req.hspProofBytes req.hspPvkBytes = .ok () := by
  rw [answered_iff, answered_iff, frostRound1Checks_eq_ok, frostRound1Checks_eq_ok,
    checkEvidence_eq_ok, checkEvidence_eq_ok]
  constructor
  · rintro ⟨⟨htime, hsigner, hreg, hdig, hzk, hrecs⟩, hpend⟩
    exact ⟨⟨⟨htime, hsigner, hreg, hdig, fun h => absurd rfl h.1, hrecs⟩, hpend⟩,
      hzk ⟨hproof, hpvk⟩⟩
  · rintro ⟨⟨⟨htime, hsigner, hreg, hdig, -, hrecs⟩, hpend⟩, hzk⟩
    exact ⟨⟨htime, hsigner, hreg, hdig, fun _ => hzk, hrecs⟩, hpend⟩

/-- **Admission of a proof** that was made as intended, with its verifying key: exactly if it is one
of the first mode. -/
theorem hspExecution_answered_iff (hcompl : Z.groth16.Complete) {execution : Zk.HspExecution}
    {crs : Z.groth16.ProvingKey} {ρ ρ' : Z.groth16.Randomness} {proof : Zk.HspProof}
    {ambient : Ambient} (hcrs : execution.setup Z.groth16 ρ = .ok crs)
    (hproof : execution.execute Z.groth16 crs ρ' = .ok proof) (hbytes : req.hspProofBytes ≠ [])
    (hparse : Z.parseHspProof req.hspProofBytes = .ok proof)
    (hpvk : Z.deserializePvk req.hspPvkBytes = .ok (Z.groth16.vk crs))
    (hother : Answered (C.withZk Z) ambient n { req with hspProofBytes := [] } now) :
    Answered (C.withZk Z) ambient n req now ↔ execution.IsMode1 := by
  have hpvkBytes : req.hspPvkBytes ≠ [] := by
    intro hnil
    rw [hnil, Z.deserializePvk_nil] at hpvk
    cases hpvk
  rw [answered_iff_of_hspProof hbytes hpvkBytes, Z.verifyHspZk_eq_ok,
    ← Zk.coSnarkVerify_none_iff hcompl hcrs hproof]
  constructor
  · rintro ⟨-, proof', hparse', pvk, hpvk', hver⟩
    obtain rfl := Except.ok.inj (hparse.symm.trans hparse')
    obtain rfl := Except.ok.inj (hpvk.symm.trans hpvk')
    exact hver
  · intro hver
    exact ⟨hother, proof, hparse, _, hpvk, hver⟩

def readingZk (scheme : Ark.Groth16 Ark.Bn254.Fr) (proof : Zk.HspProof)
    (pvk : scheme.VerifyingKey) :
    ZkCrates where
  groth16 := scheme
  parseHspProof _ := .ok proof
  deserializePvk bytes := if bytes = [] then .error .ioError else .ok pvk
  deserializePvk_nil := rfl

theorem answered_hspRequest_nil (Z : ZkCrates) (hspPvkBytes : Bytes) :
    Answered (soloCrates.withZk Z) (soloAmbient 0) (new soloParticipant)
      (hspRequest [] hspPvkBytes []) ⟨0⟩ :=
  ⟨_, _, run_frostRound1_solo _ _ _ rfl rfl rfl rfl rfl
    (checkEvidence_eq_ok.2 ⟨fun h => absurd rfl h.1, by simp [hspRequest, soloRequest]⟩)⟩

/-- A proof of the first mode, under the ideal scheme. -/
theorem hspExecution_answered_mode1 :
    ∃ (crs : Set (List Ark.Bn254.Fr)) (proof : Zk.HspProof),
      Zk.coSnarkExecute (Ark.Groth16.ideal _) crs (.replicate 32 1) (.replicate 32 2)
        (.replicate 32 3) () = .ok proof ∧
      Answered (soloCrates.withZk (readingZk (Ark.Groth16.ideal _) proof crs)) (soloAmbient 0)
        (new soloParticipant) (hspRequest [1] [1] []) ⟨0⟩ := by
  obtain ⟨crs, proof, hcrs, hproof⟩ :=
    Zk.exists_coSnarkExecute_ideal (.replicate 32 1) (.replicate 32 2) (.replicate 32 3)
  let execution : Zk.HspExecution := .mode1 (.replicate 32 1) (.replicate 32 2) (.replicate 32 3)
  have hiff : Answered _ _ _ (hspRequest [1] [1] []) _ ↔ execution.IsMode1 :=
    hspExecution_answered_iff (Z := readingZk (Ark.Groth16.ideal _) proof crs)
      Ark.Groth16.complete_ideal hcrs hproof (by simp [hspRequest]) rfl rfl
      (answered_hspRequest_nil _ [1])
  exact ⟨crs, proof, hproof, hiff.2 trivial⟩

/-- **A proof of the second mode** is refused, although all fits together. -/
theorem exists_hspExecution_refused :
    ∃ (execution : Zk.HspExecution) (Z : ZkCrates) (proof : Zk.HspProof)
        (crs : Z.groth16.ProvingKey) (ρ ρ' : Z.groth16.Randomness) (req : FrostRound1Request),
      execution.Derived ∧ Z.groth16.Complete ∧ execution.setup Z.groth16 ρ = .ok crs ∧
      execution.execute Z.groth16 crs ρ' = .ok proof ∧ req.hspProofBytes ≠ [] ∧
      Z.parseHspProof req.hspProofBytes = .ok proof ∧
      Z.deserializePvk req.hspPvkBytes = .ok (Z.groth16.vk crs) ∧
      Answered (soloCrates.withZk Z) (soloAmbient 0) (new soloParticipant)
        { req with hspProofBytes := [] } ⟨0⟩ ∧
      ¬ Answered (soloCrates.withZk Z) (soloAmbient 0) (new soloParticipant) req ⟨0⟩ := by
  obtain ⟨p, v, hderived⟩ := Zk.exists_derived (List.length_replicate (n := 48) (a := 0))
    (.replicate 32 0) (.replicate 32 0) (.replicate 32 0)
  obtain ⟨proof, hproof⟩ : ∃ proof, (Zk.HspExecution.mode2 p v (.replicate 32 0)
      (List.replicate 48 0) (.replicate 32 0) (.replicate 32 0)).execute
        (Ark.Groth16.accepting _) () () = .ok proof := ⟨_, rfl⟩
  refine ⟨_, readingZk (Ark.Groth16.accepting _) proof (), proof, (), (), (), hspRequest [1] [1] [],
    hderived, Ark.Groth16.complete_accepting, rfl, hproof, by simp [hspRequest], rfl, rfl,
    answered_hspRequest_nil _ [1], fun hanswered => ?_⟩
  -- the node verifies the proof without expecting a digest
  obtain ⟨-, hzk⟩ := (answered_iff_of_hspProof (by simp [hspRequest]) (by simp [hspRequest])).1
    hanswered
  obtain ⟨proof', hparse, pvk, -, hver⟩ := (ZkCrates.verifyHspZk_eq_ok _ _ _).1 hzk
  obtain rfl := Except.ok.inj hparse
  exact Zk.coSnarkVerify_of_mode2 hproof hver

/-! ### The records of the session -/

/-- **The records of the session** of an answered request are of its session exactly if the first
one is. -/
theorem evidenceSession_iff (hbytes : req.dctlsEvidenceBytes ≠ [])
    (hok : (frostRound1 C ambient req now).run n = .ok resp n') :
    ∃ evidence, C.parseEvidence req.dctlsEvidenceBytes = .ok evidence ∧
      ((evidence.hspProof.sessionId = req.sessionId ∧
          evidence.queryRecord.sessionId = req.sessionId ∧
          evidence.pgpProof.sessionId = req.sessionId) ↔
        evidence.hspProof.sessionId = req.sessionId) := by
  obtain ⟨-, -, -, -, hev⟩ := frostRound1Checks_eq_ok.1 (run_frostRound1_eq_ok.1 hok).1
  obtain ⟨evidence, hparse, _, _, -, -, -, -, b, hcons⟩ :=
    (checkEvidence_eq_ok.1 hev).2 hbytes
  obtain ⟨hquery, hpgp, -⟩ := verifyTranscriptConsistency_eq_ok.1 hcons
  refine ⟨evidence, hparse, fun h => h.1, fun h => ?_⟩
  exact ⟨h, hquery.symm.trans h, hpgp.symm.trans h⟩

variable (sessionId : SessionId)

def sessionRecords : DctlsEvidence :=
  .generate sessionId .zero ⟨.zero, .zero⟩ ⟨.zero, 0x0303, .ofString "bank.example", 0⟩ [0x51]
    [0x52] (.ofList [0x52]) (.ofString "result/v1")

def recordsCrates : NodeCrates Toy Toy :=
  { soloCrates with parseEvidence := fun _ => .ok (sessionRecords sessionId) }

def recordsRequest : FrostRound1Request :=
  { soloRequest ⟨.replicate 16 0⟩ .zero .genesis with
    dctlsEvidenceBytes := [1]
    randValueBytes := List.replicate 32 0
    serverCertHashBytes := List.replicate 32 0 }

theorem run_frostRound1_recordsRequest :
    ∃ resp n', (frostRound1 (recordsCrates sessionId) (soloAmbient 0) recordsRequest ⟨0⟩).run
      (new soloParticipant) = .ok resp n' := by
  have hzero : digestFromSlice (List.replicate 32 0) = some .zero := by decide
  refine ⟨_, _, run_frostRound1_solo _ _ _ rfl rfl rfl rfl rfl
    (checkEvidence_eq_ok.2 ⟨by simp [recordsRequest, soloRequest], fun _ =>
      ⟨sessionRecords sessionId, rfl, .zero, .zero, hzero, hzero, ?_, ?_, ?_⟩⟩)⟩
  · exact verifyHspProof_generate fun h => absurd h.1 (by decide : ¬ (0 : UInt64) < 0)
  · exact verifyPgpProof_generate _ _ _ _ _ _
  · exact ⟨_, verifyTranscriptConsistency_eq_ok.2 ⟨rfl, rfl, rfl, rfl, rfl, rfl⟩⟩

theorem evidenceSession_same :
    ∃ evidence, (recordsCrates ⟨.replicate 16 0⟩).parseEvidence [1] = .ok evidence ∧
      evidence.hspProof.sessionId = recordsRequest.sessionId ∧
      evidence.queryRecord.sessionId = recordsRequest.sessionId ∧
      evidence.pgpProof.sessionId = recordsRequest.sessionId := by
  obtain ⟨resp, n', hrun⟩ := run_frostRound1_recordsRequest ⟨.replicate 16 0⟩
  obtain ⟨evidence, hparse, hiff⟩ := evidenceSession_iff (by simp [recordsRequest]) hrun
  refine ⟨evidence, hparse, hiff.2 ?_⟩
  obtain rfl := Except.ok.inj hparse
  rfl

/-- **Records of another session** are accepted. -/
theorem run_frostRound1_otherSession :
    (∃ resp n', (frostRound1 (recordsCrates ⟨.replicate 16 1⟩) (soloAmbient 0)
      recordsRequest ⟨0⟩).run (new soloParticipant) = .ok resp n') ∧
      ∀ evidence, (recordsCrates ⟨.replicate 16 1⟩).parseEvidence [1] = .ok evidence →
        evidence.hspProof.sessionId ≠ recordsRequest.sessionId ∧
        evidence.queryRecord.sessionId ≠ recordsRequest.sessionId ∧
        evidence.pgpProof.sessionId ≠ recordsRequest.sessionId := by
  refine ⟨run_frostRound1_recordsRequest _, fun evidence hparse => ?_⟩
  obtain rfl := Except.ok.inj hparse
  have hne : (⟨.replicate 16 1⟩ : SessionId) ≠ recordsRequest.sessionId := by decide
  exact ⟨hne, hne, hne⟩

end FrostAuxiliaryNode

end TlsAttestation
