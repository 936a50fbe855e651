import TlsAttestation.Zk.CoSnark

/-!
# The session binding proof

`π_θs`: `K_MAC` authenticated two records of the session. The public inputs are the packed key and
the packed HMACs of query and response under it, each plus `rand_binding`. This proof and the
handshake proof are about the same packed key exactly if they use the same randomness
(`Zk.kMac_bound_iff`).
-/

namespace TlsAttestation.Zk

open Ark ByteEncoding Fallible Sha2

open Ark.Bn254 (Fr r)

inductive SessionBindingError where
  | setup (message : String)
  | prove (message : String)
  | verify
  | serialize (message : String)
deriving DecidableEq, Repr

structure TlsRecordHeader where
  seqNum : UInt64
  contentType : UInt8
  version : Vector UInt8 2
  dataLen : UInt16

def TlsRecordHeader.toBytes (h : TlsRecordHeader) : Bytes :=
  beBytes 8 h.seqNum.toNat ++ [h.contentType] ++ h.version.toList ++ beBytes 2 h.dataLen.toNat

theorem TlsRecordHeader.length_toBytes (h : TlsRecordHeader) : h.toBytes.length = 13 := by
  simp [toBytes]

/-! ### The circuit -/

structure TlsSessionBindingCircuit where
  (kMacCommitmentFe randBindingFe macCommitmentQFe macCommitmentRFe : Fr)
  kMac : Bytes32
  (headerQ headerR : TlsRecordHeader)
  (queryDataHash responseDataHash : Bytes32)

structure RecordWires (Bit : Type) where
  hdrVars : List (UInt8Var Bit)
  dataHashVars : List (UInt8Var Bit)

structure SessionBindingWires (Bit Fp : Type) where
  (expectedKMacCommit randBinding expectedMacCommitQ expectedMacCommitR : Fp)
  kMacVars : List (UInt8Var Bit)
  (query response : RecordWires Bit)

def SessionBindingWires.publicInputs {Bit Fp : Type} (w : SessionBindingWires Bit Fp) : List Fp :=
  [w.expectedKMacCommit, w.randBinding, w.expectedMacCommitQ, w.expectedMacCommitR]

namespace TlsSessionBindingCircuit

def new (kMac randBinding : Bytes32) (headerQ headerR : TlsRecordHeader)
    (queryDataHash responseDataHash macQ macR : Bytes32) : TlsSessionBindingCircuit where
  kMacCommitmentFe := kMacCommitment kMac (bytes32ToFr randBinding)
  randBindingFe := bytes32ToFr randBinding
  macCommitmentQFe := bytes32ToFr macQ + bytes32ToFr randBinding
  macCommitmentRFe := bytes32ToFr macR + bytes32ToFr randBinding
  kMac := kMac
  headerQ := headerQ
  headerR := headerR
  queryDataHash := queryDataHash
  responseDataHash := responseDataHash

def dummyHeader : TlsRecordHeader := ⟨0, 23, #v[3, 3], 32⟩

section

variable {m : Type → Type} {Bit Fp : Type} [Monad m] [Gadgets m Fr Bit Fp]

def enforceMac (kMacVars : List (UInt8Var Bit)) (record : RecordWires Bit)
    (randBinding expectedMacCommit : Fp) : m Unit := do
  let computedMac ← hmacSha256GadgetConstrained kMacVars (record.hdrVars ++ record.dataHashVars)
  Gadgets.fpEnforceEqual
    (Gadgets.fpAdd (m := m) (packBytesToFpvar m computedMac) randBinding) expectedMacCommit

/-- The key is committed to, and so is the tag of either record under it. -/
def generateConstraints (c : TlsSessionBindingCircuit) : m (SessionBindingWires Bit Fp) := do
  let expectedKMacCommit ← Gadgets.fpNewInput c.kMacCommitmentFe
  let randBinding ← Gadgets.fpNewInput c.randBindingFe
  let expectedMacCommitQ ← Gadgets.fpNewInput c.macCommitmentQFe
  let expectedMacCommitR ← Gadgets.fpNewInput c.macCommitmentRFe
  -- the key
  let kMacVars ← newWitnessBytes c.kMac.toList
  Gadgets.fpEnforceEqual
    (Gadgets.fpAdd (m := m) (packBytesToFpvar m kMacVars) randBinding) expectedKMacCommit
  -- the two records
  let hdrQVars ← newWitnessBytes c.headerQ.toBytes
  let hdrRVars ← newWitnessBytes c.headerR.toBytes
  let qdhVars ← newWitnessBytes c.queryDataHash.toList
  let rdhVars ← newWitnessBytes c.responseDataHash.toList
  let query := ⟨hdrQVars, qdhVars⟩
  let response := ⟨hdrRVars, rdhVars⟩
  enforceMac kMacVars query randBinding expectedMacCommitQ
  enforceMac kMacVars response randBinding expectedMacCommitR
  return ⟨expectedKMacCommit, randBinding, expectedMacCommitQ, expectedMacCommitR, kMacVars, query,
    response⟩

end

end TlsSessionBindingCircuit

open TlsSessionBindingCircuit

/-- The proof of the session, `π_θs`, with its four public inputs as bytes. -/
structure SessionBindingProof where
  groth16Bytes : Bytes
  kMacCommitmentBytes : Bytes
  randBindingBytes : Bytes
  macCommitmentQBytes : Bytes
  macCommitmentRBytes : Bytes

/-! ### Execute and verify -/

section

variable (G : Groth16 Fr)

def checkExpectedCommitment (kMacCommitFe : Fr) (expectedBytes : Bytes) :
    Except SessionBindingError Unit :=
  if expectedBytes.isEmpty then pure ()
  else do
    let expectedFe ← deserializeField .serialize "expected_k_mac_commitment" expectedBytes
    ensure (kMacCommitFe = expectedFe) .verify

/-- Read the inputs, verify, and compare the commitment to the key with the expected one. -/
def sessionBindingVerify (pvk : G.VerifyingKey) (proof : SessionBindingProof)
    (expectedKMacCommitmentBytes : Bytes) : Except SessionBindingError Unit := do
  let groth16Proof ← (G.deserializeProof proof.groth16Bytes).mapError
    fun e => SessionBindingError.serialize s!"proof deserialize: {e.display}"
  let kMacCommitFe ← deserializeField .serialize "k_mac_commitment" proof.kMacCommitmentBytes
  let randFe ← deserializeField .serialize "rand_binding" proof.randBindingBytes
  let macQFe ← deserializeField .serialize "mac_q" proof.macCommitmentQBytes
  let macRFe ← deserializeField .serialize "mac_r" proof.macCommitmentRBytes
  let valid ← (G.verify pvk [kMacCommitFe, randFe, macQFe, macRFe] groth16Proof).mapError
    fun e => SessionBindingError.prove e.display
  ensure valid .verify
  checkExpectedCommitment kMacCommitFe expectedKMacCommitmentBytes

end

/-! ### Satisfying assignments -/

variable (w : SessionBindingWires Wire Fr)

def SessionBindingWires.kMac : Bytes :=
  bytesOn .assigned w.kMacVars

def RecordWires.mac (record : RecordWires Wire) (kMac : Bytes) : Bytes32 :=
  hmacSha256 kMac (bytesOn .assigned record.hdrVars ++ bytesOn .assigned record.dataHashVars)

namespace TlsSessionBindingCircuit

theorem mem_enforceMac {kMacVars : List (UInt8Var Wire)} (hlen : kMacVars.length ≤ 64)
    {record : RecordWires Wire} {rand commit : Fr} {u : Unit} :
    u ∈ enforceMac (m := Sat Fr) kMacVars record rand commit ↔
      packed (ofLeBytes (record.mac (bytesOn .assigned kMacVars)).toList) + rand = commit := by
  have hhmac := determined_hmacSha256GadgetConstrained (F := Fr) hlen
    (record.hdrVars ++ record.dataHashVars)
  have hmac : ∀ out ∈ hmacSha256GadgetConstrained (m := Sat Fr) kMacVars
      (record.hdrVars ++ record.dataHashVars),
      bytesOn .assigned out = (record.mac (bytesOn .assigned kMacVars)).toList := by
    intro out hout
    rw [bytesOn, hhmac.of_mem hout .assigned, List.map_append]
    rfl
  simp only [enforceMac, Sat.mem_bind, mem_fpEnforceEqual, fpAdd_eq, packBytesToFpvar_eq]
  constructor
  · rintro ⟨out, hout, heq⟩
    rwa [hmac out hout] at heq
  · intro heq
    obtain ⟨out, hout⟩ := hhmac.exists_mem
    exact ⟨out, hout, by rwa [hmac out hout]⟩

/-- **What the circuit enforces**; the prover's values only fix lengths. -/
structure Satisfied (c : TlsSessionBindingCircuit) (w : SessionBindingWires Wire Fr) : Prop where
  kMacVars : bytesOn .native w.kMacVars = c.kMac.toList
  hdrQVars : bytesOn .native w.query.hdrVars = c.headerQ.toBytes
  qdhVars : bytesOn .native w.query.dataHashVars = c.queryDataHash.toList
  hdrRVars : bytesOn .native w.response.hdrVars = c.headerR.toBytes
  rdhVars : bytesOn .native w.response.dataHashVars = c.responseDataHash.toList
  kMac : packed (ofLeBytes w.kMac) + w.randBinding = w.expectedKMacCommit
  macQ : packed (ofLeBytes (w.query.mac w.kMac).toList) + w.randBinding = w.expectedMacCommitQ
  macR : packed (ofLeBytes (w.response.mac w.kMac).toList) + w.randBinding = w.expectedMacCommitR

theorem mem_generateConstraints {c : TlsSessionBindingCircuit} {w : SessionBindingWires Wire Fr} :
    w ∈ c.generateConstraints (m := Sat Fr) ↔ c.Satisfied w := by
  have hlen : ∀ {kMacVars : List (UInt8Var Wire)}, bytesOn .native kMacVars = c.kMac.toList →
      kMacVars.length ≤ 64 := by
    intro kMacVars hkMac
    have h := congrArg List.length hkMac
    rw [List.length_map, Vector.length_toList] at h
    omega
  simp only [generateConstraints, Sat.mem_bind, Sat.mem_pure, mem_fpNewInput,
    mem_newWitnessBytes, mem_fpEnforceEqual, fpAdd_eq, packBytesToFpvar_eq, true_and]
  constructor
  · rintro ⟨cmt, rand, cmtQ, cmtR, kMacVars, hkMac, -, hcmt, hdrQ, hhdrQ, hdrR, hhdrR, qdh,
      hqdh, rdh,
      hrdh, _, hmacQ, _, hmacR, rfl⟩
    exact ⟨hkMac, hhdrQ, hqdh, hhdrR, hrdh, hcmt, (mem_enforceMac (hlen hkMac)).1 hmacQ,
      (mem_enforceMac (hlen hkMac)).1 hmacR⟩
  · rintro ⟨hkMac, hhdrQ, hqdh, hhdrR, hrdh, hcmt, hmacQ, hmacR⟩
    exact ⟨w.expectedKMacCommit, w.randBinding, w.expectedMacCommitQ, w.expectedMacCommitR,
      w.kMacVars, hkMac, (), hcmt, w.query.hdrVars, hhdrQ, w.response.hdrVars, hhdrR,
      w.query.dataHashVars, hqdh, w.response.dataHashVars, hrdh, (),
      (mem_enforceMac (hlen hkMac)).2 hmacQ, (), (mem_enforceMac (hlen hkMac)).2 hmacR, rfl⟩

/-- **A key and two records** have a satisfying assignment exactly if the three equations hold. -/
theorem exists_assignment_iff (c : TlsSessionBindingCircuit) (commit rand commitQ commitR : Fr)
    (kMac dq dr : Bytes32) (hq hr : Vector UInt8 13) :
    (∃ w ∈ c.generateConstraints (m := Sat Fr),
      w.publicInputs = [commit, rand, commitQ, commitR] ∧ w.kMac = kMac.toList ∧
      bytesOn .assigned w.query.hdrVars = hq.toList ∧
      bytesOn .assigned w.query.dataHashVars = dq.toList ∧
      bytesOn .assigned w.response.hdrVars = hr.toList ∧
      bytesOn .assigned w.response.dataHashVars = dr.toList) ↔
    packed (ofLeBytes kMac.toList) + rand = commit ∧
      packed (ofLeBytes (hmacSha256 kMac.toList (hq.toList ++ dq.toList)).toList) + rand = commitQ ∧
      packed (ofLeBytes (hmacSha256 kMac.toList (hr.toList ++ dr.toList)).toList) + rand =
        commitR := by
  constructor
  · rintro ⟨w, hw, hins, hkMac, hhq, hdq, hhr, hdr⟩
    obtain ⟨-, -, -, -, -, hcommit, hmacQ, hmacR⟩ := mem_generateConstraints.1 hw
    simp only [SessionBindingWires.publicInputs, List.cons.injEq] at hins
    obtain ⟨rfl, rfl, rfl, rfl, -⟩ := hins
    rw [RecordWires.mac, hkMac, hhq, hdq] at hmacQ
    rw [RecordWires.mac, hkMac, hhr, hdr] at hmacR
    exact ⟨hkMac ▸ hcommit, hmacQ, hmacR⟩
  · rintro ⟨hcommit, hmacQ, hmacR⟩
    have hwires {n : ℕ} {bs : Bytes} (v : Vector UInt8 n) (hlen : bs.length = n) :
        ∃ xs, bytesOn .native xs = bs ∧ bytesOn .assigned xs = v.toList := by
      have h := bytesOn_byteWires (w := fun side => side.casesOn bs v.toList) (by simpa using hlen)
      exact ⟨_, h .native, h .assigned⟩
    obtain ⟨k, hk, hk'⟩ := hwires kMac c.kMac.length_toList
    obtain ⟨q, hnq, hq'⟩ := hwires hq c.headerQ.length_toBytes
    obtain ⟨eq, hnd, hd'⟩ := hwires dq c.queryDataHash.length_toList
    obtain ⟨s, hns, hs'⟩ := hwires hr c.headerR.length_toBytes
    obtain ⟨er, hne, he'⟩ := hwires dr c.responseDataHash.length_toList
    refine ⟨⟨commit, rand, commitQ, commitR, k, ⟨q, eq⟩, ⟨s, er⟩⟩, mem_generateConstraints.2
      ⟨hk, hnq, hnd, hns, hne, ?_, ?_, ?_⟩, rfl, hk', hq', hd', hs', he'⟩
    · rwa [SessionBindingWires.kMac, hk']
    · rwa [RecordWires.mac, SessionBindingWires.kMac, hk', hq', hd']
    · rwa [RecordWires.mac, SessionBindingWires.kMac, hk', hs', he']

end TlsSessionBindingCircuit

/-! ### Proofs for a given key -/

def sessionStatements : Set (List Fr) :=
  {inputs | ∃ (c : TlsSessionBindingCircuit) (w : SessionBindingWires Wire Fr),
    w ∈ c.generateConstraints (m := Sat Fr) ∧ w.publicInputs = inputs}

def SessionBindingProof.publicInputs (s : SessionBindingProof) :
    Except SerializationError (List Fr) :=
  [s.kMacCommitmentBytes, s.randBindingBytes, s.macCommitmentQBytes, s.macCommitmentRBytes].mapM
    (deserialize r)

def Witnesses (s : SessionBindingProof) : Prop :=
  (∃ c : TlsSessionBindingCircuit, w ∈ c.generateConstraints (m := Sat Fr)) ∧
    s.publicInputs = .ok w.publicInputs

namespace TlsSessionBindingCircuit

variable (c : TlsSessionBindingCircuit)

def wiresOf (rand : Fr) : SessionBindingWires Wire Fr :=
  let kMac := c.kMac.toList
  { expectedKMacCommit := bytes32ToFr c.kMac + rand
    randBinding := rand
    expectedMacCommitQ :=
      bytes32ToFr (hmacSha256 kMac (c.headerQ.toBytes ++ c.queryDataHash.toList)) + rand
    expectedMacCommitR :=
      bytes32ToFr (hmacSha256 kMac (c.headerR.toBytes ++ c.responseDataHash.toList)) + rand
    kMacVars := constantBytes (Sat Fr) kMac
    query := ⟨constantBytes (Sat Fr) c.headerQ.toBytes,
      constantBytes (Sat Fr) c.queryDataHash.toList⟩
    response := ⟨constantBytes (Sat Fr) c.headerR.toBytes,
      constantBytes (Sat Fr) c.responseDataHash.toList⟩ }

theorem kMac_wiresOf (rand : Fr) :
    (c.wiresOf rand).kMac = c.kMac.toList :=
  map_byteOn_constantBytes .assigned _

theorem wiresOf_mem (rand : Fr) :
    c.wiresOf rand ∈ c.generateConstraints (m := Sat Fr) := by
  have hbytes := map_byteOn_constantBytes (F := Fr)
  refine mem_generateConstraints.2 ⟨hbytes _ _, hbytes _ _, hbytes _ _, hbytes _ _, hbytes _ _,
    ?_, ?_,
    ?_⟩
  · rw [kMac_wiresOf, ← bytes32ToFr_eq]
    rfl
  · rw [kMac_wiresOf, ← bytes32ToFr_eq, RecordWires.mac, wiresOf, bytesOn, bytesOn, hbytes, hbytes]
  · rw [kMac_wiresOf, ← bytes32ToFr_eq, RecordWires.mac, wiresOf, bytesOn, bytesOn, hbytes, hbytes]

end TlsSessionBindingCircuit

def SessionBindingProof.ofWires : SessionBindingProof :=
  ⟨[], serialize w.expectedKMacCommit, serialize w.randBinding, serialize w.expectedMacCommitQ,
    serialize w.expectedMacCommitR⟩

theorem publicInputs_ofWires :
    (SessionBindingProof.ofWires w).publicInputs = .ok w.publicInputs := by
  simp only [SessionBindingProof.publicInputs, SessionBindingProof.ofWires, List.mapM_cons,
    List.mapM_nil, deserialize_serialize Bn254.r_le]
  rfl

theorem sessionBindingVerify_ofWires (c : TlsSessionBindingCircuit) (rand : Fr) :
    sessionBindingVerify (Groth16.ideal Fr) sessionStatements (.ofWires (c.wiresOf rand))
      (serialize (bytes32ToFr c.kMac + rand)) = .ok () := by
  have hread := deserialize_serialize Bn254.r_le
  have hstmt : (c.wiresOf rand).publicInputs ∈ sessionStatements :=
    ⟨c, c.wiresOf rand, c.wiresOf_mem rand, rfl⟩
  have hexpected : checkExpectedCommitment (bytes32ToFr c.kMac + rand)
      (serialize (bytes32ToFr c.kMac + rand)) = .ok () := by
    rw [checkExpectedCommitment, if_neg (by simp [serialize, leBytes])]
    exact bind_eq_ok.2 ⟨_, mapError_eq_ok.2 (hread _), ensure_eq_ok.2 rfl⟩
  simp only [sessionBindingVerify, deserializeField, SessionBindingProof.ofWires, hread, do_eq_ok]
  exact ⟨(), rfl, _, rfl, _, rfl, _, rfl, _, rfl, true, Groth16.verify_ideal.2 hstmt, (), rfl,
    hexpected⟩

variable (kMac : Bytes32)

def keyCircuit : TlsSessionBindingCircuit :=
  let zero := .replicate 32 0
  .new kMac zero dummyHeader dummyHeader zero zero zero zero

/-- The commitment zero: any key, with the randomness that cancels it. -/
def cancellingProof : SessionBindingProof :=
  .ofWires ((keyCircuit kMac).wiresOf (-bytes32ToFr kMac))

theorem sessionBindingVerify_cancellingProof :
    sessionBindingVerify (Groth16.ideal Fr) sessionStatements (cancellingProof kMac)
      (serialize (0 : Fr)) = .ok () := by
  have hok := sessionBindingVerify_ofWires (keyCircuit kMac) (-bytes32ToFr kMac)
  rwa [show (keyCircuit kMac).kMac = kMac from rfl, add_neg_cancel] at hok

/-! ### The key of the handshake and the key of the session -/

/-- The key in a session proof packs to that of the handshake. -/
def KMacBound (h : HspProof) (s : SessionBindingProof) : Prop :=
  (∃ w, Witnesses w s) ∧ ∀ w, Witnesses w s → packed (ofLeBytes w.kMac) = bytes32ToFr h.kMac

section

variable {G : Groth16 Fr} {pvk pvk' : G.VerifyingKey} {h : HspProof} {s : SessionBindingProof}
  {expected : Option Fr}

theorem accepted_of_sessionBindingVerify
    (hok : sessionBindingVerify G pvk s h.kMacCommitmentBytes = .ok ())
    {commitmentFe : Fr} (hcomm : deserialize r h.kMacCommitmentBytes = .ok commitmentFe) :
    ∃ randFe macQFe macRFe π, deserialize r s.randBindingBytes = .ok randFe ∧
      s.publicInputs = .ok [commitmentFe, randFe, macQFe, macRFe] ∧
      G.verify pvk [commitmentFe, randFe, macQFe, macRFe] π = .ok true := by
  have hbytes : h.kMacCommitmentBytes.isEmpty = false := by
    cases hb : h.kMacCommitmentBytes with
    | nil =>
      rw [hb] at hcomm
      exact nomatch hcomm
    | cons b bs => rfl
  simp only [sessionBindingVerify, deserializeField, checkExpectedCommitment, hbytes, hcomm,
    do_eq_ok] at hok
  obtain ⟨π, -, cmt, hcmt, rand, hrand, macQ, hmacQ, macR, hmacR, valid, hvalid, -, hver, hexp⟩ :=
    hok
  obtain rfl : valid = true := hver
  obtain ⟨expectedFe, hexpected, hcommit⟩ := bind_eq_ok.1 hexp
  obtain rfl : commitmentFe = expectedFe := Except.ok.inj (mapError_eq_ok.1 hexpected)
  obtain rfl : cmt = commitmentFe := ensure_eq_ok.1 hcommit
  refine ⟨rand, macQ, macR, π, hrand, ?_, hvalid⟩
  simp only [SessionBindingProof.publicInputs, List.mapM_cons, List.mapM_nil, hcmt, hrand,
    hmacQ, hmacR]
  rfl

/-- **The two proofs are about one key** exactly if they are about one randomness. -/
theorem kMac_bound_iff (hsound : G.KnowledgeSound pvk' (· ∈ sessionStatements))
    (hh : coSnarkVerify G pvk h expected = .ok ())
    (hs : sessionBindingVerify G pvk' s h.kMacCommitmentBytes = .ok ()) :
    KMacBound h s ↔ deserialize r s.randBindingBytes = deserialize r h.randBindingBytes := by
  obtain ⟨commitmentFe, randFe, hacc⟩ := accepted_of_coSnarkVerify hh
  obtain ⟨randFe', macQFe, macRFe, π, hrand', hins, hver⟩ :=
    accepted_of_sessionBindingVerify hs hacc.commitment
  -- the commitment of any witness is the one of the handshake, with its own randomness
  have hwit : ∀ w, Witnesses w s →
      packed (ofLeBytes w.kMac) + randFe' = bytes32ToFr h.kMac + randFe := by
    rintro w ⟨⟨c, hw⟩, hw'⟩
    obtain ⟨hcmt, hrand, -⟩ : commitmentFe = w.expectedKMacCommit ∧
        randFe' = w.randBinding ∧ _ := by
      simpa only [SessionBindingWires.publicInputs, List.cons.injEq] using
        Except.ok.inj (hins.symm.trans hw')
    rw [hacc.kMac, hrand, hcmt]
    exact (mem_generateConstraints.1 hw).kMac
  obtain ⟨c, w₀, hw₀, hinputs₀⟩ := hsound _ π hver
  have hw₀ : Witnesses w₀ s := ⟨⟨c, hw₀⟩, hins.trans (congrArg _ hinputs₀.symm)⟩
  rw [hrand', hacc.rand, Except.ok.injEq]
  constructor
  · rintro ⟨-, hbound⟩
    have hsum := hwit w₀ hw₀
    rw [hbound w₀ hw₀] at hsum
    exact add_left_cancel hsum
  · rintro rfl
    exact ⟨⟨w₀, hw₀⟩, fun w hw => add_right_cancel (hwit w hw)⟩

end

theorem kMacBound_zero :
    KMacBound (zeroProof (.replicate 32 0)) (cancellingProof (.replicate 32 0)) := by
  refine (kMac_bound_iff (Groth16.knowledgeSound_ideal _) (coSnarkVerify_zeroProof bytes32ToFr_zero)
    (sessionBindingVerify_cancellingProof _)).2 ?_
  change deserialize r (serialize (-bytes32ToFr (.replicate 32 0))) = deserialize r (serialize 0)
  rw [bytes32ToFr_zero, neg_zero]

/-- **A session proof about another key**: the randomness makes up for it. -/
theorem exists_not_kMacBound : ∃ (G : Groth16 Fr) (pvk pvk' : G.VerifyingKey) (h : HspProof)
    (s : SessionBindingProof), G.KnowledgeSound pvk' (· ∈ sessionStatements) ∧
      coSnarkVerify G pvk h none = .ok () ∧
      sessionBindingVerify G pvk' s h.kMacCommitmentBytes = .ok () ∧ ¬ KMacBound h s := by
  let one : Bytes32 := (Vector.replicate 32 0).set 0 1
  refine ⟨Groth16.ideal Fr, mode1Statements, sessionStatements, zeroProof (.replicate 32 0),
    cancellingProof one, Groth16.knowledgeSound_ideal _, coSnarkVerify_zeroProof bytes32ToFr_zero,
    sessionBindingVerify_cancellingProof one, ?_⟩
  rintro ⟨-, hbound⟩
  have hone := hbound ((keyCircuit one).wiresOf (-bytes32ToFr one))
    ⟨⟨_, wiresOf_mem _ _⟩, publicInputs_ofWires _⟩
  rw [kMac_wiresOf, ← bytes32ToFr_eq] at hone
  exact absurd hone (by decide)

end TlsAttestation.Zk
