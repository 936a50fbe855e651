import TlsAttestation.Lib.Fallible
import TlsAttestation.Lib.Groth16
import TlsAttestation.Zk.TlsPrfCircuit

/-!
# The handshake proof

`π_HSP`: two parties prove that their shares combine to `K_MAC`. The proof carries the key in the
clear, which the verifier compares with nothing but its packing (`Zk.kMac_eq_iff_of_accepted`).
-/

namespace TlsAttestation.Zk

open Ark ByteEncoding Fallible TlsPrfCircuit

open Ark.Bn254 (Fr r)

inductive CoSnarkError where
  | setup (message : String)
  | prove (message : String)
  | verify
  | serialize (message : String)
deriving DecidableEq, Repr

/-- The proof of the handshake, `π_HSP`. The key is in it, in the clear. -/
structure HspProof where
  groth16Bytes : Bytes
  kMacCommitmentBytes : Bytes
  randBindingBytes : Bytes
  kMac : Bytes32
  pmsHashBytes : Bytes

variable (G : Groth16 Fr)

/-! ### Execute -/

namespace CoSnarkCrs

def setupCircuit (circuit : TlsPrfCircuit) (ρ : G.Randomness) :
    Except CoSnarkError G.ProvingKey :=
  (G.generateParameters (discard circuit.generateConstraints) ρ).mapError fun e => .setup e.display

def setup (ρ : G.Randomness) : Except CoSnarkError G.ProvingKey :=
  setupCircuit G TlsPrfCircuit.dummy ρ

def setupMode2 (ρ : G.Randomness) : Except CoSnarkError G.ProvingKey :=
  setupCircuit G TlsPrfCircuit.dummyFullPrf ρ

end CoSnarkCrs

variable (crs : G.ProvingKey)

def executeCircuit (circuit : TlsPrfCircuit) (pmsFe : Option Fr)
    (ρ : G.Randomness) : Except CoSnarkError HspProof := do
  let kMac := combineMacKeyShares circuit.kMacProverShare circuit.kMacVerifierShare
  let proof ← (G.createProof (discard circuit.generateConstraints) crs ρ).mapError
    fun e => CoSnarkError.prove e.display
  return {
    groth16Bytes := G.serializeProof proof
    kMacCommitmentBytes := serialize circuit.kMacCommitmentFe
    randBindingBytes := serialize circuit.randBindingFe
    kMac := kMac
    pmsHashBytes := (pmsFe.map serialize).getD [] }

variable (pShare vShare randBinding : Bytes32)

/-- A proof in the first mode: two shares, whose key is committed to. -/
def coSnarkExecute (ρ : G.Randomness) : Except CoSnarkError HspProof :=
  let circuit := TlsPrfCircuit.new pShare vShare randBinding
  executeCircuit G crs circuit circuit.pmsHashFe ρ

/-- A proof in the second mode, which also derives the key from a premaster secret. -/
def coSnarkExecuteMode2 (pms : Bytes) (clientRandom serverRandom : Bytes32) (ρ : G.Randomness) :
    Except CoSnarkError HspProof :=
  let circuit := withTlsPrf pShare vShare randBinding pms clientRandom serverRandom
  executeCircuit G crs circuit (some (pmsHash pms)) ρ

/-! ### Verify -/

def deserializeField {ε : Type} (fail : String → ε) (what : String) (bytes : Bytes) :
    Except ε Fr :=
  (deserialize r bytes).mapError fun e => fail s!"{what} deserialize: {e.display}"

def deserializePmsHash (bytes : Bytes) : Except CoSnarkError (Option Fr) :=
  if bytes.isEmpty then pure none else some <$> deserializeField .serialize "pms_hash" bytes

/-- A proof with a digest needs a caller that expects it. -/
def pmsHashMatches : Option Fr → Option Fr → Bool
  | some expected, some actual => actual = expected
  | some _, none => false
  | none, some _ => false
  | none, none => true

/-- Read the proof and its inputs, and verify; a digest in the proof has to be the expected one. -/
def coSnarkVerify (pvk : G.VerifyingKey) (proof : HspProof) (expectedPmsHash : Option Fr) :
    Except CoSnarkError Unit := do
  let groth16Proof ← (G.deserializeProof proof.groth16Bytes).mapError
    fun e => CoSnarkError.serialize s!"proof deserialize: {e.display}"
  let commitmentFe ← deserializeField .serialize "commitment" proof.kMacCommitmentBytes
  let randFe ← deserializeField .serialize "rand" proof.randBindingBytes
  let proofPmsFe ← deserializePmsHash proof.pmsHashBytes
  let publicInputs := [commitmentFe, randFe] ++ proofPmsFe.toList
  let valid ← (G.verify pvk publicInputs groth16Proof).mapError fun e =>
    CoSnarkError.prove e.display
  ensure valid .verify
  ensure (kMacCommitment proof.kMac randFe = commitmentFe) .verify
  ensure (pmsHashMatches expectedPmsHash proofPmsFe) .verify

/-! ### The key of an accepted proof -/

section

variable {G} {pvk : G.VerifyingKey} {h h' : HspProof} {expected : Option Fr}

structure Accepted (pvk : G.VerifyingKey) (h : HspProof) (commitmentFe randFe : Fr) : Prop where
  commitment : deserialize r h.kMacCommitmentBytes = .ok commitmentFe
  rand : deserialize r h.randBindingBytes = .ok randFe
  kMac : bytes32ToFr h.kMac + randFe = commitmentFe
  verified : ∃ (π : G.Proof) (pmsFe : Option Fr),
    G.verify pvk ([commitmentFe, randFe] ++ pmsFe.toList) π = .ok true

theorem accepted_of_coSnarkVerify (hok : coSnarkVerify G pvk h expected = .ok ()) :
    ∃ commitmentFe randFe, Accepted pvk h commitmentFe randFe := by
  simp only [coSnarkVerify, deserializeField, do_eq_ok] at hok
  obtain ⟨π, -, commitmentFe, hcomm, randFe, hrand, pmsFe, -, valid, hvalid, -, hver, -,
    hkMac, -⟩ := hok
  obtain rfl : valid = true := hver
  exact ⟨commitmentFe, randFe, hcomm, hrand, hkMac, π, pmsFe, hvalid⟩

/-- **Accepted proofs that differ in the key only** have one key exactly if packing loses the same
of both. -/
theorem kMac_eq_iff_of_accepted (hsame : { h with kMac := h'.kMac } = h')
    (hok : coSnarkVerify G pvk h expected = .ok ())
    (hok' : coSnarkVerify G pvk h' expected = .ok ()) :
    h.kMac = h'.kMac ↔ lost (ofLeBytes h.kMac.toList) = lost (ofLeBytes h'.kMac.toList) := by
  obtain ⟨commitmentFe, randFe, hacc⟩ := accepted_of_coSnarkVerify hok
  obtain ⟨commitmentFe', randFe', hacc'⟩ := accepted_of_coSnarkVerify hok'
  -- both proofs carry the same commitment and the same randomness
  have hcomm : commitmentFe = commitmentFe' := by
    have hbytes := congrArg HspProof.kMacCommitmentBytes hsame
    exact Except.ok.inj (hacc.commitment.symm.trans
      ((congrArg (deserialize r) hbytes).trans hacc'.commitment))
  have hrand : randFe = randFe' := by
    have hbytes := congrArg HspProof.randBindingBytes hsame
    exact Except.ok.inj (hacc.rand.symm.trans ((congrArg (deserialize r) hbytes).trans hacc'.rand))
  have hpack : packed (ofLeBytes h.kMac.toList) = packed (ofLeBytes h'.kMac.toList) := by
    rw [← bytes32ToFr_eq, ← bytes32ToFr_eq]
    refine add_right_cancel (b := randFe) (hacc.kMac.trans ?_)
    rw [hcomm, ← hacc'.kMac, hrand]
  rw [← eq_iff_lost_eq hpack, ofLeBytes_inj (by simp), Vector.toList_inj]

end

def mode1Statements : Set (List Fr) :=
  {inputs | ∃ w ∈ TlsPrfCircuit.dummy.generateConstraints (m := Sat Fr),
    inputs = [w.expectedCommitment, w.randBinding]}

theorem zero_mem_mode1Statements : [0, 0] ∈ mode1Statements := by
  let w : TlsPrfWires Wire Fr :=
    ⟨0, 0, shareWires (.replicate 32 1) (.replicate 32 0),
      shareWires (.replicate 32 2) (.replicate 32 0), none⟩
  refine ⟨w, mem_generateConstraints.2 ⟨?_, ?_, ?_, rfl⟩, rfl⟩
  · exact bytesOn_native_shareWires _ _
  · exact bytesOn_native_shareWires _ _
  · rw [TlsPrfWires.kMac, bytesOn_assigned_shareWires, bytesOn_assigned_shareWires]
    decide

def zeroProof (kMac : Bytes32) : HspProof :=
  ⟨[], serialize (0 : Fr), serialize (0 : Fr), kMac, []⟩

theorem coSnarkVerify_zeroProof {kMac : Bytes32} (h : bytes32ToFr kMac = 0) :
    coSnarkVerify (Groth16.ideal Fr) mode1Statements (zeroProof kMac) none = .ok () := by
  have hread : deserialize r (serialize (0 : Fr)) = .ok 0 := deserialize_serialize Bn254.r_le 0
  have hkMac : kMacCommitment kMac 0 = 0 := by rw [kMacCommitment, h, add_zero]
  simp only [coSnarkVerify, deserializeField, deserializePmsHash, zeroProof, hread, do_eq_ok]
  exact ⟨(), rfl, 0, rfl, 0, rfl, none, rfl, true, Groth16.verify_ideal.2 zero_mem_mode1Statements,
    (), rfl, (), ensure_eq_ok.2 hkMac, rfl⟩

theorem bytes32ToFr_zero : bytes32ToFr (.replicate 32 0) = 0 := by
  decide

theorem bytes32ToFr_flipLastBit_zero : bytes32ToFr (flipLastBit (.replicate 32 0)) = 0 := by
  rw [bytes32ToFr_flipLastBit, bytes32ToFr_zero]

/-- Packing loses the last bit of a key. -/
theorem lost_zeroProof_ne : lost (ofLeBytes (zeroProof (.replicate 32 0)).kMac.toList) ≠
    lost (ofLeBytes (zeroProof (flipLastBit (.replicate 32 0))).kMac.toList) := by
  intro hlost
  exact flipLastBit_ne _ ((kMac_eq_iff_of_accepted rfl (coSnarkVerify_zeroProof bytes32ToFr_zero)
    (coSnarkVerify_zeroProof bytes32ToFr_flipLastBit_zero)).2 hlost).symm

/-- **An accepted proof does not determine its key**: its last bit can be flipped. -/
theorem exists_accepted_other_kMac : ∃ (G : Groth16 Fr) (pvk : G.VerifyingKey) (h h' : HspProof),
    { h with kMac := h'.kMac } = h' ∧ coSnarkVerify G pvk h none = .ok () ∧
      coSnarkVerify G pvk h' none = .ok () ∧ h.kMac ≠ h'.kMac := by
  exact ⟨Groth16.ideal Fr, mode1Statements, zeroProof (.replicate 32 0),
    zeroProof (flipLastBit (.replicate 32 0)), rfl, coSnarkVerify_zeroProof bytes32ToFr_zero,
    coSnarkVerify_zeroProof bytes32ToFr_flipLastBit_zero, (flipLastBit_ne _).symm⟩

end TlsAttestation.Zk
