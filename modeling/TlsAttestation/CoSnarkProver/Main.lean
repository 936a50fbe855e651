import TlsAttestation.Core.Hex
import TlsAttestation.CoSnarkProver.TlsPrfCircuit
import TlsAttestation.Lib.Groth16

/-!
# The central mode of the prover

A process that knows both shares answers a request with a proof. The proving key may be an old one;
which circuit is proved is decided by a variable of the environment, **not** by the key
(`CoSnarkProver.keyCircuit_correct_iff`).
-/

namespace TlsAttestation.CoSnarkProver

open Ark ByteEncoding Fallible TlsKeyCircuit

open Ark.Bls12377 (Fr r)

/-! ### Requests and responses -/

inductive Mode where
  | central
  | distributed
deriving DecidableEq, Repr

structure ProverRequest where
  mode : Mode
  (pShareHex vShareHex randBindingHex crsHex crsFile : String)
  includeVk : Bool

structure ProverResponse where
  ok : Bool
  (error proofHex : Option String)
  publicInputsHex : List String
  (kMacHex vkHex : Option String)
  modeUsed : String
deriving DecidableEq, Repr

structure Environment (G : Groth16 Fr) where
  cosnarkFullCircuit : Option String
  readFile : String → Except String Bytes
  setupRandomness : G.Randomness
  proofRandomness : G.Randomness

/-! ### Helpers -/

def err (msg mode : String) : ProverResponse := ⟨false, some msg, none, [], none, none, mode⟩

def respond (mode : String) : Except String ProverResponse → ProverResponse
  | .ok resp => resp
  | .error msg => err msg mode

theorem ok_respond {mode : String} {x : Except String ProverResponse}
    (h : (respond mode x).ok = true) : ∃ resp, x = .ok resp ∧ respond mode x = resp := by
  cases x with
  | ok resp => exact ⟨resp, rfl, rfl⟩
  | error msg => exact absurd h (by simp [respond, err])

def decode32 (s : String) : Except String Bytes32 := do
  let b ← (hexDecode s).mapError fun e => s!"hex: {e.display}"
  if h : b.length = 32 then .ok ⟨b.toArray, size_toArray_of_length h⟩
  else .error s!"want 32 bytes, got {b.length}"

theorem decode32_hexEncode (x : Bytes32) : decode32 (hexEncode x.toList) = .ok x := by
  rw [decode32, bind_eq_ok]
  exact ⟨x.toList, mapError_eq_ok.2 (hexDecode_hexEncode _), dif_pos x.length_toList⟩

structure ProverRequest.Carries (req : ProverRequest) (p v rand : Bytes32) : Prop where
  p : decode32 req.pShareHex = .ok p
  v : decode32 req.vShareHex = .ok v
  rand : decode32 req.randBindingHex = .ok rand

/-! ### Keys and proofs -/

section

variable {G : Groth16 Fr} (env : Environment G)

def Environment.useFullCircuit : Bool := env.cosnarkFullCircuit = some "1"

variable (G) in
def deserializeParams (s : String) : Except String G.ProvingKey := do
  let b ← (hexDecode s).mapError fun e => s!"hex: {e.display}"
  (G.deserializeKey b).mapError fun e => s!"deser: {e.debug}"

def loadParamsFromFile (path : String) : Except String G.ProvingKey := do
  let bytes ← (env.readFile path).mapError fun e => s!"read crs_file {path}: {e}"
  (G.deserializeKey bytes).mapError fun e => s!"deser crs_file: {e.debug}"

def setupCircuit (full : Bool) : Synth Fr Unit :=
  if full then discard (TlsPrfCircuit.dummy r).generateConstraints
  else (dummy r).generateConstraints

def runSetup (forceKeyCircuit : Bool) : Except String G.ProvingKey :=
  (G.generateParameters (setupCircuit (!forceKeyCircuit && env.useFullCircuit))
    env.setupRandomness).mapError fun e => s!"setup: {e.debug}"

/-- A file comes first, then the key of the request, then a setup. -/
def requestParams (req : ProverRequest) : Except String G.ProvingKey :=
  if req.crsFile ≠ "" then loadParamsFromFile env req.crsFile
  else if req.crsHex ≠ "" then deserializeParams G req.crsHex
  else runSetup env false

def centralProof (params : G.ProvingKey) (p v rb : Bytes32) :
    Except String (G.Proof × Fr × Fr) :=
  if env.useFullCircuit then do
    let c := TlsPrfCircuit.new r p v (.replicate 32 0) (.replicate 32 0) (.replicate 32 0) rb
    let proof ← (G.createProof (discard c.generateConstraints) params
      env.proofRandomness).mapError fun e => s!"prove: {e.debug}"
    return (proof, c.commitment, c.randBinding)
  else do
    let c := TlsKeyCircuit.new r p v rb
    let proof ← (G.createProof c.generateConstraints params env.proofRandomness).mapError
      fun e => s!"prove: {e.debug}"
    return (proof, c.commitment, c.randBinding)

/-! ### The handlers -/

def central (cached : Option G.ProvingKey) (req : ProverRequest) :
    Except String ProverResponse := do
  let p ← decode32 req.pShareHex
  let v ← decode32 req.vShareHex
  let rb ← decode32 req.randBindingHex
  let kMac := xorShares p v
  let params ← match cached with
    | some pk => .ok pk
    | none => requestParams env req
  let (proof, commitFe, randFe) ← centralProof env params p v rb
  return {
    ok := true
    error := none
    proofHex := some (hexEncode (G.serializeProof proof))
    publicInputsHex := [hexEncode (serialize commitFe), hexEncode (serialize randFe)]
    kMacHex := some (hexEncode kMac.toList)
    vkHex := if req.includeVk then some (hexEncode (G.serializeVk (G.vk params))) else none
    modeUsed := "central" }

/-- One request. Its key is read from it, or made; errors become responses. -/
def handleCentral (req : ProverRequest) : ProverResponse := respond "central" (central env none req)

/-! ### What a response says -/

variable {env}

variable {req : ProverRequest} {p v rand : Bytes32} {pk : G.ProvingKey}

theorem handleCentral_ok (hkey : env.useFullCircuit = false) (hreq : req.Carries p v rand)
    (hok : (handleCentral env req).ok = true) :
    ∃ pk π, requestParams env req = .ok pk ∧
      G.createProof (TlsKeyCircuit.new r p v rand).generateConstraints pk env.proofRandomness =
        .ok π ∧
      (handleCentral env req).proofHex = some (hexEncode (G.serializeProof π)) ∧
      (handleCentral env req).publicInputsHex =
        [hexEncode (serialize (TlsKeyCircuit.new r p v rand).commitment),
          hexEncode (serialize (TlsKeyCircuit.new r p v rand).randBinding)] ∧
      (handleCentral env req).kMacHex = some (hexEncode (xorShares p v).toList) := by
  obtain ⟨resp, hresp, heq⟩ := ok_respond hok
  rw [handleCentral, heq]
  simp only [central, centralProof, hkey, hreq.p, hreq.v, hreq.rand, do_eq_ok, Except.ok.injEq,
    exists_eq_left', Bool.false_eq_true, if_false] at hresp
  obtain ⟨pk, hpk, _, ⟨π, hπ, rfl⟩, rfl⟩ := hresp
  exact ⟨pk, π, hpk, hπ, rfl, rfl, rfl⟩

theorem requestParams_of_empty (hkey : env.useFullCircuit = false) (hfile : req.crsFile = "")
    (hhex : req.crsHex = "")
    (hsetup : G.generateParameters (setupCircuit false) env.setupRandomness = .ok pk) :
    requestParams env req = .ok pk := by
  rw [requestParams, hfile, hhex, if_neg (not_not.2 rfl), if_neg (not_not.2 rfl), runSetup, hkey]
  exact mapError_eq_ok.2 hsetup

theorem ok_handleCentral {π : G.Proof} (hkey : env.useFullCircuit = false)
    (hreq : req.Carries p v rand) (hpk : requestParams env req = .ok pk)
    (hπ : G.createProof (TlsKeyCircuit.new r p v rand).generateConstraints pk
      env.proofRandomness = .ok π) : (handleCentral env req).ok = true := by
  have hcentral : ∃ resp, central env none req = .ok resp ∧ resp.ok = true := by
    simp only [central, centralProof, hkey, hreq.p, hreq.v, hreq.rand, hpk, do_eq_ok,
      Except.ok.injEq, exists_eq_left', Bool.false_eq_true, if_false, hπ]
  obtain ⟨resp, hresp, hok⟩ := hcentral
  rw [handleCentral, hresp]
  exact hok

def decodeInput (s : String) : Except String Fr := do
  let bytes ← (hexDecode s).mapError fun e => s!"hex: {e.display}"
  (deserialize r bytes).mapError fun e => s!"deser: {e.debug}"

theorem decodeInput_hexEncode (x : Fr) : decodeInput (hexEncode (serialize x)) = .ok x := by
  rw [decodeInput, bind_eq_ok]
  exact ⟨serialize x, mapError_eq_ok.2 (hexDecode_hexEncode _),
    mapError_eq_ok.2 (deserialize_serialize Bls12377.r_le x)⟩

/-- **The proof of a response is accepted** for its public inputs. -/
def ProverResponse.Verifies (G : Groth16 Fr) (pk : G.ProvingKey) (resp : ProverResponse) : Prop :=
  ∃ proofHex bytes π inputs, resp.proofHex = some proofHex ∧ hexDecode proofHex = .ok bytes ∧
    G.deserializeProof bytes = .ok π ∧ resp.publicInputsHex.mapM decodeInput = .ok inputs ∧
    G.verify (G.vk pk) inputs π = .ok true

/-- The proof of a satisfied assignment is accepted. -/
theorem verifies_handleCentral (hG : G.Complete) {ρ : G.Randomness}
    (hsat : (TlsKeyCircuit.new r p v rand).system.Satisfied) (hkey : env.useFullCircuit = false)
    (hreq : req.Carries p v rand) (hpk : requestParams env req = .ok pk)
    (hsetup : G.generateParameters (setupCircuit false) ρ = .ok pk)
    (hok : (handleCentral env req).ok = true) : (handleCentral env req).Verifies G pk := by
  obtain ⟨pk', π, hpk', hπ, hproof, hins, -⟩ := handleCentral_ok hkey hreq hok
  obtain rfl : pk = pk' := Except.ok.inj (hpk.symm.trans hpk')
  have hver := hG.verify_createProof (synthesize_setup _) hsetup (synthesize_prove _) hπ rfl hsat
  refine ⟨_, _, π, _, hproof, hexDecode_hexEncode _, hG.deserializeProof_serializeProof π, ?_, hver⟩
  rw [hins]
  simp only [List.mapM_cons, List.mapM_nil, decodeInput_hexEncode, do_eq_ok, Except.ok.injEq,
    exists_eq_left', system]

def TlsKeyCircuit.SelfSatisfied (c : TlsKeyCircuit r) : Prop :=
  ∃ cs : ConstraintSystem Fr, synthesize .prove c.generateConstraints = .ok cs ∧ cs.Satisfied

theorem TlsKeyCircuit.selfSatisfied_iff {c : TlsKeyCircuit r} :
    c.SelfSatisfied ↔ c.system.Satisfied := by
  rw [SelfSatisfied, c.synthesize_prove]
  constructor
  · rintro ⟨cs, hcs, hsat⟩
    obtain rfl := Except.ok.inj hcs
    exact hsat
  · intro hsat
    exact ⟨_, rfl, hsat⟩

/-- Its own assignment satisfies the circuit, with no other commitment, and the answer is accepted.
-/
structure KeyCircuitCorrect (G : Groth16 Fr) (p v rand : Bytes32) : Prop where
  satisfied : (TlsKeyCircuit.new r p v rand).SelfSatisfied
  commitment : ∀ c : Fr, ((TlsKeyCircuit.new r p v rand).withCommitment c).SelfSatisfied ↔
    c = bytes32ToField r (xorShares p v) + bytes32ToField r rand
  verifies : ∀ (env : Environment G) (req : ProverRequest) (pk : G.ProvingKey) (ρ : G.Randomness),
    env.useFullCircuit = false → req.Carries p v rand → requestParams env req = .ok pk →
    G.generateParameters (setupCircuit false) ρ = .ok pk → (handleCentral env req).ok = true →
    (handleCentral env req).Verifies G pk

/-- **The key circuit is correct for two shares** exactly if the order divides their common bits. -/
theorem keyCircuit_correct_iff (G : Groth16 Fr) (hG : G.Complete) (p v rand : Bytes32) :
    KeyCircuitCorrect G p v rand ↔ r ∣ commonBits p v := by
  constructor
  · intro hcorr
    exact (satisfied_new_iff Bls12377.coprime_r_two p v rand).1
      (selfSatisfied_iff.1 hcorr.satisfied)
  · intro hdvd
    have hsat := (satisfied_new_iff Bls12377.coprime_r_two p v rand).2 hdvd
    have hsum := (packed_add_eq_iff Bls12377.coprime_r_two p v).2 hdvd
    refine ⟨selfSatisfied_iff.2 hsat, fun c => ?_, fun env req pk ρ hkey hreq hpk
      hsetup hok => verifies_handleCentral hG hsat hkey hreq hpk hsetup hok⟩
    rw [selfSatisfied_iff, satisfied_withCommitment_iff, hsum]

end

section

open Groth16 (ideal complete_ideal)

def zeroShare : Bytes32 := .replicate 32 0

def oneShare : Bytes32 := zeroShare.set 0 1

def twoShare : Bytes32 := zeroShare.set 0 2

theorem commonBits_shares :
    commonBits oneShare twoShare = 0 ∧ commonBits oneShare oneShare = 1 := by decide +kernel

theorem dvd_commonBits_disjoint : r ∣ commonBits oneShare twoShare := by
  rw [commonBits_shares.1]
  exact dvd_zero r

theorem not_dvd_commonBits_oneShare : ¬ r ∣ commonBits oneShare oneShare := by
  rw [commonBits_shares.2, Nat.dvd_one]
  decide

def plainRequest (mode : Mode) (p v rand : Bytes32) : ProverRequest where
  mode := mode
  pShareHex := hexEncode p.toList
  vShareHex := hexEncode v.toList
  randBindingHex := hexEncode rand.toList
  crsHex := ""
  crsFile := ""
  includeVk := false

theorem carries_plainRequest (mode : Mode) (p v rand : Bytes32) :
    (plainRequest mode p v rand).Carries p v rand :=
  ⟨decode32_hexEncode _, decode32_hexEncode _, decode32_hexEncode _⟩

noncomputable def idealEnvironment : Environment (ideal Fr) where
  cosnarkFullCircuit := none
  readFile path := .error s!"{path}: No such file or directory (os error 2)"
  setupRandomness := ()
  proofRandomness := ()

/-- Shares without a common bit: the circuit is correct, and a request for them is answered with a
proof that verifies. -/
theorem keyCircuit_correct_disjoint :
    let req := plainRequest .central oneShare twoShare oneShare
    KeyCircuitCorrect (ideal Fr) oneShare twoShare oneShare ∧
      (handleCentral idealEnvironment req).ok = true ∧
      ∃ pk, requestParams idealEnvironment req = .ok pk ∧
        (handleCentral idealEnvironment req).Verifies (ideal Fr) pk := by
  intro req
  have hcorr := (keyCircuit_correct_iff (ideal Fr) complete_ideal oneShare twoShare
    oneShare).2 dvd_commonBits_disjoint
  have hreq : req.Carries oneShare twoShare oneShare := carries_plainRequest ..
  obtain ⟨pk, hpk⟩ : ∃ pk, (ideal Fr).generateParameters (setupCircuit false)
      idealEnvironment.setupRandomness = .ok pk :=
    ⟨_, congrArg (Except.map Groth16.statements) (dummy r).synthesize_setup⟩
  have hpars : requestParams idealEnvironment req = .ok pk :=
    requestParams_of_empty rfl rfl rfl hpk
  let circuit := TlsKeyCircuit.new r oneShare twoShare oneShare
  have hproof : (ideal Fr).createProof circuit.generateConstraints pk
      idealEnvironment.proofRandomness = .ok () :=
    congrArg (Except.map fun _ => ()) circuit.synthesize_prove
  have hok := ok_handleCentral rfl hreq hpars hproof
  exact ⟨hcorr, hok, pk, hpars, hcorr.verifies _ _ _ _ rfl hreq hpars hpk hok⟩

/-- **Shares with a common bit**: the circuit's own assignment fails. -/
theorem not_keyCircuit_correct_oneShare :
    ¬(TlsKeyCircuit.new r oneShare oneShare zeroShare).SelfSatisfied ∧
      ¬KeyCircuitCorrect (ideal Fr) oneShare oneShare zeroShare := by
  have hnot : ¬(TlsKeyCircuit.new r oneShare oneShare zeroShare).SelfSatisfied := by
    rw [selfSatisfied_iff, satisfied_new_iff Bls12377.coprime_r_two]
    exact not_dvd_commonBits_oneShare
  exact ⟨hnot, fun hcorr => hnot hcorr.satisfied⟩

end

end TlsAttestation.CoSnarkProver
