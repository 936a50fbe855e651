import TlsAttestation.CoSnarkProver.Ipc

/-!
# The distributed mode of the prover

**Two processes**, one for each share, prove together, and a coordinator adds `K_MAC` to the
response. The commitment is `pack(p) + pack(v) + rand`, in the central mode `pack(p ⊕ v) + rand`
(`CoSnarkProver.modes_agree_iff`).
-/

namespace TlsAttestation.CoSnarkProver

open Ark ByteEncoding Fallible

open Ark.Bls12377 (Fr r)

/-! ### The system -/

/-- What the coordinator finds around it. A text is that of an error. -/
structure Host (G : MpcGroth16 Fr) extends Environment G.toGroth16 where
  processId : ℕ
  (createCrsFile writeCrsFile : Except String Unit)
  findTwoPorts : Except String (ℕ × ℕ)
  writeNetConfig : ℕ → ℕ → Except String String
  (spawnP1 spawnP0 waitP0 : Except String Unit)
  /-- Whether a party can read the file that was written. -/
  readCrsFile : ℕ → Except String Unit
  /-- Whether the parties find each other and go on. -/
  connected : Bool
  mpcRandomness : G.Randomness
  /-- What the JSON library says about a line that is no response. -/
  parseError : String → String
  /-- A string under `{:?}`. -/
  debugStr : String → String

/-! ### Messages -/

structure PartyRequest where
  partyId : Option ℕ
  (netConfig myShareHex randBindingHex commitmentHex : Option String)
  fullCircuit : Option Bool
  (crsFile pmsHex clientRandomHex serverRandomHex : Option String)

/-- What the coordinator reads of the response that a party has printed. -/
def parseResponse (printed : ProverResponse) : Option ProverResponse :=
  (ProverResponse.fromJson printed.toJson).toOption

theorem parseResponse_eq_some {printed resp : ProverResponse} :
    parseResponse printed = some resp ↔ printed.publicInputsHex ≠ [] ∧ printed = resp := by
  rw [parseResponse, fromJson_toJson]
  split <;> simp_all [Except.toOption]

/-! ### A party -/

def toBytesLe (x : Fr) : Bytes := leBytes 32 x.val

structure Party (G : MpcGroth16 Fr) where
  partyId : ℕ
  params : G.ProvingKey
  fullCircuit : Bool
  circuit : Synth Fr Unit
  commitmentFe : Fr
  rbFe : Fr

def mpcShares (partyId : ℕ) (myShareFe commitmentFe rbFe : Fr) : TlsKeyCircuit r :=
  if partyId = 0 then .newMpc myShareFe 0 commitmentFe rbFe else .newMpc 0 myShareFe 0 0

def optional32 (s : Option String) : Bytes32 :=
  (s.bind fun s => (decode32 s).toOption).getD (.replicate 32 0)

section

variable {G : MpcGroth16 Fr} (host : Host G) (written : String × Bytes)

def Host.partyRead (partyId : ℕ) (path : String) :
    Except String Bytes :=
  if path = written.1 then (host.readCrsFile partyId).map fun _ => written.2
  else host.readFile path

def partyParams (read : String → Except String Bytes) (fullCirc : Bool) :
    Option String → Except String G.ProvingKey
  | some path => do
    let bytes ← (read path).mapError fun e => s!"read crs_file: {e}"
    (G.deserializeKey bytes).mapError fun e => s!"deser crs: {e.debug}"
  | none => (G.generateParameters (setupCircuit fullCirc) host.setupRandomness).mapError
      fun e => s!"setup: {e.debug}"

def prepareParty (v : PartyRequest) : Except String (Party G) := do
  let partyId := v.partyId.getD 0
  let _ ← okOr v.netConfig "missing net_config"
  let myShare ← okOr v.myShareHex "missing my_share_hex"
  let rbHex ← okOr v.randBindingHex "missing rand_binding_hex"
  let cmtHex ← okOr v.commitmentHex "missing commitment_hex"
  let fullCirc := v.fullCircuit.getD false
  let myShareBytes ← decode32 myShare
  let rbBytes ← decode32 rbHex
  let params ← partyParams host (host.partyRead written partyId) fullCirc v.crsFile
  let cmtBytes ← (hexDecode cmtHex).mapError fun e => s!"cmt hex: {e.display}"
  let rbFe := bytes32ToField r rbBytes
  -- a commitment that cannot be read is replaced by the randomness
  let commitmentFe := (deserialize r cmtBytes).toOption.getD rbFe
  let circuit :=
    if fullCirc then
      discard (TlsPrfCircuit.new r myShareBytes (.replicate 32 0) (optional32 v.pmsHex)
        (optional32 v.clientRandomHex) (optional32 v.serverRandomHex) rbBytes).generateConstraints
    else (mpcShares partyId (bytes32ToField r myShareBytes) commitmentFe rbFe).generateConstraints
  return ⟨partyId, params, fullCirc, circuit, commitmentFe, rbFe⟩

def partyResponse (me : Party G) (proof : G.Proof) : ProverResponse :=
  if me.partyId = 0 then
    { ok := true
      error := none
      proofHex := some (hexEncode (G.serializeProof proof))
      publicInputsHex := [hexEncode (toBytesLe me.commitmentFe), hexEncode (toBytesLe me.rbFe)]
      kMacHex := none
      vkHex := some (hexEncode (G.serializeVk (G.vk me.params)))
      modeUsed := "distributed" }
  else ⟨true, none, none, [], none, none, "mpc_party_1"⟩

def proveAsParty (me peer : Party G) : Except String ProverResponse := do
  let proof ← (G.createMpcProof me.circuit peer.circuit me.params host.mpcRandomness).mapError
    fun e => if me.fullCircuit then s!"mpc prove (prf): {e.debug}" else s!"mpc prove: {e.debug}"
  return partyResponse me proof

/-- **What party 0 prints**; nothing without its peer. -/
def runAsParty0 (req0 req1 : PartyRequest) : Option ProverResponse :=
  match prepareParty host written req0 with
  | .error msg => some (err msg "distributed")
  | .ok me =>
    match prepareParty host written req1 with
    | .error _ => none
    | .ok peer => if host.connected then some (respond "distributed" (proveAsParty host me peer))
        else none

/-! ### The coordinator -/

def computeCommitment (p v rb : Bytes32) : Bytes :=
  serialize (bytes32ToField r p + bytes32ToField r v + bytes32ToField r rb)

/-- The request to a party. It has names that no party looks at. -/
def makeReq (cfgPath crsPath rbHex cmtHex : String) (partyId : ℕ) (shareHex : String) :
    PartyRequest where
  partyId := some partyId
  netConfig := some cfgPath
  myShareHex := some shareHex
  randBindingHex := some rbHex
  commitmentHex := some cmtHex
  fullCircuit := some host.useFullCircuit
  crsFile := some crsPath
  pmsHex := some (hexEncode (List.replicate 32 0))
  clientRandomHex := none
  serverRandomHex := none

/-- Both parties as processes of this host; the response of party 0 gets `K_MAC` and the key. -/
def runTwoParties (p v rb kMac : Bytes32) (params : G.ProvingKey) (crsPath : String) :
    Except String ProverResponse := do
  let (port0, port1) ← host.findTwoPorts.mapError fun e => s!"ports: {e}"
  let cfgPath ← (host.writeNetConfig port0 port1).mapError fun e => s!"netcfg: {e}"
  let rbHex := hexEncode rb.toList
  let cmtHex := hexEncode (computeCommitment p v rb)
  let req0 := makeReq host cfgPath crsPath rbHex cmtHex 0 (hexEncode p.toList)
  let req1 := makeReq host cfgPath crsPath rbHex cmtHex 1 (hexEncode v.toList)
  host.spawnP1.mapError fun e => s!"spawn p1: {e}"
  host.spawnP0.mapError fun e => s!"spawn p0: {e}"
  host.waitP0.mapError fun e => s!"wait p0: {e}"
  let printed := runAsParty0 host (crsPath, G.serializeKey params) req0 req1
  let line0 := (printed.map fun resp => (JsonValue.object resp.toJson).text).getD ""
  let resp ← okOr (printed.bind parseResponse)
    s!"parse p0 resp: {host.parseError line0} (got: {host.debugStr line0})"
  return { resp with
    kMacHex := some (hexEncode kMac.toList)
    modeUsed := "distributed"
    vkHex := resp.vkHex <|> some (hexEncode (G.serializeVk (G.vk params))) }

def Host.crsPath : String := s!"/tmp/co-snark-crs-{host.processId}.bin"

def distributed (req : ProverRequest) : Except String ProverResponse := do
  let p ← decode32 req.pShareHex
  let v ← decode32 req.vShareHex
  let rb ← decode32 req.randBindingHex
  let kMac := xorShares p v
  let params ← requestParams host.toEnvironment req
  host.createCrsFile.mapError fun e => s!"crs file: {e}"
  host.writeCrsFile.mapError fun e => s!"crs serial: {e}"
  runTwoParties host p v rb kMac params host.crsPath

/-- One request, proved by two processes; errors become responses. -/
def proveDistributed (req : ProverRequest) : ProverResponse :=
  respond "distributed" (distributed host req)

/-! ### What a response says -/

variable {host} {written : String × Bytes}

variable {cfgPath : String} {p v rand : Bytes32} {req : ProverRequest}

theorem prepareParty_makeReq {crsPath shareHex : String} {partyId : ℕ} {rb : Bytes32} {me : Party G}
    (h : prepareParty host written (makeReq host cfgPath crsPath (hexEncode rb.toList)
      (hexEncode (computeCommitment p v rb)) partyId shareHex) = .ok me) :
    me.partyId = partyId ∧
      me.commitmentFe = bytes32ToField r p + bytes32ToField r v + bytes32ToField r rb ∧
      me.rbFe = bytes32ToField r rb := by
  simp only [prepareParty, makeReq, do_eq_ok, hexDecode_hexEncode, decode32_hexEncode,
    Option.some.injEq, Except.ok.injEq, exists_eq_left'] at h
  obtain ⟨_, -, _, -, rfl⟩ := h
  refine ⟨rfl, ?_, rfl⟩
  rw [computeCommitment, deserialize_serialize Bls12377.r_le]
  rfl

theorem runAsParty0_cases {req0 req1 : PartyRequest} {printed : ProverResponse}
    (h : runAsParty0 host written req0 req1 = some printed) :
    (∃ msg, printed = err msg "distributed") ∨
      ∃ me proof, prepareParty host written req0 = .ok me ∧ printed = partyResponse me proof := by
  rw [runAsParty0] at h
  split at h
  · next msg _ => exact .inl ⟨msg, (Option.some.inj h).symm⟩
  · next me hme =>
    split at h
    · exact absurd h (by simp)
    · next peer _ =>
      split at h
      · obtain rfl := Option.some.inj h
        cases hproof : proveAsParty host me peer with
        | error msg => exact .inl ⟨msg, rfl⟩
        | ok resp =>
          simp only [proveAsParty, do_eq_ok] at hproof
          obtain ⟨proof, -, rfl⟩ := hproof
          exact .inr ⟨me, proof, hme, rfl⟩
      · exact absurd h (by simp)

/-- **What party 0 prints** has the public values of the coordinator. -/
theorem publicInputsHex_of_runAsParty0 {crsPath : String} {rb : Bytes32}
    {req1 : PartyRequest} {shareHex : String} {resp : ProverResponse}
    (h : (runAsParty0 host written (makeReq host cfgPath crsPath (hexEncode rb.toList)
      (hexEncode (computeCommitment p v rb)) 0 shareHex) req1).bind parseResponse = some resp) :
    resp.publicInputsHex =
      [hexEncode (serialize (bytes32ToField r p + bytes32ToField r v + bytes32ToField r rb)),
        hexEncode (serialize (bytes32ToField r rb))] := by
  obtain ⟨printed, hprinted, hparse⟩ := Option.bind_eq_some_iff.1 h
  obtain ⟨hne, rfl⟩ := parseResponse_eq_some.1 hparse
  rcases runAsParty0_cases hprinted with ⟨msg, rfl⟩ | ⟨me, proof, hme, rfl⟩
  · -- an error has no public inputs, so it is not read back
    exact absurd rfl hne
  · obtain ⟨hid, hcomm, hrb⟩ := prepareParty_makeReq hme
    rw [partyResponse, if_pos hid, hcomm, hrb]
    rfl

/-- **A response of the distributed mode** commits to the sum of the shares. -/
theorem proveDistributed_ok (hreq : req.Carries p v rand)
    (hok : (proveDistributed host req).ok = true) :
    (proveDistributed host req).kMacHex = some (hexEncode (xorShares p v).toList) ∧
      (proveDistributed host req).publicInputsHex =
        [hexEncode (serialize (bytes32ToField r p + bytes32ToField r v + bytes32ToField r rand)),
          hexEncode (serialize (bytes32ToField r rand))] := by
  obtain ⟨resp, hresp, heq⟩ := ok_respond hok
  rw [proveDistributed, heq]
  simp only [distributed, hreq.p, hreq.v, hreq.rand, runTwoParties, do_eq_ok, Except.ok.injEq,
    exists_eq_left'] at hresp
  obtain ⟨params, -, _, -, _, -, _, -, cfgPath, -, _, -, _, -, _, -, resp', hresp', rfl⟩ := hresp
  have hins := publicInputsHex_of_runAsParty0 hresp'
  exact ⟨rfl, hins⟩

structure Host.Works (host : Host G) (cfgPath : String) : Prop where
  createCrsFile : host.createCrsFile = .ok ()
  writeCrsFile : host.writeCrsFile = .ok ()
  network : ∃ ports, host.findTwoPorts = .ok ports ∧
    host.writeNetConfig ports.1 ports.2 = .ok cfgPath
  spawnP1 : host.spawnP1 = .ok ()
  spawnP0 : host.spawnP0 = .ok ()
  waitP0 : host.waitP0 = .ok ()
  connected : host.connected = true

/-- Where everything works, there is a response. -/
theorem ok_proveDistributed {pk : G.ProvingKey} {me peer : Party G} {π : G.Proof}
    (hworks : host.Works cfgPath) (hreq : req.Carries p v rand)
    (hpk : requestParams host.toEnvironment req = .ok pk)
    (hme : prepareParty host (host.crsPath, G.serializeKey pk) (makeReq host cfgPath host.crsPath
      (hexEncode rand.toList) (hexEncode (computeCommitment p v rand)) 0
      (hexEncode p.toList)) = .ok me)
    (hpeer : prepareParty host (host.crsPath, G.serializeKey pk) (makeReq host cfgPath host.crsPath
      (hexEncode rand.toList) (hexEncode (computeCommitment p v rand)) 1
      (hexEncode v.toList)) = .ok peer)
    (hπ : G.createMpcProof me.circuit peer.circuit me.params host.mpcRandomness = .ok π) :
    (proveDistributed host req).ok = true := by
  obtain ⟨ports, hports, hcfg⟩ := hworks.network
  have hproof : proveAsParty host me peer = .ok (partyResponse me π) := by
    simp only [proveAsParty, do_eq_ok]
    exact ⟨π, hπ, rfl⟩
  have hparse : parseResponse (partyResponse me π) = some (partyResponse me π) :=
    parseResponse_eq_some.2 ⟨by simp [partyResponse, (prepareParty_makeReq hme).1], rfl⟩
  have hok : (partyResponse me π).ok = true := by
    rw [partyResponse]
    split <;> rfl
  have hdist : ∃ resp, distributed host req = .ok resp ∧ resp.ok = true := by
    simp only [distributed, hreq.p, hreq.v, hreq.rand, hpk, hworks.createCrsFile,
      hworks.writeCrsFile, runTwoParties, hports, hcfg, hworks.spawnP1, hworks.spawnP0,
      hworks.waitP0, runAsParty0, hme, hpeer, hworks.connected, hproof, respond, hparse, hok,
      if_true, do_eq_ok, Option.bind_some, Except.ok.injEq, Option.some.injEq, true_and,
      exists_const, exists_eq_left']
  obtain ⟨resp, hresp, hok⟩ := hdist
  rw [proveDistributed, hresp]
  exact hok

/-! ### Two modes for one request -/

/-- The first public input commits to the reported key. -/
def ProverResponse.CommitsToKey (rand : Bytes32) (resp : ProverResponse) : Prop :=
  ∃ kMac : Bytes32, resp.kMacHex = some (hexEncode kMac.toList) ∧ resp.publicInputsHex.head? =
      some (hexEncode (serialize (bytes32ToField r kMac + bytes32ToField r rand)))

structure ModesAgree (rand : Bytes32) (resp resp' : ProverResponse) : Prop where
  kMacHex : resp.kMacHex = resp'.kMacHex
  publicInputsHex : resp.publicInputsHex = resp'.publicInputsHex
  commitsToKey : resp.CommitsToKey rand
  commitsToKey' : resp'.CommitsToKey rand

theorem hexEncode_serialize_inj {x y : Fr} :
    hexEncode (serialize x) = hexEncode (serialize y) ↔ x = y :=
  hexEncode_injective.eq_iff.trans (serialize_injective Bls12377.r_le).eq_iff

theorem publicInputsHex_eq_iff {env : Environment G.toGroth16} {req' : ProverRequest}
    (hkey : env.useFullCircuit = false) (hreq : req.Carries p v rand)
    (hreq' : req'.Carries p v rand) (hok : (handleCentral env req).ok = true)
    (hok' : (proveDistributed host req').ok = true) :
    (handleCentral env req).publicInputsHex = (proveDistributed host req').publicInputsHex ↔
      r ∣ commonBits p v := by
  obtain ⟨-, -, -, -, -, hins, -⟩ := handleCentral_ok hkey hreq hok
  obtain ⟨-, hinputs'⟩ := proveDistributed_ok hreq' hok'
  simp only [TlsKeyCircuit.new] at hins
  rw [hins, hinputs', List.cons.injEq, hexEncode_serialize_inj, and_iff_left rfl,
    add_left_inj, eq_comm, packed_add_eq_iff Bls12377.coprime_r_two]

end

section

noncomputable def keyScheme : MpcGroth16 Fr :=
  .idealFor ⟨.setup, 3, 2, [], [], [TlsKeyCircuit.row r]⟩

noncomputable def keyEnvironment : Environment keyScheme.toGroth16 where
  cosnarkFullCircuit := none
  readFile path := .error s!"{path}: No such file or directory (os error 2)"
  setupRandomness := ()
  proofRandomness := ()

noncomputable def keyHost : Host keyScheme where
  toEnvironment := keyEnvironment
  processId := 1
  createCrsFile := .ok ()
  writeCrsFile := .ok ()
  findTwoPorts := .ok (40000, 40001)
  writeNetConfig port0 port1 := .ok s!"/tmp/co-snark-mpc-{port0}-{port1}.cfg"
  spawnP1 := .ok ()
  spawnP0 := .ok ()
  waitP0 := .ok ()
  readCrsFile _ := .ok ()
  connected := true
  mpcRandomness := ()
  parseError _ := "EOF while parsing a value at line 1 column 0"
  debugStr := String.quote

theorem requestParams_keyEnvironment (mode : Mode) (p v rand : Bytes32) :
    requestParams keyEnvironment (plainRequest mode p v rand) = .ok () :=
  requestParams_of_empty rfl rfl rfl
    (congrArg (Except.map fun _ => ()) (TlsKeyCircuit.dummy r).synthesize_setup)

theorem ok_handleCentral_keyEnvironment (p v rand : Bytes32) :
    (handleCentral keyEnvironment (plainRequest .central p v rand)).ok = true :=
  ok_handleCentral rfl (carries_plainRequest ..) (requestParams_keyEnvironment ..)
    (congrArg (Except.map fun _ => ()) (TlsKeyCircuit.new r p v rand).synthesize_prove)

theorem exists_prepareParty_keyHost (cfgPath crsPath : String) (rb share : Bytes32)
    (cmt : Bytes) (partyId : ℕ) :
    ∃ (c : TlsKeyCircuit r) (commitmentFe rbFe : Fr),
      prepareParty keyHost (crsPath, keyScheme.serializeKey ()) (makeReq keyHost cfgPath crsPath
        (hexEncode rb.toList) (hexEncode cmt) partyId (hexEncode share.toList)) =
          .ok ⟨partyId, (), false, c.generateConstraints, commitmentFe, rbFe⟩ := by
  have hpars : partyParams keyHost (keyHost.partyRead (crsPath, keyScheme.serializeKey ())
      partyId) false (some crsPath) = .ok () := by
    rw [partyParams, Host.partyRead, if_pos rfl]
    rfl
  simp only [prepareParty, makeReq, do_eq_ok, hexDecode_hexEncode, decode32_hexEncode,
    Option.some.injEq, Except.ok.injEq, exists_eq_left']
  exact ⟨_, _, _, (), hpars, rfl⟩

theorem ok_proveDistributed_keyHost (p v rand : Bytes32) :
    (proveDistributed keyHost (plainRequest .distributed p v rand)).ok = true := by
  let cfgPath := s!"/tmp/co-snark-mpc-{40000}-{40001}.cfg"
  obtain ⟨c₀, cmt₀, rb₀, hparty₀⟩ := exists_prepareParty_keyHost cfgPath keyHost.crsPath rand p
    (computeCommitment p v rand) 0
  obtain ⟨c₁, cmt₁, rb₁, hparty₁⟩ := exists_prepareParty_keyHost cfgPath keyHost.crsPath rand v
    (computeCommitment p v rand) 1
  refine ok_proveDistributed ⟨rfl, rfl, ⟨(40000, 40001), rfl, rfl⟩, rfl, rfl, rfl, rfl⟩
    (carries_plainRequest ..) (requestParams_keyEnvironment ..) hparty₀ hparty₁ (π := ()) ?_
  simp only [keyScheme, MpcGroth16.idealFor, c₀.synthesize_prove, c₁.synthesize_prove, do_eq_ok,
    Except.ok.injEq, exists_eq_left']

end

/-- **The modes agree on two shares** exactly if the order divides their common bits. -/
theorem modes_agree_iff (G : MpcGroth16 Fr) (env : Environment G.toGroth16) (host : Host G)
    (req req' : ProverRequest) (p v rand : Bytes32) (hkey : env.useFullCircuit = false)
    (hreq : req.Carries p v rand) (hreq' : req'.Carries p v rand)
    (hok : (handleCentral env req).ok = true) (hok' : (proveDistributed host req').ok = true) :
    ModesAgree rand (handleCentral env req) (proveDistributed host req') ↔ r ∣ commonBits p v := by
  obtain ⟨-, -, -, -, -, hins, hkMac⟩ := handleCentral_ok hkey hreq hok
  obtain ⟨hkMac', -⟩ := proveDistributed_ok hreq' hok'
  have hhead : (handleCentral env req).publicInputsHex.head? = some (hexEncode
      (serialize (bytes32ToField r (xorShares p v) + bytes32ToField r rand))) := by
    rw [hins]
    rfl
  have heq := publicInputsHex_eq_iff hkey hreq hreq' hok hok'
  constructor
  · intro hagree
    exact heq.1 hagree.publicInputsHex
  · intro hdvd
    refine ⟨hkMac.trans hkMac'.symm, heq.2 hdvd, ⟨xorShares p v, hkMac, hhead⟩, xorShares p v,
      hkMac', ?_⟩
    rw [← heq.2 hdvd, hhead]

/-- **Shares without a common bit**: the modes agree. -/
theorem modes_agree_disjoint :
    ModesAgree oneShare
      (handleCentral keyEnvironment (plainRequest .central oneShare twoShare oneShare))
      (proveDistributed keyHost (plainRequest .distributed oneShare twoShare oneShare)) :=
  (modes_agree_iff keyScheme keyEnvironment keyHost _ _ oneShare twoShare oneShare rfl
    (carries_plainRequest ..) (carries_plainRequest ..) (ok_handleCentral_keyEnvironment ..)
    (ok_proveDistributed_keyHost ..)).2 dvd_commonBits_disjoint

/-- **Shares with a common bit**: the same key, and different commitments. -/
theorem modes_disagree_oneShare :
    let resp := handleCentral keyEnvironment (plainRequest .central oneShare oneShare zeroShare)
    let resp' := proveDistributed keyHost (plainRequest .distributed oneShare oneShare zeroShare)
    resp.ok = true ∧ resp'.ok = true ∧ ¬ModesAgree zeroShare resp resp' := by
  intro resp resp'
  have hok : resp.ok = true := ok_handleCentral_keyEnvironment ..
  have hok' : resp'.ok = true := ok_proveDistributed_keyHost ..
  refine ⟨hok, hok', fun hagree => ?_⟩
  have hdvd := (publicInputsHex_eq_iff rfl (carries_plainRequest ..) (carries_plainRequest ..)
    hok hok').1 hagree.publicInputsHex
  exact not_dvd_commonBits_oneShare hdvd

/-! ### An error of a party -/

section

/-- A host on which party 0 does not find the file with the key, with the text that the JSON library
has for the line of its response. -/
noncomputable def fileGone (debugStr : String → String) : Host keyScheme :=
  { keyHost with
    readCrsFile := fun _ => .error "No such file or directory (os error 2)"
    parseError := fun _ => "missing field `public_inputs_hex` at line 1 column 102"
    debugStr := debugStr }

def goneText : String := "read crs_file: No such file or directory (os error 2)"

/-- The response of party 0 as it is printed. -/
def goneLine : String :=
  "\x7b\"ok\":false,\"error\":\"" ++ goneText ++ "\",\"mode_used\":\"distributed\"\x7d"

variable {debugStr : String → String}

theorem prepareParty_fileGone (cfgPath crsPath : String) (key cmt : Bytes)
    (rb share : Bytes32) (partyId : ℕ) :
    prepareParty (fileGone debugStr) (crsPath, key) (makeReq (fileGone debugStr) cfgPath crsPath
      (hexEncode rb.toList) (hexEncode cmt) partyId (hexEncode share.toList)) =
        .error goneText := by
  have hpars (full : Bool) : partyParams (fileGone debugStr)
      ((fileGone debugStr).partyRead (crsPath, key) partyId) full (some crsPath) =
        .error goneText := by
    rw [partyParams, Host.partyRead, if_pos rfl]
    rfl
  simp only [prepareParty, makeReq, okOr, bind, Except.bind, decode32_hexEncode, Option.getD_some,
    hpars]

theorem runAsParty0_fileGone (cfgPath crsPath : String) (key cmt : Bytes) (rb share : Bytes32)
    (req1 : PartyRequest) :
    runAsParty0 (fileGone debugStr) (crsPath, key) (makeReq (fileGone debugStr) cfgPath crsPath
      (hexEncode rb.toList) (hexEncode cmt) 0 (hexEncode share.toList)) req1 =
        some (err goneText "distributed") := by
  rw [runAsParty0, prepareParty_fileGone]

theorem runTwoParties_fileGone (p v rb kMac : Bytes32) (crsPath : String) :
    runTwoParties (fileGone debugStr) p v rb kMac () crsPath = .error
      ("parse p0 resp: missing field `public_inputs_hex` at line 1 column 102 (got: " ++
        debugStr goneLine ++ ")") := by
  have hline : (JsonValue.object (err goneText "distributed").toJson).text = goneLine := by
    decide +kernel
  have hparse : parseResponse (err goneText "distributed") = none :=
    Option.eq_none_iff_forall_ne_some.2 fun resp h => (parseResponse_eq_some.1 h).1 rfl
  simp only [runTwoParties, runAsParty0_fileGone, Option.map_some, Option.getD_some, hline,
    Option.bind_some, hparse]
  rfl

/-- **An error does not come back**: the caller hears that a field is missing. -/
theorem error_does_not_come_back :
    let printed := err goneText "distributed"
    ∀ debugStr, (∃ written req0 req1, runAsParty0 (fileGone debugStr) written req0 req1 =
        some printed) ∧
      ProverResponse.fromJson printed.toJson ≠ .ok printed ∧
      (proveDistributed (fileGone debugStr)
          (plainRequest .distributed zeroShare zeroShare zeroShare)).error =
        some ("parse p0 resp: missing field `public_inputs_hex` at line 1 column 102 (got: " ++
          debugStr goneLine ++ ")") := by
  intro printed debugStr
  refine ⟨⟨_, _, ⟨none, none, none, none, none, none, none, none, none, none⟩,
    runAsParty0_fileGone "" "" [] [] zeroShare zeroShare _⟩, ?_, ?_⟩
  · rw [fromJson_toJson]
    simp [printed, err]
  · have hpars : requestParams (fileGone debugStr).toEnvironment
        (plainRequest .distributed zeroShare zeroShare zeroShare) = .ok () :=
      requestParams_keyEnvironment ..
    have hreq := carries_plainRequest .distributed zeroShare zeroShare zeroShare
    have hdist : distributed (fileGone debugStr)
        (plainRequest .distributed zeroShare zeroShare zeroShare) =
          runTwoParties (fileGone debugStr) zeroShare zeroShare zeroShare
            (xorShares zeroShare zeroShare) () (fileGone debugStr).crsPath := by
      rw [distributed, hreq.p, hreq.v, hreq.rand, hpars]
      rfl
    rw [proveDistributed, hdist, runTwoParties_fileGone]
    rfl

end

end TlsAttestation.CoSnarkProver
