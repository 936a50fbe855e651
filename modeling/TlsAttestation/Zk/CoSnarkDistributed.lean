import TlsAttestation.Core.Hex

/-!
# The client of the prover

The co-SNARK is proved by another process: a new one (`Zk.CoSnarkDistributedClient.prove`), or one
that stays (`Zk.ProverServer.prove`). **A missing field of the response is not an error**: a missing
proof is empty, and a key that does not have 32 bytes is zero (`Zk.prove_validated_iff`).
-/

namespace TlsAttestation.Zk

open ByteEncoding Fallible

inductive DistributedProverError where
  | spawn (path source : String)
  | stdinWrite (source : String)
  | noOutput
  | parseResponse (message : String)
  | proverError (message : String)
  | hexDecode (e : FromHexError)
deriving DecidableEq

inductive DistributedMode where
  | central
  | distributed
deriving DecidableEq

def DistributedMode.asStr : DistributedMode → String
  | .central => "central"
  | .distributed => "distributed"

structure ProverRequest where
  (mode pShareHex vShareHex randBindingHex crsHex crsFile : String)
  includeVk : Bool

structure RawProverResponse where
  ok : Bool
  (error proofHex : Option String)
  publicInputsHex : Option (List String)
  (kMacHex vkHex modeUsed : Option String)

structure DistributedCrs where
  crsFile : String
  crsHex : String
  vkHex : String

structure DistributedProof where
  proofBytes : Bytes
  publicInputs : List Bytes
  kMac : Bytes32
  vkBytes : Option Bytes
  modeUsed : String

structure ResponseText where
  trim : String → String
  fromStr : String → Except String RawProverResponse

/-! ### Taking a response apart -/

def decodeHex (s : String) : Except DistributedProverError Bytes :=
  (hexDecode s).mapError .hexDecode

/-- The key of a response: zero, unless there are 32 bytes. -/
def kMacOf (kMacBytes : Bytes) : Bytes32 :=
  if h : kMacBytes.length = 32 then ⟨kMacBytes.toArray, h⟩ else .replicate 32 0

/-- What both clients do; `unknown` is for an error without a text. -/
def readResponse (unknown : String) (resp : RawProverResponse) :
    Except DistributedProverError DistributedProof := do
  ensure (resp.ok = true) (.proverError (resp.error.getD unknown))
  let proofBytes ← decodeHex (resp.proofHex.getD "")
  let publicInputs ← (resp.publicInputsHex.getD []).mapM decodeHex
  let kMacBytes ← decodeHex (resp.kMacHex.getD "")
  let vkBytes ← (resp.vkHex.filter (· ≠ "")).mapM decodeHex
  return ⟨proofBytes, publicInputs, kMacOf kMacBytes, vkBytes, resp.modeUsed.getD ""⟩

/-! ### The clients -/

structure CoSnarkDistributedClient where
  binaryPath : String
  mode : DistributedMode

def CoSnarkDistributedClient.request (client : CoSnarkDistributedClient)
    (pShare vShare randBinding : Bytes32) (crs : Option DistributedCrs)
    (includeVk : Bool) : ProverRequest :=
  let crsFile := (crs.map (·.crsFile)).getD ""
  { mode := client.mode.asStr
    pShareHex := hexEncode pShare.toList
    vShareHex := hexEncode vShare.toList
    randBindingHex := hexEncode randBinding.toList
    crsHex := if crsFile = "" then (crs.map (·.crsHex)).getD "" else ""
    crsFile := crsFile
    includeVk := includeVk }

/-- **A proof by a new process**, which prints `run`. -/
def CoSnarkDistributedClient.prove (client : CoSnarkDistributedClient) (text : ResponseText)
    (run : String → ProverRequest → Except DistributedProverError (List String))
    (pShare vShare randBinding : Bytes32) (crs : Option DistributedCrs)
    (includeVk : Bool) : Except DistributedProverError DistributedProof := do
  let lines ← run client.binaryPath (client.request pShare vShare randBinding crs includeVk)
  let raw ← okOr (lines.find? fun l => text.trim l ≠ "") .noOutput
  let resp ← (text.fromStr raw).mapError .parseResponse
  readResponse "unknown prove error" resp

def ProverServer.request (pShare vShare randBinding : Bytes32) (includeVk : Bool) :
    ProverRequest :=
  (CoSnarkDistributedClient.mk "" .central).request pShare vShare randBinding none includeVk

/-- A proof by the process that stays, from the one line it answers. -/
def ProverServer.prove (text : ResponseText)
    (answer : ProverRequest → Except DistributedProverError String)
    (pShare vShare randBinding : Bytes32) (includeVk : Bool) :
    Except DistributedProverError DistributedProof := do
  let line ← answer (request pShare vShare randBinding includeVk)
  let resp ← (text.fromStr (text.trim line)).mapError .parseResponse
  readResponse "prove failed" resp

/-! ### What a success says -/

/-- A success whose proof is not empty and whose key has 32 bytes. -/
structure Validated (resp : RawProverResponse) (out : DistributedProof) : Prop where
  ok : resp.ok = true
  proof : ∃ s, resp.proofHex = some s ∧ hexDecode s = .ok out.proofBytes ∧ out.proofBytes ≠ []
  kMac : ∃ s, resp.kMacHex = some s ∧ hexDecode s = .ok out.kMac.toList

/-- All that is there can be decoded, to these bytes. -/
structure Decodes (resp : RawProverResponse) (proofBytes kMacBytes : Bytes) : Prop where
  ok : resp.ok = true
  proof : hexDecode (resp.proofHex.getD "") = .ok proofBytes
  kMac : hexDecode (resp.kMacHex.getD "") = .ok kMacBytes
  publicInputs : ∃ inputs, (resp.publicInputsHex.getD []).mapM decodeHex = .ok inputs
  vk : ∃ vk, (resp.vkHex.filter (· ≠ "")).mapM decodeHex = .ok vk

/-- If all can be decoded, there is a proof, and a key of 32 bytes. -/
def SaysAll (resp : RawProverResponse) : Prop :=
  ∀ proofBytes kMacBytes, Decodes resp proofBytes kMacBytes →
    proofBytes ≠ [] ∧ kMacBytes.length = 32

variable {resp : RawProverResponse} {unknown : String}

theorem readResponse_eq_ok {out : DistributedProof} :
    readResponse unknown resp = .ok out ↔ resp.ok = true ∧
      ∃ proofBytes, hexDecode (resp.proofHex.getD "") = .ok proofBytes ∧
      ∃ inputs, (resp.publicInputsHex.getD []).mapM decodeHex = .ok inputs ∧
      ∃ kMacBytes, hexDecode (resp.kMacHex.getD "") = .ok kMacBytes ∧
      ∃ vk, (resp.vkHex.filter (· ≠ "")).mapM decodeHex = .ok vk ∧
        ⟨proofBytes, inputs, kMacOf kMacBytes, vk, resp.modeUsed.getD ""⟩ = out := by
  simp only [readResponse, do_eq_ok, exists_const, decodeHex]

theorem eq_some_of_getD {s : Option String} {bytes : Bytes} (h : hexDecode (s.getD "") = .ok bytes)
    (hne : bytes ≠ []) : ∃ t, s = some t ∧ hexDecode t = .ok bytes := by
  cases s with
  | some t => exact ⟨t, rfl, h⟩
  | none => exact absurd (Except.ok.inj h).symm hne

/-- **Successes are checked** exactly if the response says all. -/
theorem validated_iff : (∀ out, readResponse unknown resp = .ok out → Validated resp out) ↔
    SaysAll resp := by
  constructor
  · rintro h proofBytes kMacBytes ⟨hok, hproof, hkMac, ⟨inputs, hins⟩, vk, hvk⟩
    obtain ⟨-, ⟨s, hs, hdecode, hne⟩, t, ht, hdecode'⟩ := h _ (readResponse_eq_ok.2
      ⟨hok, proofBytes, hproof, inputs, hins, kMacBytes, hkMac, vk, hvk, rfl⟩)
    rw [ht, Option.getD_some, hdecode', Except.ok.injEq] at hkMac
    exact ⟨hne, by rw [← hkMac, Vector.length_toList]⟩
  · intro h out hout
    obtain ⟨hok, proofBytes, hproof, inputs, hins, kMacBytes, hkMac, vk, hvk, rfl⟩ :=
      readResponse_eq_ok.1 hout
    obtain ⟨hne, hlen⟩ := h _ _ ⟨hok, hproof, hkMac, ⟨inputs, hins⟩, vk, hvk⟩
    obtain ⟨s, hs, hdecode⟩ := eq_some_of_getD hproof hne
    obtain ⟨t, ht, hdecode'⟩ := eq_some_of_getD hkMac (by rintro rfl; simp at hlen)
    refine ⟨hok, ⟨s, hs, hdecode, hne⟩, t, ht, ?_⟩
    rw [hdecode', kMacOf, dif_pos hlen]
    rfl

/-- **A success means what it says**, with either client, exactly if the response says all. -/
theorem prove_validated_iff (text : ResponseText) (client : CoSnarkDistributedClient)
    (run : String → ProverRequest → Except DistributedProverError (List String))
    (answer : ProverRequest → Except DistributedProverError String)
    (p v rand : Bytes32) (crs : Option DistributedCrs) (includeVk : Bool)
    (resp : RawProverResponse) (lines : List String) (raw line : String)
    (hlines : run client.binaryPath (client.request p v rand crs includeVk) = .ok lines)
    (hraw : lines.find? (fun l => text.trim l ≠ "") = some raw)
    (hresp : text.fromStr raw = .ok resp)
    (hline : answer (ProverServer.request p v rand includeVk) = .ok line)
    (hresp' : text.fromStr (text.trim line) = .ok resp) :
    ((∀ out, client.prove text run p v rand crs includeVk = .ok out → Validated resp out) ↔
      SaysAll resp) ∧
    ((∀ out, ProverServer.prove text answer p v rand includeVk = .ok out → Validated resp out) ↔
      SaysAll resp) := by
  have hprove : client.prove text run p v rand crs includeVk =
      readResponse "unknown prove error" resp := by
    rw [CoSnarkDistributedClient.prove, hlines]
    change okOr _ _ >>= _ = _
    rw [hraw]
    change (text.fromStr raw).mapError _ >>= _ = _
    rw [hresp]
    rfl
  have hprove' : ProverServer.prove text answer p v rand includeVk =
      readResponse "prove failed" resp := by
    rw [ProverServer.prove, hline]
    change (text.fromStr (text.trim line)).mapError _ >>= _ = _
    rw [hresp']
    rfl
  rw [hprove, hprove']
  exact ⟨validated_iff, validated_iff⟩

/-- A response that says nothing but that all went well. -/
def bareResponse : RawProverResponse := ⟨true, none, none, none, none, none, none⟩

def bareLine : String := "\x7b\"ok\":true\x7d"

/-- A response with a proof of one byte and a key. -/
def fullResponse : RawProverResponse :=
  { bareResponse with
    proofHex := some (hexEncode [1]), kMacHex := some (hexEncode (List.replicate 32 0)) }

def fullLine : String :=
  "\x7b\"ok\":true,\"proof_hex\":\"01\",\"k_mac_hex\":\"" ++ hexEncode (List.replicate 32 0) ++
    "\"\x7d"

/-- A parser that knows the two lines, and rejects any other. -/
def twoLines : ResponseText where
  trim := id
  fromStr line :=
    if line = bareLine then .ok bareResponse
    else if line = fullLine then .ok fullResponse
    else .error "expected value at line 1 column 1"

theorem fromStr_fullLine : twoLines.fromStr fullLine = .ok fullResponse := by
  have hne : fullLine ≠ bareLine := by decide +kernel
  simp [twoLines, hne]

theorem saysAll_fullResponse : SaysAll fullResponse := by
  rintro _ _ ⟨-, hproof, hkMac, -, -⟩
  obtain rfl := Except.ok.inj ((hexDecode_hexEncode _).symm.trans hproof)
  obtain rfl := Except.ok.inj ((hexDecode_hexEncode _).symm.trans hkMac)
  exact ⟨List.cons_ne_nil 1 [], List.length_replicate⟩

theorem prove_validated_fullResponse :
    let share : Bytes32 := .replicate 32 0
    (∀ out, (CoSnarkDistributedClient.mk "" .central).prove twoLines
      (fun _ _ => .ok ["", fullLine]) share share share none false = .ok out →
        Validated fullResponse out) ∧
    ∀ out, ProverServer.prove twoLines (fun _ => .ok fullLine) share share share
      false = .ok out → Validated fullResponse out := by
  intro share
  have hfind : ["", fullLine].find? (fun l => twoLines.trim l ≠ "") = some fullLine := by
    decide +kernel
  obtain ⟨hclient, hserver⟩ := prove_validated_iff twoLines ⟨"", .central⟩
    (fun _ _ => .ok ["", fullLine]) (fun _ => .ok fullLine) share share share none false
    fullResponse ["", fullLine] fullLine fullLine rfl hfind fromStr_fullLine rfl fromStr_fullLine
  exact ⟨hclient.2 saysAll_fullResponse, hserver.2 saysAll_fullResponse⟩

/-- A success without a proof or a key. -/
theorem prove_not_validated :
    let share : Bytes32 := .replicate 32 0
    let out : DistributedProof := ⟨[], [], .replicate 32 0, none, ""⟩
    (CoSnarkDistributedClient.mk "" .central).prove twoLines
        (fun _ _ => .ok [bareLine]) share share share none false = .ok out ∧
      ProverServer.prove twoLines (fun _ => .ok bareLine) share share share false =
        .ok out ∧ ¬Validated bareResponse out := by
  intro share out
  refine ⟨rfl, rfl, fun h => ?_⟩
  obtain ⟨s, hs, -⟩ := h.proof
  exact absurd hs (by simp [bareResponse])

end TlsAttestation.Zk
