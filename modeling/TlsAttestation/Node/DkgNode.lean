import TlsAttestation.Crypto.Dkg
import TlsAttestation.Lib.Calls
import TlsAttestation.Node.FrostAux

/-!
# Key generation, one participant

`tls_attestation_node::dkg_node`, as a state machine.

| state | `part1` | `part2` | `part3` |
|---|---|---|---|
| `initial` | → `afterPart1` | refused | refused |
| `afterPart1` | refused | → `afterPart2`, or `failed` | refused |
| `afterPart2` | refused | refused | → `completed`, or stays |
| `completed`, `failed` | refused | refused | refused |

A secret is used once at most (`FrostDkgNode.protocolOrder`).
-/

namespace TlsAttestation

open Fallible Frost Calls

section

variable {F G : Type} [Field F] [AddCommGroup G] [Module F G]

/-- How far a node is in its ceremony. -/
inductive DkgNodeState (D : DkgCrates F G) where
  /-- Nothing has happened. -/
  | initial
  /-- The packages of the others are awaited. -/
  | afterPart1 (round1State : D.Round1Secret)
  /-- The shares of the others are awaited. -/
  | afterPart2 (round2State : D.Round2Secret)
      (round1Packages : Finmap fun _ : Identifier F => D.Round1Package)
  /-- The key share has been handed out. -/
  | completed
  /-- A secret was used up in vain. -/
  | failed (reason : String)

variable {D : DkgCrates F G}

def DkgNodeState.IsFinal : DkgNodeState D → Prop
  | .completed | .failed _ => True
  | _ => False

def DkgNodeState.BeforePart2 : DkgNodeState D → Prop
  | .initial | .afterPart1 _ => True
  | _ => False

def DkgNodeState.WithoutPart2 : DkgNodeState D → Prop
  | .afterPart2 _ _ | .completed => False
  | _ => True

/-- The packages of the first round, by sender. -/
abbrev DkgCrates.Round1Map (D : DkgCrates F G) := HashMap VerifierId D.Round1Package

/-- The packages of the second round: of a sender by recipient, or for a recipient by sender. -/
abbrev DkgCrates.Round2Map (D : DkgCrates F G) := HashMap VerifierId D.Round2Package

/-- What a participant ends with: a node with its key share, and the key of the group. -/
abbrev DkgOutput (F G : Type) [Zero F] := FrostAuxiliaryNode F G × FrostGroupKey F G

/-- A participant, which is in its list of participants. -/
structure FrostDkgNode (D : DkgCrates F G) where
  verifierId : VerifierId
  identifier : Identifier F
  allParticipantIds : List VerifierId
  maxSigners : UInt16
  minSigners : UInt16
  state : DkgNodeState D
  nodup : allParticipantIds.Nodup
  identifier_eq : D.identifierAt (allParticipantIds.idxOf verifierId) = .ok identifier
  mem_participants : verifierId ∈ allParticipantIds
  maxSigners_eq : maxSigners = .ofNat allParticipantIds.length
  two_le_minSigners : 2 ≤ minSigners
  minSigners_le : minSigners.toNat ≤ allParticipantIds.length

/-- A call on a participant, which can fail, panic, and change its state. -/
abbrev DkgM (D : DkgCrates F G) := EStateM (Stop NodeError) (FrostDkgNode D)

namespace FrostDkgNode

variable {D : DkgCrates F G}

def new (D : DkgCrates F G) (verifierId : VerifierId) (allParticipantIds : List VerifierId)
    (minSigners : UInt16) : Except NodeError (FrostDkgNode D) :=
  let n := allParticipantIds.length
  if n < 2 then
    .error (.dkgProtocol s!"FROST DKG requires at least 2 participants (got {n})")
  else if hnodup : allParticipantIds.Nodup then
    if hmin : 2 ≤ minSigners then
      if hle : minSigners.toNat ≤ n then
        if hmem : verifierId ∈ allParticipantIds then
          let position := allParticipantIds.idxOf verifierId
          match hid : D.identifierAt position with
          | .ok identifier =>
            .ok ⟨verifierId, identifier, allParticipantIds, .ofNat n, minSigners, .initial, hnodup,
              hid, hmem, rfl, hmin, hle⟩
          | .error e => .error (.dkgProtocol
              s!"FROST identifier assignment for position {position}: {e}")
        else .error (.dkgProtocol
          s!"verifier {verifierId.display} not found in all_participant_ids")
      else .error (.dkgProtocol s!"min_signers ({minSigners}) exceeds participant count ({n})")
    else .error (.dkgProtocol s!"FROST requires min_signers >= 2 (got {minSigners})")
  else .error (.dkgProtocol "all_participant_ids must not contain duplicates")

/-! ### Identifiers -/

variable (node : FrostDkgNode D)

def vidToIdentifier (vid : VerifierId) :
    Except (Stop NodeError) (Identifier F) :=
  if vid ∈ node.allParticipantIds then
    expect (D.identifierAt (node.allParticipantIds.idxOf vid))
      "position + 1 is always a valid nonzero u16 for n <= 65535"
  else .error (.error (.dkgProtocol
    s!"verifier {vid.display} is not in the ceremony participant list"))

variable [DecidableEq F]

def findIdentifier (D : DkgCrates F G) (id : Identifier F) :
    List VerifierId → ℕ → Except (Stop NodeError) (Option VerifierId)
  | [], _ => .ok none
  | vid :: vids, pos => do
    let frostId ← expect (D.identifierAt pos) "position + 1 is valid"
    if frostId = id then return some vid else findIdentifier D id vids (pos + 1)

def identifierToVid (id : Identifier F) :
    Except (Stop NodeError) (Option VerifierId) :=
  findIdentifier D id node.allParticipantIds 0

def translate {V : Type} (hasher : Hasher VerifierId) (node : FrostDkgNode D)
    (packages : HashMap VerifierId V) :
    Except (Stop NodeError) (Finmap fun _ : Identifier F => V) :=
  (hasher.iter packages).foldlM (fun m e => do
    let id ← node.vidToIdentifier e.1
    return m.insert id e.2) ∅

/-! ### Part one -/

/-- Once only, in the initial state. -/
def part1 (random : D.Random) : DkgM D D.Round1Package :=
  fun node =>
    match node.state with
    | .initial =>
      match dkgPart1 D node.identifier node.maxSigners node.minSigners random with
      | .error e => .error (.error (.crypto e)) node
      | .ok (round1State, round1Pkg) =>
        .ok round1Pkg { node with state := .afterPart1 round1State }
    | .afterPart1 _ | .afterPart2 _ _ | .completed =>
      .error (.error (.dkgProtocol "part1 already completed for this ceremony")) node
    | .failed reason =>
      .error (.error (.dkgProtocol s!"ceremony failed — cannot continue: {reason}")) node

/-! ### Part two -/

variable (hasher : Hasher VerifierId)

def part2Input (node : FrostDkgNode D) (packages : D.Round1Map) :
    Except (Stop NodeError) (D.Round1Secret × Finmap fun _ : Identifier F => D.Round1Package) :=
  match node.state with
  | .afterPart1 round1State => do
    let round1Packages ← node.translate hasher packages
    return (round1State, round1Packages)
  | .initial => .error (.error (.dkgProtocol "part2 called before part1"))
  | .afterPart2 _ _ => .error (.error (.dkgProtocol "part2 already completed"))
  | .completed => .error (.error (.dkgProtocol "ceremony already completed"))
  | .failed reason =>
    .error (.error (.dkgProtocol s!"ceremony failed — cannot continue: {reason}"))

def outbound (out : AList fun _ : Identifier F => D.Round2Package) :
    Except (Stop NodeError) (D.Round2Map) :=
  out.entries.foldlM (fun m e => do
    let vid ← node.identifierToVid e.1
    let vid ← okOr vid (.error (.dkgProtocol
      ("DKG part2 produced package for unknown FROST identifier — " ++
        "all_participant_ids may be inconsistent")))
    return m.insert vid e.2) ∅

def part2Output (round1State : D.Round1Secret)
    (round1Packages : Finmap fun _ : Identifier F => D.Round1Package) :
    Except (Stop NodeError) (D.Round2Secret × D.Round2Map) := do
  let (round2State, out) ← (dkgPart2 D round1State round1Packages).mapError fun e =>
    .error (.crypto e)
  let out ← node.outbound out
  return (round2State, out)

/-- The state of part one is consumed: an error of the crate fails the ceremony for good. -/
def part2 (packages : D.Round1Map) :
    DkgM D (D.Round2Map) :=
  fun node =>
    match node.part2Input hasher packages with
    | .error e => .error e node
    | .ok (round1State, round1Packages) =>
      match node.part2Output round1State round1Packages with
      | .error e =>
        .error e { node with
          state := .failed "part2 did not complete successfully — round1_state consumed" }
      | .ok (round2State, out) =>
        .ok out { node with state := .afterPart2 round2State round1Packages }

/-! ### Part three -/

/-- After part two. Unlike there, an error leaves the state, and the call can be repeated. -/
def part3 (packages : D.Round2Map) :
    DkgM D (DkgOutput F G) :=
  fun node =>
    match node.state with
    | .afterPart2 round2State round1Packages =>
      match node.translate hasher packages with
      | .error e => .error e node
      | .ok round2Packages =>
        match dkgPart3 D node.verifierId node.identifier round2State round1Packages round2Packages
          node.allParticipantIds with
        | .error e => .error (.error (.crypto e)) node
        | .ok output =>
          .ok (.new output.participant, output.groupKey) { node with state := .completed }
    | .initial => .error (.error (.dkgProtocol "part3 called before part1 and part2")) node
    | .afterPart1 _ => .error (.error (.dkgProtocol "part3 called before part2")) node
    | .completed => .error (.error (.dkgProtocol "ceremony already completed")) node
    | .failed reason =>
      .error (.error (.dkgProtocol s!"ceremony failed — cannot retry part3: {reason}")) node

/-! ### When the parts end well -/

section

variable {node node' : FrostDkgNode D} {hasher : Hasher VerifierId} {pkg : D.Round1Package}
  {random : D.Random}

omit [DecidableEq F] in
theorem run_part1_ok :
    (part1 random).run node = .ok pkg node' ↔ node.state = .initial ∧ ∃ secret,
        D.part1 node.identifier node.maxSigners node.minSigners random = .ok (secret, pkg) ∧
          node' = { node with state := .afterPart1 secret } := by
  simp only [part1, EStateM.run]
  rcases hstate : node.state with _ | _ | _ | _ | _
  case initial =>
    simp only [true_and]
    rcases hpart : D.part1 node.identifier node.maxSigners node.minSigners random with
      e | ⟨secret, pkg'⟩
    · simp [dkgPart1, hpart, Except.mapError]
    · simp only [dkgPart1, hpart, Except.mapError, EStateM.Result.ok.injEq, Except.ok.injEq,
        Prod.mk.injEq]
      constructor
      · rintro ⟨rfl, rfl⟩
        exact ⟨secret, ⟨rfl, rfl⟩, rfl⟩
      · rintro ⟨_, ⟨rfl, rfl⟩, rfl⟩
        exact ⟨rfl, rfl⟩
  all_goals simp

variable {packages : D.Round1Map} {out : D.Round2Map}

theorem run_part2_ok :
    (part2 hasher packages).run node = .ok out node' ↔
      ∃ secret round1 secret', node.part2Input hasher packages = .ok (secret, round1) ∧
        node.part2Output secret round1 = .ok (secret', out) ∧
          node' = { node with state := .afterPart2 secret' round1 } := by
  simp only [part2, EStateM.run]
  rcases hin : node.part2Input hasher packages with e | ⟨secret, round1⟩
  · simp
  · rcases hout : node.part2Output secret round1 with e | ⟨secret', out'⟩
    · simp [hout]
    · simp only [hout, EStateM.Result.ok.injEq, Except.ok.injEq, Prod.mk.injEq]
      constructor
      · rintro ⟨rfl, rfl⟩
        exact ⟨secret, round1, secret', ⟨rfl, rfl⟩, hout, rfl⟩
      · rintro ⟨_, _, _, ⟨rfl, rfl⟩, hout', rfl⟩
        obtain ⟨rfl, rfl⟩ := Prod.mk.inj (Except.ok.inj (hout.symm.trans hout'))
        exact ⟨rfl, rfl⟩

variable {result : DkgOutput F G}

theorem run_part3_ok {packages : D.Round2Map} :
    (part3 hasher packages).run node = .ok result node' ↔
      ∃ secret round1 round2 output, node.state = .afterPart2 secret round1 ∧
        node.translate hasher packages = .ok round2 ∧
        dkgPart3 D node.verifierId node.identifier secret round1 round2 node.allParticipantIds =
          .ok output ∧
        result = (.new output.participant, output.groupKey) ∧
        node' = { node with state := .completed } := by
  simp only [part3, EStateM.run]
  rcases hstate : node.state with _ | _ | ⟨secret, round1⟩ | _ | _
  case afterPart2 =>
    simp only [DkgNodeState.afterPart2.injEq]
    rcases htrans : node.translate hasher packages with e | round2
    · simp
    · rcases hpart : dkgPart3 D node.verifierId node.identifier secret round1 round2
        node.allParticipantIds with e | output
      · simp only [hpart, reduceCtorEq, false_iff]
        rintro ⟨_, _, _, output, ⟨rfl, rfl⟩, hround2, houtput, -, -⟩
        obtain rfl := Except.ok.inj hround2
        cases hpart.symm.trans houtput
      · simp only [hpart, EStateM.Result.ok.injEq]
        constructor
        · rintro ⟨rfl, rfl⟩
          exact ⟨secret, round1, round2, output, ⟨rfl, rfl⟩, rfl, hpart, rfl, rfl⟩
        · rintro ⟨_, _, _, output', ⟨rfl, rfl⟩, hround2, houtput, rfl, rfl⟩
          obtain rfl := Except.ok.inj hround2
          obtain rfl := Except.ok.inj (hpart.symm.trans houtput)
          exact ⟨rfl, rfl⟩
  all_goals simp

/-! What the parts leave alone. -/

def SameParticipant (node node' : FrostDkgNode D) : Prop :=
  node'.verifierId = node.verifierId ∧ node'.allParticipantIds = node.allParticipantIds

omit [DecidableEq F] in
theorem sameParticipant_part1
    (h : (part1 random).run node = .ok pkg node') : SameParticipant node node' := by
  obtain ⟨-, _, -, rfl⟩ := run_part1_ok.1 h
  exact ⟨rfl, rfl⟩

theorem sameParticipant_part2 (h : (part2 hasher packages).run node = .ok out node') :
    SameParticipant node node' := by
  obtain ⟨_, _, _, -, -, rfl⟩ := run_part2_ok.1 h
  exact ⟨rfl, rfl⟩

/-! How many packages there are. -/

theorem card_keys_translate {V : Type} {packages : HashMap VerifierId V}
    {m : Finmap fun _ : Identifier F => V} (h : node.translate hasher packages = .ok m) :
    m.keys.card ≤ packages.keys.length := by
  have hsize := foldlM_size_le (fun m : Finmap fun _ : Identifier F => V => m.keys.card)
    (fun m e m' hturn => ?_) h
  · rw [hasher.length_iter, Finmap.keys_empty, Finset.card_empty, zero_add] at hsize
    rwa [AList.keys, List.keys, List.length_map]
  · simp only [do_eq_ok] at hturn
    obtain ⟨id, -, rfl⟩ := hturn
    have hkeys : (m.insert id e.2).keys = insert id m.keys := by
      ext id'
      simp [Finmap.mem_keys]
    simp only [hkeys]
    exact Finset.card_insert_le _ _

theorem length_keys_outbound {out : AList fun _ : Identifier F => D.Round2Package}
    {m : D.Round2Map} (h : node.outbound out = .ok m) :
    m.keys.length ≤ out.keys.length := by
  have hsize := foldlM_size_le (fun m : D.Round2Map => m.keys.length) (fun m e m' hturn => ?_) h
  · simpa [AList.keys, List.keys] using hsize
  · simp only [do_eq_ok] at hturn
    obtain ⟨_, -, vid, -, rfl⟩ := hturn
    rw [AList.keys_insert, List.length_cons]
    exact Nat.succ_le_succ (List.length_erase_le)

/-- No more packages go out than have come in. -/
theorem length_keys_part2 (hD : D.Lawful) (h : (part2 hasher packages).run node = .ok out node') :
    ∃ secret round1, node'.state = .afterPart2 secret round1 ∧
      out.keys.length ≤ round1.keys.card := by
  obtain ⟨secret, round1, secret', -, hout, rfl⟩ := run_part2_ok.1 h
  simp only [part2Output, dkgPart2, do_eq_ok] at hout
  obtain ⟨⟨_, crate⟩, hpart2, out', hout', heq⟩ := hout
  obtain ⟨-, rfl⟩ := Prod.mk.inj heq
  have hkeys : crate.keys.toFinset = round1.keys := by
    ext id
    rw [List.mem_toFinset, ← AList.mem_keys, Finmap.mem_keys, hD.mem_part2 hpart2]
  refine ⟨secret', round1, rfl, (length_keys_outbound hout').trans ?_⟩
  rw [← hkeys, List.toFinset_card_of_nodup crate.keys_nodup]

theorem card_keys_part3 (hD : D.Lawful) {packages : D.Round2Map} {secret : D.Round2Secret}
    {round1 : Finmap fun _ : Identifier F => D.Round1Package}
    (h : (part3 hasher packages).run node = .ok result node')
    (hstate : node.state = .afterPart2 secret round1) :
    round1.keys.card ≤ packages.keys.length := by
  obtain ⟨secret', round1', round2, output, hstate', htrans, hout, -, -⟩ := run_part3_ok.1 h
  obtain ⟨rfl, rfl⟩ := DkgNodeState.afterPart2.inj (hstate.symm.trans hstate')
  rw [← hD.keys_part3 (part3_of_dkgPart3 hout)]
  exact card_keys_translate htrans

end

/-! ### Calls -/

end FrostDkgNode

inductive DkgCall (D : DkgCrates F G) where
  | part1 (random : D.Random)
  | part2 (packages : D.Round1Map)
  | part3 (packages : D.Round2Map)

inductive DkgAnswer (D : DkgCrates F G) where
  | round1 (r : Except (Stop NodeError) D.Round1Package)
  | round2 (r : Except (Stop NodeError) (D.Round2Map))
  | output (r : Except (Stop NodeError) (DkgOutput F G))

def DkgAnswer.isOk : DkgAnswer D → Bool
  | .round1 r => r.toBool
  | .round2 r => r.toBool
  | .output r => r.toBool

namespace FrostDkgNode

variable {D : DkgCrates F G} [DecidableEq F] (hasher : Hasher VerifierId) (node : FrostDkgNode D)

def answer : DkgCall D → DkgAnswer D × FrostDkgNode D
  | .part1 random =>
    let r := Effect.resultOf ((part1 random).run node)
    (.round1 r.1, r.2)
  | .part2 packages =>
    let r := Effect.resultOf ((part2 hasher packages).run node)
    (.round2 r.1, r.2)
  | .part3 packages =>
    let r := Effect.resultOf ((part3 hasher packages).run node)
    (.output r.1, r.2)

def handsOver : DkgCall D → Option D.Round1Secret
  | .part2 packages => (node.part2Input hasher packages).toOption.map Prod.fst
  | _ => none

def observe (call : DkgCall D) :
    (DkgAnswer D × Option D.Round1Secret) × FrostDkgNode D :=
  (((node.answer hasher call).1, node.handsOver hasher call), (node.answer hasher call).2)

/-- What a call does in a state: its answer, the secret it consumes, and the state after it. -/
inductive Observed (node : FrostDkgNode D) :
    DkgCall D → DkgAnswer D → Option D.Round1Secret → FrostDkgNode D → Prop
  | part1 {random : D.Random} {secret : D.Round1Secret} {package : D.Round1Package}
    (h : node.state = .initial) :
    Observed node (.part1 random) (.round1 (.ok package)) none
      { node with state := .afterPart1 secret }
  | part2 {packages : D.Round1Map} {secret : D.Round1Secret}
    {secret' : D.Round2Secret} {round1 : Finmap fun _ : Identifier F => D.Round1Package}
    {out : D.Round2Map} (h : node.state = .afterPart1 secret) :
    Observed node (.part2 packages) (.round2 (.ok out)) (some secret)
      { node with state := .afterPart2 secret' round1 }
  | part2Failed {packages : D.Round1Map} {secret : D.Round1Secret}
    {e : Stop NodeError} {reason : String} (h : node.state = .afterPart1 secret) :
    Observed node (.part2 packages) (.round2 (.error e)) (some secret)
      { node with state := .failed reason }
  | part3 {packages : D.Round2Map} {secret : D.Round2Secret}
    {round1 : Finmap fun _ : Identifier F => D.Round1Package}
    {output : DkgOutput F G}
    (h : node.state = .afterPart2 secret round1) :
    Observed node (.part3 packages) (.output (.ok output)) none { node with state := .completed }
  | refused {call : DkgCall D} {a : DkgAnswer D} (h : a.isOk = false) :
    Observed node call a none node

theorem part2Input_eq_ok {node : FrostDkgNode D} {packages : D.Round1Map}
    {secret : D.Round1Secret} {round1 : Finmap fun _ : Identifier F => D.Round1Package} :
    node.part2Input hasher packages = .ok (secret, round1) ↔
      node.state = .afterPart1 secret ∧ node.translate hasher packages = .ok round1 := by
  unfold part2Input
  rcases node.state with _ | s | _ | _ | _
  case afterPart1 =>
    simp only [do_eq_ok, Prod.mk.injEq, DkgNodeState.afterPart1.injEq]
    constructor
    · rintro ⟨m, hm, hs, rfl⟩
      exact ⟨hs, hm⟩
    · rintro ⟨hs, hr⟩
      exact ⟨round1, hr, hs, rfl⟩
  all_goals simp

theorem observed_part1 (random : D.Random) :
    Observed node (.part1 random) (node.answer hasher (.part1 random)).1 none
      (node.answer hasher (.part1 random)).2 := by
  simp only [answer, part1, EStateM.run]
  split
  · next h =>
    split
    · exact .refused rfl
    · exact .part1 h
  all_goals exact .refused rfl

theorem observed_part2 (packages : D.Round1Map) :
    Observed node (.part2 packages) (node.answer hasher (.part2 packages)).1
      (node.handsOver hasher (.part2 packages)) (node.answer hasher (.part2 packages)).2 := by
  simp only [answer, handsOver, part2, EStateM.run]
  rcases hin : node.part2Input hasher packages with e | ⟨secret, round1⟩
  · exact .refused rfl
  · have hstate := ((part2Input_eq_ok hasher).1 hin).1
    rcases hout : node.part2Output secret round1 with e | ⟨secret', out⟩
    · simp only [hout]
      exact .part2Failed hstate
    · simp only [hout]
      exact .part2 hstate

theorem observed_part3 (packages : D.Round2Map) :
    Observed node (.part3 packages) (node.answer hasher (.part3 packages)).1 none
      (node.answer hasher (.part3 packages)).2 := by
  simp only [answer, part3, EStateM.run]
  split
  · next h =>
    split
    · exact .refused rfl
    · split
      · exact .refused rfl
      · exact .part3 h
  all_goals exact .refused rfl

theorem observed_observe (call : DkgCall D) :
    Observed node call (node.observe hasher call).1.1 (node.observe hasher call).1.2
      (node.observe hasher call).2 := by
  cases call with
  | part1 random => exact observed_part1 hasher node random
  | part2 packages => exact observed_part2 hasher node packages
  | part3 packages => exact observed_part3 hasher node packages

/-! ### Whole runs -/

variable (e : DkgCall D × DkgAnswer D × Option D.Round1Secret)

def Part1Done : Bool :=
  match e.1 with
  | .part1 _ => e.2.1.isOk
  | _ => false

def Part2Done : Bool :=
  match e.1 with
  | .part2 _ => e.2.1.isOk
  | _ => false

def Part3Done : Bool :=
  match e.1 with
  | .part3 _ => e.2.1.isOk
  | _ => false

/-- **The order of the protocol**, in a run. -/
structure ProtocolOrder (node : FrostDkgNode D) (calls : List (DkgCall D)) : Prop where
  part1_once : (events (observe hasher) node calls).countP Part1Done ≤ 1
  part2_once : (events (observe hasher) node calls).countP Part2Done ≤ 1
  part3_once : (events (observe hasher) node calls).countP Part3Done ≤ 1
  /-- Part two ends well only after part one has. -/
  part1_before_part2 : ∀ before e later,
    events (observe hasher) node calls = before ++ e :: later → Part2Done e = true →
      ∃ e' ∈ before, Part1Done e' = true
  /-- Part three ends well only after part two has. -/
  part2_before_part3 : ∀ before e later,
    events (observe hasher) node calls = before ++ e :: later → Part3Done e = true →
      ∃ e' ∈ before, Part2Done e' = true
  /-- A secret is handed over at most once. -/
  handsOver_once : (events (observe hasher) node calls).countP (·.2.2.isSome) ≤ 1
  /-- The final states are final. -/
  state_of_isFinal : ∀ calls', (after (observe hasher) node calls).state.IsFinal →
    (after (observe hasher) node (calls ++ calls')).state =
      (after (observe hasher) node calls).state
  /-- A call that fails changes nothing, unless it has handed over a secret: then the ceremony has
  failed. -/
  unchanged : ∀ call, ((after (observe hasher) node calls).answer hasher call).1.isOk = false →
    ((after (observe hasher) node calls).handsOver hasher call = none →
      ((after (observe hasher) node calls).answer hasher call).2 =
        after (observe hasher) node calls) ∧
    (∀ secret, (after (observe hasher) node calls).handsOver hasher call = some secret →
      (∃ packages, call = .part2 packages) ∧
        ∃ reason, ((after (observe hasher) node calls).answer hasher call).2.state = .failed reason)

section

omit [DecidableEq F]

variable {node node' : FrostDkgNode D} {call : DkgCall D} {a : DkgAnswer D}
  {handed : Option D.Round1Secret}

theorem done_of_isOk_eq_false (h : a.isOk = false) :
    Part1Done (call, a, handed) = false ∧ Part2Done (call, a, handed) = false ∧
      Part3Done (call, a, handed) = false := by
  cases call with
  | part1 => exact ⟨h, rfl, rfl⟩
  | part2 => exact ⟨rfl, h, rfl⟩
  | part3 => exact ⟨rfl, rfl, h⟩

variable (h : Observed node call a handed node')

include h

/-! What successful calls lead to. -/

theorem Observed.of_part1Done (hdone : Part1Done (call, a, handed) = true) :
    node'.state ≠ .initial := by
  cases h with
  | part1 => exact nofun
  | part2 => cases hdone
  | part2Failed => cases hdone
  | part3 => cases hdone
  | refused hno => rw [(done_of_isOk_eq_false hno).1] at hdone; cases hdone

theorem Observed.of_part2Done (hdone : Part2Done (call, a, handed) = true) :
    node.state ≠ .initial ∧ ¬ node'.state.BeforePart2 := by
  cases h with
  | part1 => cases hdone
  | part2 hstate => exact ⟨by rw [hstate]; exact nofun, id⟩
  | part2Failed => cases hdone
  | part3 => cases hdone
  | refused hno => rw [(done_of_isOk_eq_false hno).2.1] at hdone; cases hdone

theorem Observed.of_part3Done (hdone : Part3Done (call, a, handed) = true) :
    ¬ node.state.WithoutPart2 ∧ node'.state.IsFinal := by
  cases h with
  | part1 => cases hdone
  | part2 => cases hdone
  | part2Failed => cases hdone
  | part3 hstate => exact ⟨by rw [hstate]; exact id, trivial⟩
  | refused hno => rw [(done_of_isOk_eq_false hno).2.2] at hdone; cases hdone

theorem Observed.of_handed (hsome : handed.isSome = true) : ¬ node'.state.BeforePart2 := by
  cases h with
  | part1 => cases hsome
  | part2 => exact id
  | part2Failed => exact id
  | part3 => cases hsome
  | refused => cases hsome

/-! What the states exclude. -/

theorem Observed.ne_initial (hnode : node.state ≠ .initial) :
    node'.state ≠ .initial ∧ Part1Done (call, a, handed) = false := by
  cases h with
  | part1 hstate => exact absurd hstate hnode
  | part2 => exact ⟨nofun, rfl⟩
  | part2Failed => exact ⟨nofun, rfl⟩
  | part3 => exact ⟨nofun, rfl⟩
  | refused hno => exact ⟨hnode, (done_of_isOk_eq_false hno).1⟩

theorem Observed.not_beforePart2 (hnode : ¬ node.state.BeforePart2) :
    ¬ node'.state.BeforePart2 ∧ Part2Done (call, a, handed) = false ∧ handed.isSome = false := by
  cases h with
  | part1 hstate => exact absurd (hstate ▸ trivial) hnode
  | part2 hstate => exact absurd (hstate ▸ trivial) hnode
  | part2Failed hstate => exact absurd (hstate ▸ trivial) hnode
  | part3 => exact ⟨id, rfl, rfl⟩
  | refused hno => exact ⟨hnode, (done_of_isOk_eq_false hno).2.1, rfl⟩

theorem Observed.isFinal (hnode : node.state.IsFinal) :
    node' = node ∧ Part3Done (call, a, handed) = false := by
  cases h with
  | part1 hstate => exact absurd hnode (by rw [hstate]; exact id)
  | part2 hstate => exact absurd hnode (by rw [hstate]; exact id)
  | part2Failed hstate => exact absurd hnode (by rw [hstate]; exact id)
  | part3 hstate => exact absurd hnode (by rw [hstate]; exact id)
  | refused hno => exact ⟨rfl, (done_of_isOk_eq_false hno).2.2⟩

/-! What only successful calls change. -/

theorem Observed.eq_initial (hnode : node.state = .initial)
    (hdone : ¬ Part1Done (call, a, handed) = true) : node'.state = .initial := by
  cases h with
  | part1 => exact absurd rfl hdone
  | part2 hstate => rw [hnode] at hstate; cases hstate
  | part2Failed hstate => rw [hnode] at hstate; cases hstate
  | part3 hstate => rw [hnode] at hstate; cases hstate
  | refused => exact hnode

theorem Observed.withoutPart2
    (hnode : node.state.WithoutPart2) (hdone : ¬ Part2Done (call, a, handed) = true) :
    node'.state.WithoutPart2 := by
  cases h with
  | part1 => trivial
  | part2 => exact absurd rfl hdone
  | part2Failed => trivial
  | part3 hstate => exact absurd hnode (by rw [hstate]; exact id)
  | refused => exact hnode

theorem Observed.unchanged (hno : a.isOk = false) :
    (handed = none → node' = node) ∧ ∀ secret, handed = some secret →
      (∃ packages, call = .part2 packages) ∧ ∃ reason, node'.state = .failed reason := by
  cases h with
  | part1 => cases hno
  | part2 => cases hno
  | @part2Failed packages _ _ reason => exact ⟨nofun, fun _ _ => ⟨⟨packages, rfl⟩, reason, rfl⟩⟩
  | part3 => cases hno
  | refused => exact ⟨fun _ => rfl, nofun⟩

end

/-- The order of the protocol holds in every run. -/
theorem protocolOrder {node : FrostDkgNode D} (hnode : node.state = .initial)
    (calls : List (DkgCall D)) : ProtocolOrder hasher node calls := by
  have hobs := fun node call => observed_observe hasher (D := D) node call
  have hall : ∀ call ∈ calls, (fun _ : DkgCall D => True) call := fun _ _ => trivial
  constructor
  case part1_once =>
    exact countP_events_le_one (fun node => node.state ≠ .initial)
      (fun node call _ hdone => (hobs node call).of_part1Done hdone)
      (fun node call _ hinv => ((hobs node call).ne_initial hinv).1)
      (fun node call _ hinv => ((hobs node call).ne_initial hinv).2) hall
  case part2_once =>
    exact countP_events_le_one (fun node => ¬ node.state.BeforePart2)
      (fun node call _ hdone => ((hobs node call).of_part2Done hdone).2)
      (fun node call _ hinv => ((hobs node call).not_beforePart2 hinv).1)
      (fun node call _ hinv => ((hobs node call).not_beforePart2 hinv).2.1) hall
  case part3_once =>
    exact countP_events_le_one (fun node => node.state.IsFinal)
      (fun node call _ hdone => ((hobs node call).of_part3Done hdone).2)
      (fun node call _ hinv => by rw [((hobs node call).isFinal hinv).1]; exact hinv)
      (fun node call _ hinv => ((hobs node call).isFinal hinv).2) hall
  case part1_before_part2 =>
    intro before e later hevents hdone
    obtain ⟨js, call, ks, rfl, rfl, rfl⟩ := exists_call_of_events_eq_append hevents
    exact exists_event_of_not (fun node => node.state = .initial)
      (fun node call hinv hno => (hobs node call).eq_initial hinv hno) hnode
      ((hobs _ call).of_part2Done hdone).1
  case part2_before_part3 =>
    intro before e later hevents hdone
    obtain ⟨js, call, ks, rfl, rfl, rfl⟩ := exists_call_of_events_eq_append hevents
    exact exists_event_of_not (fun node => node.state.WithoutPart2)
      (fun node call hinv hno => (hobs node call).withoutPart2 hinv hno) (hnode ▸ trivial)
      ((hobs _ call).of_part3Done hdone).1
  case handsOver_once =>
    exact countP_events_le_one (fun node => ¬ node.state.BeforePart2)
      (fun node call _ hsome => (hobs node call).of_handed hsome)
      (fun node call _ hinv => ((hobs node call).not_beforePart2 hinv).1)
      (fun node call _ hinv => ((hobs node call).not_beforePart2 hinv).2.2) hall
  case state_of_isFinal =>
    intro calls' hfinal
    have hstays : after (observe hasher) (after (observe hasher) node calls) calls' =
        after (observe hasher) node calls := by
      refine after_invariant (A := fun _ => True)
        (fun t => t = after (observe hasher) node calls) (fun t call _ ht => ?_)
        (fun _ _ => trivial) rfl
      subst ht
      exact ((hobs _ call).isFinal hfinal).1
    rw [after_append, hstays]
  case unchanged =>
    intro call hno
    exact (hobs _ call).unchanged hno

end FrostDkgNode

end

/-! ### A small ceremony -/

def firstVerifier : VerifierId := .fromBytes (.replicate 32 1)

def secondVerifier : VerifierId := .fromBytes (.replicate 32 2)

def twoVerifiers : List VerifierId := [firstVerifier, secondVerifier]

theorem nodup_twoVerifiers : twoVerifiers.Nodup := by decide

def wideIdentifier (n : UInt16) (h : n ≠ 0) : Identifier Wide :=
  ⟨n.toNat, fun h0 => h (Wide.natCast_toNat_inj.1 (h0.trans Nat.cast_zero.symm))⟩

theorem identifierAt_wide (position : ℕ) (h : UInt16.ofNat (position + 1) ≠ 0) :
    Wide.crates.identifierAt position = .ok (wideIdentifier (.ofNat (position + 1)) h) :=
  Wide.identifierTryFrom_eq_ok.2 rfl

def firstNode : FrostDkgNode Wide.crates :=
  ⟨firstVerifier, wideIdentifier 1 (by decide), twoVerifiers, 2, 2, .initial, nodup_twoVerifiers,
    identifierAt_wide 0 (by decide), by decide, rfl, by decide, by decide⟩

def secondNode : FrostDkgNode Wide.crates :=
  ⟨secondVerifier, wideIdentifier 2 (by decide), twoVerifiers, 2, 2, .initial, nodup_twoVerifiers,
    identifierAt_wide 1 (by decide), by decide, rfl, by decide, by decide⟩

namespace FrostDkgNode

/-- Five calls of a new node, out of order. Only the second of them ends well: `part3` comes before
`part1`, which runs once, and the first `part2`, without the package of the other, ends the
ceremony. -/
theorem protocolOrder_firstNode :
    firstNode.state = .initial ∧ ProtocolOrder (.inOrder VerifierId) firstNode
        [.part3 ∅, .part1 fun _ => 1, .part1 fun _ => 1, .part2 ∅, .part2 ∅] :=
  ⟨rfl, protocolOrder (.inOrder VerifierId) rfl _⟩

end FrostDkgNode

end TlsAttestation
