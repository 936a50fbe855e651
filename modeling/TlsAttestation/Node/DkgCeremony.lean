import TlsAttestation.Crypto.DkgEncrypt
import TlsAttestation.Lib.IterMut
import TlsAttestation.Lib.Mail
import TlsAttestation.Node.DkgNode

/-!
# Key generation, all participants

`tls_attestation_node::dkg_node`, in one process. `run_dkg_ceremony` carries the packages of the
second round as they are, `run_dkg_ceremony_encrypted` under seal (`Routing`). **The encrypted
ceremony is the plain one** (`runDkgCeremonyEncrypted_refines`). Only the encrypted one looks a
recipient up: if the plain one has sent a package outside the slice, somebody inside got too few.
-/

namespace TlsAttestation

open AList Effect Fallible Frost FrostDkgNode
open List hiding Vector

section

variable {F G : Type} [Field F] [AddCommGroup G] [Module F G] [DecidableEq F]
  {D : DkgCrates F G} {X : SealingCrates} {κ β γ : Type}

/-! ### Routing -/

/-- How packages of the second round travel. `κ` is what the orchestrator has for a node, `β` is for
a recipient, `γ` is packed. -/
structure Routing (D : DkgCrates F G) (κ β γ : Type) where
  empty : β
  pack : κ → (senderId recipientId : VerifierId) → D.Round2Package → Except (Stop NodeError) γ
  add : β → VerifierId → γ → β
  unpack : κ → VerifierId → β → Except (Stop NodeError) (D.Round2Map)

def plainRouting (D : DkgCrates F G) :
    Routing D Unit (D.Round2Map) D.Round2Package where
  empty := ∅
  pack _ _ _ pkg := .ok pkg
  add inbox senderId pkg := inbox.insert senderId pkg
  unpack _ _ inbox := .ok inbox

/-- **Under seal**, with the nonces `nonces i recipient`. -/
def encryptedRouting (D : DkgCrates F G) (X : SealingCrates) (ceremonyId : DkgCeremonyId)
    (encPubMap : HashMap VerifierId DkgEncryptionPublicKey)
    (nonces : ℕ → VerifierId → Vector UInt8 24) :
    Routing D (ℕ × DkgEncryptionKeyPair X) (List (VerifierId × EncryptedDkgRound2Package))
      EncryptedDkgRound2Package where
  empty := []
  pack k senderId recipientId pkg := do
    let recipientPub ← okOr (encPubMap.lookup recipientId) (.error (.dkgProtocol
      s!"no encryption public key for recipient {recipientId.display}"))
    (encryptRound2Package D pkg ceremonyId k.2 senderId recipientPub recipientId
      (nonces k.1 recipientId)).mapError (Stop.map .crypto)
  add encPkgs senderId encPkg := encPkgs ++ [(senderId, encPkg)]
  unpack k myId encPkgs :=
    encPkgs.foldlM (fun plaintextR2 e => do
      let senderPub ← okOr (encPubMap.lookup e.1) (.error (.dkgProtocol
        s!"no encryption public key for sender {e.1.display}"))
      let pkg ← (decryptRound2Package D e.2 k.2 senderPub ceremonyId e.1 myId).mapError fun e =>
        .error (.crypto e)
      return plaintextR2.insert e.1 pkg) ∅

/-- A step of the orchestrator, which has all participants at hand. -/
abbrev CeremonyM (D : DkgCrates F G) := EStateM (Stop NodeError) (List (FrostDkgNode D))

/-! ### The loops -/

def broadcastNode (random : ℕ → D.Random) (i : ℕ) (broadcasts : D.Round1Map) :
    DkgM D (D.Round1Map) := do
  let pkg ← part1 (random i)
  let node ← get
  return broadcasts.insert node.verifierId pkg

/-- **Part one** of all nodes, and what they broadcast. -/
def broadcastRound1 (random : ℕ → D.Random) :
    CeremonyM D (D.Round1Map) :=
  fun nodes => (iterMut (broadcastNode random) (List.range nodes.length) ∅).run nodes

def othersOf (hasher : Hasher VerifierId) (broadcasts : D.Round1Map)
    (myId : VerifierId) : D.Round1Map :=
  .collect ((hasher.iter broadcasts).filter fun e => e.1 ≠ myId)

variable (R : Routing D κ β γ)

def routeOutbound (hasher : Hasher VerifierId) (k : κ) (myId : VerifierId)
    (outbound : D.Round2Map) (routed : HashMap VerifierId β) :
    Except (Stop NodeError) (HashMap VerifierId β) :=
  Mail.deliver R.empty (R.pack k myId) (fun b packed => R.add b myId packed) hasher outbound routed

def routeNode (hasher : Hasher VerifierId)
    (broadcasts : D.Round1Map) (k : κ) (routed : HashMap VerifierId β) :
    DkgM D (HashMap VerifierId β) := do
  let node ← get
  let outbound ← part2 hasher (othersOf hasher broadcasts node.verifierId)
  lift id (routeOutbound R hasher k node.verifierId outbound routed)

/-- Part two of all nodes; what they send is sorted by its recipient. -/
def routeRound2 (hasher : Hasher VerifierId) (broadcasts : D.Round1Map) (items : List κ) :
    CeremonyM D (HashMap VerifierId β) :=
  iterMut (routeNode R hasher broadcasts) items ∅

def finishNode (hasher : Hasher VerifierId) (k : κ) (kept : β) :
    DkgM D (DkgOutput F G) := do
  let node ← get
  let inbox ← lift id (R.unpack k node.verifierId kept)
  part3 hasher inbox

def finishTurn (hasher : Hasher VerifierId) (k : κ)
    (acc : HashMap VerifierId β × List (DkgOutput F G)) :
    DkgM D (HashMap VerifierId β × List (DkgOutput F G)) := do
  let node ← get
  let output ← finishNode R hasher k (Mail.box R.empty acc.1 node.verifierId)
  return (acc.1.erase node.verifierId, acc.2 ++ [output])

/-- Part three of all nodes, each with what was sent to it. -/
def finishRound2 (hasher : Hasher VerifierId) (routed : HashMap VerifierId β) (items : List κ) :
    CeremonyM D (HashMap VerifierId β × List (DkgOutput F G)) :=
  iterMut (finishTurn R hasher) items (routed, [])

/-- All nodes have to end with the group key of the first one. -/
def consistentOutput (D : DkgCrates F G) (outputs : List (DkgOutput F G)) :
    Except (Stop NodeError) (List (FrostAuxiliaryNode F G) × FrostGroupKey F G) :=
  match outputs with
  | [] => .error (.panic "index out of bounds: the len is 0 but the index is 0")
  | (_, groupKey) :: rest => do
    (rest.zipIdx 1).forM fun gk =>
      ensure (gk.1.2.verifyingKeyBytes D.toFrostCrates = groupKey.verifyingKeyBytes D.toFrostCrates)
        (Stop.error (NodeError.dkgProtocol
          (s!"group key mismatch: node 0 and node {gk.2} derived different group " ++
            "verifying keys — possible inconsistent Round-1 broadcast")))
    return (outputs.map Prod.fst, groupKey)

def ceremony (hasher : Hasher VerifierId) (random : ℕ → D.Random) (items : List κ) :
    CeremonyM D (List (FrostAuxiliaryNode F G) × FrostGroupKey F G) := do
  let broadcasts ← broadcastRound1 random
  let routed ← routeRound2 R hasher broadcasts items
  let acc ← finishRound2 R hasher routed items
  lift id (consistentOutput D acc.2)

/-! ### The ceremonies -/

/-- All parts in one process, with the second round in the clear. -/
def runDkgCeremony (hasher : Hasher VerifierId) (random : ℕ → D.Random) :
    CeremonyM D (List (FrostAuxiliaryNode F G) × FrostGroupKey F G) :=
  fun nodes =>
    if nodes = [] then
      .error (.error (.dkgProtocol "run_dkg_ceremony requires at least one node")) nodes
    else (ceremony (plainRouting D) hasher random (nodes.map fun _ => ())).run nodes

def encPubMapOf (nodes : List (FrostDkgNode D)) (encryptionKeys : List (DkgEncryptionKeyPair X)) :
    HashMap VerifierId DkgEncryptionPublicKey :=
  .collect ((nodes.zip encryptionKeys).map fun p => ⟨p.1.verifierId, p.2.publicKey⟩)

/-- The same under seal, with the keys that the process was given. -/
def runDkgCeremonyEncrypted (hasher : Hasher VerifierId) (ceremonyId : DkgCeremonyId)
    (encryptionKeys : List (DkgEncryptionKeyPair X)) (random : ℕ → D.Random)
    (nonces : ℕ → VerifierId → Vector UInt8 24) :
    CeremonyM D (List (FrostAuxiliaryNode F G) × FrostGroupKey F G) :=
  fun nodes =>
    if nodes = [] then
      .error (.error (.dkgProtocol "run_dkg_ceremony_encrypted requires at least one node")) nodes
    else if encryptionKeys.length ≠ nodes.length then
      .error (.error (.dkgProtocol (s!"encryption_keys.len() ({encryptionKeys.length}) " ++
        s!"must equal nodes.len() ({nodes.length})"))) nodes
    else
      (ceremony (encryptedRouting D X ceremonyId (encPubMapOf nodes encryptionKeys) nonces) hasher
        random ((List.range nodes.length).zip encryptionKeys)).run nodes

/-! ### What the turns do -/

section

variable {hasher : Hasher VerifierId} {R : Routing D κ β γ} {k : κ}
  {broadcasts : D.Round1Map} {routed routed' : HashMap VerifierId β}
  {node node' : FrostDkgNode D} {nodes nodes' : List (FrostDkgNode D)}

def outboundOf (hasher : Hasher VerifierId) (broadcasts : D.Round1Map)
    (node : FrostDkgNode D) : D.Round2Map :=
  match (part2 hasher (othersOf hasher broadcasts node.verifierId)).run node with
  | .ok out _ => out
  | .error _ _ => ∅

variable {random : ℕ → D.Random} {senders : List (FrostDkgNode D)} {recipient : VerifierId}

omit [DecidableEq F] in
theorem run_broadcastNode_ok {i : ℕ} {broadcasts' : D.Round1Map} :
    (broadcastNode random i broadcasts).run node = .ok broadcasts' node' ↔
      ∃ pkg, (part1 (random i)).run node = .ok pkg node' ∧
        broadcasts.insert node'.verifierId pkg = broadcasts' := by
  simp only [broadcastNode, run_bind_ok, run_get_bind, run_pure_ok]
  constructor
  · rintro ⟨pkg, _, hpart1, rfl, rfl⟩
    exact ⟨pkg, hpart1, rfl⟩
  · rintro ⟨pkg, hpart1, rfl⟩
    exact ⟨pkg, node', hpart1, rfl, rfl⟩

theorem run_routeNode_ok :
    (routeNode R hasher broadcasts k routed).run node = .ok routed' node' ↔
      (part2 hasher (othersOf hasher broadcasts node.verifierId)).run node =
        .ok (outboundOf hasher broadcasts node) node' ∧
      routeOutbound R hasher k node.verifierId (outboundOf hasher broadcasts node) routed =
        .ok routed' := by
  simp only [routeNode, run_get_bind, run_bind_ok, run_lift_ok]
  constructor
  · rintro ⟨out, _, hpart2, hroute, rfl⟩
    have hout : outboundOf hasher broadcasts node = out := by rw [outboundOf, hpart2]
    rw [hout]
    exact ⟨hpart2, hroute⟩
  · rintro ⟨hpart2, hroute⟩
    exact ⟨_, node', hpart2, hroute, rfl⟩

theorem run_finishNode_ok {kept : β} {output : DkgOutput F G} :
    (finishNode R hasher k kept).run node = .ok output node' ↔
      ∃ inbox, R.unpack k node.verifierId kept = .ok inbox ∧
        (part3 hasher inbox).run node = .ok output node' := by
  rw [finishNode, run_get_bind]
  exact run_lift_bind_ok

theorem run_finishTurn_ok {acc acc' : HashMap VerifierId β × List (DkgOutput F G)} :
    (finishTurn R hasher k acc).run node = .ok acc' node' ↔
      ∃ output, (finishNode R hasher k (Mail.box R.empty acc.1 node.verifierId)).run node =
        .ok output node' ∧ (acc.1.erase node.verifierId, acc.2 ++ [output]) = acc' := by
  rw [finishTurn, run_get_bind, bind_pure_comp]
  exact run_map_ok

/-! ### What the recipients get -/

def inboxOf (hasher : Hasher VerifierId) (broadcasts : D.Round1Map)
    (senders : List (FrostDkgNode D)) (recipient : VerifierId) :
    D.Round2Map :=
  .collect (senders.filterMap fun node =>
    ((outboundOf hasher broadcasts node).lookup recipient).map fun pkg => ⟨node.verifierId, pkg⟩)

theorem mem_inboxOf {v : VerifierId} :
    v ∈ inboxOf hasher broadcasts senders recipient ↔
      ∃ node ∈ senders, node.verifierId = v ∧ recipient ∈ outboundOf hasher broadcasts node := by
  rw [inboxOf, HashMap.mem_collect, List.mem_keys]
  simp only [List.mem_filterMap, Option.map_eq_some_iff, Sigma.mk.injEq, heq_eq_eq]
  constructor
  · rintro ⟨pkg, node, hmem, pkg', hpkg, hid, rfl⟩
    exact ⟨node, hmem, hid, AList.lookup_isSome.1 (Option.isSome_of_eq_some hpkg)⟩
  · rintro ⟨node, hmem, hid, hout⟩
    obtain ⟨pkg, hpkg⟩ := Option.isSome_iff_exists.1 (AList.lookup_isSome.2 hout)
    exact ⟨pkg, node, hmem, pkg, hpkg, hid, rfl⟩

/-- A recipient gets what a sender has addressed to it. -/
theorem lookup_inboxOf (hids : (senders.map verifierId).Nodup) (recipient : VerifierId)
    (hnode : node ∈ senders) :
    (inboxOf hasher broadcasts senders recipient).lookup node.verifierId =
      (outboundOf hasher broadcasts node).lookup recipient := by
  have hunique : ∀ node' ∈ senders, node'.verifierId = node.verifierId → node' = node :=
    fun node' hnode' heq => inj_on_of_nodup_map hids hnode' hnode heq
  ext pkg
  have hkeys := (HashMap.keys_filterMap_sublist verifierId
    (fun node => (outboundOf hasher broadcasts node).lookup recipient) senders).nodup hids
  rw [inboxOf, HashMap.lookup_collect hkeys, mem_filterMap]
  simp only [Option.map_eq_some_iff, Sigma.mk.injEq, heq_eq_eq]
  constructor
  · rintro ⟨node', hnode', pkg', hpkg', heq, rfl⟩
    rwa [hunique node' hnode' heq] at hpkg'
  · intro hpkg
    exact ⟨node, hnode, pkg, hpkg, rfl, rfl⟩

theorem inboxOf_concat_of_some {pkg : D.Round2Package}
    (h : (outboundOf hasher broadcasts node).lookup recipient = some pkg) :
    inboxOf hasher broadcasts (senders ++ [node]) recipient =
      (inboxOf hasher broadcasts senders recipient).insert node.verifierId pkg := by
  rw [inboxOf, filterMap_append, filterMap_cons_some (by rw [h]; rfl),
    filterMap_nil, HashMap.collect_concat]
  rfl

theorem inboxOf_concat_of_none (h : (outboundOf hasher broadcasts node).lookup recipient = none) :
    inboxOf hasher broadcasts (senders ++ [node]) recipient =
      inboxOf hasher broadcasts senders recipient := by
  rw [inboxOf, filterMap_append, filterMap_cons_none (by rw [h]; rfl), filterMap_nil, append_nil]
  rfl

/-! ### Routings that lose nothing -/

/-- What is packed for a known recipient is unpacked by it, under the sender's name. -/
structure Routing.Faithful (R : Routing D κ β γ) (Holds : κ → VerifierId → Prop)
    (Known : VerifierId → Prop) : Prop where
  exists_pack : ∀ {k senderId recipientId} (pkg : D.Round2Package), Holds k senderId →
    Known recipientId → ∃ c, R.pack k senderId recipientId pkg = .ok c
  known_of_pack : ∀ {k senderId recipientId pkg c},
    R.pack k senderId recipientId pkg = .ok c → Known recipientId
  unpack_empty : ∀ {k v}, Holds k v → R.unpack k v R.empty = .ok ∅
  unpack_add : ∀ {k k' senderId recipientId pkg c b m}, Holds k senderId →
    Holds k' recipientId → R.pack k senderId recipientId pkg = .ok c →
    R.unpack k' recipientId b = .ok m →
    R.unpack k' recipientId (R.add b senderId c) = .ok (m.insert senderId pkg)

omit [DecidableEq F] in
theorem faithful_plainRouting : (plainRouting D).Faithful (fun _ _ => True) fun _ => True where
  exists_pack pkg _ _ := ⟨pkg, rfl⟩
  known_of_pack _ := trivial
  unpack_empty _ := rfl
  unpack_add _ _ hpack hunpack := by
    obtain rfl := Except.ok.inj hpack
    obtain rfl := Except.ok.inj hunpack
    rfl

omit [DecidableEq F] in
/-- Encryption loses nothing. -/
theorem faithful_encryptedRouting (hX : X.Lawful) (hD : D.RoundTrips) {ceremonyId : DkgCeremonyId}
    {encPubMap : HashMap VerifierId DkgEncryptionPublicKey}
    {nonces : ℕ → VerifierId → Vector UInt8 24} :
    (encryptedRouting D X ceremonyId encPubMap nonces).Faithful
      (fun k v => encPubMap.lookup v = some k.2.publicKey) (· ∈ encPubMap) where
  exists_pack {k senderId recipientId} pkg _ hknown := by
    obtain ⟨recipientPub, hpub⟩ := Option.isSome_iff_exists.1 (lookup_isSome.2 hknown)
    obtain ⟨c, hc⟩ := exists_encryptRound2Package hX hD pkg ceremonyId k.2 senderId recipientPub
      recipientId (nonces k.1 recipientId)
    simp only [encryptedRouting, do_eq_ok]
    exact ⟨c, recipientPub, hpub, hc⟩
  known_of_pack hpack := by
    simp only [encryptedRouting, do_eq_ok] at hpack
    obtain ⟨recipientPub, hpub, -⟩ := hpack
    exact lookup_isSome.1 (Option.isSome_of_eq_some hpub)
  unpack_empty _ := rfl
  unpack_add {k k' senderId recipientId pkg c b m} hk hk' hpack hunpack := by
    simp only [encryptedRouting, do_eq_ok] at hpack hunpack ⊢
    obtain ⟨recipientPub, hpub, hc⟩ := hpack
    obtain rfl := Option.some.inj (hpub.symm.trans hk')
    rw [foldlM_append]
    simp only [do_eq_ok, foldlM_cons_eq_ok, foldlM_nil_eq_ok]
    exact ⟨m, hunpack, _, ⟨k.2.publicKey, hk, pkg, decryptRound2Package_of_encrypt hX hD hc, rfl⟩,
      rfl⟩

/-! ### The loops of the second round -/

section

variable {Holds : κ → VerifierId → Prop} {Known : VerifierId → Prop} {items : List κ}

def SentToKnown (hasher : Hasher VerifierId) (broadcasts : D.Round1Map)
    (Known : VerifierId → Prop) (node node' : FrostDkgNode D) : Prop :=
  (part2 hasher (othersOf hasher broadcasts node.verifierId)).run node =
    .ok (outboundOf hasher broadcasts node) node' ∧
  ∀ v ∈ outboundOf hasher broadcasts node, Known v

/-- **After the second round**, every recipient has what is for it. -/
theorem unpack_of_routeRound2 (hR : R.Faithful Holds Known)
    (hitems : Forall₂ (fun k node => Holds k node.verifierId) items nodes)
    (h : (routeRound2 R hasher broadcasts items).run nodes = .ok routed nodes') :
    Forall₂ (SentToKnown hasher broadcasts Known) nodes nodes' ∧
      ∀ k v, Holds k v → R.unpack k v (Mail.box R.empty routed v) =
        .ok (inboxOf hasher broadcasts nodes v) := by
  constructor
  · refine (iterMut_invariant (fun _ => True) (fun k a node b node' _ _ hturn => ?_) hitems trivial
      h).1
    obtain ⟨hpart2, hroute⟩ := run_routeNode_ok.1 hturn
    refine ⟨⟨hpart2, fun v hv => ?_⟩, trivial⟩
    obtain ⟨pkg, hpkg⟩ := Option.isSome_iff_exists.1 (lookup_isSome.2 hv)
    obtain ⟨c, hc⟩ := Mail.exists_pack_of_deliver hroute hpkg
    exact hR.known_of_pack hc
  · have hdone := iterMut_done (fun done routed => ∀ k v, Holds k v →
      R.unpack k v (Mail.box R.empty routed v) =
        .ok (inboxOf hasher broadcasts (done.map Prod.snd) v)) ?_ ?_ h
    · rwa [map_snd_zip hitems.length_eq.ge] at hdone
    · intro done k node rest routed routed' node' hzip hinv hturn k' v hk'
      have hk : Holds k node.verifierId := (forall₂_iff_zip.1 hitems).2 (hzip ▸ by simp)
      obtain ⟨-, hroute⟩ := run_routeNode_ok.1 hturn
      obtain ⟨hsome, hnone⟩ := Mail.box_deliver hroute v
      rw [map_append, map_singleton]
      rcases hout : (outboundOf hasher broadcasts node).lookup v with _ | pkg
      · rw [hnone hout, inboxOf_concat_of_none hout]
        exact hinv k' v hk'
      · obtain ⟨c, hc, hbox⟩ := hsome pkg hout
        rw [hbox, inboxOf_concat_of_some hout]
        exact hR.unpack_add hk hk' hc (hinv k' v hk')
    · intro k v hk
      rw [Mail.box_empty]
      exact hR.unpack_empty hk

theorem exists_routeRound2 (hR : R.Faithful Holds Known)
    (hitems : Forall₂ (fun k node => Holds k node.verifierId) items nodes)
    (hsent : Forall₂ (SentToKnown hasher broadcasts Known) nodes nodes') :
    ∃ routed, (routeRound2 R hasher broadcasts items).run nodes = .ok routed nodes' := by
  rw [routeRound2]
  generalize (∅ : HashMap VerifierId β) = routed
  induction hitems generalizing nodes' routed with
  | nil =>
    obtain rfl := forall₂_nil_left_iff.1 hsent
    exact ⟨routed, rfl⟩
  | @cons k node _ _ hk _ ih =>
    obtain ⟨node', nodes'', ⟨hpart2, hknown⟩, hrest, rfl⟩ := forall₂_cons_left_iff.1 hsent
    obtain ⟨routed', hroute⟩ : ∃ routed', routeOutbound R hasher k node.verifierId
        (outboundOf hasher broadcasts node) routed = .ok routed' :=
      Mail.exists_deliver (fun v pkg hpkg => hR.exists_pack pkg hk
        (hknown v (lookup_isSome.1 (Option.isSome_of_eq_some hpkg)))) routed
    obtain ⟨routed'', hlater⟩ := ih hrest routed'
    exact ⟨routed'', run_iterMut_cons_ok.2
      ⟨routed', node', nodes'', run_routeNode_ok.2 ⟨hpart2, hroute⟩, hlater, rfl⟩⟩

/-- **The third round**: each node is on its own. -/
theorem run_finishTurns_ok {inbox : VerifierId → D.Round2Map}
    {before outputs : List (DkgOutput F G)}
    (hids : (nodes.map verifierId).Nodup)
    (hunpack : Forall₂ (fun k node => R.unpack k node.verifierId
      (Mail.box R.empty routed node.verifierId) = .ok (inbox node.verifierId)) items nodes) :
    (∃ routed', (iterMut (finishTurn R hasher) items (routed, before)).run nodes =
      .ok (routed', outputs) nodes') ↔
      ∃ results, Forall₂ (fun node r =>
        (part3 hasher (inbox node.verifierId)).run node = .ok r.1 r.2) nodes results ∧
        outputs = before ++ results.map Prod.fst ∧ nodes' = results.map Prod.snd := by
  induction items generalizing nodes nodes' routed before with
  | nil =>
    obtain rfl := forall₂_nil_left_iff.1 hunpack
    simp only [run_iterMut_nil_ok, forall₂_nil_left_iff, Prod.mk.injEq]
    constructor
    · rintro ⟨_, ⟨rfl, rfl⟩, rfl⟩
      exact ⟨[], rfl, (append_nil _).symm, rfl⟩
    · rintro ⟨_, rfl, rfl, rfl⟩
      exact ⟨routed, ⟨rfl, (append_nil _).symm⟩, rfl⟩
  | cons k items ih =>
    obtain ⟨node, rest, hk, hrest, rfl⟩ := forall₂_cons_left_iff.1 hunpack
    obtain ⟨hnode, hids⟩ := nodup_cons.1 hids
    -- What was kept for the others is still there.
    have hrest' : Forall₂ (fun k node' => R.unpack k node'.verifierId
        (Mail.box R.empty (routed.erase node.verifierId) node'.verifierId) =
          .ok (inbox node'.verifierId)) items rest := by
      refine forall₂_iff_zip.2 ⟨hrest.length_eq, fun {k' node'} hmem => ?_⟩
      have hne : node'.verifierId ≠ node.verifierId := fun heq =>
        hnode (heq ▸ mem_map_of_mem (of_mem_zip hmem).2)
      rw [Mail.box_erase_of_ne hne]
      exact (forall₂_iff_zip.1 hrest).2 hmem
    constructor
    · rintro ⟨routed', h⟩
      obtain ⟨_, node', nodes'', hturn, hlater, rfl⟩ := run_iterMut_cons_ok.1 h
      obtain ⟨output, hfinish, rfl⟩ := run_finishTurn_ok.1 hturn
      obtain ⟨_, hinbox, hpart3⟩ := run_finishNode_ok.1 hfinish
      obtain rfl := Except.ok.inj (hk.symm.trans hinbox)
      obtain ⟨results, hresults, rfl, rfl⟩ := (ih hids hrest').1 ⟨routed', hlater⟩
      exact ⟨(output, node') :: results, .cons hpart3 hresults, by simp, rfl⟩
    · rintro ⟨_, hall, rfl, rfl⟩
      obtain ⟨⟨output, node'⟩, results, hpart3, hresults, rfl⟩ := forall₂_cons_left_iff.1 hall
      have hlater : ∃ routed', (iterMut (finishTurn R hasher) items
          (routed.erase node.verifierId, before ++ [output])).run rest =
          .ok (routed', before ++ ((output, node') :: results).map Prod.fst)
            (results.map Prod.snd) :=
        (ih hids hrest').2 ⟨results, hresults, by simp, rfl⟩
      obtain ⟨routed', hlater⟩ := hlater
      exact ⟨routed', run_iterMut_cons_ok.2 ⟨_, node', _,
        run_finishTurn_ok.2 ⟨output, run_finishNode_ok.2 ⟨_, hk, hpart3⟩, rfl⟩, hlater, rfl⟩⟩

end

/-! ### The exchange -/

/-- **The three parts**, without anything in between: every node has its turn in each, and gets what
the others have for it. -/
structure DkgExchange (hasher : Hasher VerifierId) (random : ℕ → D.Random)
    (Known : VerifierId → Prop)
    (nodes : List (FrostDkgNode D)) (broadcasts : D.Round1Map)
    (nodes₁ nodes₂ : List (FrostDkgNode D))
    (results : List ((DkgOutput F G) × FrostDkgNode D)) : Prop where
  part1 : (broadcastRound1 random).run nodes = .ok broadcasts nodes₁
  part2 : List.Forall₂ (SentToKnown hasher broadcasts Known) nodes₁ nodes₂
  part3 : List.Forall₂ (fun node r =>
    (part3 hasher (inboxOf hasher broadcasts nodes₁ node.verifierId)).run node =
      .ok r.1 r.2) nodes₂ results

omit [DecidableEq F] in
theorem map_verifierId_eq (h : Forall₂ FrostDkgNode.SameParticipant nodes nodes') :
    nodes'.map verifierId = nodes.map verifierId := by
  induction h with
  | nil => rfl
  | cons hsame _ ih => rw [map_cons, map_cons, hsame.1, ih]

omit [DecidableEq F] in
theorem forall₂_range (nodes : List (FrostDkgNode D)) :
    Forall₂ (fun i node => (i, node) ∈ (List.range nodes.length).zip nodes)
      (List.range nodes.length) nodes :=
  forall₂_iff_zip.2 ⟨length_range, id⟩

omit [DecidableEq F] in
theorem sameParticipant_broadcastRound1
    (h : (broadcastRound1 random).run nodes = .ok broadcasts nodes') :
    Forall₂ FrostDkgNode.SameParticipant nodes nodes' := by
  refine (iterMut_invariant (fun _ => True) (fun i _ node _ node' _ _ hturn => ⟨?_, trivial⟩)
    (forall₂_range nodes) trivial h).1
  obtain ⟨pkg, hpart1, -⟩ := run_broadcastNode_ok.1 hturn
  exact sameParticipant_part1 hpart1

variable {Known : VerifierId → Prop}

theorem sameParticipant_sentToKnown
    (h : Forall₂ (SentToKnown hasher broadcasts Known) nodes nodes') :
    Forall₂ FrostDkgNode.SameParticipant nodes nodes' :=
  h.imp fun _ _ hsent => sameParticipant_part2 hsent.1

/-- **A ceremony is an exchange**, if its routing loses nothing. -/
theorem run_ceremony_ok {Holds : κ → VerifierId → Prop} {items : List κ}
    {r : List (FrostAuxiliaryNode F G) × FrostGroupKey F G} (hR : R.Faithful Holds Known)
    (hids : (nodes.map verifierId).Nodup) (hitems : Forall₂ Holds items (nodes.map verifierId)) :
    (ceremony R hasher random items).run nodes = .ok r nodes' ↔ ∃ broadcasts nodes₁ nodes₂ results,
        DkgExchange hasher random Known nodes broadcasts nodes₁ nodes₂ results ∧
        consistentOutput D (results.map Prod.fst) = .ok r ∧ nodes' = results.map Prod.snd := by
  simp only [ceremony, run_bind_ok, run_lift_ok]
  constructor
  · rintro ⟨broadcasts, nodes₁, hpart1, routed, nodes₂, hroute, ⟨routed', outputs⟩, nodes₃, hfinish,
      hcons, rfl⟩
    have hids₁ := map_verifierId_eq (sameParticipant_broadcastRound1 hpart1)
    have hitems₁ := forall₂_map_right_iff.1 (hids₁ ▸ hitems)
    obtain ⟨hsent, hunpack⟩ := unpack_of_routeRound2 hR hitems₁ hroute
    have hids₂ := (map_verifierId_eq (sameParticipant_sentToKnown hsent)).trans hids₁
    have hitems₂ := forall₂_map_right_iff.1 (hids₂ ▸ hitems)
    obtain ⟨results, hresults, rfl, rfl⟩ := (run_finishTurns_ok (hids₂ ▸ hids)
      (hitems₂.imp fun k node hk => hunpack k node.verifierId hk)).1 ⟨routed', hfinish⟩
    exact ⟨broadcasts, nodes₁, nodes₂, results, ⟨hpart1, hsent, hresults⟩, hcons, rfl⟩
  · rintro ⟨broadcasts, nodes₁, nodes₂, results, ⟨hpart1, hsent, hresults⟩, hcons, rfl⟩
    have hids₁ := map_verifierId_eq (sameParticipant_broadcastRound1 hpart1)
    have hitems₁ := forall₂_map_right_iff.1 (hids₁ ▸ hitems)
    obtain ⟨routed, hroute⟩ := exists_routeRound2 hR hitems₁ hsent
    obtain ⟨-, hunpack⟩ := unpack_of_routeRound2 hR hitems₁ hroute
    have hids₂ := (map_verifierId_eq (sameParticipant_sentToKnown hsent)).trans hids₁
    have hitems₂ := forall₂_map_right_iff.1 (hids₂ ▸ hitems)
    obtain ⟨routed', hfinish⟩ := (run_finishTurns_ok (hids₂ ▸ hids)
      (hitems₂.imp fun k node hk => hunpack k node.verifierId hk)).2 ⟨results, hresults, rfl, rfl⟩
    exact ⟨broadcasts, nodes₁, hpart1, routed, nodes₂, hroute, _, _, hfinish, hcons, rfl⟩

section

variable {random : ℕ → D.Random} {Known : VerifierId → Prop} {nodes₁ nodes₂ : List (FrostDkgNode D)}
  {results : List ((DkgOutput F G) × FrostDkgNode D)}
  (h : DkgExchange hasher random Known nodes broadcasts nodes₁ nodes₂ results)

include h

theorem DkgExchange.length_keys_le (hD : D.Lawful) (hnode : node ∈ nodes₁) :
    (outboundOf hasher broadcasts node).keys.length ≤
      (inboxOf hasher broadcasts nodes₁ node.verifierId).keys.length := by
  obtain ⟨⟨i, hi⟩, rfl⟩ := mem_iff_get.1 hnode
  have hi₂ : i < nodes₂.length := h.part2.length_eq ▸ hi
  have hi₃ : i < results.length := h.part3.length_eq ▸ hi₂
  obtain ⟨hpart2, -⟩ := h.part2.get hi hi₂
  have hpart3 := h.part3.get hi₂ hi₃
  rw [(sameParticipant_part2 hpart2).1] at hpart3
  obtain ⟨secret, round1, hstate, hle⟩ := length_keys_part2 hD hpart2
  exact hle.trans (card_keys_part3 hD hpart3 hstate)

/-- Nobody outside gets a package. -/
theorem DkgExchange.recipient_mem (hD : D.Lawful) (hids : (nodes₁.map verifierId).Nodup)
    (hnode : node ∈ nodes₁) {v : VerifierId}
    (hv : v ∈ outboundOf hasher broadcasts node) : v ∈ nodes₁.map verifierId := by
  let name : Fin nodes₁.length → VerifierId := fun i => (nodes₁.get i).verifierId
  let sent : Fin nodes₁.length → Finset VerifierId := fun i =>
    (outboundOf hasher broadcasts (nodes₁.get i)).keys.toFinset
  have hname : Function.Injective name := by
    intro i j hij
    refine nodup_iff_injective_get.1 hids.of_map (inj_on_of_nodup_map hids ?_ ?_ hij)
    · exact get_mem _ _
    · exact get_mem _ _
  have hrecv : ∀ j, (sent j).card ≤ (Finset.univ.filter fun i => name j ∈ sent i).card := by
    intro j
    have hinbox : (inboxOf hasher broadcasts nodes₁ (name j)).keys.toFinset ⊆
        (Finset.univ.filter fun i => name j ∈ sent i).image name := by
      intro v hv
      obtain ⟨node, hmem, rfl, hout⟩ := mem_inboxOf.1 (mem_keys.2 (mem_toFinset.1 hv))
      obtain ⟨i, rfl⟩ := mem_iff_get.1 hmem
      refine Finset.mem_image.2 ⟨i, Finset.mem_filter.2 ⟨Finset.mem_univ i, ?_⟩, rfl⟩
      exact mem_toFinset.2 (mem_keys.1 hout)
    calc (sent j).card = (outboundOf hasher broadcasts (nodes₁.get j)).keys.length :=
          toFinset_card_of_nodup (keys_nodup _)
      _ ≤ (inboxOf hasher broadcasts nodes₁ (name j)).keys.length :=
          h.length_keys_le hD (get_mem _ _)
      _ = (inboxOf hasher broadcasts nodes₁ (name j)).keys.toFinset.card :=
          (toFinset_card_of_nodup (keys_nodup _)).symm
      _ ≤ ((Finset.univ.filter fun i => name j ∈ sent i).image name).card :=
          Finset.card_le_card hinbox
      _ ≤ (Finset.univ.filter fun i => name j ∈ sent i).card := Finset.card_image_le
  obtain ⟨i, rfl⟩ := mem_iff_get.1 hnode
  obtain ⟨j, rfl⟩ := Mail.sent_subset hname sent hrecv i v (mem_toFinset.2 (mem_keys.1 hv))
  exact mem_map_of_mem (get_mem _ _)

variable {Known' : VerifierId → Prop}

theorem DkgExchange.of_known
    (hknown : ∀ node ∈ nodes₁, ∀ v ∈ outboundOf hasher broadcasts node, Known' v) :
    DkgExchange hasher random Known' nodes broadcasts nodes₁ nodes₂ results := by
  refine ⟨h.part1, forall₂_iff_zip.2 ⟨h.part2.length_eq, fun {node node'} hmem => ?_⟩, h.part3⟩
  obtain ⟨hpart2, -⟩ := (forall₂_iff_zip.1 h.part2).2 hmem
  exact ⟨hpart2, hknown node (of_mem_zip hmem).1⟩

theorem DkgExchange.unique {broadcasts' : D.Round1Map} {nodes₁' nodes₂' : List (FrostDkgNode D)}
    {results' : List ((DkgOutput F G) × FrostDkgNode D)}
    (h' : DkgExchange hasher random Known' nodes broadcasts' nodes₁' nodes₂' results') :
    results' = results := by
  obtain ⟨rfl, rfl⟩ := EStateM.Result.ok.inj (h.part1.symm.trans h'.part1)
  have hnodes₂ : nodes₂' = nodes₂ := by
    refine right_unique_forall₂' (fun node a b ha hb => ?_) (h'.part2.imp fun _ _ hs => hs.1)
      (h.part2.imp fun _ _ hs => hs.1)
    exact (EStateM.Result.ok.inj (ha.symm.trans hb)).2
  subst hnodes₂
  refine right_unique_forall₂' (fun node a b ha hb => ?_) h'.part3 h.part3
  obtain ⟨h₁, h₂⟩ := EStateM.Result.ok.inj (ha.symm.trans hb)
  exact Prod.ext h₁ h₂

end

end

/-! ### Refinement -/

section

variable {hasher : Hasher VerifierId} {random : ℕ → D.Random} {nodes nodes' : List (FrostDkgNode D)}
  {r : List (FrostAuxiliaryNode F G) × FrostGroupKey F G}

/-- The plain ceremony is an exchange. -/
theorem run_runDkgCeremony_ok (hids : (nodes.map verifierId).Nodup) :
    (runDkgCeremony hasher random).run nodes = .ok r nodes' ↔ nodes ≠ [] ∧
      ∃ broadcasts nodes₁ nodes₂ results,
        DkgExchange hasher random (fun _ => True) nodes broadcasts nodes₁ nodes₂ results ∧
        consistentOutput D (results.map Prod.fst) = .ok r ∧ nodes' = results.map Prod.snd := by
  have hitems : Forall₂ (fun _ _ => True) (nodes.map fun _ => ()) (nodes.map verifierId) :=
    forall₂_iff_zip.2 ⟨by simp, fun _ => trivial⟩
  rw [← run_ceremony_ok faithful_plainRouting hids hitems]
  change (if nodes = [] then _ else _) = EStateM.Result.ok r nodes' ↔ _
  split
  · next hnil => simp [hnil]
  · next hne => simp [hne]

variable {encryptionKeys : List (DkgEncryptionKeyPair X)}

section

variable (hlen : encryptionKeys.length = nodes.length)

omit [DecidableEq F]
include hlen

theorem keys_encPubMap :
    ((nodes.zip encryptionKeys).map fun p => (⟨p.1.verifierId, p.2.publicKey⟩ :
      (_ : VerifierId) × DkgEncryptionPublicKey)).keys = nodes.map verifierId := by
  rw [List.keys, map_map]
  calc _ = ((nodes.zip encryptionKeys).map Prod.fst).map verifierId := by
        rw [map_map]
        rfl
    _ = _ := by rw [map_fst_zip hlen.ge]

theorem lookup_encPubMapOf (hids : (nodes.map verifierId).Nodup) {node : FrostDkgNode D}
    {key : DkgEncryptionKeyPair X} (hmem : (node, key) ∈ nodes.zip encryptionKeys) :
    (encPubMapOf nodes encryptionKeys).lookup node.verifierId = some key.publicKey := by
  refine (HashMap.lookup_collect ?_).2 (mem_map.2 ⟨(node, key), hmem, rfl⟩)
  rw [List.NodupKeys, keys_encPubMap hlen]
  exact hids

theorem mem_encPubMapOf {v : VerifierId} :
    v ∈ encPubMapOf nodes encryptionKeys ↔ v ∈ nodes.map verifierId := by
  rw [encPubMapOf, HashMap.mem_collect, keys_encPubMap hlen]

theorem forall₂_items {Holds : ℕ × DkgEncryptionKeyPair X → VerifierId → Prop}
    (h : ∀ i node key, (node, key) ∈ nodes.zip encryptionKeys → Holds (i, key) node.verifierId) :
    Forall₂ Holds ((List.range nodes.length).zip encryptionKeys) (nodes.map verifierId) := by
  rw [forall₂_map_right_iff]
  refine forall₂_of_length_eq_of_get (by simp [hlen]) fun i hi hi' => ?_
  refine h _ _ _ (mem_iff_get.2 ⟨⟨i, by simp [hlen, hi']⟩, ?_⟩)
  simp

theorem forall₂_encPubMapOf (hids : (nodes.map verifierId).Nodup) :
    Forall₂ (fun (k : ℕ × DkgEncryptionKeyPair X) v =>
      (encPubMapOf nodes encryptionKeys).lookup v = some k.2.publicKey)
      ((List.range nodes.length).zip encryptionKeys) (nodes.map verifierId) :=
  forall₂_items hlen fun _ _ _ hmem => lookup_encPubMapOf hlen hids hmem

end

variable {nonces : ℕ → VerifierId → Vector UInt8 24} {ceremonyId : DkgCeremonyId}

/-- The encrypted ceremony is an exchange. -/
theorem run_runDkgCeremonyEncrypted_ok (hX : X.Lawful) (hJson : D.RoundTrips)
    (hids : (nodes.map verifierId).Nodup) (hlen : encryptionKeys.length = nodes.length) :
    (runDkgCeremonyEncrypted hasher ceremonyId encryptionKeys random nonces).run nodes =
      .ok r nodes' ↔ nodes ≠ [] ∧
      ∃ broadcasts nodes₁ nodes₂ results, DkgExchange hasher random
          (· ∈ encPubMapOf nodes encryptionKeys) nodes broadcasts nodes₁ nodes₂
          results ∧
        consistentOutput D (results.map Prod.fst) = .ok r ∧ nodes' = results.map Prod.snd := by
  rw [← run_ceremony_ok (faithful_encryptedRouting hX hJson) hids (forall₂_encPubMapOf hlen hids)]
  change (if nodes = [] then _ else if encryptionKeys.length ≠ nodes.length then _ else _) =
    EStateM.Result.ok r nodes' ↔ _
  split
  · next hnil => simp [hnil]
  · next hne =>
    rw [if_neg (not_not.2 hlen)]
    exact ⟨fun h => ⟨hne, h⟩, fun h => h.2⟩

theorem run_runDkgCeremonyEncrypted_ok_iff (hD : D.Lawful) (hJson : D.RoundTrips) (hX : X.Lawful)
    (hids : (nodes.map verifierId).Nodup) (hlen : encryptionKeys.length = nodes.length) :
    (runDkgCeremonyEncrypted hasher ceremonyId encryptionKeys random nonces).run nodes =
      .ok r nodes' ↔ (runDkgCeremony hasher random).run nodes = .ok r nodes' := by
  rw [run_runDkgCeremonyEncrypted_ok hX hJson hids hlen, run_runDkgCeremony_ok hids]
  refine and_congr_right fun _ => ?_
  constructor
  · rintro ⟨broadcasts, nodes₁, nodes₂, results, hexch, hrest⟩
    exact ⟨broadcasts, nodes₁, nodes₂, results, hexch.of_known fun _ _ _ _ => trivial, hrest⟩
  · rintro ⟨broadcasts, nodes₁, nodes₂, results, hexch, hrest⟩
    have hids₁ := map_verifierId_eq (sameParticipant_broadcastRound1 hexch.part1)
    refine ⟨broadcasts, nodes₁, nodes₂, results, hexch.of_known fun node hnode v hv => ?_, hrest⟩
    rw [mem_encPubMapOf hlen, ← hids₁]
    exact hexch.recipient_mem hD (hids₁ ▸ hids) hnode hv

/-- **The encrypted ceremony refines the plain one**: for the same nodes, with the same results, and
what is decrypted is what was addressed. -/
theorem runDkgCeremonyEncrypted_refines (hD : D.Lawful) (hJson : D.RoundTrips) (hX : X.Lawful)
    (hasher : Hasher VerifierId) (ceremonyId : DkgCeremonyId) (random : ℕ → D.Random)
    (nonces : ℕ → VerifierId → Vector UInt8 24) (hids : (nodes.map verifierId).Nodup)
    (hlen : encryptionKeys.length = nodes.length) :
    (∀ r nodes',
      (runDkgCeremonyEncrypted hasher ceremonyId encryptionKeys random nonces).run nodes =
        .ok r nodes' ↔ (runDkgCeremony hasher random).run nodes = .ok r nodes') ∧
    ∀ broadcasts nodes₁ routed nodes₂, (broadcastRound1 random).run nodes = .ok broadcasts nodes₁ →
      (routeRound2 (encryptedRouting D X ceremonyId
        (encPubMapOf nodes encryptionKeys) nonces) hasher
        broadcasts ((List.range nodes.length).zip encryptionKeys)).run nodes₁ = .ok routed nodes₂ →
      ∀ recipient key, (recipient, key) ∈ nodes.zip encryptionKeys → ∀ i, ∃ inbox,
        (encryptedRouting D X ceremonyId (encPubMapOf nodes encryptionKeys) nonces).unpack
          (i, key) recipient.verifierId (Mail.box [] routed recipient.verifierId) = .ok inbox ∧
        (∀ sender ∈ nodes₁, inbox.lookup sender.verifierId =
          (outboundOf hasher broadcasts sender).lookup recipient.verifierId) ∧
        ∀ v ∈ inbox, ∃ sender ∈ nodes₁, sender.verifierId = v := by
  constructor
  · intro r nodes'
    exact run_runDkgCeremonyEncrypted_ok_iff hD hJson hX hids hlen
  · intro broadcasts nodes₁ routed nodes₂ hpart1 hroute recipient key hmem i
    have hids₁ := map_verifierId_eq (sameParticipant_broadcastRound1 hpart1)
    obtain ⟨-, hunpack⟩ := unpack_of_routeRound2 (faithful_encryptedRouting hX hJson)
      (List.forall₂_map_right_iff.1 (hids₁.symm ▸ forall₂_encPubMapOf hlen hids)) hroute
    refine ⟨_, hunpack (i, key) recipient.verifierId (lookup_encPubMapOf hlen hids hmem),
      fun sender hsend => lookup_inboxOf (hids₁ ▸ hids) _ hsend, fun v hv => ?_⟩
    obtain ⟨sender, hsend, hid, -⟩ := mem_inboxOf.1 hv
    exact ⟨sender, hsend, hid⟩

end

end

/-! ### The small ceremony -/

def smallRandom (i : ℕ) : Wide.crates.Random := fun n => (5 * i + 7 * n + 1 : ℕ)

def smallKeys : List (DkgEncryptionKeyPair SmallSealing.crates) :=
  [.ofSecret (3 : UInt8), .ofSecret (5 : UInt8)]

def smallCeremonyId : DkgCeremonyId := .fromBytes (.replicate 16 9)

def smallNonces (i : ℕ) (_ : VerifierId) : Vector UInt8 24 := .replicate 24 (.ofNat i)

theorem exists_runDkgCeremony_small :
    ∃ r nodes', (runDkgCeremony (.inOrder VerifierId) smallRandom).run [firstNode, secondNode] =
      .ok r nodes' := by
  have hok : ((runDkgCeremony (.inOrder VerifierId) smallRandom).run [firstNode, secondNode]
      matches .ok _ _) = true := by
    decide +kernel
  rcases hrun : (runDkgCeremony (.inOrder VerifierId) smallRandom).run [firstNode, secondNode] with
    ⟨r, nodes'⟩ | ⟨e, nodes'⟩
  · exact ⟨r, nodes', rfl⟩
  · rw [hrun] at hok
    cases hok

theorem runDkgCeremonyEncrypted_refines_small :
    ∃ r nodes', (runDkgCeremony (.inOrder VerifierId) smallRandom).run [firstNode, secondNode] =
        .ok r nodes' ∧
      (runDkgCeremonyEncrypted (.inOrder VerifierId) smallCeremonyId smallKeys smallRandom
        smallNonces).run [firstNode, secondNode] = .ok r nodes' := by
  obtain ⟨r, nodes', hplain⟩ := exists_runDkgCeremony_small
  have hids : ([firstNode, secondNode].map verifierId).Nodup := nodup_twoVerifiers
  have hlen : smallKeys.length = [firstNode, secondNode].length := rfl
  exact ⟨r, nodes', hplain, ((runDkgCeremonyEncrypted_refines Wide.lawful_crates
    Wide.roundTrips_crates SmallSealing.lawful_crates (.inOrder VerifierId) smallCeremonyId
    smallRandom smallNonces hids hlen).1 r nodes').2 hplain⟩

end TlsAttestation
