import TlsAttestation.Crypto.DkgAnnounce
import TlsAttestation.Network.SignedEnvelope
import TlsAttestation.Node.DkgAgreement

/-!
# Key generation over a network

`tls_attestation_node::dkg_node` with announced keys: `run_dkg_ceremony_with_authenticated_keys` in
one process, and `build_dkg_network_messages`, with `dkg_part3_from_delivery` at each participant.
The second does not check that there are nodes (and panics) or that their keys are the announced
ones.
-/

namespace TlsAttestation

open ByteEncoding Effect Fallible Frost FrostDkgNode
open List hiding Vector

/-! ### Messages -/

structure DkgCeremonyAnnouncement where
  ceremonyId : Bytes
  allParticipantIds : List VerifierId
  minSigners : UInt16
  encryptionPublicKeys : List Bytes
deriving DecidableEq

structure DkgRound1Response where
  ceremonyId : Bytes
  participantId : VerifierId
  round1PackageBytes : Bytes
deriving DecidableEq

structure DkgRound2Delivery where
  ceremonyId : Bytes
  recipientId : VerifierId
  encryptedPackages : List (VerifierId × Bytes)
deriving DecidableEq

structure DkgNetworkMessages where
  announcement : DkgCeremonyAnnouncement
  round1Responses : List DkgRound1Response
  round2Deliveries : HashMap VerifierId DkgRound2Delivery

structure DkgCodecs where
  publicKey : Codec.Json DkgEncryptionPublicKey
  encPackage : Codec.Json EncryptedDkgRound2Package

section

variable {F G : Type} [Field F] [AddCommGroup G] [Module F G] [DecidableEq F]
  {D : DkgCrates F G} {X : SealingCrates} {VerifyingKey : Type} [Verifier VerifyingKey]

/-- What both orchestrations are called with. -/
structure DkgArguments (D : DkgCrates F G) (X : SealingCrates) (VerifyingKey : Type) where
  ceremonyId : DkgCeremonyId
  encKeys : List (DkgEncryptionKeyPair X)
  announcements : List SignedDkgKeyAnnouncement
  registry : DkgParticipantRegistry VerifyingKey
  random : ℕ → D.Random
  nonces : ℕ → VerifierId → Vector UInt8 24

def DkgArguments.verifiedEncPubMap (args : DkgArguments D X VerifyingKey)
    (nodes : List (FrostDkgNode D)) :
    Except (Stop NodeError) EncPubMap :=
  (args.registry.collectVerifiedEncKeys args.announcements args.ceremonyId
    (nodes.map verifierId)).mapError fun e => .error (.dkgKeyAnnouncement e.display)

/-! ### One process -/

def checkOwnKeys (verified : EncPubMap)
    (pairs : List (FrostDkgNode D × DkgEncryptionKeyPair X)) : Except (Stop NodeError) Unit :=
  pairs.forM fun p => do
    let announcedPub ← okOr (verified.lookup p.1.verifierId)
      (.panic "all participants verified above")
    ensure (announcedPub = p.2.publicKey) (.error (.dkgKeyAnnouncement
      (s!"enc key for {p.1.verifierId.display} does not match its own verified announcement — " ++
        "possible inconsistent state or key substitution")))

variable (hasher : Hasher VerifierId)

/-- **The ceremony with announced keys**, in one process. -/
def runDkgCeremonyWithAuthenticatedKeys (args : DkgArguments D X VerifyingKey) :
    CeremonyM D (List (FrostAuxiliaryNode F G) × FrostGroupKey F G) := do
  let nodes ← get
  check (nodes ≠ []) (.error (.dkgProtocol
    "run_dkg_ceremony_with_authenticated_keys requires at least one node"))
  check (args.encKeys.length = nodes.length) (.error (.dkgProtocol
    s!"enc_keys.len() ({args.encKeys.length}) must equal nodes.len() ({nodes.length})"))
  let verified ← lift id (args.verifiedEncPubMap nodes)
  lift id (checkOwnKeys verified (nodes.zip args.encKeys))
  runDkgCeremonyEncrypted hasher args.ceremonyId args.encKeys args.random args.nonces

/-! ### Messages -/

def openDelivery (D : DkgCrates F G) (codecs : DkgCodecs) (ceremonyId : DkgCeremonyId)
    (encPubMap : EncPubMap) (encKey : DkgEncryptionKeyPair X) (myId : VerifierId)
    (encryptedPackages : List (VerifierId × Bytes)) :
    Except (Stop NodeError) (D.Round2Map) :=
  encryptedPackages.foldlM (fun plaintextR2 e => do
    let encPkg ← (codecs.encPackage.fromSlice e.2).mapError fun err =>
      .error (.dkgProtocol s!"encrypted package deserialize: {err}")
    let senderPub ← okOr (encPubMap.lookup e.1) (.error (.dkgProtocol
      s!"no enc public key for sender {e.1.display}"))
    let pkg ←
      (decryptRound2Package D encPkg encKey senderPub ceremonyId e.1 myId).mapError fun err =>
      .error (.crypto err)
    return plaintextR2.insert e.1 pkg) ∅

/-- Round two under seal, each package as the bytes that are delivered. -/
def networkRouting (D : DkgCrates F G) (X : SealingCrates) (codecs : DkgCodecs)
    (ceremonyId : DkgCeremonyId) (encPubMap : EncPubMap)
    (nonces : ℕ → VerifierId → Vector UInt8 24) :
    Routing D (ℕ × DkgEncryptionKeyPair X) (List (VerifierId × Bytes)) Bytes where
  empty := []
  pack k senderId recipientId pkg := do
    let recipientPub ← okOr (encPubMap.lookup recipientId) (.error (.dkgProtocol
      s!"no enc public key for {recipientId.display}"))
    let encPkg ← (encryptRound2Package D pkg ceremonyId k.2 senderId recipientPub recipientId
      (nonces k.1 recipientId)).mapError (Stop.map .crypto)
    (codecs.encPackage.toVec encPkg).mapError fun e =>
      .error (.dkgProtocol s!"enc pkg serialize: {e}")
  add pkgs senderId encBytes := pkgs ++ [(senderId, encBytes)]
  unpack k := openDelivery D codecs ceremonyId encPubMap k.2

def respondNode (ceremonyId : DkgCeremonyId) (random : ℕ → D.Random) (i : ℕ)
    (acc : List DkgRound1Response × D.Round1Map) :
    DkgM D (List DkgRound1Response × D.Round1Map) := do
  let pkg ← part1 (random i)
  let pkgBytes ← lift id (expect (D.round1ToVec pkg)
    "DkgRound1Package serialization must not fail — library invariant")
  let node ← get
  return (acc.1 ++ [⟨ceremonyId.asBytes.toList, node.verifierId, pkgBytes⟩],
    acc.2.insert node.verifierId pkg)

/-- **Part one** of all nodes, with their responses. -/
def respondRound1 (ceremonyId : DkgCeremonyId) (random : ℕ → D.Random) :
    CeremonyM D (List DkgRound1Response × D.Round1Map) :=
  fun nodes =>
    (iterMut (respondNode ceremonyId random) (List.range nodes.length) ([], ∅)).run nodes

def encPubBytes (codecs : DkgCodecs) (verified : EncPubMap)
    (participantIds : List VerifierId) : Except (Stop NodeError) (List Bytes) :=
  participantIds.mapM fun vid => do
    let pk ← okOr (verified.lookup vid) (.panic "verified above")
    (codecs.publicKey.toVec pk).mapError fun e =>
      .error (.dkgProtocol s!"enc key serialize: {e}")

/-- All messages up to round two, made by nodes of one process. -/
def buildDkgNetworkMessages (codecs : DkgCodecs) (args : DkgArguments D X VerifyingKey) :
    CeremonyM D DkgNetworkMessages := do
  let nodes ← get
  check (args.encKeys.length = nodes.length) (.error (.dkgProtocol
    s!"enc_keys.len() ({args.encKeys.length}) must equal nodes.len() ({nodes.length})"))
  let participantIds := nodes.map verifierId
  let verified ← lift id (args.verifiedEncPubMap nodes)
  let encPubBytes ← lift id (encPubBytes codecs verified participantIds)
  let first ← lift id (okOr nodes.head?
    (.panic "index out of bounds: the len is 0 but the index is 0"))
  let announcement : DkgCeremonyAnnouncement :=
    ⟨args.ceremonyId.asBytes.toList, participantIds, first.minSigners, encPubBytes⟩
  let (round1Responses, round1Broadcasts) ← respondRound1 args.ceremonyId args.random
  let round2Deliveries ← routeRound2
    (networkRouting D X codecs args.ceremonyId verified args.nonces) hasher round1Broadcasts
    ((List.range nodes.length).zip args.encKeys)
  return ⟨announcement, round1Responses, .collect ((hasher.iter round2Deliveries).map fun e =>
    ⟨e.1, ⟨args.ceremonyId.asBytes.toList, e.1, e.2⟩⟩)⟩

/-- A node opens what was delivered to it, and finishes. -/
def dkgPart3FromDelivery (codecs : DkgCodecs) (encKey : DkgEncryptionKeyPair X)
    (delivery : DkgRound2Delivery) (encPubMap : EncPubMap) (ceremonyId : DkgCeremonyId) :
    DkgM D (DkgOutput F G) := do
  let node ← get
  let plaintextR2 ← lift id (openDelivery D codecs ceremonyId encPubMap encKey node.verifierId
    delivery.encryptedPackages)
  part3 hasher plaintextR2

/-! ### A whole ceremony with messages -/

/-- Nothing delivered is a delivery without packages. -/
def DkgNetworkMessages.deliveryTo (messages : DkgNetworkMessages) (recipientId : VerifierId) :
    DkgRound2Delivery :=
  (messages.round2Deliveries.lookup recipientId).getD
    ⟨messages.announcement.ceremonyId, recipientId, []⟩

/-- **The messages are built and delivered**; the results of the nodes, or how the building stopped.
-/
def networkCeremony (codecs : DkgCodecs)
    (args : DkgArguments D X VerifyingKey) (nodes : List (FrostDkgNode D)) :
    Except (Stop NodeError) (List (Except (Stop NodeError) (DkgOutput F G))) :=
  match (buildDkgNetworkMessages hasher codecs args).run nodes with
  | .error e _ => .error e
  | .ok messages nodes' => do
    let verified ← args.verifiedEncPubMap nodes
    return (nodes'.zip args.encKeys).map fun p =>
      (resultOf ((dkgPart3FromDelivery hasher codecs p.2 (messages.deliveryTo p.1.verifierId)
        verified args.ceremonyId).run p.1)).1

/-! ### The routing -/

/-- **The JSON of the messages** can be written and is read back. -/
structure DkgCodecs.Lossless (codecs : DkgCodecs) : Prop where
  exists_publicKey : ∀ pk, ∃ bytes, codecs.publicKey.toVec pk = .ok bytes
  exists_encPackage : ∀ c, ∃ bytes, codecs.encPackage.toVec c = .ok bytes ∧
    codecs.encPackage.fromSlice bytes = .ok c

section

variable {codecs : DkgCodecs} {ceremonyId : DkgCeremonyId} {encPubMap : EncPubMap}
  {nonces : ℕ → VerifierId → Vector UInt8 24}

omit [DecidableEq F] in
/-- The messages lose nothing. -/
theorem faithful_networkRouting (hX : X.Lawful) (hJson : D.RoundTrips) (hcodecs : codecs.Lossless) :
    (networkRouting D X codecs ceremonyId encPubMap nonces).Faithful
      (fun k v => encPubMap.lookup v = some k.2.publicKey) (· ∈ encPubMap) where
  exists_pack {k senderId recipientId} pkg _ hknown := by
    obtain ⟨recipientPub, hpub⟩ := Finmap.mem_iff.1 hknown
    obtain ⟨c, hc⟩ := exists_encryptRound2Package hX hJson pkg ceremonyId k.2 senderId recipientPub
      recipientId (nonces k.1 recipientId)
    obtain ⟨bytes, hbytes, -⟩ := hcodecs.exists_encPackage c
    simp only [networkRouting, do_eq_ok]
    exact ⟨bytes, recipientPub, hpub, c, hc, hbytes⟩
  known_of_pack hpack := by
    simp only [networkRouting, do_eq_ok] at hpack
    obtain ⟨recipientPub, hpub, -⟩ := hpack
    exact Finmap.mem_iff.2 ⟨recipientPub, hpub⟩
  unpack_empty _ := rfl
  unpack_add {k k' senderId recipientId pkg bytes b m} hk hk' hpack hunpack := by
    simp only [networkRouting, openDelivery, do_eq_ok] at hpack hunpack ⊢
    obtain ⟨recipientPub, hpub, c, hc, hbytes⟩ := hpack
    obtain rfl := Option.some.inj (hpub.symm.trans hk')
    obtain ⟨bytes', hbytes', hread⟩ := hcodecs.exists_encPackage c
    obtain rfl := Except.ok.inj (hbytes.symm.trans hbytes')
    rw [foldlM_append]
    simp only [do_eq_ok, foldlM_cons_eq_ok, foldlM_nil_eq_ok]
    exact ⟨m, hunpack, _, ⟨c, hread, k.2.publicKey, hk, pkg,
      decryptRound2Package_of_encrypt hX hJson hc, rfl⟩, rfl⟩

omit [DecidableEq F] in
theorem noPanic_pack (hJson : D.RoundTrips) (k : ℕ × DkgEncryptionKeyPair X)
    (senderId recipientId : VerifierId) (pkg : D.Round2Package) :
    NoPanic ((networkRouting D X codecs ceremonyId encPubMap nonces).pack k senderId recipientId
      pkg) := by
  refine (noPanic_okOr _ _).bind fun recipientPub _ => ?_
  refine NoPanic.bind (NoPanic.mapError ?_ _) fun c _ => noPanic_mapError _ _
  obtain ⟨bytes, hbytes, -⟩ := hJson.exists_round2ToVec pkg
  refine (noPanic_expect ⟨bytes, hbytes⟩ _).bind fun _ _ => ?_
  exact (noPanic_mapError _ _).bind fun _ _ => noPanic_pure _

end

/-! ### The first round -/

section

variable {random : ℕ → D.Random} {node node' : FrostDkgNode D}
  {nodes nodes' : List (FrostDkgNode D)} {broadcasts : D.Round1Map}

omit [DecidableEq F] in
theorem run_respondNode_ok {ceremonyId : DkgCeremonyId} {i : ℕ}
    {acc acc' : List DkgRound1Response × D.Round1Map} :
    (respondNode ceremonyId random i acc).run node = .ok acc' node' ↔
      ∃ pkg bytes, (part1 (random i)).run node = .ok pkg node' ∧ D.round1ToVec pkg = .ok bytes ∧
        (acc.1 ++ [⟨ceremonyId.asBytes.toList, node'.verifierId, bytes⟩],
          acc.2.insert node'.verifierId pkg) = acc' := by
  simp only [respondNode, run_bind_ok, run_get_bind, run_pure_ok, run_lift_ok, expect_eq_ok]
  constructor
  · rintro ⟨pkg, _, hpart1, bytes, _, ⟨hbytes, rfl⟩, rfl, rfl⟩
    exact ⟨pkg, bytes, hpart1, hbytes, rfl⟩
  · rintro ⟨pkg, bytes, hpart1, hbytes, rfl⟩
    exact ⟨pkg, node', hpart1, bytes, node', ⟨hbytes, rfl⟩, rfl, rfl⟩

omit [DecidableEq F] in
theorem run_respondRound1_ok (ceremonyId : DkgCeremonyId)
    (hwrite : ∀ pkg, ∃ bytes, D.round1ToVec pkg = .ok bytes) :
    (∃ responses, (respondRound1 ceremonyId random).run nodes =
      .ok (responses, broadcasts) nodes') ↔
      (broadcastRound1 random).run nodes = .ok broadcasts nodes' := by
  have hforget : ∀ i (acc : List DkgRound1Response × D.Round1Map) b node acc'
      node', (i, node) ∈ (List.range nodes.length).zip nodes → acc.2 = b →
      (respondNode ceremonyId random i acc).run node = .ok acc' node' →
      ∃ b', (broadcastNode random i b).run node = .ok b' node' ∧ acc'.2 = b' := by
    rintro i acc _ node acc' node' - rfl hturn
    obtain ⟨pkg, bytes, hpart1, -, rfl⟩ := run_respondNode_ok.1 hturn
    exact ⟨_, run_broadcastNode_ok.2 ⟨pkg, hpart1, rfl⟩, rfl⟩
  have hadd : ∀ i b (acc : List DkgRound1Response × D.Round1Map) node b'
      node', (i, node) ∈ (List.range nodes.length).zip nodes → acc.2 = b →
      (broadcastNode random i b).run node = .ok b' node' →
      ∃ acc', (respondNode ceremonyId random i acc).run node = .ok acc' node' ∧ acc'.2 = b' := by
    rintro i _ acc node b' node' - rfl hturn
    obtain ⟨pkg, hpart1, rfl⟩ := run_broadcastNode_ok.1 hturn
    obtain ⟨bytes, hbytes⟩ := hwrite pkg
    exact ⟨_, run_respondNode_ok.2 ⟨pkg, bytes, hpart1, hbytes, rfl⟩, rfl⟩
  constructor
  · rintro ⟨responses, h⟩
    obtain ⟨_, hrun, rfl⟩ := iterMut_simulation (fun acc b => acc.2 = b) hforget
      (forall₂_range nodes) rfl h
    exact hrun
  · intro h
    have hstart : (([], ∅) : List DkgRound1Response × D.Round1Map).2 = ∅ := rfl
    obtain ⟨⟨responses, _⟩, hrun, rfl⟩ := iterMut_simulation
      (fun b (acc : List DkgRound1Response × D.Round1Map) => acc.2 = b) hadd
      (forall₂_range nodes) hstart h
    exact ⟨responses, hrun⟩

omit [DecidableEq F] in
theorem noPanicAt_respondRound1 (ceremonyId : DkgCeremonyId)
    (hwrite : ∀ pkg, ∃ bytes, D.round1ToVec pkg = .ok bytes) :
    NoPanicAt (respondRound1 ceremonyId random) nodes := by
  refine noPanicAt_iterMut (fun i acc node _ => ?_) (forall₂_range nodes) _
  refine (noPanicAt_part1 _ node).bind fun pkg node' _ => ?_
  exact (noPanicAt_lift (noPanic_expect (hwrite pkg) _)).bind fun _ _ _ => noPanic_ok _

end

/-! ### The messages -/

section

variable {hasher : Hasher VerifierId} {codecs : DkgCodecs} {args : DkgArguments D X VerifyingKey}
  {nodes nodes' : List (FrostDkgNode D)} {verified : EncPubMap}

/-- **When the messages are built**, and what they deliver. -/
theorem run_buildDkgNetworkMessages_ok {messages : DkgNetworkMessages} :
    (buildDkgNetworkMessages hasher codecs args).run nodes = .ok messages nodes' ↔
      args.encKeys.length = nodes.length ∧ ∃ verified, args.verifiedEncPubMap nodes = .ok verified ∧
        ∃ keys, encPubBytes codecs verified (nodes.map verifierId) = .ok keys ∧
        ∃ first, nodes.head? = some first ∧
        ∃ responses broadcasts nodes₁, (respondRound1 args.ceremonyId args.random).run nodes =
            .ok (responses, broadcasts) nodes₁ ∧
        ∃ routed,
          (routeRound2 (networkRouting D X codecs args.ceremonyId verified args.nonces) hasher
          broadcasts ((List.range nodes.length).zip args.encKeys)).run nodes₁ = .ok routed nodes' ∧
        messages = ⟨⟨args.ceremonyId.asBytes.toList, nodes.map verifierId,
          first.minSigners, keys⟩, responses, .collect ((hasher.iter routed).map fun e =>
            ⟨e.1, ⟨args.ceremonyId.asBytes.toList, e.1, e.2⟩⟩)⟩ := by
  rw [buildDkgNetworkMessages, run_get_bind, run_check_bind_ok]
  refine and_congr_right fun _ => ?_
  simp only [run_lift_bind_ok, okOr_eq_ok]
  refine exists_congr fun verified => and_congr_right fun _ => exists_congr fun keys =>
    and_congr_right fun _ => exists_congr fun first => and_congr_right fun _ => ?_
  simp only [run_bind_ok, run_pure_ok]
  constructor
  · rintro ⟨⟨responses, broadcasts⟩, nodes₁, hpart1, routed, _, hroute, rfl, rfl⟩
    exact ⟨responses, broadcasts, nodes₁, hpart1, routed, hroute, rfl⟩
  · rintro ⟨responses, broadcasts, nodes₁, hpart1, routed, hroute, rfl⟩
    exact ⟨(responses, broadcasts), nodes₁, hpart1, routed, nodes', hroute, rfl, rfl⟩

theorem encryptedPackages_deliveryTo (announcement : DkgCeremonyAnnouncement)
    (responses : List DkgRound1Response) (hasher : Hasher VerifierId) (ceremonyId : Bytes)
    (routed : HashMap VerifierId (List (VerifierId × Bytes))) (v : VerifierId) :
    (DkgNetworkMessages.deliveryTo ⟨announcement, responses,
      .collect ((hasher.iter routed).map fun e =>
        ⟨e.1, ⟨ceremonyId, e.1, e.2⟩⟩)⟩ v).encryptedPackages =
      Mail.box [] routed v := by
  have hlookup := hasher.lookup_collect_map routed
    (fun v packages => (⟨ceremonyId, v, packages⟩ : DkgRound2Delivery)) v
  dsimp only [DkgNetworkMessages.deliveryTo]
  rw [hlookup, Mail.box]
  rcases routed.lookup v with _ | packages <;> rfl

/-! ### The whole ceremony -/

theorem run_dkgPart3FromDelivery_of_open {encKey : DkgEncryptionKeyPair X}
    {delivery : DkgRound2Delivery} {ceremonyId : DkgCeremonyId} {node : FrostDkgNode D}
    {inbox : D.Round2Map}
    (h : openDelivery D codecs ceremonyId verified encKey node.verifierId
      delivery.encryptedPackages = .ok inbox) :
    (dkgPart3FromDelivery hasher codecs encKey delivery verified ceremonyId).run node =
      (part3 hasher inbox).run node := by
  rw [dkgPart3FromDelivery, run_get_bind, run_lift_bind, h]

/-- **What is documented of the crates**, all together. -/
structure DkgDocumented (D : DkgCrates F G) (X : SealingCrates) (codecs : DkgCodecs) : Prop where
  lawful : D.Lawful
  writes : ∀ pkg, ∃ bytes, D.round1ToVec pkg = .ok bytes
  roundTrips : D.RoundTrips
  sealing : X.Lawful
  lossless : codecs.Lossless

omit [DecidableEq F] in
theorem verifiedEncPubMap_eq_ok :
    args.verifiedEncPubMap nodes = .ok verified ↔
      args.registry.collectVerifiedEncKeys args.announcements args.ceremonyId
        (nodes.map verifierId) = .ok verified :=
  mapError_eq_ok

omit [DecidableEq F] in
theorem mem_verified (h : args.verifiedEncPubMap nodes = .ok verified) {v : VerifierId} :
    v ∈ verified ↔ v ∈ nodes.map verifierId :=
  DkgParticipantRegistry.mem_of_collectVerifiedEncKeys (verifiedEncPubMap_eq_ok.1 h)

def Announced (verified : EncPubMap)
    (ids : List VerifierId) (encKeys : List (DkgEncryptionKeyPair X)) : Prop :=
  ∀ p ∈ ids.zip encKeys, verified.lookup p.1 = some p.2.publicKey

variable {encKeys : List (DkgEncryptionKeyPair X)}

omit [DecidableEq F] in
theorem Announced.lookup_eq (h : Announced verified (nodes.map verifierId) encKeys)
    {p : FrostDkgNode D × DkgEncryptionKeyPair X} (hp : p ∈ nodes.zip encKeys) :
    verified.lookup p.1.verifierId = some p.2.publicKey := by
  refine h (p.1.verifierId, p.2) ?_
  rw [zip_map_left]
  exact mem_map.2 ⟨p, hp, rfl⟩

omit [DecidableEq F] in
theorem Announced.forall₂_items (h : Announced verified (nodes.map verifierId) encKeys)
    (hlen : encKeys.length = nodes.length) :
    Forall₂ (fun (k : ℕ × DkgEncryptionKeyPair X) v => verified.lookup v = some k.2.publicKey)
      ((List.range nodes.length).zip encKeys) (nodes.map verifierId) :=
  TlsAttestation.forall₂_items hlen fun _ _ _ hmem => h.lookup_eq hmem

section

variable {nodes₁ nodes₂ : List (FrostDkgNode D)} {broadcasts : D.Round1Map}

theorem networkCeremony_of_build (hdoc : DkgDocumented D X codecs)
    (hver : args.verifiedEncPubMap nodes = .ok verified)
    (hannounced : Announced verified (nodes.map verifierId) args.encKeys)
    {messages : DkgNetworkMessages}
    (hbuild : (buildDkgNetworkMessages hasher codecs args).run nodes = .ok messages nodes₂) :
    ∃ broadcasts nodes₁, (broadcastRound1 args.random).run nodes = .ok broadcasts nodes₁ ∧
      Forall₂ (SentToKnown hasher broadcasts (· ∈ verified)) nodes₁ nodes₂ ∧
      networkCeremony hasher codecs args nodes = .ok (nodes₂.map fun node =>
        (resultOf ((part3 hasher
          (inboxOf hasher broadcasts nodes₁ node.verifierId)).run node)).1) := by
  obtain ⟨hlen, verified', hverified', keys, -, first, -, responses, broadcasts, nodes₁, hpart1,
    routed, hroute, rfl⟩ := run_buildDkgNetworkMessages_ok.1 hbuild
  obtain rfl := Except.ok.inj (hver.symm.trans hverified')
  have hpart1 := (run_respondRound1_ok args.ceremonyId hdoc.writes).1 ⟨responses, hpart1⟩
  have hitems := hannounced.forall₂_items hlen
  have hids₁ := map_verifierId_eq (sameParticipant_broadcastRound1 hpart1)
  obtain ⟨hsent, hunpack⟩ := unpack_of_routeRound2
    (faithful_networkRouting hdoc.sealing hdoc.roundTrips hdoc.lossless)
    (forall₂_map_right_iff.1 (hids₁.symm ▸ hitems)) hroute
  have hids₂ := (map_verifierId_eq (sameParticipant_sentToKnown hsent)).trans hids₁
  refine ⟨broadcasts, nodes₁, hpart1, hsent, ?_⟩
  have hlength₂ : nodes₂.length ≤ args.encKeys.length := by
    rw [hlen, ← length_map (f := verifierId), hids₂, length_map]
  have hnode : ∀ p ∈ nodes₂.zip args.encKeys, ∀ delivery : DkgRound2Delivery,
      delivery.encryptedPackages = Mail.box [] routed p.1.verifierId →
      (dkgPart3FromDelivery hasher codecs p.2 delivery verified args.ceremonyId).run p.1 =
        (part3 hasher (inboxOf hasher broadcasts nodes₁ p.1.verifierId)).run p.1 := by
    intro p hp delivery hdelivery
    refine run_dkgPart3FromDelivery_of_open ?_
    rw [hdelivery]
    exact hunpack (0, p.2) p.1.verifierId (Announced.lookup_eq (hids₂ ▸ hannounced) hp)
  rw [networkCeremony, hbuild, hver]
  refine congrArg Except.ok ?_
  calc _ = (nodes₂.zip args.encKeys).map fun p => (resultOf ((part3 hasher
          (inboxOf hasher broadcasts nodes₁ p.1.verifierId)).run p.1)).1 := by
        refine map_congr_left fun p hp => ?_
        rw [hnode p hp _ (encryptedPackages_deliveryTo _ _ _ _ _ _)]
    _ = ((nodes₂.zip args.encKeys).map Prod.fst).map fun node => (resultOf ((part3
          hasher (inboxOf hasher broadcasts nodes₁ node.verifierId)).run node)).1 := by
        rw [map_map]
        rfl
    _ = _ := by rw [map_fst_zip hlength₂]

omit [DecidableEq F] in
theorem exists_encPubBytes (hcodecs : codecs.Lossless)
    (hver : args.verifiedEncPubMap nodes = .ok verified) :
    ∃ keys, encPubBytes codecs verified (nodes.map verifierId) = .ok keys := by
  refine exists_mapM_eq_ok fun v hv => ?_
  obtain ⟨pk, hpk⟩ := Finmap.mem_iff.1 ((mem_verified hver).2 hv)
  obtain ⟨bytes, hbytes⟩ := hcodecs.exists_publicKey pk
  simp only [do_eq_ok]
  exact ⟨bytes, pk, hpk, hbytes⟩

/-- A ceremony with messages is an exchange. -/
theorem networkCeremony_eq_ok (hdoc : DkgDocumented D X codecs)
    (hlen : args.encKeys.length = nodes.length) (hver : args.verifiedEncPubMap nodes = .ok verified)
    (hannounced : Announced verified (nodes.map verifierId) args.encKeys) (hne : nodes ≠ [])
    {outputs : List (DkgOutput F G)} :
    networkCeremony hasher codecs args nodes = .ok (outputs.map .ok) ↔
      ∃ broadcasts nodes₁ nodes₂ results,
        DkgExchange hasher args.random (· ∈ verified) nodes broadcasts nodes₁ nodes₂ results ∧
          outputs = results.map Prod.fst := by
  have hiff : ∀ broadcasts nodes₁ nodes₂, (nodes₂.map fun node => (resultOf ((part3 hasher
        (inboxOf hasher broadcasts nodes₁ node.verifierId)).run node)).1) = outputs.map .ok ↔
      ∃ results : List ((DkgOutput F G) × FrostDkgNode D), Forall₂ (fun node r => (part3 hasher
          (inboxOf hasher broadcasts nodes₁ node.verifierId)).run node =
            .ok r.1 r.2) nodes₂ results ∧
        outputs = results.map Prod.fst := by
    intro broadcasts nodes₁ nodes₂
    have hmap := map_resultOf_eq (nodes₂.map fun node => (part3 hasher
      (inboxOf hasher broadcasts nodes₁ node.verifierId)).run node) outputs
    rw [map_map] at hmap
    refine hmap.trans (exists_congr fun results => and_congr_left' ?_)
    rw [← forall₂_eq_eq_eq, forall₂_map_left_iff, forall₂_map_right_iff]
  constructor
  · intro h
    rcases hbuild : (buildDkgNetworkMessages hasher codecs args).run nodes with
      ⟨messages, nodes₂⟩ | ⟨e, nodes'⟩
    · obtain ⟨broadcasts, nodes₁, hpart1, hsent, hnet⟩ :=
        networkCeremony_of_build hdoc hver hannounced hbuild
      obtain ⟨results, hpart3, houtputs⟩ :=
        (hiff broadcasts nodes₁ nodes₂).1 (Except.ok.inj (hnet.symm.trans h))
      exact ⟨broadcasts, nodes₁, nodes₂, results, ⟨hpart1, hsent, hpart3⟩, houtputs⟩
    · rw [networkCeremony, hbuild] at h
      cases h
  · rintro ⟨broadcasts, nodes₁, nodes₂, results, ⟨hpart1, hsent, hpart3⟩, houtputs⟩
    obtain ⟨responses, hrespond⟩ := (run_respondRound1_ok args.ceremonyId hdoc.writes).2 hpart1
    obtain ⟨keys, hkeys⟩ := exists_encPubBytes hdoc.lossless hver
    obtain ⟨first, rest, hcons⟩ := exists_cons_of_ne_nil hne
    have hids₁ := map_verifierId_eq (sameParticipant_broadcastRound1 hpart1)
    obtain ⟨routed, hroute⟩ := exists_routeRound2
      (faithful_networkRouting hdoc.sealing hdoc.roundTrips hdoc.lossless)
      (forall₂_map_right_iff.1 (hids₁.symm ▸ hannounced.forall₂_items hlen)) hsent
    have hbuild := run_buildDkgNetworkMessages_ok.2 ⟨hlen, verified, hver, keys, hkeys, first,
      by rw [hcons, List.head?_cons], responses, broadcasts, nodes₁, hrespond, routed, hroute, rfl⟩
    obtain ⟨broadcasts', nodes₁', hpart1', -, hnet⟩ :=
      networkCeremony_of_build hdoc hver hannounced hbuild
    obtain ⟨rfl, rfl⟩ := EStateM.Result.ok.inj (hpart1.symm.trans hpart1')
    rw [hnet, (hiff broadcasts nodes₁ nodes₂).2 ⟨results, hpart3, houtputs⟩]

end

end

end

end TlsAttestation
