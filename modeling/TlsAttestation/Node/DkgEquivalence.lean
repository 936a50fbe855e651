import TlsAttestation.Attestation.Approval
import TlsAttestation.Node.DkgNetwork

/-!
# Two ways to generate a key

`NetworkEquivalent`: the ceremony with messages does not panic, succeeds when the one in one process
does, with the same key, and stops early if a key is not the announced one. It holds if there is a
node, the keys are the announced ones, and the names are different and have numbers
(`networkEquivalent_of_admissible`).
-/

namespace TlsAttestation

open ByteEncoding Effect Fallible Finmap Frost FrostDkgNode List

section

variable {F G : Type} [Field F] [AddCommGroup G] [Module F G] [DecidableEq F]
  {D : DkgCrates F G} {X : SealingCrates} {VerifyingKey : Type} [Verifier VerifyingKey]

/-- What is expected of the ceremony with messages. -/
structure NetworkEquivalent (hasher : Hasher VerifierId) (codecs : DkgCodecs)
    (args : DkgArguments D X VerifyingKey) (nodes : List (FrostDkgNode D)) : Prop where
  /-- No panic, in the messages or at a node. -/
  noPanic : NoPanic (networkCeremony hasher codecs args nodes)
  noPanic_node : ∀ results, networkCeremony hasher codecs args nodes = .ok results →
    ∀ r ∈ results, NoPanic r
  /-- It succeeds for all nodes exactly if the ceremony in one process does. -/
  succeeds_iff : (∃ outputs : List (DkgOutput F G),
      networkCeremony hasher codecs args nodes = .ok (outputs.map .ok)) ↔
    ∃ r nodes', (runDkgCeremonyWithAuthenticatedKeys hasher args).run nodes = .ok r nodes'
  /-- The same shares, and the same group key. -/
  sameKey : ∀ (outputs : List (DkgOutput F G)) r nodes',
    networkCeremony hasher codecs args nodes = .ok (outputs.map .ok) →
    (runDkgCeremonyWithAuthenticatedKeys hasher args).run nodes = .ok r nodes' →
    outputs.map Prod.fst = r.1 ∧ (outputs.map Prod.snd).head? = some r.2 ∧
      ∀ output ∈ outputs, output.2.verifyingKeyBytes D.toFrostCrates =
        r.2.verifyingKeyBytes D.toFrostCrates
  /-- A key that was not announced is an error, before any node is touched. -/
  rejects : ∀ verified, args.verifiedEncPubMap nodes = .ok verified →
    ¬ Announced verified (nodes.map verifierId) args.encKeys →
    ∃ e, (buildDkgNetworkMessages hasher codecs args).run nodes = .error (.error e) nodes

structure Admitted (args : DkgArguments D X VerifyingKey) (nodes : List (FrostDkgNode D))
    (verified : EncPubMap) : Prop where
  length_eq : args.encKeys.length = nodes.length
  verified_eq : args.verifiedEncPubMap nodes = .ok verified

/-- When the missing checks do not matter. -/
structure Admissible (args : DkgArguments D X VerifyingKey) (nodes : List (FrostDkgNode D))
    (verified : EncPubMap) : Prop where
  ne_nil : nodes ≠ []
  announced : Announced verified (nodes.map verifierId) args.encKeys
  nodup : (nodes.map verifierId).Nodup
  numbered : ∀ node ∈ nodes, node.Numbered (nodes.map verifierId)

variable {hasher : Hasher VerifierId} {codecs : DkgCodecs} {args : DkgArguments D X VerifyingKey}
  {nodes nodes' : List (FrostDkgNode D)} {verified : EncPubMap}
  {r : List (FrostAuxiliaryNode F G) × FrostGroupKey F G}

/-! ### One process -/

omit [DecidableEq F] in
theorem checkOwnKeys_eq_ok {encKeys : List (DkgEncryptionKeyPair X)} :
    checkOwnKeys verified (nodes.zip encKeys) = .ok () ↔
      Announced verified (nodes.map verifierId) encKeys := by
  rw [checkOwnKeys, forM_eq_ok, Announced, zip_map_left, forall_mem_map]
  refine forall₂_congr fun p _ => ?_
  simp only [do_eq_ok]
  constructor
  · rintro ⟨pub, hpub, rfl⟩
    exact hpub
  · intro h
    exact ⟨_, h, rfl⟩

/-- **The ceremony in one process** makes its checks, and is an encrypted one then. -/
theorem run_runDkgCeremonyWithAuthenticatedKeys_ok :
    (runDkgCeremonyWithAuthenticatedKeys hasher args).run nodes = .ok r nodes' ↔
      nodes ≠ [] ∧ ∃ verified, Admitted args nodes verified ∧
        Announced verified (nodes.map verifierId) args.encKeys ∧
        (runDkgCeremonyEncrypted hasher args.ceremonyId args.encKeys args.random args.nonces).run
          nodes = .ok r nodes' := by
  simp only [runDkgCeremonyWithAuthenticatedKeys, run_get_bind, run_check_bind_ok, run_lift_bind_ok]
  refine and_congr_right fun _ => ?_
  constructor
  · rintro ⟨hlen, verified, hver, _, hown, hrun⟩
    exact ⟨verified, ⟨hlen, hver⟩, checkOwnKeys_eq_ok.1 hown, hrun⟩
  · rintro ⟨verified, hadm, hannounced, hrun⟩
    exact ⟨hadm.length_eq, verified, hadm.verified_eq, (), checkOwnKeys_eq_ok.2 hannounced, hrun⟩

/-! ### Arguments that are refused -/

theorem run_buildDkgNetworkMessages_of_not_admitted
    (h : ∀ verified, ¬ Admitted args nodes verified) :
    ∃ e, (buildDkgNetworkMessages hasher codecs args).run nodes = .error (.error e) nodes := by
  rw [buildDkgNetworkMessages, run_get_bind, run_check_bind]
  by_cases hlen : args.encKeys.length = nodes.length
  · rw [if_pos hlen]
    rcases hcoll : args.registry.collectVerifiedEncKeys args.announcements args.ceremonyId
      (nodes.map verifierId) with e | verified
    · have hver : args.verifiedEncPubMap nodes =
          .error (.error (.dkgKeyAnnouncement e.display)) := by
        rw [DkgArguments.verifiedEncPubMap, hcoll]
        rfl
      exact ⟨_, run_bind_of_error _ (run_lift_error.2 ⟨⟨_, hver, rfl⟩, rfl⟩)⟩
    · exact absurd ⟨hlen, verifiedEncPubMap_eq_ok.2 hcoll⟩ (h verified)
  · exact ⟨_, if_neg hlen⟩

theorem networkEquivalent_of_not_admitted (h : ∀ verified, ¬ Admitted args nodes verified) :
    NetworkEquivalent hasher codecs args nodes := by
  obtain ⟨e, hbuild⟩ : ∃ e, (buildDkgNetworkMessages hasher codecs args).run nodes =
      .error (.error e) nodes :=
    run_buildDkgNetworkMessages_of_not_admitted h
  have hnet : networkCeremony hasher codecs args nodes = .error (.error e) := by
    rw [networkCeremony, hbuild]
  have hprocess : ∀ r nodes',
      (runDkgCeremonyWithAuthenticatedKeys hasher args).run nodes ≠ .ok r nodes' := by
    intro r nodes' hrun
    obtain ⟨-, verified, hadm, -⟩ := run_runDkgCeremonyWithAuthenticatedKeys_ok.1 hrun
    exact h verified hadm
  refine ⟨?_, ?_, ?_, ?_, fun _ _ _ => ⟨e, hbuild⟩⟩
  · rw [hnet]
    exact noPanic_error e
  · intro results hresults
    cases hnet.symm.trans hresults
  · constructor
    · rintro ⟨outputs, houtputs⟩
      cases hnet.symm.trans houtputs
    · rintro ⟨r, nodes', hrun⟩
      exact absurd hrun (hprocess r nodes')
  · intro outputs r nodes' _ hrun
    exact absurd hrun (hprocess r nodes')

/-! ### Arguments that are accepted -/

section

variable (hdoc : DkgDocumented D X codecs) (hadm : Admitted args nodes verified)
  (hadmissible : Admissible args nodes verified)

include hdoc hadm hadmissible

theorem noPanicAt_buildDkgNetworkMessages :
    NoPanicAt (buildDkgNetworkMessages hasher codecs args) nodes := by
  obtain ⟨keys, hkeys⟩ := exists_encPubBytes hdoc.lossless hadm.verified_eq
  obtain ⟨first, rest, hcons⟩ := exists_cons_of_ne_nil hadmissible.ne_nil
  have hfirst : nodes.head? = some first := by rw [hcons, List.head?_cons]
  simp only [NoPanicAt, buildDkgNetworkMessages, run_get_bind, run_check_bind, hadm.length_eq,
    if_true, run_lift_bind, hadm.verified_eq, hkeys, okOr_eq_ok.2 hfirst]
  refine (noPanicAt_respondRound1 args.ceremonyId hdoc.writes).bind fun out nodes₁ hrespond => ?_
  obtain ⟨responses, broadcasts⟩ := out
  have hpart1 := (run_respondRound1_ok args.ceremonyId hdoc.writes).1 ⟨responses, hrespond⟩
  have hsame := sameParticipant_broadcastRound1 hpart1
  refine NoPanicAt.bind ?_ fun _ _ _ => noPanic_ok _
  refine noPanicAt_routeRound2 hdoc.lawful (noPanic_pack hdoc.roundTrips) ?_ ?_
    fun v hv => mem_of_broadcastRound1 hpart1 hv
  · simp [hadm.length_eq, hsame.length_eq]
  · exact numbered_of_sameParticipant hsame hadmissible.numbered

/-- **No panic**, in the messages or at a node. -/
theorem noPanic_networkCeremony :
    NoPanic (networkCeremony hasher codecs args nodes) ∧
      ∀ results, networkCeremony hasher codecs args nodes = .ok results →
        ∀ r ∈ results, NoPanic r := by
  have hno : NoPanicAt (buildDkgNetworkMessages hasher codecs args) nodes :=
    noPanicAt_buildDkgNetworkMessages hdoc hadm hadmissible
  rcases hbuild : (buildDkgNetworkMessages hasher codecs args).run nodes with
    ⟨messages, nodes₂⟩ | ⟨e, nodes'⟩
  · obtain ⟨broadcasts, nodes₁, hpart1, hsent, hnet⟩ :=
      networkCeremony_of_build hdoc hadm.verified_eq hadmissible.announced hbuild
    rw [hnet]
    refine ⟨noPanic_ok _, fun results hresults r hr => ?_⟩
    obtain rfl := Except.ok.inj hresults
    obtain ⟨node, hnode, rfl⟩ := mem_map.1 hr
    have hsame₁ := sameParticipant_broadcastRound1 hpart1
    have hnum := numbered_of_sameParticipant (sameParticipant_sentToKnown hsent)
      (numbered_of_sameParticipant hsame₁ hadmissible.numbered)
    refine noPanicAt_part3 hdoc.lawful (hnum node hnode) fun v hv => ?_
    obtain ⟨sender, hsend, rfl, -⟩ := mem_inboxOf.1 hv
    rw [← map_verifierId_eq hsame₁]
    exact mem_map_of_mem hsend
  · rw [NoPanicAt, hbuild] at hno
    rw [networkCeremony, hbuild]
    refine ⟨hno.of_error, fun results hresults => ?_⟩
    cases hresults

/-- The ceremony in one process is the same exchange. -/
theorem run_runDkgCeremonyWithAuthenticatedKeys_eq_ok :
    (runDkgCeremonyWithAuthenticatedKeys hasher args).run nodes = .ok r nodes' ↔
      ∃ broadcasts nodes₁ nodes₂ results,
        DkgExchange hasher args.random (· ∈ verified) nodes broadcasts nodes₁ nodes₂ results ∧
        consistentOutput D (results.map Prod.fst) = .ok r ∧ nodes' = results.map Prod.snd := by
  have hknown : (· ∈ encPubMapOf nodes args.encKeys) = (· ∈ verified) := by
    funext v
    exact propext ((mem_encPubMapOf hadm.length_eq).trans (mem_verified hadm.verified_eq).symm)
  have henc : (runDkgCeremonyEncrypted hasher args.ceremonyId args.encKeys args.random
      args.nonces).run nodes = .ok r nodes' ↔ nodes ≠ [] ∧ _ :=
    run_runDkgCeremonyEncrypted_ok hdoc.sealing hdoc.roundTrips hadmissible.nodup hadm.length_eq
  rw [hknown] at henc
  rw [run_runDkgCeremonyWithAuthenticatedKeys_ok]
  constructor
  · rintro ⟨-, _, -, -, hrun⟩
    exact (henc.1 hrun).2
  · intro h
    exact ⟨hadmissible.ne_nil, verified, hadm, hadmissible.announced,
      henc.2 ⟨hadmissible.ne_nil, h⟩⟩

/-- Without need of the missing checks, the two ceremonies do the same. -/
theorem networkEquivalent_of_admissible :
    NetworkEquivalent hasher codecs args nodes := by
  have hnet : ∀ outputs : List (DkgOutput F G),
      networkCeremony hasher codecs args nodes = .ok (outputs.map .ok) ↔ _ := fun outputs =>
    networkCeremony_eq_ok hdoc hadm.length_eq hadm.verified_eq hadmissible.announced
      hadmissible.ne_nil
  refine ⟨(noPanic_networkCeremony hdoc hadm hadmissible).1,
    (noPanic_networkCeremony hdoc hadm hadmissible).2, ?_, ?_,
    fun verified' hver hnot => ?_⟩
  · constructor
    · rintro ⟨outputs, houtputs⟩
      obtain ⟨broadcasts, nodes₁, nodes₂, results, hexch, -⟩ := (hnet outputs).1 houtputs
      obtain ⟨r, hr⟩ := hexch.exists_consistentOutput hdoc.lawful hadmissible.nodup
        hadmissible.numbered hadmissible.ne_nil
      exact ⟨r, _, (run_runDkgCeremonyWithAuthenticatedKeys_eq_ok hdoc hadm hadmissible).2
        ⟨broadcasts, nodes₁, nodes₂, results, hexch, hr, rfl⟩⟩
    · rintro ⟨r, nodes', hrun⟩
      obtain ⟨broadcasts, nodes₁, nodes₂, results, hexch, -⟩ :=
        (run_runDkgCeremonyWithAuthenticatedKeys_eq_ok hdoc hadm hadmissible).1 hrun
      exact ⟨_, (hnet _).2 ⟨broadcasts, nodes₁, nodes₂, results, hexch, rfl⟩⟩
  · intro outputs r nodes' houtputs hrun
    obtain ⟨_, _, _, results, hexch, rfl⟩ := (hnet outputs).1 houtputs
    obtain ⟨_, _, _, results', hexchange', hconsistent, -⟩ :=
      (run_runDkgCeremonyWithAuthenticatedKeys_eq_ok hdoc hadm hadmissible).1 hrun
    obtain rfl := hexch.unique hexchange'
    rcases results' with _ | ⟨first, rest⟩
    · cases hconsistent
    · obtain ⟨hall, rfl⟩ := consistentOutput_cons.1 hconsistent
      exact ⟨rfl, rfl, forall_mem_cons.2 ⟨rfl, hall⟩⟩
  · obtain rfl := Except.ok.inj (hver.symm.trans hadm.verified_eq)
    exact absurd hadmissible.announced hnot

end

/-! ### What is necessary -/

section

variable {node : FrostDkgNode D} {broadcasts : D.Round1Map}

theorem NetworkEquivalent.ne_nil (h : NetworkEquivalent hasher codecs args nodes)
    (hadm : Admitted args nodes verified) : nodes ≠ [] := by
  rintro rfl
  refine h.noPanic "index out of bounds: the len is 0 but the index is 0" ?_
  have hkeys : encPubBytes codecs verified ([].map (verifierId (D := D))) = .ok [] := rfl
  have hbuild : (buildDkgNetworkMessages hasher codecs args).run [] =
      .error (.panic "index out of bounds: the len is 0 but the index is 0") [] := by
    simp only [buildDkgNetworkMessages, run_get_bind, run_check_bind, hadm.length_eq,
      if_true, run_lift_bind, hadm.verified_eq, hkeys]
    rfl
  rw [networkCeremony, hbuild]

omit [DecidableEq F] in
def FirstBegun : List (FrostDkgNode D) → Prop
  | [] => False
  | node :: _ => node.state ≠ .initial

theorem state_routeNode_ne_initial {κ β γ : Type} (R : Routing D κ β γ) (k : κ)
    (routed : HashMap VerifierId β) (hnode : node.state ≠ .initial) :
    (resultOf ((routeNode R hasher broadcasts k routed).run node)).2.state ≠ .initial := by
  have hpart2 := ((observed_part2 hasher node
    (othersOf hasher broadcasts node.verifierId)).ne_initial hnode).1
  rw [routeNode, run_get_bind]
  refine resultOf_bind_snd (P := fun node : FrostDkgNode D => node.state ≠ .initial)
    (fun e t hrun => ?_) fun out t hrun => ?_
  · rw [answer, hrun] at hpart2
    exact hpart2
  · rw [answer, hrun] at hpart2
    rcases routeOutbound R hasher k node.verifierId out routed with e | routed' <;> exact hpart2

theorem firstBegun_routeRound2 {κ β γ : Type} (R : Routing D κ β γ) (items : List κ)
    (h : FirstBegun nodes) :
    FirstBegun (resultOf ((routeRound2 R hasher broadcasts items).run nodes)).2 := by
  have hall := forall₂_iterMut (f := routeNode R hasher broadcasts)
    (P := fun node node' : FrostDkgNode D => node.state ≠ .initial → node'.state ≠ .initial)
    (fun _ => id) (fun k routed node => state_routeNode_ne_initial R k routed) items ∅ nodes
  rcases nodes with _ | ⟨node, nodes⟩
  · exact h.elim
  · obtain ⟨node', nodes', hfirst, -, heq⟩ := forall₂_cons_left_iff.1 hall
    rw [routeRound2, heq]
    exact hfirst h

omit [DecidableEq F] in
theorem firstBegun_respondRound1 (hdoc : DkgDocumented D X codecs) (ceremonyId : DkgCeremonyId)
    (random : ℕ → D.Random) (hinit : node.state = .initial)
    (hle : node.minSigners ≤ node.maxSigners) (nodes : List (FrostDkgNode D)) :
    FirstBegun (resultOf ((respondRound1 ceremonyId random).run (node :: nodes))).2 := by
  obtain ⟨⟨secret, pkg⟩, hpart1⟩ := hdoc.lawful.exists_part1 node.identifier (random 0)
    node.two_le_minSigners hle
  obtain ⟨bytes, hbytes⟩ := hdoc.writes pkg
  have hturn : (respondNode ceremonyId random 0 ([], ∅)).run node =
      .ok _ { node with state := .afterPart1 secret } :=
    run_respondNode_ok.2 ⟨pkg, bytes, run_part1_ok.2 ⟨hinit, secret, hpart1, rfl⟩, hbytes, rfl⟩
  have hrun : (respondRound1 ceremonyId random).run (node :: nodes) =
      (iterMut (respondNode ceremonyId random) (List.range (nodes.length + 1)) ([], ∅)).run
        (node :: nodes) := rfl
  obtain ⟨nodes', hend⟩ := exists_resultOf_iterMut_cons hturn
    ((List.range nodes.length).map Nat.succ) nodes
  rw [hrun, range_succ_eq_map, hend]
  exact nofun

/-- A first node that can begin does so. -/
theorem firstBegun_buildDkgNetworkMessages (hdoc : DkgDocumented D X codecs)
    (hadm : Admitted args (node :: nodes) verified) (hinit : node.state = .initial)
    (hle : node.minSigners ≤ node.maxSigners) :
    FirstBegun (resultOf ((buildDkgNetworkMessages hasher codecs args).run (node :: nodes))).2 := by
  obtain ⟨keys, hkeys⟩ := exists_encPubBytes hdoc.lossless hadm.verified_eq
  simp only [buildDkgNetworkMessages, run_get_bind, run_check_bind, hadm.length_eq, if_true,
    run_lift_bind, hadm.verified_eq, hkeys, okOr_eq_ok.2 List.head?_cons]
  have hround1 := firstBegun_respondRound1 hdoc args.ceremonyId args.random hinit hle nodes
  refine resultOf_bind_snd (fun e t hrun => ?_) fun acc t hrun => ?_
  · rw [hrun] at hround1
    exact hround1
  · rw [hrun] at hround1
    have hround2 : FirstBegun (resultOf ((routeRound2 (networkRouting D X codecs args.ceremonyId
        verified args.nonces) hasher acc.2 ((List.range (node :: nodes).length).zip
          args.encKeys)).run t)).2 :=
      firstBegun_routeRound2 _ _ hround1
    refine resultOf_bind_snd (fun e t' hroute => ?_) fun routed t' hroute => ?_
    · rw [hroute] at hround2
      exact hround2
    · rw [hroute] at hround2
      exact hround2

/-- A key that was not announced does not stop the messages. -/
theorem NetworkEquivalent.announced (h : NetworkEquivalent hasher codecs args nodes)
    (hdoc : DkgDocumented D X codecs) (hadm : Admitted args nodes verified)
    (hinit : ∀ node ∈ nodes, node.state = .initial)
    (hle : ∀ node ∈ nodes, node.minSigners ≤ node.maxSigners) :
    Announced verified (nodes.map verifierId) args.encKeys := by
  by_contra hnot
  obtain ⟨node, rest, rfl⟩ := exists_cons_of_ne_nil (h.ne_nil hadm)
  obtain ⟨e, hbuild⟩ := h.rejects verified hadm.verified_eq hnot
  have hbegun : FirstBegun (resultOf ((buildDkgNetworkMessages hasher codecs args).run
      (node :: rest))).2 :=
    firstBegun_buildDkgNetworkMessages hdoc hadm (hinit node mem_cons_self) (hle node mem_cons_self)
  rw [hbuild] at hbegun
  exact hbegun (hinit node mem_cons_self)

end

end

/-! ### The small ceremony, with messages -/

def smallCodecs : DkgCodecs where
  publicKey := ⟨fun pk => .ok pk.toBytes.toList, fun bytes => .ok (.fromBytes (bytesAt 32 0 bytes))⟩
  encPackage :=
    ⟨fun c => .ok (c.ceremonyId.toList ++ (c.senderId.toList ++ (c.recipientId.toList ++
        (c.nonce.toList ++ c.version :: c.ciphertext)))),
      fun bytes =>
        match bytes.drop 104 with
        | [] => .error "EOF while parsing an object"
        | version :: ciphertext => .ok ⟨version, bytesAt 16 0 bytes, bytesAt 32 16 bytes,
            bytesAt 32 48 bytes, bytesAt 24 80 bytes, ciphertext⟩⟩

theorem lossless_smallCodecs : smallCodecs.Lossless where
  exists_publicKey pk := ⟨_, rfl⟩
  exists_encPackage c := by
    refine ⟨_, rfl, ?_⟩
    have hdrop : (c.ceremonyId.toList ++ (c.senderId.toList ++ (c.recipientId.toList ++
        (c.nonce.toList ++ c.version :: c.ciphertext)))).drop 104 = c.version :: c.ciphertext := by
      simp only [← append_assoc]
      exact drop_left' (by simp)
    simp [smallCodecs, hdrop]

def smallSigners : List (VerifierKeyPair AttestationEnvelope.DigestKey) :=
  [⟨firstVerifier, ⟨[1]⟩⟩, ⟨secondVerifier, ⟨[2]⟩⟩]

def smallArguments :
    DkgArguments Wide.crates SmallSealing.crates AttestationEnvelope.DigestKey where
  ceremonyId := smallCeremonyId
  encKeys := smallKeys
  announcements := List.zipWith (createDkgKeyAnnouncement · smallCeremonyId) smallKeys smallSigners
  registry := ⟨Finmap.insert secondVerifier ⟨[2]⟩ (Finmap.insert firstVerifier ⟨[1]⟩ ∅)⟩
  random := smallRandom
  nonces := smallNonces

theorem documented_small : DkgDocumented Wide.crates SmallSealing.crates smallCodecs where
  lawful := Wide.lawful_crates
  writes _ := ⟨_, rfl⟩
  roundTrips := Wide.roundTrips_crates
  sealing := SmallSealing.lawful_crates
  lossless := lossless_smallCodecs

def smallVerified : EncPubMap :=
  Finmap.insert secondVerifier (.fromBytes (.replicate 32 15))
    (Finmap.insert firstVerifier (.fromBytes (.replicate 32 9)) ∅)

theorem secondVerifier_ne_firstVerifier : secondVerifier ≠ firstVerifier := by decide

theorem admitted_small : Admitted smallArguments [firstNode, secondNode] smallVerified := by
  have hauth : ∀ (encKey : DkgEncryptionKeyPair SmallSealing.crates),
      ∀ signer : VerifierKeyPair AttestationEnvelope.DigestKey,
      smallArguments.registry.entries.lookup signer.verifierId = some signer.signingKey →
      smallArguments.registry.Authentic smallCeremonyId
        (createDkgKeyAnnouncement encKey smallCeremonyId signer) := fun encKey signer hkey =>
    DkgParticipantRegistry.authentic_createDkgKeyAnnouncement encKey smallCeremonyId signer hkey
      fun msg => decide_eq_true rfl
  have hfirst : smallArguments.registry.entries.lookup firstVerifier = some ⟨[1]⟩ := by
    rw [smallArguments, lookup_insert_of_ne _ secondVerifier_ne_firstVerifier.symm, lookup_insert]
  have hsecond : smallArguments.registry.entries.lookup secondVerifier = some ⟨[2]⟩ :=
    lookup_insert _
  refine ⟨rfl, verifiedEncPubMap_eq_ok.2
    (DkgParticipantRegistry.collectVerifiedEncKeys_eq_ok.2 ⟨?_, ?_⟩)⟩
  · refine foldlM_cons_eq_ok.2 ⟨_, DkgParticipantRegistry.collectAnnouncement_eq_ok.2
      ⟨hauth _ ⟨firstVerifier, ⟨[1]⟩⟩ hfirst, mem_cons_self, notMem_empty, rfl⟩, ?_⟩
    refine foldlM_cons_eq_ok.2 ⟨_, DkgParticipantRegistry.collectAnnouncement_eq_ok.2
      ⟨hauth _ ⟨secondVerifier, ⟨[2]⟩⟩ hsecond, by decide, ?_, rfl⟩, foldlM_nil_eq_ok.2 ?_⟩
    · rw [mem_insert]
      exact not_or.2 ⟨secondVerifier_ne_firstVerifier, notMem_empty⟩
    · rfl
  · intro v hv
    simp only [smallVerified, mem_insert]
    rcases mem_cons.1 hv with rfl | hv
    · exact .inr (.inl rfl)
    · exact .inl (mem_singleton.1 hv)

theorem admissible_small : Admissible smallArguments [firstNode, secondNode] smallVerified where
  ne_nil := nofun
  announced := by
    refine forall_mem_cons.2 ⟨?_, forall_mem_cons.2 ⟨lookup_insert _, nofun⟩⟩
    exact (lookup_insert_of_ne _ secondVerifier_ne_firstVerifier.symm).trans (lookup_insert _)
  nodup := nodup_twoVerifiers
  numbered :=
    forall_mem_cons.2 ⟨numbered_of_length_lt (by decide) _,
      forall_mem_cons.2 ⟨numbered_of_length_lt (by decide) _, nofun⟩⟩

theorem exists_runDkgCeremonyWithAuthenticatedKeys_small :
    ∃ r nodes', (runDkgCeremonyWithAuthenticatedKeys (.inOrder VerifierId) smallArguments).run
      [firstNode, secondNode] = .ok r nodes' := by
  obtain ⟨r, nodes', hplain⟩ := exists_runDkgCeremony_small
  refine ⟨r, nodes', run_runDkgCeremonyWithAuthenticatedKeys_ok.2 ⟨admissible_small.ne_nil, _,
    admitted_small, admissible_small.announced, ?_⟩⟩
  exact (run_runDkgCeremonyEncrypted_ok_iff Wide.lawful_crates Wide.roundTrips_crates
    SmallSealing.lawful_crates admissible_small.nodup admitted_small.length_eq).2 hplain

/-! ### Where the two ceremonies do the same -/

section

variable {F G : Type} [Field F] [AddCommGroup G] [Module F G] [DecidableEq F] {D : DkgCrates F G}
  {X : SealingCrates} {VerifyingKey : Type} [Verifier VerifyingKey] {hasher : Hasher VerifierId}
  {codecs : DkgCodecs} {args : DkgArguments D X VerifyingKey} {nodes : List (FrostDkgNode D)}

/-- **Where the two ceremonies do the same**, for nodes that have not begun. -/
theorem networkEquivalent_where_admissible (hdoc : DkgDocumented D X codecs)
    (hinit : ∀ node ∈ nodes, node.state = .initial) :
    ((∀ verified, Admitted args nodes verified → Admissible args nodes verified) →
      NetworkEquivalent hasher codecs args nodes) ∧
    ((nodes.map verifierId).Nodup → (∀ node ∈ nodes, node.Numbered (nodes.map verifierId)) →
      (∀ node ∈ nodes, node.minSigners ≤ node.maxSigners) →
      (NetworkEquivalent hasher codecs args nodes ↔
        ∀ verified, Admitted args nodes verified → Admissible args nodes verified)) := by
  have henough : (∀ verified, Admitted args nodes verified → Admissible args nodes verified) →
      NetworkEquivalent hasher codecs args nodes := by
    intro hadmissible
    by_cases hadm : ∃ verified, Admitted args nodes verified
    · obtain ⟨verified, hadm⟩ := hadm
      exact networkEquivalent_of_admissible hdoc hadm (hadmissible verified hadm)
    · exact networkEquivalent_of_not_admitted (not_exists.1 hadm)
  refine ⟨henough, fun hnodup hnum hle => ⟨fun h verified hadm => ?_, henough⟩⟩
  exact ⟨h.ne_nil hadm, h.announced hdoc hadm hinit hle, hnodup, hnum⟩

end

/-- The two participants get their key by messages too. -/
theorem networkEquivalent_where_admissible_small :
    NetworkEquivalent (.inOrder VerifierId) smallCodecs smallArguments [firstNode, secondNode] ∧
      ∃ outputs : List (FrostAuxiliaryNode Wide Wide × FrostGroupKey Wide Wide),
        networkCeremony (.inOrder VerifierId) smallCodecs smallArguments [firstNode, secondNode] =
          .ok (outputs.map .ok) := by
  have hinit : ∀ node ∈ [firstNode, secondNode], node.state = .initial :=
    List.forall_mem_cons.2 ⟨rfl, List.forall_mem_cons.2 ⟨rfl, nofun⟩⟩
  have hadmissible : ∀ verified, Admitted smallArguments [firstNode, secondNode] verified →
      Admissible smallArguments [firstNode, secondNode] verified := by
    intro verified hadm
    obtain rfl := Except.ok.inj (hadm.verified_eq.symm.trans admitted_small.verified_eq)
    exact admissible_small
  have h : NetworkEquivalent (.inOrder VerifierId) smallCodecs smallArguments
      [firstNode, secondNode] :=
    (networkEquivalent_where_admissible documented_small hinit).1 hadmissible
  exact ⟨h, h.succeeds_iff.2 exists_runDkgCeremonyWithAuthenticatedKeys_small⟩

def emptyArguments :
    DkgArguments Wide.crates SmallSealing.crates AttestationEnvelope.DigestKey where
  ceremonyId := smallCeremonyId
  encKeys := []
  announcements := []
  registry := ⟨∅⟩
  random := smallRandom
  nonces := smallNonces

theorem not_networkEquivalent_nil :
    ¬ NetworkEquivalent (.inOrder VerifierId) smallCodecs emptyArguments [] := by
  intro h
  have hadm : Admitted emptyArguments [] ∅ := ⟨rfl, rfl⟩
  exact h.ne_nil hadm rfl

end TlsAttestation
