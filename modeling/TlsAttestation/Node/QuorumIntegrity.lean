import TlsAttestation.Node.Coordinator

/-!
# Who has signed

There are the quorum of the session, the signers, whose approvals are recorded, and the senders of
the signature shares; of two senders with one identifier the later one replaces the earlier. The
coordinator compares only lengths. `quorumIntegrity_iff` says what would have to be compared.
-/

namespace TlsAttestation

open ByteEncoding Collect Effect Fallible Frost List
open SessionStore (hasApproved)

variable {S F G N : Type} [SessionStore S] [Field F] [DecidableEq F]

/-! ### Whose shares are aggregated -/

variable (groupKey : FrostGroupKey F G)

def contributors (senders : List VerifierId) :
    Finmap fun _ : Identifier F => VerifierId :=
  collect (senders.filterMap fun v => (groupKey.verifierToIdentifier v).map (·, v))

def aggregatedVerifiers (senders : List VerifierId) :
    Finset VerifierId :=
  senders.toFinset.filter fun v => ∃ id ∈ groupKey.verifierToIdentifier v,
    (contributors groupKey senders).lookup id = some v

section

variable {groupKey : FrostGroupKey F G} {senders : List VerifierId}

/-- **Every share that is aggregated** is one of an aggregated verifier. -/
theorem exists_mem_aggregatedVerifiers [AddCommGroup G] [Module F G] {C : FrostCrates F G}
    {shares : List (VerifierId × Bytes)} {m : Finmap fun _ : Identifier F => F}
    (hm : collectShares C shares groupKey = .ok m)
    {id : Identifier F} {z : F} (hz : m.lookup id = some z) :
    ∃ s ∈ shares, s.1 ∈ aggregatedVerifiers groupKey (shares.map Prod.fst) ∧
      FrostSignatureShare.fromBytes C s.2 s.1 groupKey = .ok ⟨id, z⟩ := by
  obtain ⟨zs, hzs, rfl⟩ := collectShares_eq_ok.1 hm
  -- Both maps are built from the pairs of a message and its share.
  have hfst : (shares.zip zs).map Prod.fst = shares := map_fst_zip hzs.length_eq.le
  have hsnd : (shares.zip zs).map Prod.snd = zs := map_snd_zip hzs.length_eq.ge
  have hpair : ∀ e ∈ shares.zip zs, FrostSignatureShare.fromBytes C e.1.2 e.1.1 groupKey =
      .ok e.2 := fun e he => forall₂_iff_zip.1 hzs |>.2 he
  have hcontributors : contributors groupKey (shares.map Prod.fst) =
      collect ((shares.zip zs).map fun e => (e.2.identifier, e.1.1)) := by
    unfold contributors
    congr 1
    conv_lhs => rw [← hfst, map_map, filterMap_map]
    rw [← congrFun filterMap_eq_map]
    refine filterMap_congr fun e he => ?_
    simp [(FrostSignatureShare.fromBytes_eq_ok.1 (hpair e he)).1]
  have hz' : (collect ((shares.zip zs).map fun e => (e.2.identifier, e.2.inner))).lookup id =
      some z := by
    rw [← hsnd, map_map] at hz
    exact hz
  obtain ⟨e, he, hid, hinner, hlookup⟩ := exists_lookup_collect_map (fun e => e.1.1) hz'
  have hfrom := hpair e he
  have hmem : e.1 ∈ shares := by
    rw [← hfst]
    exact mem_map_of_mem he
  refine ⟨e.1, hmem, Finset.mem_filter.2 ⟨?_, id, ?_, ?_⟩, ?_⟩
  · exact mem_toFinset.2 (mem_map_of_mem hmem)
  · rw [← hid]
    exact (FrostSignatureShare.fromBytes_eq_ok.1 hfrom).1
  · rw [hcontributors]
    exact hlookup
  · rw [hfrom, ← hid, ← hinner]

theorem aggregatedVerifiers_subset : aggregatedVerifiers groupKey senders ⊆ senders.toFinset :=
  Finset.filter_subset _ _

theorem aggregatedVerifiers_eq
    (hknown : ∀ v ∈ senders, ∃ id, groupKey.verifierToIdentifier v = some id)
    (hinj : Set.InjOn groupKey.verifierToIdentifier {v | v ∈ senders}) :
    aggregatedVerifiers groupKey senders = senders.toFinset := by
  refine Finset.filter_true_of_mem fun v hv => ?_
  have hv := mem_toFinset.1 hv
  obtain ⟨id, hid⟩ := hknown v hv
  refine ⟨id, hid, lookup_collect_of_mem ?_ fun u hu => ?_⟩
  · exact mem_filterMap.2 ⟨v, hv, by simp [hid]⟩
  · obtain ⟨u', hu', heq⟩ := mem_filterMap.1 hu
    obtain ⟨id', hid', hpair⟩ := Option.map_eq_some_iff.1 heq
    obtain ⟨rfl, rfl⟩ := Prod.mk.inj hpair
    exact hinj hu' hv (hid'.trans hid.symm)

theorem injOn_of_aggregatedVerifiers_eq
    (h : aggregatedVerifiers groupKey senders = senders.toFinset) :
    Set.InjOn groupKey.verifierToIdentifier {v | v ∈ senders} := by
  intro v hv w hw hvw
  have hmem : ∀ u ∈ senders, u ∈ aggregatedVerifiers groupKey senders := fun u hu => by
    rw [h]
    exact mem_toFinset.2 hu
  obtain ⟨-, id, hid, hlookup⟩ := Finset.mem_filter.1 (hmem v hv)
  obtain ⟨-, id', hid', hlookup'⟩ := Finset.mem_filter.1 (hmem w hw)
  have hids : id = id' := Option.some.inj ((hid.symm.trans hvw).trans hid')
  subst hids
  exact Option.some.inj (hlookup.symm.trans hlookup')

end

/-! ### What a success means on every path -/

variable [AddCommGroup G] [Module F G] [DecidableEq G]

/-- What is known of a returned envelope: who is recorded, and whose shares came in. -/
structure Attested (C : FrostCrates F G) (c : CoordinatorNode) (groupKey : FrostGroupKey F G)
    (signers senders : List VerifierId) (env : FrostAttestationEnvelope) (store : S) : Prop where
  quorum : env.session.quorum = c.config.quorum
  enough : c.config.quorum.threshold.toNat ≤ signers.length
  nodup : signers.Nodup
  recorded : ∀ v, hasApproved store env.session.sessionId v = true ↔ v ∈ signers
  length : senders.length = signers.length
  known : ∀ v ∈ senders, ∃ id, groupKey.verifierToIdentifier v = some id
  envelopeDigest : env.envelopeDigest = AttestationEnvelope.computeDigest env.session
    env.randomness env.transcript env.statement env.coordinatorEvidence
  approved : ApprovedByGroup C groupKey (approvalSignedDigest env.envelopeDigest) env.frostApproval

variable [LawfulSessionStore S] {C : NodeCrates F G} {c : CoordinatorNode} {draws : Draws}
  {request : AttestationRequest} {response : RVec UInt8} {groupKey : FrostGroupKey F G}
  {w w' : World S F G N} {env : FrostAttestationEnvelope} {senders : List VerifierId}

omit [DecidableEq F] in
theorem attested_finalize {p : PreparedSession} {session : Session} {signers : List VerifierId}
    {approval : FrostThresholdApproval} (hready : p.Ready c w.store)
    (hknown : ∀ v ∈ senders, ∃ id, groupKey.verifierToIdentifier v = some id)
    (hlen : senders.length = signers.length)
    (henough : c.config.quorum.threshold.toNat ≤ signers.length)
    (happ : ApprovedByGroup C.toFrostCrates groupKey p.signedDigest approval)
    (hrun : (CoordinatorNode.finalize p session signers approval).run w = .ok env w') :
    Attested C.toFrostCrates c groupKey signers senders env w'.store := by
  obtain ⟨rfl, hnodup, hrec⟩ := run_finalize_ok hrun
  refine ⟨hready.quorum, henough, hnodup, fun v => ?_, hlen, hknown, hready.envelopeDigest, ?_⟩
  · show hasApproved w'.store p.sessionCtx.sessionId v = true ↔ v ∈ signers
    rw [hready.sessionId, hrec v, hready.hasApproved v]
    simp
  · show ApprovedByGroup C.toFrostCrates groupKey (approvalSignedDigest p.envelopeDigest) approval
    rw [← hready.signedDigest]
    exact happ

theorem attested_attestFrost {frostSigners : List (FrostParticipant F G)}
    (h : (c.attestFrost C draws request response frostSigners groupKey).run w =
      .ok (env, senders) w') :
    Attested C.toFrostCrates c groupKey (frostSigners.map FrostParticipant.verifierId) senders env
        w'.store ∧
      senders = frostSigners.map FrostParticipant.verifierId := by
  obtain ⟨p, w₁, hprep, h⟩ := run_bind_ok.1 h
  obtain ⟨session, w₂, hcoll, h⟩ := run_bind_ok.1 h
  have hready := (ready_prepareSession hprep).1.advance hcoll
  dsimp only at h
  split at h
  · exact absurd h not_run_failSession_ok
  · rename_i henough
    simp only [run_bind_ok, run_lift_ok, run_pure_ok] at h
    obtain ⟨approval, _, ⟨happroval, rfl⟩, _, _, hfinal, heq, rfl⟩ := h
    obtain ⟨rfl, rfl⟩ := Prod.mk.inj heq
    obtain ⟨hknown, hgroup⟩ := frostCollectApproval_spec happroval
    refine ⟨attested_finalize hready ?_ rfl ?_ hgroup hfinal, rfl⟩
    · rintro v hv
      obtain ⟨signer, hsigner, rfl⟩ := mem_map.1 hv
      exact hknown signer hsigner
    · rw [length_map]
      exact not_lt.1 henough

variable {registryEpoch : RegistryEpoch}

theorem attested_distributedRounds {kind : String} {peers : List (FrostNodeTransport F G N)}
    {I : Outside F G N → Prop}
    {P : FrostNodeTransport F G N → VerifierId → Prop}
    (hround1 : ∀ peer ∈ peers, ∀ req now o resp o', I o →
      (peer.frostRound1 req now).run o = .ok resp o' → I o')
    (hround2 : ∀ peer ∈ peers, ∀ req o resp o', I o →
      (peer.frostRound2 req).run o = .ok resp o' → P peer resp.verifierId ∧ I o')
    (hinv : I w.outside)
    (h : (c.distributedRounds C draws request response kind peers groupKey registryEpoch).run w =
      .ok (env, senders) w') :
    Attested C.toFrostCrates c groupKey (peers.map FrostNodeTransport.verifierId) senders env
        w'.store ∧
      Forall₂ P peers senders := by
  obtain ⟨p, w₁, hprep, h⟩ := run_bind_ok.1 h
  obtain ⟨session, w₂, hcoll, h⟩ := run_bind_ok.1 h
  obtain ⟨hready, houtside₁⟩ := ready_prepareSession hprep
  have houtside : w₂.outside = w.outside := (run_advance_ok hcoll).2.trans houtside₁
  replace hready := hready.advance hcoll
  dsimp only at h
  split at h
  · exact absurd h not_run_failSession_ok
  · rename_i henough
    simp only [run_bind_ok, run_lift_ok, run_pure_ok] at h
    obtain ⟨responses₁, w₃, hr₁, ⟨package, bytes⟩, _, ⟨hpkg, rfl⟩, responses₂, w₄, hr₂, approval,
      _, ⟨happroval, rfl⟩, _, _, hfinal, heq, rfl⟩ := h
    obtain ⟨rfl, rfl⟩ := Prod.mk.inj heq
    -- The rounds change the outside only.
    obtain ⟨-, hinv₃, hstore₃⟩ := run_forEach_ok (P := fun _ _ => True)
      (I := fun v => I v.outside ∧ v.store = w₂.store) (fun peer hpeer s resp s' hs hrun => by
        obtain ⟨o, ho, rfl⟩ := run_exchange_ok.1 hrun
        exact ⟨trivial, hround1 peer hpeer _ _ _ _ _ hs.1 ho, hs.2⟩)
      ⟨houtside ▸ hinv, rfl⟩ hr₁
    obtain ⟨hP, -, hstore₄⟩ := run_forEach_ok (P := fun peer resp => P peer resp.verifierId)
      (I := fun v => I v.outside ∧ v.store = w₂.store) (fun peer hpeer s resp s' hs hrun => by
        obtain ⟨o, ho, rfl⟩ := run_exchange_ok.1 hrun
        obtain ⟨hPpeer, ho'⟩ := hround2 peer hpeer _ _ _ _ hs.1 ho
        exact ⟨hPpeer, ho', hs.2⟩)
      ⟨hinv₃, hstore₃⟩ hr₂
    have hready₄ : p.Ready c w₄.store := hstore₄ ▸ hready
    simp only [CoordinatorNode.assembleSigningPackageFromResponses, do_eq_ok,
      buildSigningPackage] at hpkg
    obtain ⟨m, _, hpair⟩ := hpkg
    obtain ⟨rfl, rfl⟩ := Prod.mk.inj hpair
    obtain ⟨hknown, hgroup⟩ := aggregateSignatureShares_spec rfl happroval
    refine ⟨attested_finalize hready₄ ?_ ?_ ?_ hgroup hfinal, ?_⟩
    · intro v hv
      obtain ⟨s, hs, rfl⟩ := mem_map.1 hv
      exact hknown s hs
    · simp [hP.length_eq]
    · rw [length_map]
      exact not_lt.1 henough
    · rw [map_map]
      exact forall₂_map_right_iff.2 hP

section

variable {host : Host F G} {i : ℕ} {o o' : Outside F G N}

theorem sameParticipants_inProcess_frostRound1 {req : FrostRound1Request} {now : UnixTimestamp}
    {resp : FrostRound1Response} (ho : host.SameParticipants o.host)
    (hrun : ((CoordinatorNode.inProcess C host i).frostRound1 req now).run o = .ok resp o') :
    host.SameParticipants o'.host := by
  obtain ⟨h, hcall, rfl⟩ := run_zoom_ok.1 hrun
  exact (Host.run_call_ok (P := fun _ _ => True)
    (fun _ _ _ _ hnode => ⟨trivial, (FrostAuxiliaryNode.run_frostRound1_ok hnode).2⟩) ho hcall).2

theorem verifierId_inProcess_frostRound2 {req : FrostRound2Request} {resp : FrostRound2Response}
    (ho : host.SameParticipants o.host)
    (hrun : ((CoordinatorNode.inProcess C host i).frostRound2 req).run o = .ok resp o') :
    (host.nodes i).verifierId = resp.verifierId ∧ host.SameParticipants o'.host := by
  obtain ⟨h, hcall, rfl⟩ := run_zoom_ok.1 hrun
  obtain ⟨hid, hsame⟩ := Host.run_call_ok (P := fun p resp => resp.verifierId = p.verifierId)
    (fun _ _ _ _ hnode => FrostAuxiliaryNode.run_frostRound2_ok hnode) ho hcall
  exact ⟨hid.symm, hsame⟩

end

theorem attested_attestFrostDistributedInner {auxNodes : List ℕ}
    (h : (c.attestFrostDistributedInner C draws request response auxNodes groupKey
      registryEpoch).run w = .ok (env, senders) w') :
    Attested C.toFrostCrates c groupKey
        (auxNodes.map fun i => (w.outside.host.nodes i).verifierId) senders env w'.store ∧
      senders = auxNodes.map fun i => (w.outside.host.nodes i).verifierId := by
  obtain ⟨_, _, hget, h⟩ := run_bind_ok.1 h
  obtain ⟨rfl, rfl⟩ := run_get_ok.1 hget
  have hkeep : w.outside.host.SameParticipants w.outside.host := fun _ => rfl
  obtain ⟨hatt, hsenders⟩ := attested_distributedRounds
    (I := fun o => w.outside.host.SameParticipants o.host) (P := fun peer v => peer.verifierId = v)
    (by
      intro peer hpeer req now o resp o' ho hrun
      obtain ⟨i, -, rfl⟩ := mem_map.1 hpeer
      exact sameParticipants_inProcess_frostRound1 ho hrun)
    (by
      intro peer hpeer req o resp o' ho hrun
      obtain ⟨i, -, rfl⟩ := mem_map.1 hpeer
      exact verifierId_inProcess_frostRound2 ho hrun)
    hkeep h
  rw [map_map] at hatt
  refine ⟨hatt, ?_⟩
  have hnodes := forall₂_map_left_iff.1 hsenders
  have heq : Forall₂ Eq (auxNodes.map fun i => (w.outside.host.nodes i).verifierId) senders :=
    forall₂_map_left_iff.2 hnodes
  rw [forall₂_eq_eq_eq] at heq
  exact heq.symm

/-! ### Quorum integrity -/

/-- The signature is by the quorum and the store says so. -/
structure QuorumIntegrity (c : CoordinatorNode) (groupKey : FrostGroupKey F G)
    (senders : List VerifierId) (env : FrostAttestationEnvelope) (store : S) : Prop where
  enough : c.config.quorum.threshold.toNat ≤
    ((aggregatedVerifiers groupKey senders).filter fun v => v ∈ env.session.quorum.verifiers.1).card
  members : ∀ v ∈ aggregatedVerifiers groupKey senders, v ∈ env.session.quorum.verifiers.1
  recorded : ∀ v, hasApproved store env.session.sessionId v = true ↔
    v ∈ aggregatedVerifiers groupKey senders

omit [LawfulSessionStore S] in
theorem Attested.integrity_iff {C : FrostCrates F G} {signers : List VerifierId} {store : S}
    (h : Attested C c groupKey signers senders env store) :
    QuorumIntegrity c groupKey senders env store ↔
      (∀ v ∈ signers, v ∈ c.config.quorum.verifiers.1) ∧ (∀ v, v ∈ senders ↔ v ∈ signers) ∧
        Set.InjOn groupKey.verifierToIdentifier {v | v ∈ signers} := by
  have hcard : signers.toFinset.card = signers.length := toFinset_card_of_nodup h.nodup
  constructor
  · rintro ⟨-, hmembers, hrec⟩
    have hall : aggregatedVerifiers groupKey senders = signers.toFinset := by
      ext v
      rw [← hrec v, h.recorded v, mem_toFinset]
    -- There are no more senders than signers, so no sender is left over.
    have hsenders : senders.toFinset = signers.toFinset := by
      refine (Finset.eq_of_subset_of_card_le (hall ▸ aggregatedVerifiers_subset) ?_).symm
      rw [hcard, ← h.length]
      exact toFinset_card_le senders
    have hiff : ∀ v, v ∈ senders ↔ v ∈ signers := fun v => by
      rw [← mem_toFinset, hsenders, mem_toFinset]
    refine ⟨fun v hv => ?_, hiff, ?_⟩
    · rw [← h.quorum]
      exact hmembers v (hall ▸ mem_toFinset.2 hv)
    · have hinj := injOn_of_aggregatedVerifiers_eq (hall.trans hsenders.symm)
      simpa only [hiff] using hinj
  · rintro ⟨hquorum, hiff, hinj⟩
    have hall : aggregatedVerifiers groupKey senders = signers.toFinset := by
      rw [aggregatedVerifiers_eq h.known (by simpa only [hiff] using hinj)]
      ext v
      rw [mem_toFinset, mem_toFinset, hiff v]
    have hmembers : ∀ v ∈ aggregatedVerifiers groupKey senders,
        v ∈ env.session.quorum.verifiers.1 := fun v hv => by
      rw [h.quorum]
      exact hquorum v (mem_toFinset.1 (hall ▸ hv))
    refine ⟨?_, hmembers, fun v => ?_⟩
    · rw [Finset.filter_true_of_mem hmembers, hall, hcard]
      exact h.enough
    · rw [h.recorded v, hall, mem_toFinset]

inductive SigningPath (F G N : Type) [Zero F] where
  /-- `attest_frost`, with these key shares. -/
  | keyShares (frostSigners : List (FrostParticipant F G))
  /-- `attest_frost_distributed`. -/
  | nodes (auxNodes : List ℕ)
  /-- `attest_frost_distributed_over_transport`. -/
  | transports (transports : List (FrostNodeTransport F G N))

namespace SigningPath

def run (C : NodeCrates F G) (c : CoordinatorNode) (draws : Draws) (request : AttestationRequest)
    (response : RVec UInt8) (groupKey : FrostGroupKey F G) :
    SigningPath F G N → NodeM S F G N (FrostAttestationEnvelope × List VerifierId)
  | keyShares frostSigners => c.attestFrost C draws request response frostSigners groupKey
  | nodes auxNodes => c.attestFrostDistributed C draws request response auxNodes groupKey
  | transports ts => c.attestFrostDistributedOverTransport C draws request response ts groupKey

def signers (host : Host F G) : SigningPath F G N → List VerifierId
  | keyShares frostSigners => frostSigners.map FrostParticipant.verifierId
  | nodes auxNodes => auxNodes.map fun i => (host.nodes i).verifierId
  | transports ts => ts.map FrostNodeTransport.verifierId

def AnswersMatch (senders : List VerifierId) : SigningPath F G N → Prop
  | keyShares _ | nodes _ => True
  | transports ts => ∀ v, v ∈ senders ↔ v ∈ ts.map FrostNodeTransport.verifierId

/-- **Who is recorded and who sent**, on all paths. -/
theorem attested_run {path : SigningPath F G N}
    (h : (path.run C c draws request response groupKey).run w = .ok (env, senders) w') :
    Attested C.toFrostCrates c groupKey (path.signers w.outside.host) senders env w'.store ∧
      ((∀ v, v ∈ senders ↔ v ∈ path.signers w.outside.host) ↔ path.AnswersMatch senders) := by
  cases path with
  | keyShares frostSigners =>
    obtain ⟨hatt, rfl⟩ := attested_attestFrost h
    exact ⟨hatt, iff_of_true (fun v => Iff.rfl) trivial⟩
  | nodes auxNodes =>
    obtain ⟨hatt, rfl⟩ := attested_attestFrostDistributedInner h
    exact ⟨hatt, iff_of_true (fun v => Iff.rfl) trivial⟩
  | transports ts =>
    obtain ⟨hatt, -⟩ := attested_distributedRounds (I := fun _ => True)
      (P := fun _ _ => True) (fun _ _ _ _ _ _ _ _ _ => trivial)
      (fun _ _ _ _ _ _ _ _ => ⟨trivial, trivial⟩) trivial h
    exact ⟨hatt, Iff.rfl⟩

end SigningPath

/-- **When a signature is by the quorum**: exactly if all signers are in it, the answers came from
them, and they have different identifiers. -/
theorem quorumIntegrity_iff {path : SigningPath F G N}
    (h : (path.run C c draws request response groupKey).run w = .ok (env, senders) w') :
    QuorumIntegrity c groupKey senders env w'.store ↔
      (∀ v ∈ path.signers w.outside.host, v ∈ c.config.quorum.verifiers.1) ∧
        path.AnswersMatch senders ∧
        Set.InjOn groupKey.verifierToIdentifier {v | v ∈ path.signers w.outside.host} := by
  obtain ⟨hatt, hanswers⟩ := SigningPath.attested_run h
  rw [hatt.integrity_iff, hanswers]

/-! ### Small runs -/

def toyVerifier (b : UInt8) : VerifierId := .fromBytes (.replicate 32 b)

variable (verifiers : RVec VerifierId)

def toyCoordinator : CoordinatorNode where
  config := ⟨toyVerifier 7, ⟨0⟩, ⟨verifiers, 2⟩, 3600⟩
  generate sessionId _ epoch _ :=
    .ok ⟨.fromBytes (.replicate 16 0), sessionId, epoch, .zero, [], .zero⟩
  execute := PrototypeAttestationEngine.execute

def toyDraws : Draws where
  now := ⟨100⟩
  sessionId := .fromBytes (.replicate 16 3)
  nonce := .fromBytes (.replicate 32 4)
  random i := (.replicate 32 (.ofNat (i + 1)), .replicate 32 (.ofNat (i + 5)))

def toyRequest : AttestationRequest :=
  ⟨.fromBytes (.replicate 32 5), .fromBytes (.replicate 32 6), .ofString "result/v1",
    .ofList [0x51], 60⟩

def toyWorld : World InMemorySessionStore Toy Toy Unit where
  store := .new
  outside :=
    { host := ⟨fun _ => .new (FrostDvRF.toyParticipant .alice),
        fun _ => ⟨(.replicate 32 0, .replicate 32 0), 0, 0, 0⟩, 0⟩
      network := () }

def toyPath : SigningPath Toy Toy Unit :=
  .keyShares [FrostDvRF.toyParticipant .alice, FrostDvRF.toyParticipant .bob]

def toyAttest :
    EStateM.Result NodeError (World InMemorySessionStore Toy Toy Unit)
      (FrostAttestationEnvelope × List VerifierId) :=
  (toyPath.run toyNodeCrates (toyCoordinator verifiers) toyDraws toyRequest (.ofList [1])
    FrostDvRF.toyGroupKey).run toyWorld

def toyMembers : RVec VerifierId := .ofList [toyVerifier 1, toyVerifier 2, toyVerifier 3]

def strangers : RVec VerifierId := .ofList [toyVerifier 8, toyVerifier 9]

def outcome : EStateM.Result NodeError (World InMemorySessionStore Toy Toy Unit)
    (FrostAttestationEnvelope × List VerifierId) → Option (List VerifierId × DigestBytes)
  | .ok r _ => some (r.2, r.1.envelopeDigest)
  | .error _ _ => none

theorem exists_of_outcome {r : EStateM.Result NodeError
    (World InMemorySessionStore Toy Toy Unit) (FrostAttestationEnvelope × List VerifierId)}
    {senders : List VerifierId} {digest : DigestBytes} (h : outcome r = some (senders, digest)) :
    ∃ env w', r = .ok (env, senders) w' ∧ env.envelopeDigest = digest := by
  rcases r with ⟨⟨env, senders'⟩, w'⟩ | ⟨e, w'⟩
  · obtain ⟨rfl, rfl⟩ := Prod.mk.inj (Option.some.inj h)
    exact ⟨env, w', rfl, rfl⟩
  · cases h

def membersDigest : DigestBytes :=
  .fromBytes ⟨(beBytes 32
    0xba0c548fb2932fd6ef61b6904ea3222e4db8d81fba6441f8a311e4ad9848ba0b).toArray, by simp⟩

def strangersDigest : DigestBytes :=
  .fromBytes ⟨(beBytes 32
    0x347c82e9eb4513e5198f3496bb643daa10c9bc1b046c0b1628c0cc8d8c5ef949).toArray, by simp⟩

set_option maxRecDepth 100000 in
theorem outcome_members :
    outcome (toyAttest toyMembers) = some ([toyVerifier 1, toyVerifier 2], membersDigest) := by
  decide +kernel

set_option maxRecDepth 100000 in
theorem outcome_strangers :
    outcome (toyAttest strangers) = some ([toyVerifier 1, toyVerifier 2], strangersDigest) := by
  decide +kernel

theorem signers_toyPath :
    toyPath.signers toyWorld.outside.host = [toyVerifier 1, toyVerifier 2] := by
  decide

theorem injOn_toyPath :
    Set.InjOn FrostDvRF.toyGroupKey.verifierToIdentifier
      {v | v ∈ toyPath.signers toyWorld.outside.host} := by
  rw [signers_toyPath]
  intro v hv w hw hvw
  simp only [mem_cons, not_mem_nil, or_false, Set.mem_ofPred_eq] at hv hw
  rcases hv with rfl | rfl <;> rcases hw with rfl | rfl
  · rfl
  · exact absurd hvw (by decide)
  · exact absurd hvw (by decide)
  · rfl

/-- Members of the quorum sign. -/
theorem quorumIntegrity_toyMembers :
    ∃ env w', toyAttest toyMembers = .ok (env, [toyVerifier 1, toyVerifier 2]) w' ∧
      QuorumIntegrity (toyCoordinator toyMembers) FrostDvRF.toyGroupKey
        [toyVerifier 1, toyVerifier 2] env w'.store := by
  obtain ⟨env, w', hrun, -⟩ := exists_of_outcome outcome_members
  refine ⟨env, w', hrun, (quorumIntegrity_iff hrun).2 ⟨?_, trivial, injOn_toyPath⟩⟩
  rw [signers_toyPath]
  decide

/-- **Strangers to the quorum sign**, and are taken for it. -/
theorem not_quorumIntegrity_strangers :
    ∃ env w', toyAttest strangers = .ok (env, [toyVerifier 1, toyVerifier 2]) w' ∧
      ¬ QuorumIntegrity (toyCoordinator strangers) FrostDvRF.toyGroupKey
        [toyVerifier 1, toyVerifier 2] env w'.store := by
  obtain ⟨env, w', hrun, -⟩ := exists_of_outcome outcome_strangers
  refine ⟨env, w', hrun, fun hintegrity => ?_⟩
  obtain ⟨hmembers, -⟩ :=
    (SigningPath.attested_run hrun).1.integrity_iff.1 hintegrity
  rw [signers_toyPath] at hmembers
  exact absurd (hmembers (toyVerifier 1) (by simp)) (by decide)

end TlsAttestation
