import TlsAttestation.Lib.Panics
import TlsAttestation.Node.DkgCeremony

/-!
# One key, and no panic

Among 65536 participants or more, two may have the same number, and one has the number zero, whose
lookup panics. If all are `FrostDkgNode.Numbered`, the parts do not panic
(`FrostDkgNode.noPanicAt_part3`), and **all have the same key at the end**
(`DkgExchange.verifyingKey_eq`).
-/

namespace TlsAttestation

open ByteEncoding Effect Fallible Frost FrostDkgNode List

section

variable {F G : Type} [Field F] [AddCommGroup G] [Module F G]

namespace FrostDkgNode

variable {D : DkgCrates F G} {node : FrostDkgNode D} {names : List VerifierId}

def number (node : FrostDkgNode D) (v : VerifierId) : UInt16 :=
  .ofNat (node.allParticipantIds.idxOf v + 1)

/-- **The names have numbers**, different ones, and not zero. -/
structure Numbered (node : FrostDkgNode D) (names : List VerifierId) : Prop where
  ne_zero : ∀ v ∈ names, v ∈ node.allParticipantIds → node.number v ≠ 0
  injective : ∀ v ∈ names, ∀ w ∈ names, v ∈ node.allParticipantIds → w ∈ node.allParticipantIds →
    node.number v = node.number w → v = w

theorem numbered_of_length_lt (h : node.allParticipantIds.length < 2 ^ 16)
    (names : List VerifierId) : node.Numbered names := by
  have htoNat : ∀ v ∈ node.allParticipantIds,
      (node.number v).toNat = node.allParticipantIds.idxOf v + 1 := by
    intro v hv
    have hlt := idxOf_lt_length_of_mem hv
    rw [number, UInt16.toNat_ofNat', Nat.mod_eq_of_lt (by omega)]
  constructor
  · intro v _ hv hzero
    have := htoNat v hv
    rw [hzero] at this
    cases this
  · intro v _ w _ hv hw heq
    have hidx : node.allParticipantIds.idxOf v = node.allParticipantIds.idxOf w := by
      have := (htoNat v hv).symm.trans ((congrArg UInt16.toNat heq).trans (htoNat w hw))
      omega
    exact (idxOf_inj hv).1 hidx

variable {v : VerifierId} {id : Identifier F}

theorem vidToIdentifier_eq_ok :
    node.vidToIdentifier v = .ok id ↔
      v ∈ node.allParticipantIds ∧ D.identifierTryFrom (node.number v) = .ok id := by
  rw [vidToIdentifier]
  split
  · next hv => simp [hv, DkgCrates.identifierAt, number]
  · next hv => simp [hv]

theorem noPanic_vidToIdentifier (hD : D.Lawful) (hnode : node.Numbered names) (hv : v ∈ names) :
    NoPanic (node.vidToIdentifier v) := by
  rw [vidToIdentifier]
  split
  · next hmem => exact noPanic_expect (hD.exists_identifier _ (hnode.ne_zero v hv hmem)) _
  · exact noPanic_error _

variable [DecidableEq F]

theorem noPanic_findIdentifier (hD : D.Lawful) {m : ℕ} (hid : D.identifierAt m = .ok id)
    (hm : m < 2 ^ 16 - 1) (vids : List VerifierId) (pos : ℕ) (hpos : pos ≤ m)
    (hlen : m < pos + vids.length) :
    NoPanic (findIdentifier D id vids pos) := by
  induction vids generalizing pos with
  | nil => simp at hlen; omega
  | cons v vids ih =>
    have hne : UInt16.ofNat (pos + 1) ≠ 0 := by
      intro hzero
      have := congrArg UInt16.toNat hzero
      rw [UInt16.toNat_ofNat', Nat.mod_eq_of_lt (by omega)] at this
      simp at this
    rw [findIdentifier]
    refine (noPanic_expect (hD.exists_identifier _ hne) _).bind fun frostId hfrost => ?_
    split
    · exact noPanic_pure _
    · next hdiff =>
      have hposne : pos ≠ m := by
        rintro rfl
        exact hdiff (Except.ok.inj ((expect_eq_ok.1 hfrost).symm.trans hid))
      exact ih (pos + 1) (by omega) (by simp at hlen; omega)

theorem noPanic_identifierToVid (hD : D.Lawful) (hnode : node.Numbered names) (hv : v ∈ names)
    (hid : node.vidToIdentifier v = .ok id) :
    NoPanic (node.identifierToVid id) := by
  obtain ⟨hmem, hid⟩ := vidToIdentifier_eq_ok.1 hid
  have hne := hnode.ne_zero v hv hmem
  have hlt := idxOf_lt_length_of_mem hmem
  -- The first position with the number of `v`.
  have hpos : 0 < (node.number v).toNat := Nat.pos_of_ne_zero fun h0 => hne (UInt16.toNat_inj.1 h0)
  have hle : (node.number v).toNat ≤ node.allParticipantIds.idxOf v + 1 := by
    rw [number, UInt16.toNat_ofNat']
    exact Nat.mod_le _ _
  have hid' : D.identifierAt ((node.number v).toNat - 1) = .ok id := by
    rw [DkgCrates.identifierAt, Nat.sub_add_cancel hpos, UInt16.ofNat_toNat]
    exact hid
  have hbound := (node.number v).toNat_lt
  exact noPanic_findIdentifier hD hid' (by omega) _ 0 (Nat.zero_le _) (by omega)

/-! ### Packages under identifiers -/

section

variable {V : Type} {hasher : Hasher VerifierId} {packages : HashMap VerifierId V}
  {m m' : Finmap fun _ : Identifier F => V}

theorem noPanic_translate (hD : D.Lawful) (hnode : node.Numbered names)
    (hkeys : ∀ v ∈ packages, v ∈ names) : NoPanic (node.translate hasher packages) := by
  refine noPanic_foldlM (fun m e he => ?_) ∅
  have hmem : e.1 ∈ packages := (hasher.mem_keys_iter).1 (mem_keys_of_mem he)
  exact (noPanic_vidToIdentifier hD hnode (hkeys e.1 hmem)).bind fun _ _ => noPanic_pure _

theorem exists_of_mem_translate (h : node.translate hasher packages = .ok m) {id : Identifier F}
    (hid : id ∈ m) : ∃ v ∈ packages, node.vidToIdentifier v = .ok id := by
  have hturn : ∀ m : Finmap fun _ : Identifier F => V, ∀ e ∈ hasher.iter packages, ∀ m',
      (∀ id ∈ m, ∃ v ∈ packages, node.vidToIdentifier v = .ok id) →
      (do let id ← node.vidToIdentifier e.1; return m.insert id e.2 : Except _ _) = .ok m' →
      ∀ id ∈ m', ∃ v ∈ packages, node.vidToIdentifier v = .ok id := by
    intro m e he m' hm hstep id hid
    simp only [do_eq_ok] at hstep
    obtain ⟨id', hid', rfl⟩ := hstep
    rcases Finmap.mem_insert.1 hid with rfl | hid
    · exact ⟨e.1, (hasher.mem_keys_iter).1 (mem_keys_of_mem he), hid'⟩
    · exact hm id hid
  exact foldlM_invariant hturn (fun _ h => absurd h Finmap.notMem_empty) h id hid

theorem sum_of_foldlM (hD : D.Lawful) (hnode : node.Numbered names) (g : V → G)
    {l : List ((_ : VerifierId) × V)} (hl : l.NodupKeys) (hnames : ∀ e ∈ l, e.1 ∈ names)
    (hnew : ∀ e ∈ l, ∀ id, node.vidToIdentifier e.1 = .ok id → id ∉ m)
    (h : l.foldlM (fun m e => do
      let id ← node.vidToIdentifier e.1
      return m.insert id e.2) m = .ok m') :
    (m'.entries.map fun e => g e.2).sum =
      (m.entries.map fun e => g e.2).sum + (l.map fun e => g e.2).sum := by
  induction l generalizing m with
  | nil =>
    obtain rfl := foldlM_nil_eq_ok.1 h
    rw [map_nil, sum_nil, add_zero]
  | cons e l ih =>
    obtain ⟨hfirst, hl⟩ := nodupKeys_cons.1 hl
    simp only [foldlM_cons_eq_ok, do_eq_ok] at h
    obtain ⟨_, ⟨id, hid, rfl⟩, hrest⟩ := h
    have hidm : id ∉ m := hnew e mem_cons_self id hid
    -- The other senders have other identifiers.
    have hnew' : ∀ e' ∈ l, ∀ id', node.vidToIdentifier e'.1 = .ok id' → id' ∉ m.insert id e.2 := by
      intro e' he' id' hid' hmem
      rcases Finmap.mem_insert.1 hmem with rfl | hmem
      · obtain ⟨hlist, htry⟩ := vidToIdentifier_eq_ok.1 hid
        obtain ⟨hlist', htry'⟩ := vidToIdentifier_eq_ok.1 hid'
        have heq := hnode.injective e.1 (hnames e mem_cons_self) e'.1
          (hnames e' (mem_cons_of_mem e he')) hlist hlist'
          (hD.identifier_injective htry htry')
        exact hfirst (heq ▸ mem_keys_of_mem he')
      · exact hnew e' (mem_cons_of_mem e he') id' hid' hmem
    rw [ih hl (fun e' he' => hnames e' (mem_cons_of_mem e he')) hnew' hrest,
      Finmap.entries_insert_of_notMem hidm, Multiset.map_cons, Multiset.sum_cons, map_cons,
      sum_cons]
    abel

/-- **No package is lost** on the way to the identifiers. -/
theorem sum_translate (hD : D.Lawful) (hnode : node.Numbered names)
    (hkeys : ∀ v ∈ packages, v ∈ names) (h : node.translate hasher packages = .ok m) (g : V → G) :
    (m.entries.map fun e => g e.2).sum = (packages.entries.map fun e => g e.2).sum := by
  have hsum := sum_of_foldlM hD hnode g (hasher.nodupKeys_iter packages)
    (fun e he => hkeys e.1 ((hasher.mem_keys_iter).1 (mem_keys_of_mem he)))
    (fun _ _ _ _ => Finmap.notMem_empty) h
  rw [hsum, ((hasher.perm packages).map _).sum_eq]
  exact zero_add _

end

/-! ### No part panics -/

section

variable {hasher : Hasher VerifierId}

omit [DecidableEq F] in
theorem noPanicAt_part1 (random : D.Random) (node : FrostDkgNode D) :
    NoPanicAt (part1 random) node := by
  simp only [NoPanicAt, part1, EStateM.run]
  split
  · split
    · exact noPanic_error _
    · exact noPanic_ok _
  all_goals exact noPanic_error _

theorem noPanicAt_part2 (hD : D.Lawful) (hnode : node.Numbered names)
    {packages : D.Round1Map} (hkeys : ∀ v ∈ packages, v ∈ names) :
    NoPanicAt (part2 hasher packages) node := by
  have hinput : NoPanic (node.part2Input hasher packages) := by
    rw [part2Input]
    split
    · exact (noPanic_translate hD hnode hkeys).bind fun _ _ => noPanic_pure _
    all_goals exact noPanic_error _
  have houtput : ∀ secret round1, node.part2Input hasher packages = .ok (secret, round1) →
      NoPanic (node.part2Output secret round1) := by
    intro secret round1 hin
    obtain ⟨-, htrans⟩ := (part2Input_eq_ok hasher).1 hin
    rw [part2Output]
    refine (noPanic_mapError _ _).bind fun result hpart2 => ?_
    obtain ⟨secret', out⟩ := result
    simp only [mapError_eq_ok, dkgPart2] at hpart2
    refine NoPanic.bind (noPanic_foldlM (fun m e he => ?_) ∅) fun _ _ => noPanic_pure _
    -- Every identifier that the crate answers is the one of a sender.
    have hid : e.1 ∈ round1 := (hD.mem_part2 hpart2 e.1).1 (AList.mem_keys.2 (mem_keys_of_mem he))
    obtain ⟨v, hv, hvid⟩ := exists_of_mem_translate htrans hid
    refine (noPanic_identifierToVid hD hnode (hkeys v hv) hvid).bind fun vid _ => ?_
    exact (noPanic_okOr vid _).bind fun _ _ => noPanic_pure _
  simp only [NoPanicAt, part2, EStateM.run]
  rcases hin : node.part2Input hasher packages with e | ⟨secret, round1⟩
  · rw [hin] at hinput
    exact hinput.of_error
  · have hout := houtput secret round1 hin
    rcases hrun : node.part2Output secret round1 with e | ⟨secret', out⟩
    · rw [hrun] at hout
      simp only [hrun]
      exact hout.of_error
    · simp only [hrun]
      exact noPanic_ok _

theorem noPanicAt_part3 (hD : D.Lawful) (hnode : node.Numbered names)
    {packages : D.Round2Map} (hkeys : ∀ v ∈ packages, v ∈ names) :
    NoPanicAt (part3 hasher packages) node := by
  have htrans : NoPanic (node.translate hasher packages) := noPanic_translate hD hnode hkeys
  simp only [NoPanicAt, part3, EStateM.run]
  split
  · rcases hrun : node.translate hasher packages with e | round2
    · rw [hrun] at htrans
      exact htrans.of_error
    · simp only
      split
      · exact noPanic_error _
      · exact noPanic_ok _
  all_goals exact noPanic_error _

end

omit [DecidableEq F] in
theorem SameParticipant.numbered {node' : FrostDkgNode D} (h : SameParticipant node node')
    (hnode : node.Numbered names) : node'.Numbered names := by
  have hnumber : node'.number = node.number := by
    funext v
    rw [number, number, h.2]
  constructor
  · rw [hnumber, h.2]
    exact hnode.ne_zero
  · rw [hnumber, h.2]
    exact hnode.injective

end FrostDkgNode

theorem numbered_of_sameParticipant {D : DkgCrates F G} {nodes nodes' : List (FrostDkgNode D)}
    {names : List VerifierId} (h : Forall₂ FrostDkgNode.SameParticipant nodes nodes')
    (hnodes : ∀ node ∈ nodes, node.Numbered names) : ∀ node' ∈ nodes', node'.Numbered names := by
  induction h with
  | nil => exact nofun
  | cons hsame _ ih =>
    obtain ⟨hfirst, hrest⟩ := forall_mem_cons.1 hnodes
    exact forall_mem_cons.2 ⟨hsame.numbered hfirst, ih hrest⟩

/-! ### The broadcasts -/

section

variable {D : DkgCrates F G} {hasher : Hasher VerifierId} {random : ℕ → D.Random}
  {nodes nodes' : List (FrostDkgNode D)} {broadcasts : D.Round1Map}

theorem mem_of_broadcastRound1 (h : (broadcastRound1 random).run nodes = .ok broadcasts nodes')
    {v : VerifierId} (hv : v ∈ broadcasts) : v ∈ nodes.map verifierId := by
  refine (iterMut_invariant (P := fun _ _ => True) (fun b : D.Round1Map =>
      ∀ v ∈ b, v ∈ nodes.map verifierId)
    (fun i b node b' node' hzip hinv hturn => ⟨trivial, fun v hv => ?_⟩) (forall₂_range nodes)
    (fun v hv => absurd hv (AList.notMem_empty v)) h).2 v hv
  obtain ⟨pkg, hpart1, rfl⟩ := run_broadcastNode_ok.1 hturn
  rcases (AList.mem_insert b).1 hv with rfl | hv
  · rw [(sameParticipant_part1 hpart1).1]
    exact mem_map_of_mem (of_mem_zip hzip).2
  · exact hinv v hv

/-- Every node has broadcast its package. -/
theorem exists_broadcast (hids : (nodes.map verifierId).Nodup)
    (h : (broadcastRound1 random).run nodes = .ok broadcasts nodes') {node' : FrostDkgNode D}
    (hnode' : node' ∈ nodes') :
    ∃ i secret pkg, node'.state = .afterPart1 secret ∧
      D.part1 node'.identifier node'.maxSigners node'.minSigners (random i) = .ok (secret, pkg) ∧
      broadcasts.lookup node'.verifierId = some pkg := by
  -- No later node has the name of an earlier one.
  have hdone := iterMut_done (fun done (b : D.Round1Map) =>
    ∀ p ∈ done, ∃ pkg node', (part1 (random p.1)).run p.2 = .ok pkg node' ∧
      b.lookup p.2.verifierId = some pkg) ?_ nofun h
  · have hturn := (iterMut_invariant (P := fun node node' => ∃ i pkg,
      (i, node) ∈ (List.range nodes.length).zip nodes ∧ (part1 (random i)).run node = .ok pkg node')
      (fun _ => True) (fun i _ node _ node' hzip _ hturn => ⟨?_, trivial⟩) (forall₂_range nodes)
      trivial h).1
    · obtain ⟨⟨j, hj⟩, rfl⟩ := mem_iff_get.1 hnode'
      obtain ⟨i, pkg, hzip, hpart1⟩ := hturn.get (hturn.length_eq ▸ hj) hj
      obtain ⟨pkg', node'', hpart1', hlookup⟩ := hdone _ hzip
      obtain ⟨rfl, -⟩ := EStateM.Result.ok.inj (hpart1.symm.trans hpart1')
      obtain ⟨-, secret, hcrate, heq⟩ := run_part1_ok.1 hpart1
      rw [heq]
      exact ⟨i, secret, pkg, rfl, hcrate, hlookup⟩
    · obtain ⟨pkg, hpart1, -⟩ := run_broadcastNode_ok.1 hturn
      exact ⟨i, pkg, hzip, hpart1⟩
  · intro done i node rest b b' node' hzip hinv hturn p hp
    obtain ⟨pkg, hpart1, rfl⟩ := run_broadcastNode_ok.1 hturn
    rw [(sameParticipant_part1 hpart1).1]
    rcases mem_append.1 hp with hp | hp
    · obtain ⟨pkg', node'', hpart1', hlookup⟩ := hinv p hp
      have hnames : ((done ++ (i, node) :: rest).map fun p => p.2.verifierId).Nodup := by
        have hmap := map_map (g := verifierId) (f := Prod.snd)
          (l := (List.range nodes.length).zip nodes)
        rw [map_snd_zip length_range.ge, hzip] at hmap
        exact hmap ▸ hids
      have hne : p.2.verifierId ≠ node.verifierId := by
        rw [map_append] at hnames
        exact (nodup_append.1 hnames).2.2 _ (mem_map_of_mem hp) _ (by simp)
      exact ⟨pkg', node'', hpart1', by rw [AList.lookup_insert_ne hne, hlookup]⟩
    · obtain rfl := mem_singleton.1 hp
      exact ⟨pkg, node', hpart1, AList.lookup_insert b⟩

theorem mem_of_mem_othersOf {myId v : VerifierId} (hv : v ∈ othersOf hasher broadcasts myId) :
    v ∈ broadcasts := by
  obtain ⟨pkg, hpkg⟩ := mem_keys.1 (HashMap.mem_collect.1 hv)
  exact (hasher.mem_keys_iter).1 (mem_keys_of_mem (mem_filter.1 hpkg).1)

theorem add_sum_othersOf {myId : VerifierId} {pkg : D.Round1Package}
    (hpkg : broadcasts.lookup myId = some pkg) (g : D.Round1Package → G) :
    g pkg + ((othersOf hasher broadcasts myId).entries.map fun e => g e.2).sum =
      (broadcasts.entries.map fun e => g e.2).sum := by
  classical
  have hmem : (⟨myId, pkg⟩ : (_ : VerifierId) × D.Round1Package) ∈ hasher.iter broadcasts :=
    hasher.mem_iter.2 hpkg
  have hnodup := hasher.nodupKeys_iter broadcasts
  have hfilter : (hasher.iter broadcasts).filter (fun e => e.1 ≠ myId) =
      (hasher.iter broadcasts).erase ⟨myId, pkg⟩ := by
    rw [hnodup.nodup.erase_eq_filter]
    refine filter_congr fun e he => ?_
    have hiff : e.1 ≠ myId ↔ e ≠ ⟨myId, pkg⟩ := by
      refine not_congr ⟨fun hid => ?_, fun heq => by rw [heq]⟩
      exact hnodup.eq_of_fst_eq he hmem hid
    rw [Bool.eq_iff_iff, decide_eq_true_iff, bne_iff_ne]
    exact hiff
  have hothers : (othersOf hasher broadcasts myId).entries.Perm
      ((hasher.iter broadcasts).erase ⟨myId, pkg⟩) := by
    rw [← hfilter]
    exact HashMap.entries_collect_perm (List.NodupKeys.sublist filter_sublist hnodup)
  calc g pkg + ((othersOf hasher broadcasts myId).entries.map fun e => g e.2).sum
      = g pkg + (((hasher.iter broadcasts).erase ⟨myId, pkg⟩).map fun e => g e.2).sum := by
        rw [(hothers.map _).sum_eq]
    _ = ((hasher.iter broadcasts).map fun e => g e.2).sum := by
        rw [((perm_cons_erase hmem).map _).sum_eq, map_cons, sum_cons]
    _ = (broadcasts.entries.map fun e => g e.2).sum := by
        rw [((hasher.perm broadcasts).map _).sum_eq]

end

/-! ### The rounds do not panic -/

section

variable {D : DkgCrates F G} [DecidableEq F] {κ β γ : Type} {R : Routing D κ β γ}
  {hasher : Hasher VerifierId} {broadcasts : D.Round1Map}
  {nodes : List (FrostDkgNode D)} {items : List κ} {names : List VerifierId}

theorem noPanicAt_routeRound2 (hD : D.Lawful)
    (hpack : ∀ k senderId recipientId pkg, NoPanic (R.pack k senderId recipientId pkg))
    (hlen : items.length = nodes.length) (hnodes : ∀ node ∈ nodes, node.Numbered names)
    (hbroadcasts : ∀ v ∈ broadcasts, v ∈ names) :
    NoPanicAt (routeRound2 R hasher broadcasts items) nodes := by
  have hitems : Forall₂ (fun (_ : κ) (node : FrostDkgNode D) => node.Numbered names) items nodes :=
    forall₂_iff_zip.2 ⟨hlen, fun hmem => hnodes _ (of_mem_zip hmem).2⟩
  refine noPanicAt_iterMut (fun k routed node hnode => ?_) hitems ∅
  rw [NoPanicAt, routeNode, run_get_bind]
  refine (noPanicAt_part2 hD hnode fun v hv =>
    hbroadcasts v (mem_of_mem_othersOf hv)).bind fun outbound node' _ => ?_
  refine noPanicAt_lift (noPanic_foldlM (fun m e _ => ?_) routed)
  exact (hpack k _ e.1 e.2).bind fun _ _ => noPanic_pure _

end

/-! ### The key -/

theorem consistentOutput_cons {D : DkgCrates F G} {output : DkgOutput F G}
    {rest : List (DkgOutput F G)} {r : List (FrostAuxiliaryNode F G) × FrostGroupKey F G} :
    consistentOutput D (output :: rest) = .ok r ↔
      (∀ o ∈ rest, o.2.verifyingKeyBytes D.toFrostCrates =
        output.2.verifyingKeyBytes D.toFrostCrates) ∧
      r = ((output :: rest).map Prod.fst, output.2) := by
  simp only [consistentOutput, do_eq_ok]
  constructor
  · rintro ⟨_, hall, rfl⟩
    refine ⟨fun o ho => ?_, rfl⟩
    obtain ⟨i, hi⟩ := mem_iff_getElem?.1 ho
    exact ensure_eq_ok.1 (forM_eq_ok.1 hall (o, i + 1) (mem_zipIdx_iff_le_and_getElem?_sub.2
      ⟨by simp, by simpa using hi⟩))
  · rintro ⟨hall, rfl⟩
    exact ⟨⟨⟩, forM_eq_ok.2 fun gk hgk =>
      ensure_eq_ok.2 (hall gk.1 (fst_mem_of_mem_zipIdx hgk)),
      rfl⟩

section

variable {D : DkgCrates F G} [DecidableEq F] {hasher : Hasher VerifierId} {random : ℕ → D.Random}
  {Known : VerifierId → Prop} {nodes nodes₁ nodes₂ : List (FrostDkgNode D)}
  {broadcasts : D.Round1Map} {results : List ((DkgOutput F G) × FrostDkgNode D)}

/-- All participants have the same key. -/
theorem DkgExchange.verifyingKey_eq (hD : D.Lawful)
    (h : DkgExchange hasher random Known nodes broadcasts nodes₁ nodes₂ results)
    (hids : (nodes.map verifierId).Nodup)
    (hnum : ∀ node ∈ nodes, node.Numbered (nodes.map verifierId)) :
    ∃ Y, ∀ r ∈ results, r.1.2.pubKeyPackage.verifyingKey = Y := by
  obtain ⟨commitment, hsum⟩ := hD.verifyingKey_eq_sum
  refine ⟨(broadcasts.entries.map fun e => commitment e.2).sum, fun r hr => ?_⟩
  -- The node of this result, after the second part and after the first.
  obtain ⟨⟨i, hi₃⟩, rfl⟩ := mem_iff_get.1 hr
  have hi₂ : i < nodes₂.length := h.part3.length_eq ▸ hi₃
  have hi₁ : i < nodes₁.length := h.part2.length_eq ▸ hi₂
  have hsame := sameParticipant_broadcastRound1 h.part1
  have hi : i < nodes.length := hsame.length_eq ▸ hi₁
  have hpart3 := h.part3.get hi₂ hi₃
  obtain ⟨hpart2, -⟩ := h.part2.get hi₁ hi₂
  have hnode := (hsame.get hi hi₁).numbered (hnum _ (get_mem nodes ⟨i, hi⟩))
  obtain ⟨j, secret, pkg, hstate, hcrate₁, hlookup⟩ :=
    exists_broadcast hids h.part1 (get_mem nodes₁ ⟨i, hi₁⟩)
  -- What the crate has been called with.
  obtain ⟨secret', round1, secret'', hinput, houtput, heq⟩ := run_part2_ok.1 hpart2
  obtain ⟨hstate', htrans⟩ := (part2Input_eq_ok hasher).1 hinput
  obtain rfl := DkgNodeState.afterPart1.inj (hstate.symm.trans hstate')
  simp only [part2Output, dkgPart2, do_eq_ok] at houtput
  obtain ⟨⟨_, crate⟩, hcrate₂, _, -, hpair⟩ := houtput
  obtain ⟨rfl, -⟩ := Prod.mk.inj hpair
  obtain ⟨secret₃, round1', round2, output, hstate₂, -, hcrate₃, hres, -⟩ :=
    run_part3_ok.1 hpart3
  rw [heq] at hstate₂
  obtain ⟨rfl, rfl⟩ := DkgNodeState.afterPart2.inj hstate₂
  -- The commitments to all of the broadcasts have been added.
  rw [hres, hsum hcrate₁ hcrate₂ (part3_of_dkgPart3 hcrate₃)]
  rw [sum_translate hD hnode (fun v hv => mem_of_broadcastRound1 h.part1
    (mem_of_mem_othersOf hv)) htrans]
  exact add_sum_othersOf hlookup commitment

theorem DkgExchange.exists_consistentOutput (hD : D.Lawful)
    (h : DkgExchange hasher random Known nodes broadcasts nodes₁ nodes₂ results)
    (hids : (nodes.map verifierId).Nodup)
    (hnum : ∀ node ∈ nodes, node.Numbered (nodes.map verifierId))
    (hne : nodes ≠ []) : ∃ r, consistentOutput D (results.map Prod.fst) = .ok r := by
  obtain ⟨Y, hY⟩ := h.verifyingKey_eq hD hids hnum
  rcases results with _ | ⟨first, rest⟩
  · have hlen := (sameParticipant_broadcastRound1 h.part1).length_eq.trans
      (h.part2.length_eq.trans h.part3.length_eq)
    exact absurd (length_eq_zero_iff.1 hlen) hne
  · refine ⟨_, consistentOutput_cons.2 ⟨fun o ho => ?_, rfl⟩⟩
    obtain ⟨result, hres, rfl⟩ := mem_map.1 ho
    rw [FrostGroupKey.verifyingKeyBytes, FrostGroupKey.verifyingKeyBytes,
      hY result (mem_cons_of_mem first hres), hY first mem_cons_self]

end

end

end TlsAttestation
