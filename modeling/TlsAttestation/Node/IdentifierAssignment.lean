import TlsAttestation.Crypto.DealerKeygen
import TlsAttestation.Node.DkgAgreement

/-!
# Who has which identifier

The two dealers and `FrostDkgNode::new` cast positions or lengths to 16 bits. With too many
participants the dealer of the FROST adapter panics, that for secp256k1 refuses, and a node gives
two participants one identifier, or one none (`FrostDkgNode.exists_panic_part2`).
-/

namespace TlsAttestation

open ByteEncoding Collect Fallible Frost
open List hiding Vector

/-- **The crate** has no identifier zero, and refuses numbers that make no sense. -/
structure DkgCrates.ChecksNumbers {F G : Type} [Field F] [AddCommGroup G] [Module F G]
    (D : DkgCrates F G) : Prop where
  identifier_zero : ∀ id, D.identifierTryFrom 0 ≠ .ok id
  signers_le : ∀ {id maxSigners minSigners random r},
    D.part1 id maxSigners minSigners random = .ok r → 2 ≤ minSigners ∧ minSigners ≤ maxSigners

section

variable {F G : Type} [Field F] [AddCommGroup G] [Module F G] {D : DkgCrates F G}

/-! ### The map of the group -/

theorem lookup_verifierToId {all : List VerifierId} (hall : all.Nodup)
    {m : Finmap fun _ : VerifierId => Identifier F} (h : verifierToId D all = .ok m)
    {w : VerifierId} (hw : w ∈ all) {id : Identifier F}
    (hid : D.identifierAt (all.idxOf w) = .ok id) : m.lookup w = some id := by
  obtain ⟨ids, hids, rfl⟩ := foldlM_insert_eq_ok.1 h
  rw [zipIdx_map_fst]
  have hlen : all.length = ids.length := by rw [← hids.length_eq, length_zipIdx]
  have hlt : all.idxOf w < all.length := idxOf_lt_length_of_mem hw
  have hmem : (w, id) ∈ all.zip ids := by
    have hget := hids.get (by rwa [length_zipIdx]) (hlen ▸ hlt)
    simp only [get_eq_getElem, getElem_zipIdx, Nat.zero_add, mapError_eq_ok] at hget
    obtain heq := Except.ok.inj (hid.symm.trans hget)
    refine mem_iff_getElem.2 ⟨all.idxOf w, by rwa [length_zip, ← hlen, Nat.min_self], ?_⟩
    rw [getElem_zip, getElem_idxOf, ← heq]
  have hfst : ((all.zip ids).map Prod.fst).Nodup := by
    rw [map_fst_zip hlen.le]
    exact hall
  refine lookup_collect_of_mem hmem fun id' hid' => ?_
  exact congrArg Prod.snd (inj_on_of_nodup_map hfst hid' hmem rfl)

namespace FrostDkgNode

variable {v w : VerifierId} {all : List VerifierId} {minSigners : UInt16}
  {node node' : FrostDkgNode D}

/-! ### Participants that were just made -/

theorem new_eq_ok (h : new D v all minSigners = .ok node) :
    2 ≤ all.length ∧ node.verifierId = v ∧ node.allParticipantIds = all ∧
      node.minSigners = minSigners ∧ node.state = .initial := by
  simp only [new] at h
  split_ifs at h with hn
  split at h
  · obtain rfl := Except.ok.inj h
    exact ⟨Nat.le_of_not_lt hn, rfl, rfl, rfl, rfl⟩
  · cases h

theorem exists_new (hlen : 2 ≤ all.length) (hall : all.Nodup) (hmin : 2 ≤ minSigners)
    (hle : minSigners.toNat ≤ all.length) (hv : v ∈ all) {id : Identifier F}
    (hid : D.identifierAt (all.idxOf v) = .ok id) :
    ∃ node, new D v all minSigners = .ok node ∧ node.identifier = id := by
  simp only [new, if_neg (Nat.not_lt.2 hlen), dif_pos hall, dif_pos hmin, dif_pos hle, dif_pos hv]
  split
  · next identifier heq => exact ⟨_, rfl, Except.ok.inj (heq.symm.trans hid)⟩
  · next heq => cases heq.symm.trans hid

theorem identifierAt_of_new (h : new D v all minSigners = .ok node) :
    v ∈ all ∧ D.identifierAt (all.idxOf v) = .ok node.identifier := by
  obtain ⟨-, rfl, rfl, -⟩ := new_eq_ok h
  exact ⟨node.mem_participants, node.identifier_eq⟩

/-! ### Calls -/

variable [DecidableEq F]

theorem sameParticipant_answer (hasher : Hasher VerifierId) (node : FrostDkgNode D)
    (call : DkgCall D) : SameParticipant node (node.answer hasher call).2 := by
  have h := observed_observe hasher node call
  simp only [observe] at h
  generalize (node.answer hasher call).1 = a, node.handsOver hasher call = handed,
    (node.answer hasher call).2 = node' at h ⊢
  cases h <;> exact ⟨rfl, rfl⟩

end FrostDkgNode

def DkgAnswer.Returned : DkgAnswer D → Prop
  | .round1 r => NoPanic r
  | .round2 r => NoPanic r
  | .output r => NoPanic r

namespace FrostDkgNode

variable [DecidableEq F]

/-- The participants of a list are told apart. -/
structure DkgAssigns (D : DkgCrates F G) (hasher : Hasher VerifierId) (all : List VerifierId)
    (minSigners : UInt16) : Prop where
  returned : ∀ v node, new D v all minSigners = .ok node →
    ∀ calls, ∀ e ∈ Calls.events (answer hasher) node calls, e.2.Returned
  injective : ∀ v w node node', new D v all minSigners = .ok node →
    new D w all minSigners = .ok node' → v ≠ w → node.identifier ≠ node'.identifier
  lookup : ∀ v node, new D v all minSigners = .ok node → ∀ calls call aux key,
      (call, .output (.ok (aux, key))) ∈ Calls.events (answer hasher) node calls →
      aux.participant.verifierId = v ∧ aux.participant.identifier = node.identifier ∧
        ∀ w node', new D w all minSigners = .ok node' →
          key.verifierToIdentifier w = some node'.identifier

variable {v w : VerifierId} {all : List VerifierId} {minSigners : UInt16}
  {node node' : FrostDkgNode D} {hasher : Hasher VerifierId}

/-! No panic: in a short list every name has a number, and in the first list that is too long no
participant gets past the first part. -/

theorem returned_of_length_lt (hD : D.Lawful) (hlen : node.allParticipantIds.length < 2 ^ 16)
    (call : DkgCall D) : (node.answer hasher call).1.Returned := by
  cases call with
  | part1 random => exact noPanicAt_part1 random node
  | part2 packages =>
    exact noPanicAt_part2 hD (numbered_of_length_lt hlen packages.keys) fun _ hv => hv
  | part3 packages =>
    exact noPanicAt_part3 hD (numbered_of_length_lt hlen packages.keys) fun _ hv => hv

theorem answer_of_not_le (hD : D.ChecksNumbers) (hstate : node.state = .initial)
    (hle : ¬ node.minSigners ≤ node.maxSigners) (call : DkgCall D) :
    (node.answer hasher call).1.Returned ∧ (node.answer hasher call).2 = node := by
  cases call with
  | part1 random =>
    rcases hpart : D.part1 node.identifier node.maxSigners node.minSigners random with e | r
    · simp only [answer, part1, EStateM.run, hstate, dkgPart1, hpart, Except.mapError]
      exact ⟨noPanic_error _, rfl⟩
    · exact absurd (hD.signers_le hpart).2 hle
  | part2 packages =>
    simp only [answer, part2, part2Input, EStateM.run, hstate]
    exact ⟨noPanic_error _, rfl⟩
  | part3 packages =>
    simp only [answer, part3, EStateM.run, hstate]
    exact ⟨noPanic_error _, rfl⟩

theorem returned_of_length_le (hD : D.Lawful) (hD' : D.ChecksNumbers)
    (h : new D v all minSigners = .ok node) (hlen : all.length ≤ 2 ^ 16)
    (calls : List (DkgCall D)) :
    ∀ e ∈ Calls.events (answer hasher) node calls, e.2.Returned := by
  obtain ⟨-, -, hall, -, hstate⟩ := new_eq_ok h
  rcases Nat.lt_or_eq_of_le hlen with hlt | heq
  · refine Calls.forall_events (A := fun _ => True) (R := fun _ o => DkgAnswer.Returned o)
      (fun n => SameParticipant node n) (fun n call _ hn => ?_) (fun n call _ hn => ?_)
      (fun _ _ => trivial) ⟨rfl, rfl⟩
    · obtain ⟨hid, hlist⟩ := sameParticipant_answer hasher n call
      exact ⟨hid.trans hn.1, hlist.trans hn.2⟩
    · refine returned_of_length_lt hD ?_ call
      rwa [hn.2, hall]
  · have hle : ¬ node.minSigners ≤ node.maxSigners := by
      rw [node.maxSigners_eq, hall, heq]
      exact fun hle => absurd (UInt16.le_trans node.two_le_minSigners hle) (by decide)
    refine Calls.forall_events (A := fun _ => True) (R := fun _ o => DkgAnswer.Returned o)
      (fun n => n = node) (fun n call _ hn => ?_) (fun n call _ hn => ?_) (fun _ _ => trivial) rfl
    · obtain rfl := hn
      exact (answer_of_not_le hD' hstate hle call).2
    · obtain rfl := hn
      exact (answer_of_not_le hD' hstate hle call).1

/-! The results of the last part. -/

theorem output_answer {call : DkgCall D} {aux : FrostAuxiliaryNode F G} {key : FrostGroupKey F G}
    (h : (node.answer hasher call).1 = .output (.ok (aux, key))) :
    aux.participant.verifierId = node.verifierId ∧ aux.participant.identifier = node.identifier ∧
      verifierToId D node.allParticipantIds = .ok key.verifierToId := by
  cases call with
  | part1 random => cases h
  | part2 packages => cases h
  | part3 packages =>
    simp only [answer, DkgAnswer.output.injEq] at h
    rcases hrun : (part3 hasher packages).run node with ⟨r, n⟩ | ⟨e, n⟩
    · rw [hrun] at h
      obtain rfl := Except.ok.inj h
      obtain ⟨_, _, _, output, -, -, hpart, hres, -⟩ := run_part3_ok.1 hrun
      obtain ⟨rfl, rfl⟩ := Prod.mk.inj hres
      simp only [dkgPart3, do_eq_ok] at hpart
      obtain ⟨_, -, _, hmap, rfl⟩ := hpart
      exact ⟨rfl, rfl, hmap⟩
    · rw [hrun] at h
      cases h

theorem lookup_of_output (h : new D v all minSigners = .ok node) {calls : List (DkgCall D)}
    {call : DkgCall D} {aux : FrostAuxiliaryNode F G} {key : FrostGroupKey F G}
    (he : (call, .output (.ok (aux, key))) ∈ Calls.events (answer hasher) node calls) :
    aux.participant.verifierId = v ∧ aux.participant.identifier = node.identifier ∧
      ∀ w node', new D w all minSigners = .ok node' →
        key.verifierToIdentifier w = some node'.identifier := by
  obtain ⟨-, rfl, rfl, -, -⟩ := new_eq_ok h
  refine Calls.forall_events (A := fun _ => True)
    (R := fun _ o => ∀ aux key, o = DkgAnswer.output (.ok (aux, key)) →
      aux.participant.verifierId = node.verifierId ∧ aux.participant.identifier = node.identifier ∧
          ∀ w node', new D w node.allParticipantIds minSigners = .ok node' →
            key.verifierToIdentifier w = some node'.identifier)
    (fun n => SameParticipant node n) (fun n call _ hn => ?_) (fun n call _ hn aux key ho => ?_)
    (fun _ _ => trivial) ⟨rfl, rfl⟩ _ he aux key rfl
  · obtain ⟨hid, hlist⟩ := sameParticipant_answer hasher n call
    exact ⟨hid.trans hn.1, hlist.trans hn.2⟩
  · obtain ⟨hverifier, hidentifier, hmap⟩ := output_answer ho
    have hsame : n.identifier = node.identifier := by
      have heq := n.identifier_eq
      rw [hn.1, hn.2, node.identifier_eq] at heq
      exact (Except.ok.inj heq).symm
    rw [hn.2] at hmap
    refine ⟨hverifier.trans hn.1, hidentifier.trans hsame, fun w node' hnew => ?_⟩
    obtain ⟨hw, hid⟩ := identifierAt_of_new hnew
    exact lookup_verifierToId node.nodup hmap hw hid

/-! The identifiers. -/

omit [DecidableEq F] in
theorem identifier_ne_of_length_le (hD : D.Lawful) (hlen : all.length ≤ 2 ^ 16)
    (hv : new D v all minSigners = .ok node) (hw : new D w all minSigners = .ok node')
    (hne : v ≠ w) : node.identifier ≠ node'.identifier := by
  obtain ⟨hvmem, hvid⟩ := identifierAt_of_new hv
  obtain ⟨hwmem, hwid⟩ := identifierAt_of_new hw
  intro heq
  rw [heq] at hvid
  have hnumber := congrArg UInt16.toNat (hD.identifier_injective hvid hwid)
  rw [UInt16.toNat_ofNat', UInt16.toNat_ofNat'] at hnumber
  have hvlt := idxOf_lt_length_of_mem hvmem
  have hwlt := idxOf_lt_length_of_mem hwmem
  exact hne ((idxOf_inj hvmem).1 (by omega))

omit [DecidableEq F] in
theorem exists_same_identifier (hD : D.Lawful) (hall : all.Nodup) (hmin : 2 ≤ minSigners)
    (hlen : 2 ^ 16 < all.length) :
    ∃ v w, ∃ node node' : FrostDkgNode D, new D v all minSigners = .ok node ∧
      new D w all minSigners = .ok node' ∧ v ≠ w ∧ node.identifier = node'.identifier := by
  obtain ⟨id, hid⟩ := hD.exists_identifier 1 (by decide)
  have hle : minSigners.toNat ≤ all.length := minSigners.toNat_lt.le.trans hlen.le
  have hzero : 0 < all.length := (Nat.zero_lt_succ _).trans hlen
  have hindex : ∀ (i : ℕ) (hi : i < all.length), all.idxOf all[i] = i := fun i hi =>
    hall.idxOf_getElem i hi
  have hfirst : D.identifierAt (all.idxOf all[0]) = .ok id := by
    rw [hindex]
    exact hid
  have hlater : D.identifierAt (all.idxOf all[2 ^ 16]) = .ok id := by
    rw [hindex]
    exact hid
  obtain ⟨node, hnode, hnodeId⟩ := exists_new (by omega) hall hmin hle (getElem_mem hzero) hfirst
  obtain ⟨node', hnode', hnodeId'⟩ := exists_new (by omega) hall hmin hle (getElem_mem hlen) hlater
  refine ⟨_, _, node, node', hnode, hnode', fun heq => ?_, hnodeId.trans hnodeId'.symm⟩
  have := hindex 0 hzero
  rw [heq, hindex _ hlen] at this
  omega

/-- When the participants of a key generation are told apart. -/
theorem dkgAssigns_iff (hD : D.Lawful) (hD' : D.ChecksNumbers) :
    DkgAssigns D hasher all minSigners ↔ ¬ (all.Nodup ∧ 2 ≤ minSigners ∧ 2 ^ 16 < all.length) := by
  constructor
  · rintro h ⟨hall, hmin, hlen⟩
    obtain ⟨v, w, node, node', hv, hw, hne, heq⟩ := exists_same_identifier hD hall hmin hlen
    exact h.injective v w node node' hv hw hne heq
  · intro h
    have hshort : ∀ v node, new D v all minSigners = .ok node → all.length ≤ 2 ^ 16 := by
      intro v node hnew
      obtain ⟨-, -, rfl, rfl, -⟩ := new_eq_ok hnew
      exact Nat.le_of_not_lt fun hlt => h ⟨node.nodup, node.two_le_minSigners, hlt⟩
    exact {
      returned := fun v node hnew calls =>
        returned_of_length_le hD hD' hnew (hshort v node hnew) calls
      injective := fun v w node node' hv hw hne =>
        identifier_ne_of_length_le hD (hshort v node hv) hv hw hne
      lookup := fun v node hnew calls call aux key he => lookup_of_output hnew he }

/-! The participant at position 65535. -/

omit [DecidableEq F] in
theorem vidToIdentifier_of_idxOf_eq (hD : D.ChecksNumbers) (hw : w ∈ node.allParticipantIds)
    (hpos : node.allParticipantIds.idxOf w = 2 ^ 16 - 1) :
    node.vidToIdentifier w =
      .error (.panic "position + 1 is always a valid nonzero u16 for n <= 65535") := by
  rw [vidToIdentifier, if_pos hw, hpos]
  rcases htry : D.identifierAt (2 ^ 16 - 1) with e | id
  · rfl
  · exact absurd htry (hD.identifier_zero id)

/-- **A participant without an identifier** makes part two panic. -/
theorem not_returned_part2 (hD : D.ChecksNumbers) (hasher : Hasher VerifierId)
    (node : FrostDkgNode D) {secret : D.Round1Secret} (hstate : node.state = .afterPart1 secret)
    (hw : w ∈ node.allParticipantIds)
    (hpos : node.allParticipantIds.idxOf w = 2 ^ 16 - 1) (pkg : D.Round1Package) :
    ¬ (node.answer hasher (.part2 ((∅ : D.Round1Map).insert w pkg))).1.Returned := by
  have hiter : hasher.iter ((∅ : D.Round1Map).insert w pkg) = [⟨w, pkg⟩] :=
    perm_singleton.1 (hasher.perm _)
  have htrans : node.translate hasher ((∅ : D.Round1Map).insert w pkg) =
      .error (.panic "position + 1 is always a valid nonzero u16 for n <= 65535") := by
    rw [translate, hiter, foldlM_cons, vidToIdentifier_of_idxOf_eq hD hw hpos]
    rfl
  have hinput : node.part2Input hasher ((∅ : D.Round1Map).insert w pkg) =
      .error (.panic "position + 1 is always a valid nonzero u16 for n <= 65535") := by
    rw [part2Input, hstate]
    exact congrArg (· >>= _) htrans
  intro hreturned
  simp only [answer, part2, EStateM.run, hinput] at hreturned
  exact hreturned _ rfl

theorem exists_panic_part2 (hD : D.Lawful) (hD' : D.ChecksNumbers) (hall : all.Nodup)
    (hmin : 2 ≤ minSigners) (hlen : 2 ^ 16 ≤ all.length)
    (hle : minSigners.toNat ≤ all.length % 2 ^ 16) (random : D.Random) :
    ∃ v, ∃ node : FrostDkgNode D, new D v all minSigners = .ok node ∧
      ∃ calls, ∃ e ∈ Calls.events (answer hasher) node calls, ¬ e.2.Returned := by
  obtain ⟨id, hid⟩ := hD.exists_identifier 1 (by decide)
  have hzero : 0 < all.length := (Nat.zero_lt_succ _).trans_le hlen
  have hlast : 2 ^ 16 - 1 < all.length := Nat.lt_of_lt_of_le (by decide) hlen
  have hfirst : D.identifierAt (all.idxOf all[0]) = .ok id := by
    rw [hall.idxOf_getElem]
    exact hid
  obtain ⟨node, hnode, -⟩ := exists_new (by omega) hall hmin (hle.trans (Nat.mod_le _ _))
    (getElem_mem hzero) hfirst
  obtain ⟨-, -, rfl, rfl, hstate⟩ := new_eq_ok hnode
  -- The first part accepts the cast length.
  have hsigners : node.minSigners ≤ node.maxSigners := by
    rw [node.maxSigners_eq, UInt16.le_iff_toNat_le, UInt16.toNat_ofNat']
    exact hle
  obtain ⟨⟨secret, pkg⟩, hpart⟩ := hD.exists_part1 node.identifier random hmin hsigners
  have hrun := run_part1_ok.2 ⟨hstate, secret, hpart, rfl⟩
  have hafter : (node.answer hasher (.part1 random)).2 =
      { node with state := .afterPart1 secret } := by
    rw [answer, hrun]
    rfl
  have hpanic := not_returned_part2 hD' hasher { node with state := .afterPart1 secret } rfl
    (getElem_mem hlast) (hall.idxOf_getElem _ hlast) pkg
  refine ⟨_, node, hnode, [.part1 random,
    .part2 (AList.insert node.allParticipantIds[2 ^ 16 - 1] pkg ∅)], _,
    mem_cons_of_mem _ mem_cons_self, ?_⟩
  rw [hafter]
  exact hpanic

end FrostDkgNode

end

/-! ### All three together -/

section

variable {F G F' G' : Type} [Field F] [DecidableEq F] [AddCommGroup G] [Module F G] [Field F']
  {D : DkgCrates F G} {E : DealerCrates F G} {S : DealerCrates F' G'}

/-- **When identifiers are assigned as they should be**, for each of the three functions. -/
theorem identifiersAssigned_iff (hD : D.Lawful) (hD' : D.ChecksNumbers) (hE : E.Lawful)
    (hS : S.Lawful) (hasher : Hasher VerifierId) (verifierIds : List VerifierId) (threshold : ℕ)
    (minSigners : UInt16) (random : E.Random) (random' : S.Random) :
    (AssignsIdentifiers TrustedDealerKeygenOutput.identifiers (fun o => o.groupKey.verifierToId)
        (frostTrustedDealerKeygen E verifierIds threshold random) ↔
      ¬ (verifierIds.Nodup ∧ 2 ^ 16 ≤ verifierIds.length ∧ threshold ≤ verifierIds.length ∧
        2 ≤ threshold % 2 ^ 16 ∧ threshold % 2 ^ 16 ≤ verifierIds.length % 2 ^ 16)) ∧
    (AssignsIdentifiers Secp256k1KeygenOutput.identifiers (fun o => o.groupKey.verifierToId)
        (secp256k1TrustedDealerKeygen S verifierIds threshold random') ↔
      (2 ≤ threshold → threshold ≤ verifierIds.length → verifierIds.length < 2 ^ 16 →
        verifierIds.Nodup)) ∧
    (FrostDkgNode.DkgAssigns D hasher verifierIds minSigners ↔
      ¬ (verifierIds.Nodup ∧ 2 ≤ minSigners ∧ 2 ^ 16 < verifierIds.length)) :=
  ⟨assignsIdentifiers_frostTrustedDealerKeygen hE,
    assignsIdentifiers_secp256k1TrustedDealerKeygen hS, FrostDkgNode.dkgAssigns_iff hD hD'⟩

end

theorem Wide.checksNumbers_crates : Wide.crates.ChecksNumbers where
  identifier_zero id h := by
    have htry : Wide.identifierTryFrom 0 = .ok id := h
    exact id.2 ((Wide.identifierTryFrom_eq_ok.1 htry).symm.trans Nat.cast_zero)
  signers_le {_ _ _ _ r} h := by
    obtain ⟨hmin, hle⟩ := PedersenDkg.signers_of_part1 h
    exact ⟨hmin, hle⟩

theorem identifiersAssigned_twoVerifiers :
    (AssignsIdentifiers TrustedDealerKeygenOutput.identifiers (fun o => o.groupKey.verifierToId)
        (frostTrustedDealerKeygen Wide.dealer twoVerifiers 2 fun _ => 1)) ∧
    (AssignsIdentifiers Secp256k1KeygenOutput.identifiers (fun o => o.groupKey.verifierToId)
        (secp256k1TrustedDealerKeygen Wide.dealer twoVerifiers 2 fun _ => 1)) ∧
    FrostDkgNode.DkgAssigns Wide.crates (.inOrder VerifierId) twoVerifiers 2 := by
  obtain ⟨hfrost, hsecp, hdkg⟩ := identifiersAssigned_iff Wide.lawful_crates
    Wide.checksNumbers_crates Wide.lawful_dealer Wide.lawful_dealer (.inOrder VerifierId)
    twoVerifiers 2 2 (fun _ => 1) (fun _ => 1)
  refine ⟨hfrost.2 ?_, hsecp.2 fun _ _ _ => nodup_twoVerifiers, hdkg.2 ?_⟩
  · rintro ⟨-, hmany, -⟩
    exact absurd hmany (by decide)
  · rintro ⟨-, -, hmany⟩
    exact absurd hmany (by decide)

def manyVerifiers (n : ℕ) : List VerifierId :=
  (List.range n).map fun i =>
    .fromBytes ⟨(beBytes 32 i).toArray, size_toArray_of_length (length_beBytes 32 i)⟩

theorem length_manyVerifiers (n : ℕ) : (manyVerifiers n).length = n := by
  rw [manyVerifiers, length_map, length_range]

theorem nodup_manyVerifiers {n : ℕ} (hn : n ≤ 256 ^ 32) : (manyVerifiers n).Nodup := by
  refine nodup_range.map_on fun i hi j hj hij => ?_
  have hbytes := Vector.mk.inj (VerifierId.fromBytes.inj hij)
  exact beBytes_inj ((mem_range.1 hi).trans_le hn) ((mem_range.1 hj).trans_le hn)
    (toArray_inj hbytes)

/-- **None of the three is right for all inputs**: 65538 verifiers are a panic in two of them, and a
repeated verifier loses an identifier in the third. -/
theorem not_identifiersAssigned :
    (¬ NoPanic (frostTrustedDealerKeygen Wide.dealer (manyVerifiers 65538) 2 fun _ => 1)) ∧
    (∃ o, secp256k1TrustedDealerKeygen Wide.dealer [firstVerifier, firstVerifier] 2 (fun _ => 1) =
      .ok o ∧ ¬ Assigned o.identifiers o.groupKey.verifierToId) ∧
    (¬ FrostDkgNode.DkgAssigns Wide.crates (.inOrder VerifierId) (manyVerifiers 65538) 2) ∧
    ∃ v, ∃ node : FrostDkgNode Wide.crates,
      FrostDkgNode.new Wide.crates v (manyVerifiers 65538) 2 = .ok node ∧
        ∃ calls, ∃ e ∈ Calls.events (FrostDkgNode.answer (.inOrder VerifierId)) node calls,
          ¬ e.2.Returned := by
  have hlen := length_manyVerifiers 65538
  have hnodup : (manyVerifiers 65538).Nodup := nodup_manyVerifiers (by decide)
  refine ⟨fun hno => ?_, ?_, fun hassigns => ?_, ?_⟩
  · refine (assignsIdentifiers_frostTrustedDealerKeygen Wide.lawful_dealer).1
      ⟨hno, fun o => assigned_frostTrustedDealerKeygen Wide.lawful_dealer⟩ ⟨hnodup, ?_⟩
    rw [hlen]
    decide
  · have hthr : 2 ≤ [firstVerifier, firstVerifier].length := by decide
    obtain ⟨o, ho⟩ := exists_secp256k1TrustedDealerKeygen Wide.lawful_dealer (fun _ => 1)
      (Nat.le_refl 2) hthr (by decide)
    obtain ⟨-, hfst, hsnd, hmap⟩ := secp256k1TrustedDealerKeygen_eq_ok Wide.lawful_dealer ho
    refine ⟨o, ho, ?_⟩
    rw [hmap, assigned_collect_iff hsnd, hfst]
    decide
  · refine (FrostDkgNode.dkgAssigns_iff Wide.lawful_crates Wide.checksNumbers_crates).1 hassigns
      ⟨hnodup, by decide, ?_⟩
    rw [hlen]
    decide
  · refine FrostDkgNode.exists_panic_part2 Wide.lawful_crates Wide.checksNumbers_crates hnodup
      (by decide) ?_ ?_ fun _ => 1
    · rw [hlen]
      decide
    · rw [hlen]
      decide

end TlsAttestation
