import TlsAttestation.Crypto.DkgAnnounce
import TlsAttestation.Crypto.ParticipantRegistry

/-!
# The registry over time

Each mutation of a registry makes the next: epochs increase, participants stay, and one entry is
touched (`RegistryChange.follows_of_apply`). Identifiers and keys come apart, since a participant
keeps the digest of its old key as identifier (`ParticipantRegistry.consistent_chain_iff`).
-/

namespace TlsAttestation

open Fallible ParticipantRegistry RegisteredParticipant

/-! ### Who may take part -/

namespace ParticipantRegistry

variable {r : ParticipantRegistry} {hasher : Hasher VerifierId}

def toDkgRegistry (hasher : Hasher VerifierId) (r : ParticipantRegistry) :
    DkgParticipantRegistry Ed25519VerifyingKey :=
  .new (r.activeVerifierKeys hasher)

/-- **The list has the active participants**, under the identifiers in the entries. -/
theorem mem_activeVerifierKeys {id : VerifierId} :
    id ∈ (r.activeVerifierKeys hasher).map Prod.fst ↔ r.IsActive id := by
  simp only [activeVerifierKeys, List.map_map, List.mem_map, List.mem_filter,
    isActive_iff, Function.comp_apply]
  constructor
  · rintro ⟨p, ⟨⟨e, he, rfl⟩, hact⟩, rfl⟩
    have hlookup := hasher.mem_iter.1 he
    rw [r.participants.verifierId_of_lookup hlookup]
    exact ⟨e.2, hlookup, hact⟩
  · rintro ⟨p, hlookup, hact⟩
    refine ⟨p, ⟨⟨⟨id, p⟩, hasher.mem_iter.2 hlookup, rfl⟩, hact⟩, ?_⟩
    exact r.participants.verifierId_of_lookup hlookup

/-- The table has the active participants. -/
theorem mem_toDkgRegistry {id : VerifierId} :
    id ∈ (r.toDkgRegistry hasher).entries ↔ r.IsActive id := by
  rw [← mem_activeVerifierKeys, toDkgRegistry, DkgParticipantRegistry.new, Finmap.mem_def]
  change id ∈ HashMap.collect _ ↔ _
  rw [HashMap.mem_collect, List.keys, List.map_map]
  rfl

/-- **Admission** looks at the epoch and at each participant. -/
theorem checkCeremonyAdmission_eq_ok {e : RegistryEpoch} {ids : List VerifierId} :
    r.checkCeremonyAdmission e ids = .ok () ↔ e = r.epoch ∧ ∀ id ∈ ids, r.IsActive id := by
  simp only [checkCeremonyAdmission, do_eq_ok, exists_const, forM_eq_ok, and_true,
    exists_getActive_eq_ok]

end ParticipantRegistry

/-! ### Mutations -/

inductive RegistryChange where
  | revocation (target : VerifierId) (newEpoch : RegistryEpoch)
  | retirement (target : VerifierId) (newEpoch : RegistryEpoch)
  | keyRotation (target : VerifierId) (newSigningKey : Ed25519VerifyingKey)
      (newEpoch : RegistryEpoch)

def ParticipantRegistry.apply (r : ParticipantRegistry) :
    RegistryChange → Except RegistryError ParticipantRegistry
  | .revocation target newEpoch => r.withRevocation target newEpoch
  | .retirement target newEpoch => r.withRetirement target newEpoch
  | .keyRotation target newSigningKey newEpoch =>
    r.withKeyRotation target newSigningKey newEpoch

namespace RegistryChange

def target : RegistryChange → VerifierId
  | .revocation target _ => target
  | .retirement target _ => target
  | .keyRotation target _ _ => target

def newEpoch : RegistryChange → RegistryEpoch
  | .revocation _ newEpoch => newEpoch
  | .retirement _ newEpoch => newEpoch
  | .keyRotation _ _ newEpoch => newEpoch

def edit : RegistryChange → RegisteredParticipant → RegisteredParticipant
  | .revocation _ _, p => { p with status := .revoked }
  | .retirement _ _, p => { p with status := .retired }
  | .keyRotation _ newSigningKey _, p =>
    { p with signingKey := newSigningKey, status := .active }

theorem verifierId_edit (c : RegistryChange) (p : RegisteredParticipant) :
    (c.edit p).verifierId = p.verifierId := by
  cases c <;> rfl

variable {c : RegistryChange} {r r' : ParticipantRegistry}

def Admits : RegistryChange → RegisteredParticipant → Prop
  | .revocation _ _, p => p.status ≠ .revoked
  | .retirement _ _, _ => True
  | .keyRotation _ _ _, _ => True

theorem apply_eq_ok :
    r.apply c = .ok r' ↔ r.epoch.val < c.newEpoch.val ∧
      (∃ p, r.participants.lookup c.target = some p ∧ c.Admits p) ∧
      r' = r.amend c.target c.newEpoch c.edit c.verifierId_edit := by
  have hmem : ∀ id, id ∈ r.participants.map ↔ ∃ p, r.participants.lookup id = some p := fun id =>
    AList.lookup_isSome.symm.trans Option.isSome_iff_exists
  cases c with
  | revocation target newEpoch =>
    simp only [apply, withRevocation, do_eq_ok, exists_const]
    constructor
    · rintro ⟨hepoch, p, hp, hstatus, rfl⟩
      exact ⟨hepoch, ⟨p, hp, hstatus⟩, rfl⟩
    · rintro ⟨hepoch, ⟨p, hp, hstatus⟩, rfl⟩
      exact ⟨hepoch, p, hp, hstatus, rfl⟩
  | retirement target newEpoch =>
    simp only [apply, withRetirement, do_eq_ok, exists_const, hmem, Admits, and_true,
      eq_comm (b := r')]
    rfl
  | keyRotation target newSigningKey newEpoch =>
    simp only [apply, withKeyRotation, do_eq_ok, exists_const, hmem, Admits, and_true,
      eq_comm (b := r')]
    rfl

structure Follows (c : RegistryChange) (r r' : ParticipantRegistry) : Prop where
  epoch_lt : r.epoch.val < r'.epoch.val
  epoch_eq : r'.epoch = c.newEpoch
  mem_iff : ∀ id, id ∈ r'.participants.map ↔ id ∈ r.participants.map
  lookup_of_ne : ∀ id, id ≠ c.target → r'.participants.lookup id = r.participants.lookup id
  lookup_target : ∃ p, r.participants.lookup c.target = some p ∧
    r'.participants.lookup c.target = some { c.edit p with addedAtEpoch := r'.epoch }

theorem follows_of_apply (h : r.apply c = .ok r') : c.Follows r r' := by
  obtain ⟨hepoch, ⟨p, hp, -⟩, rfl⟩ := apply_eq_ok.1 h
  refine ⟨hepoch, rfl, fun id => HashMap.mem_modify, fun id hid => ?_, p, hp, ?_⟩
  · exact HashMap.lookup_modify_ne hid
  · exact HashMap.lookup_modify_self.trans (congrArg (Option.map _) hp)

end RegistryChange

/-! ### Chains -/

namespace ParticipantRegistry

variable {epoch : RegistryEpoch} {entries : List RegisteredParticipant}
  {changes : List RegistryChange} {r r' : ParticipantRegistry}

theorem new_eq_ok :
    new epoch entries = .ok r ↔
      ∃ t, entries.foldlM ParticipantTable.add .empty = .ok t ∧ t.map.entries ≠ [] ∧
        ⟨epoch, t⟩ = r := by
  simp only [new, do_eq_ok, exists_const]

theorem lookup_of_new (h : new epoch entries = .ok r) {id : VerifierId}
    {p : RegisteredParticipant} :
    r.participants.lookup id = some p ↔ p ∈ entries ∧ p.verifierId = id := by
  obtain ⟨t, ht, -, rfl⟩ := new_eq_ok.1 h
  have hempty : ParticipantTable.empty.lookup id = none := AList.lookup_empty id
  rw [ParticipantTable.lookup_of_foldlM_add ht, hempty]
  simp

theorem mem_participants_of_new (h : new epoch entries = .ok r) {id : VerifierId} :
    id ∈ r.participants.map ↔ id ∈ entries.map verifierId := by
  rw [← AList.lookup_isSome, Option.isSome_iff_exists, List.mem_map]
  exact exists_congr fun p => lookup_of_new h

theorem mem_participants_of_chain (h : changes.foldlM apply r = .ok r') {id : VerifierId} :
    id ∈ r'.participants.map ↔ id ∈ r.participants.map := by
  have hstep : ∀ s : ParticipantRegistry, ∀ c ∈ changes, ∀ t,
    (id ∈ s.participants.map ↔ id ∈ r.participants.map) →
      s.apply c = .ok t → (id ∈ t.participants.map ↔ id ∈ r.participants.map) :=
    fun s c _ t hs happly => ((RegistryChange.follows_of_apply happly).mem_iff id).trans hs
  have hchain := foldlM_invariant hstep Iff.rfl h
  exact hchain

/-- **Evolution of a registry**: the participants stay, every mutation is of one entry at a later
epoch, and the three ways to ask who may take part agree. -/
theorem evolution_of_new (hnew : new epoch entries = .ok r)
    (hchain : changes.foldlM apply r = .ok r') :
    (∀ id, id ∈ r'.participants.map ↔ id ∈ entries.map verifierId) ∧
      (∀ c r'', r'.apply c = .ok r'' → c.Follows r' r'') ∧
      ∀ hasher e ids, r'.checkCeremonyAdmission e ids = .ok () ↔ e = r'.epoch ∧
        ∀ id ∈ ids, id ∈ (r'.activeVerifierKeys hasher).map Prod.fst ∧
          id ∈ (r'.toDkgRegistry hasher).entries := by
  refine ⟨fun id => ?_, fun c r'' => RegistryChange.follows_of_apply, fun hasher e ids => ?_⟩
  · exact (mem_participants_of_chain hchain).trans (mem_participants_of_new hnew)
  · simp only [checkCeremonyAdmission_eq_ok, mem_activeVerifierKeys, mem_toDkgRegistry, and_self]

def pairEntries : List RegisteredParticipant :=
  [.active (.fromBytes (.replicate 32 1)) (.fromBytes (.replicate 32 3)) .genesis,
    .active (.fromBytes (.replicate 32 2)) (.fromBytes (.replicate 32 4)) .genesis]

def pairChanges : List RegistryChange :=
  [.revocation (.fromBytes (.replicate 32 1)) ⟨1⟩,
    .keyRotation (.fromBytes (.replicate 32 1)) (.fromBytes (.replicate 32 5)) ⟨7⟩]

theorem evolution_of_new_pair :
    ∃ r r', new .genesis pairEntries = .ok r ∧ pairChanges.foldlM apply r = .ok r' ∧
      (∀ id, id ∈ r'.participants.map ↔ id ∈ pairEntries.map verifierId) ∧
      (r'.checkCeremonyAdmission ⟨7⟩ [.fromBytes (.replicate 32 1)] = .ok () ↔
        ⟨7⟩ = r'.epoch ∧ ∀ id ∈ [VerifierId.fromBytes (.replicate 32 1)],
          id ∈ (r'.activeVerifierKeys (.inOrder _)).map Prod.fst ∧
            id ∈ (r'.toDkgRegistry (.inOrder _)).entries) := by
  have hevolution := evolution_of_new (show new .genesis pairEntries = .ok _ from rfl)
    (show pairChanges.foldlM apply _ = .ok _ from rfl)
  exact ⟨_, _, rfl, rfl, hevolution.1, hevolution.2.2 _ _ _⟩

/-! ### Identifiers and keys -/

def Consistent (r : ParticipantRegistry) : Prop :=
  ∀ id p, r.participants.lookup id = some p → p.validateKeyConsistency = .ok ()

end ParticipantRegistry

/-- Not a rotation to a key of another identifier. -/
def RegistryChange.KeepsIdentity : RegistryChange → Prop
  | .revocation _ _ => True
  | .retirement _ _ => True
  | .keyRotation target newSigningKey _ =>
    VerifierId.fromPublicKey newSigningKey.asBytes.toList = target

namespace ParticipantRegistry

variable {epoch : RegistryEpoch} {entries : List RegisteredParticipant}
  {changes : List RegistryChange} {c : RegistryChange} {r r' : ParticipantRegistry}

theorem consistent_of_newValidated (h : newValidated epoch entries = .ok r) : r.Consistent := by
  simp only [newValidated, bind_eq_ok] at h
  obtain ⟨_, hents, hnew⟩ := h
  intro id p hp
  exact forM_eq_ok.1 hents p ((lookup_of_new hnew).1 hp).1

theorem validateKeyConsistency_edit {p : RegisteredParticipant} {e : RegistryEpoch}
    (hp : p.validateKeyConsistency = .ok ()) (htarget : p.verifierId = c.target) :
    { c.edit p with addedAtEpoch := e }.validateKeyConsistency = .ok () ↔ c.KeepsIdentity := by
  rw [validateKeyConsistency_eq_ok] at hp ⊢
  cases c with
  | revocation target newEpoch => exact iff_of_true hp trivial
  | retirement target newEpoch => exact iff_of_true hp trivial
  | keyRotation target newSigningKey newEpoch =>
    change _ = p.verifierId ↔ _ = target
    rw [htarget]
    rfl

/-- **One mutation** of a consistent registry. -/
theorem consistent_apply_iff (hr : r.Consistent) (h : r.apply c = .ok r') :
    r'.Consistent ↔ c.KeepsIdentity := by
  have hfollows := RegistryChange.follows_of_apply h
  obtain ⟨p, hp, hp'⟩ := hfollows.lookup_target
  have hedit := validateKeyConsistency_edit (e := r'.epoch) (hr _ p hp)
    (r.participants.verifierId_of_lookup hp)
  constructor
  · intro hr'
    exact hedit.1 (hr' _ _ hp')
  · intro hkeeps id q hq
    by_cases hid : id = c.target
    · rw [hid, hp', Option.some.injEq] at hq
      rw [← hq]
      exact hedit.2 hkeeps
    · rw [hfollows.lookup_of_ne id hid] at hq
      exact hr id q hq

/-- **Identity along a chain**: identifiers are those of the keys, in all registries, exactly if
each rotation is to a key with the identifier of its target. -/
theorem consistent_chain_iff (hnew : newValidated epoch entries = .ok r)
    (hchain : changes.foldlM apply r = .ok r') :
    (∀ before s, before <+: changes → before.foldlM apply r = .ok s → s.Consistent) ↔
      ∀ c ∈ changes, c.KeepsIdentity := by
  have hr := consistent_of_newValidated hnew
  clear hnew
  induction changes generalizing r with
  | nil =>
    refine iff_of_true (fun before s hbefore hs => ?_) (by simp)
    obtain rfl := List.prefix_nil.1 hbefore
    obtain rfl := foldlM_nil_eq_ok.1 hs
    exact hr
  | cons c changes ih =>
    obtain ⟨t, ht, hrest⟩ := foldlM_cons_eq_ok.1 hchain
    have hstep := consistent_apply_iff hr ht
    rw [List.forall_mem_cons]
    constructor
    · intro hall
      have htcons : t.Consistent :=
        hall [c] t (by simp) (foldlM_cons_eq_ok.2 ⟨t, ht, foldlM_nil_eq_ok.2 rfl⟩)
      refine ⟨hstep.1 htcons, (ih hrest htcons).1 fun before s hbefore hs => ?_⟩
      exact hall (c :: before) s (List.cons_prefix_cons.2 ⟨rfl, hbefore⟩)
        (foldlM_cons_eq_ok.2 ⟨t, ht, hs⟩)
    · rintro ⟨hc, hcs⟩ before s hbefore hs
      have htcons := hstep.2 hc
      rcases List.prefix_cons_iff.1 hbefore with rfl | ⟨later, rfl, hlater⟩
      · obtain rfl := foldlM_nil_eq_ok.1 hs
        exact hr
      · obtain ⟨t', ht', hs⟩ := foldlM_cons_eq_ok.1 hs
        obtain rfl := Except.ok.inj (ht.symm.trans ht')
        exact (ih hrest htcons).2 hcs later s hlater hs

def basePointKey : Ed25519VerifyingKey :=
  .fromBytes ⟨#[0x58] ++ Array.replicate 31 0x66, rfl⟩

def negBasePointKey : Ed25519VerifyingKey :=
  .fromBytes ⟨#[0x58] ++ Array.replicate 30 0x66 ++ #[0xe6], rfl⟩

def basePointId : VerifierId := .fromPublicKey basePointKey.asBytes.toList

theorem negBasePointId_ne :
    VerifierId.fromPublicKey negBasePointKey.asBytes.toList ≠ basePointId := by
  decide +kernel

def basePointRegistry : ParticipantRegistry :=
  ⟨.genesis, ParticipantTable.empty.insert (.fromSigningKey basePointKey .genesis)⟩

theorem newValidated_basePointKey :
    newValidated .genesis [.fromSigningKey basePointKey .genesis] = .ok basePointRegistry := by
  refine bind_eq_ok.2 ⟨(), forM_eq_ok.2 fun p hp => ?_, rfl⟩
  rw [List.mem_singleton.1 hp]
  exact validateKeyConsistency_eq_ok.2 rfl

theorem lookup_basePointId :
    basePointRegistry.participants.lookup basePointId =
      some (.fromSigningKey basePointKey .genesis) :=
  AList.lookup_insert _

theorem exists_keyRotation_basePointId (key : Ed25519VerifyingKey) :
    ∃ r', basePointRegistry.apply (.keyRotation basePointId key ⟨1⟩) = .ok r' := by
  have hepoch : (0 : UInt64) < 1 := by decide
  exact ⟨_, RegistryChange.apply_eq_ok.2 ⟨hepoch, ⟨_, lookup_basePointId, trivial⟩, rfl⟩⟩

theorem consistent_chain_basePointKey :
    ∃ r', [RegistryChange.keyRotation basePointId basePointKey ⟨1⟩].foldlM apply
        basePointRegistry = .ok r' ∧ r'.Consistent := by
  obtain ⟨r', happly⟩ := exists_keyRotation_basePointId basePointKey
  have hchain := foldlM_cons_eq_ok.2 ⟨_, happly, foldlM_nil_eq_ok.2 rfl⟩
  refine ⟨_, hchain, (consistent_chain_iff newValidated_basePointKey hchain).2 ?_ _ _
    List.prefix_rfl hchain⟩
  intro c hc
  rw [List.mem_singleton.1 hc]
  rfl

/-- **A rotation to another key** leaves an entry that is not consistent. -/
theorem not_consistent_withKeyRotation :
    newValidated .genesis [.fromSigningKey basePointKey .genesis] = .ok basePointRegistry ∧
      ∃ r', basePointRegistry.withKeyRotation basePointId negBasePointKey ⟨1⟩ = .ok r' ∧
        ¬ r'.Consistent := by
  obtain ⟨r', hr'⟩ := exists_keyRotation_basePointId negBasePointKey
  have hcons := consistent_of_newValidated newValidated_basePointKey
  exact ⟨newValidated_basePointKey, r', hr', fun h =>
    negBasePointId_ne ((consistent_apply_iff hcons hr').1 h)⟩

end ParticipantRegistry

end TlsAttestation
