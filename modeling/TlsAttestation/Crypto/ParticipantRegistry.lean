import TlsAttestation.Core.Types
import TlsAttestation.Lib.HashMap

/-!
# The registry of participants

`tls_attestation_crypto::participant_registry`: a snapshot of who takes part, with which key and
status. A mutation makes a new one at a later epoch; a revoked participant is refused by
`ParticipantRegistry.withRevocation` only.
-/

namespace TlsAttestation

open Fallible

/-! ### Data -/

structure RegistryEpoch where
  val : UInt64
deriving DecidableEq

def RegistryEpoch.genesis : RegistryEpoch := ⟨0⟩

def RegistryEpoch.debug (e : RegistryEpoch) : String := s!"RegistryEpoch({e.val})"

def RegistryEpoch.display (e : RegistryEpoch) : String := s!"registry-epoch:{e.val}"

inductive ParticipantStatus where
  | active
  | revoked
  | retired
deriving DecidableEq

def ParticipantStatus.isActive (s : ParticipantStatus) : Bool := s = .active

/-- A key by its encoding. No function depends on which strings are keys. -/
structure Ed25519VerifyingKey where fromBytes :: asBytes : Vector UInt8 32
deriving DecidableEq

structure RegisteredParticipant where
  verifierId : VerifierId
  signingKey : Ed25519VerifyingKey
  status : ParticipantStatus
  addedAtEpoch : RegistryEpoch
deriving DecidableEq

inductive RegistryError where
  | unknownParticipant (id : VerifierId)
  | revokedParticipant (id : VerifierId)
  | retiredParticipant (id : VerifierId)
  | epochMismatch (expected actual : RegistryEpoch)
  | duplicateParticipant (id : VerifierId)
  | emptyRegistry
  | staleRotationEpoch (current new : RegistryEpoch)
  | revocationTargetUnknown (id : VerifierId)
  | alreadyRevoked (id : VerifierId)
  | rotationTargetUnknown (id : VerifierId)
  | verifierIdMismatch (claimed derived : VerifierId)
deriving DecidableEq

def RegistryError.display : RegistryError → String
  | .unknownParticipant id => s!"participant {id.display} is not in the registry"
  | .revokedParticipant id =>
    s!"participant {id.display} has been revoked and is not eligible for new ceremonies"
  | .retiredParticipant id =>
    s!"participant {id.display} has retired and is not eligible for new ceremonies"
  | .epochMismatch expected actual =>
    s!"registry epoch mismatch: expected {expected.display}, got {actual.display}"
  | .duplicateParticipant id =>
    s!"participant {id.display} appears more than once — registry entries must be unique"
  | .emptyRegistry => "registry must contain at least one participant"
  | .staleRotationEpoch current new =>
    s!"epoch {new.display} is not strictly greater than the current registry epoch " ++
      s!"{current.display} — registry epochs must advance monotonically"
  | .revocationTargetUnknown id => s!"cannot revoke participant {id.display}: not in registry"
  | .alreadyRevoked id => s!"participant {id.display} is already revoked"
  | .rotationTargetUnknown id =>
    s!"cannot rotate key for participant {id.display}: not in registry"
  | .verifierIdMismatch claimed derived =>
    s!"VerifierId/VerifyingKey mismatch: claimed {claimed.display}, " ++
      s!"derived SHA-256(signing_key) = {derived.display}"

namespace RegisteredParticipant

def active (verifierId : VerifierId) (signingKey : Ed25519VerifyingKey) (epoch : RegistryEpoch) :
    RegisteredParticipant :=
  ⟨verifierId, signingKey, .active, epoch⟩

def fromSigningKey (signingKey : Ed25519VerifyingKey) (epoch : RegistryEpoch) :
    RegisteredParticipant :=
  active (.fromPublicKey signingKey.asBytes.toList) signingKey epoch

/-- The identifier is the one that the key stands for. -/
def validateKeyConsistency (p : RegisteredParticipant) : Except RegistryError Unit :=
  let derived := VerifierId.fromPublicKey p.signingKey.asBytes.toList
  ensure (derived = p.verifierId) (.verifierIdMismatch p.verifierId derived)

def isActive (p : RegisteredParticipant) : Bool := p.status.isActive

theorem isActive_iff {p : RegisteredParticipant} : p.isActive = true ↔ p.status = .active :=
  decide_eq_true_iff

theorem validateKeyConsistency_eq_ok {p : RegisteredParticipant} :
    p.validateKeyConsistency = .ok () ↔
      VerifierId.fromPublicKey p.signingKey.asBytes.toList = p.verifierId :=
  ensure_eq_ok

end RegisteredParticipant

/-! ### Tables of participants -/

/-- Entries by identifier, each under its own. -/
structure ParticipantTable where
  map : HashMap VerifierId RegisteredParticipant
  verifierId_of_lookup : ∀ {id p}, map.lookup id = some p → p.verifierId = id

namespace ParticipantTable

variable (t : ParticipantTable)

def lookup (id : VerifierId) : Option RegisteredParticipant :=
  t.map.lookup id

def empty : ParticipantTable where
  map := ∅
  verifierId_of_lookup := by
    intro id p h
    rw [AList.lookup_empty] at h
    cases h

def insert (entry : RegisteredParticipant) : ParticipantTable where
  map := t.map.insert entry.verifierId entry
  verifierId_of_lookup := by
    intro id p h
    by_cases hid : id = entry.verifierId
    · rw [hid, AList.lookup_insert] at h
      rw [hid, Option.some.inj h]
    · rw [AList.lookup_insert_ne hid] at h
      exact t.verifierId_of_lookup h

def modify (target : VerifierId) (f : RegisteredParticipant → RegisteredParticipant)
    (hf : ∀ p, (f p).verifierId = p.verifierId) : ParticipantTable where
  map := t.map.modify target f
  verifierId_of_lookup := by
    intro id p h
    by_cases hid : id = target
    · rw [hid, HashMap.lookup_modify_self] at h
      obtain ⟨q, hq, rfl⟩ := Option.map_eq_some_iff.1 h
      rw [hf, hid]
      exact t.verifierId_of_lookup hq
    · rw [HashMap.lookup_modify_ne hid] at h
      exact t.verifierId_of_lookup h

def add (entry : RegisteredParticipant) :
    Except RegistryError ParticipantTable := do
  ensure (entry.verifierId ∉ t.map) (.duplicateParticipant entry.verifierId)
  return t.insert entry

theorem add_eq_ok {t t' : ParticipantTable} {entry : RegisteredParticipant} :
    t.add entry = .ok t' ↔ entry.verifierId ∉ t.map ∧ t.insert entry = t' := by
  simp [add]

theorem lookup_of_foldlM_add {t t' : ParticipantTable} {entries : List RegisteredParticipant}
    (h : entries.foldlM add t = .ok t') {id : VerifierId} {p : RegisteredParticipant} :
    t'.lookup id = some p ↔ t.lookup id = some p ∨ p ∈ entries ∧ p.verifierId = id := by
  induction entries generalizing t with
  | nil =>
    obtain rfl := foldlM_nil_eq_ok.1 h
    simp
  | cons entry entries ih =>
    obtain ⟨_, hadd, hrest⟩ := foldlM_cons_eq_ok.1 h
    obtain ⟨hnew, rfl⟩ := add_eq_ok.1 hadd
    rw [ih hrest, List.mem_cons]
    by_cases hid : id = entry.verifierId
    · subst hid
      have hself : (t.insert entry).lookup entry.verifierId = some entry := AList.lookup_insert _
      have hnone : t.lookup entry.verifierId = none := AList.lookup_eq_none.2 hnew
      rw [hself, hnone, Option.some.injEq]
      constructor
      · rintro (rfl | ⟨hp, hv⟩)
        · exact .inr ⟨.inl rfl, rfl⟩
        · exact .inr ⟨.inr hp, hv⟩
      · rintro (hp | ⟨rfl | hp, hv⟩)
        · cases hp
        · exact .inl rfl
        · exact .inr ⟨hp, hv⟩
    · have hother : (t.insert entry).lookup id = t.lookup id := AList.lookup_insert_ne hid
      rw [hother]
      constructor
      · rintro (hp | ⟨hp, hv⟩)
        · exact .inl hp
        · exact .inr ⟨.inr hp, hv⟩
      · rintro (hp | ⟨rfl | hp, hv⟩)
        · exact .inl hp
        · exact absurd hv.symm hid
        · exact .inr ⟨hp, hv⟩

end ParticipantTable

/-! ### Snapshots -/

structure ParticipantRegistry where
  epoch : RegistryEpoch
  participants : ParticipantTable

namespace ParticipantRegistry

/-- A registry of given entries: no identifier twice, and at least one. -/
def new (epoch : RegistryEpoch) (entries : List RegisteredParticipant) :
    Except RegistryError ParticipantRegistry := do
  let participants ← entries.foldlM ParticipantTable.add .empty
  ensure (participants.map.entries ≠ []) .emptyRegistry
  return ⟨epoch, participants⟩

/-- A registry of given entries, identified by their keys. -/
def newValidated (epoch : RegistryEpoch) (entries : List RegisteredParticipant) :
    Except RegistryError ParticipantRegistry := do
  entries.forM RegisteredParticipant.validateKeyConsistency
  new epoch entries

variable (r : ParticipantRegistry)

def getActive (id : VerifierId) :
    Except RegistryError RegisteredParticipant :=
  match r.participants.lookup id with
  | none => .error (.unknownParticipant id)
  | some p =>
    match p.status with
    | .active => .ok p
    | .revoked => .error (.revokedParticipant id)
    | .retired => .error (.retiredParticipant id)

def IsActive (id : VerifierId) : Prop :=
  ∃ p, r.participants.lookup id = some p ∧ p.status = .active

theorem exists_getActive_eq_ok {r : ParticipantRegistry} {id : VerifierId} :
    (∃ p, r.getActive id = .ok p) ↔ r.IsActive id := by
  unfold getActive IsActive
  rcases r.participants.lookup id with _ | ⟨v, key, _ | _ | _, epoch⟩ <;> simp

/-- The epoch is the registry's, and all participants are active in it. -/
def checkCeremonyAdmission (expectedEpoch : RegistryEpoch)
    (ceremonyParticipants : List VerifierId) : Except RegistryError Unit := do
  ensure (expectedEpoch = r.epoch) (.epochMismatch expectedEpoch r.epoch)
  ceremonyParticipants.forM fun id => do
    let _ ← r.getActive id

def activeVerifierKeys (hasher : Hasher VerifierId) (r : ParticipantRegistry) :
    List (VerifierId × Ed25519VerifyingKey) :=
  (((hasher.iter r.participants.map).map Sigma.snd).filter RegisteredParticipant.isActive).map
    fun p => (p.verifierId, p.signingKey)

/-! ### Mutations -/

variable (target : VerifierId) (newEpoch : RegistryEpoch)

def amend (f : RegisteredParticipant → RegisteredParticipant)
    (hf : ∀ p, (f p).verifierId = p.verifierId) : ParticipantRegistry where
  epoch := newEpoch
  participants := r.participants.modify target (fun p => { f p with addedAtEpoch := newEpoch }) hf

/-- In a later epoch. Whoever has been revoked is not revoked again. -/
def withRevocation :
    Except RegistryError ParticipantRegistry := do
  ensure (r.epoch.val < newEpoch.val) (.staleRotationEpoch r.epoch newEpoch)
  let entry ← okOr (r.participants.lookup target) (.revocationTargetUnknown target)
  ensure (entry.status ≠ .revoked) (.alreadyRevoked target)
  return r.amend target newEpoch (fun e => { e with status := .revoked }) fun _ => rfl

/-- In a later epoch, whatever the status was. -/
def withRetirement :
    Except RegistryError ParticipantRegistry := do
  ensure (r.epoch.val < newEpoch.val) (.staleRotationEpoch r.epoch newEpoch)
  ensure (target ∈ r.participants.map) (.revocationTargetUnknown target)
  return r.amend target newEpoch (fun e => { e with status := .retired }) fun _ => rfl

/-- In a later epoch. The participant is active after it, even if it was revoked. -/
def withKeyRotation (newSigningKey : Ed25519VerifyingKey) (newEpoch : RegistryEpoch) :
    Except RegistryError ParticipantRegistry := do
  ensure (r.epoch.val < newEpoch.val) (.staleRotationEpoch r.epoch newEpoch)
  ensure (target ∈ r.participants.map) (.rotationTargetUnknown target)
  return r.amend target newEpoch
    (fun e => { e with signingKey := newSigningKey, status := .active }) fun _ => rfl

end ParticipantRegistry

end TlsAttestation
