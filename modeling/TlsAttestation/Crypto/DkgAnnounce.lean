import TlsAttestation.Crypto.DkgEncrypt
import TlsAttestation.Lib.HashMap

/-!
# Announcements of encryption keys

`tls_attestation_crypto::dkg_announce`: keys for the packages of the second round, each under a
signature. The collection succeeds on the lists in which every expected participant has one
announcement, and a verified one (`DkgParticipantRegistry.collectVerifiedEncKeys_exact`).
-/

namespace TlsAttestation

open ByteEncoding Fallible Finmap
open List hiding Vector

def announcementDomain : String := "tls-attestation/dkg-enc-key-announcement/v1"

def announcementVersion : UInt8 := 1

structure DkgKeyAnnouncementPayload where
  version : UInt8
  verifierId : Bytes32
  ceremonyId : Vector UInt8 16
  encPublicKey : Bytes32
deriving DecidableEq

/-- The length of the signature is checked with it. -/
structure SignedDkgKeyAnnouncement where
  payload : DkgKeyAnnouncementPayload
  signature : Bytes
deriving DecidableEq

structure VerifiedDkgKeyAnnouncement where
  verifierId : VerifierId
  ceremonyId : DkgCeremonyId
  encPublicKey : DkgEncryptionPublicKey
deriving DecidableEq

/-- The verified encryption keys, by participant. -/
abbrev EncPubMap := Finmap fun _ : VerifierId => DkgEncryptionPublicKey

variable (a : SignedDkgKeyAnnouncement)

def SignedDkgKeyAnnouncement.verifierId : VerifierId :=
  .fromBytes a.payload.verifierId

def SignedDkgKeyAnnouncement.encPublicKey :
    DkgEncryptionPublicKey :=
  .fromBytes a.payload.encPublicKey

structure DkgParticipantRegistry (VerifyingKey : Type) where
  entries : Finmap fun _ : VerifierId => VerifyingKey

/-- Of two keys for one participant the later one counts. -/
def DkgParticipantRegistry.new {VerifyingKey : Type} (entries : List (VerifierId × VerifyingKey)) :
    DkgParticipantRegistry VerifyingKey where
  entries := (HashMap.collect (entries.map fun e => ⟨e.1, e.2⟩)).toFinmap

def announcementSigningPreimage (version : UInt8) (verifierId : Bytes32)
    (ceremonyId : Vector UInt8 16) (encPublicKey : Bytes32) : Bytes32 :=
  ((((CanonicalHasher.new announcementDomain).updateU32 version.toUInt32).updateFixed
    verifierId).updateFixed ceremonyId).updateFixed encPublicKey |>.finalize.asBytes

/-- A verifier signs its encryption key, for one ceremony. -/
def createDkgKeyAnnouncement {X : SealingCrates} {SigningKey : Type} [Signer SigningKey]
    (encKey : DkgEncryptionKeyPair X) (ceremonyId : DkgCeremonyId)
    (signer : VerifierKeyPair SigningKey) : SignedDkgKeyAnnouncement :=
  let payload : DkgKeyAnnouncementPayload :=
    ⟨announcementVersion, signer.verifierId.asBytes, ceremonyId.asBytes, encKey.publicKey.toBytes⟩
  let preimage := announcementSigningPreimage payload.version payload.verifierId payload.ceremonyId
    payload.encPublicKey
  ⟨payload, (Signer.sign signer.signingKey preimage.toList).toList⟩

namespace DkgParticipantRegistry

variable {VerifyingKey : Type} [Verifier VerifyingKey]
  (registry : DkgParticipantRegistry VerifyingKey)

/-- Of this version and ceremony, and signed by the registered key of its verifier. -/
def verifyAnnouncement
    (announcement : SignedDkgKeyAnnouncement) (expectedCeremonyId : DkgCeremonyId) :
    Except CryptoError VerifiedDkgKeyAnnouncement := do
  let p := announcement.payload
  ensure (p.version = announcementVersion) (.dkgAnnouncement
    s!"unsupported announcement version {p.version} (expected {announcementVersion})")
  ensure (p.ceremonyId = expectedCeremonyId.asBytes) (.dkgAnnouncement
    ("announcement ceremony_id does not match expected ceremony — " ++
      "possible cross-ceremony replay or stale announcement"))
  let verifierId := VerifierId.fromBytes p.verifierId
  let vk ← okOr (registry.entries.lookup verifierId) (.dkgAnnouncement
    (s!"verifier {verifierId.display} is not in the DKG participant registry — " ++
      "outsider or registry not populated correctly"))
  let preimage := announcementSigningPreimage p.version p.verifierId p.ceremonyId p.encPublicKey
  let sig ← (Signature.fromSlice announcement.signature).mapError fun e =>
    .dkgAnnouncement s!"malformed announcement signature: {e}"
  ensure (Verifier.verify vk preimage.toList sig) (.signatureVerificationFailed
    (s!"DKG key-announcement signature from {verifierId.display} is invalid — " ++
      "possible coordinator key substitution or data tampering"))
  return ⟨verifierId, .fromBytes p.ceremonyId, .fromBytes p.encPublicKey⟩

def collectAnnouncement (expectedCeremonyId : DkgCeremonyId)
    (expectedParticipants : List VerifierId) (verified : EncPubMap)
    (announcement : SignedDkgKeyAnnouncement) :
    Except CryptoError EncPubMap := do
  let v ← registry.verifyAnnouncement announcement expectedCeremonyId
  ensure (v.verifierId ∈ expectedParticipants) (.dkgAnnouncement
    s!"announcement from {v.verifierId.display} is not in the expected participant set")
  ensure (v.verifierId ∉ verified) (.dkgAnnouncement
    s!"duplicate announcement for participant {v.verifierId.display} — ambiguous key")
  return verified.insert v.verifierId v.encPublicKey

/-- One verified announcement for each expected participant, and no others. -/
def collectVerifiedEncKeys (announcements : List SignedDkgKeyAnnouncement)
    (expectedCeremonyId : DkgCeremonyId) (expectedParticipants : List VerifierId) :
    Except CryptoError EncPubMap := do
  let verified ← announcements.foldlM
    (registry.collectAnnouncement expectedCeremonyId expectedParticipants) ∅
  expectedParticipants.forM fun expectedId =>
    ensure (expectedId ∈ verified) (.dkgAnnouncement
      (s!"missing DKG key announcement from participant {expectedId.display} — " ++
        "ceremony cannot start without all participants' authenticated keys"))
  return verified

variable {registry : DkgParticipantRegistry VerifyingKey} {ceremonyId : DkgCeremonyId}
  {expected : List VerifierId} {announcements : List SignedDkgKeyAnnouncement}
  {verified verified' : EncPubMap}

/-- **An authentic announcement**: of the version in use and for the ceremony, under a signature
that verifies with the registered key of the participant it names. -/
structure Authentic (registry : DkgParticipantRegistry VerifyingKey) (ceremonyId : DkgCeremonyId)
    (a : SignedDkgKeyAnnouncement) : Prop where
  version : a.payload.version = announcementVersion
  ceremony : a.payload.ceremonyId = ceremonyId.asBytes
  signed : ∃ vk sig, registry.entries.lookup a.verifierId = some vk ∧ a.signature = sig.toList ∧
    Verifier.verify vk (announcementSigningPreimage a.payload.version a.payload.verifierId
      a.payload.ceremonyId a.payload.encPublicKey).toList sig = true

variable {a : SignedDkgKeyAnnouncement}

theorem verifyAnnouncement_eq_ok {v : VerifiedDkgKeyAnnouncement} :
    registry.verifyAnnouncement a ceremonyId = .ok v ↔
      registry.Authentic ceremonyId a ∧ v = ⟨a.verifierId, ceremonyId, a.encPublicKey⟩ := by
  simp only [verifyAnnouncement, do_eq_ok, Signature.fromSlice_eq_ok]
  constructor
  · rintro ⟨-, hvers, -, hcer, vk, hvk, sig, hsig, -, hver, rfl⟩
    refine ⟨⟨hvers, hcer, vk, sig, hvk, hsig, hver⟩, ?_⟩
    rw [hcer]
    rfl
  · rintro ⟨⟨hvers, hcer, vk, sig, hvk, hsig, hver⟩, rfl⟩
    refine ⟨(), hvers, (), hcer, vk, hvk, sig, hsig, (), hver, ?_⟩
    rw [hcer]
    rfl

theorem collectAnnouncement_eq_ok :
    registry.collectAnnouncement ceremonyId expected verified a = .ok verified' ↔
      registry.Authentic ceremonyId a ∧ a.verifierId ∈ expected ∧ a.verifierId ∉ verified ∧
        verified.insert a.verifierId a.encPublicKey = verified' := by
  simp only [collectAnnouncement, do_eq_ok, verifyAnnouncement_eq_ok]
  constructor
  · rintro ⟨_, ⟨hauth, rfl⟩, -, hexp, -, hnew, hins⟩
    exact ⟨hauth, hexp, hnew, hins⟩
  · rintro ⟨hauth, hexp, hnew, hins⟩
    exact ⟨_, ⟨hauth, rfl⟩, (), hexp, (), hnew, hins⟩

theorem collectVerifiedEncKeys_eq_ok :
    registry.collectVerifiedEncKeys announcements ceremonyId expected = .ok verified ↔
      announcements.foldlM (registry.collectAnnouncement ceremonyId expected) ∅ = .ok verified ∧
        ∀ v ∈ expected, v ∈ verified := by
  simp only [collectVerifiedEncKeys, do_eq_ok]
  constructor
  · rintro ⟨_, hfold, _, hall, rfl⟩
    exact ⟨hfold, fun v hv => ensure_eq_ok.1 (forM_eq_ok.1 hall v hv)⟩
  · rintro ⟨hfold, hall⟩
    exact ⟨verified, hfold, ⟨⟩, forM_eq_ok.2 fun v hv => ensure_eq_ok.2 (hall v hv), rfl⟩

/-- The keys are those of the expected participants. -/
theorem mem_of_collectVerifiedEncKeys
    (h : registry.collectVerifiedEncKeys announcements ceremonyId expected = .ok verified)
    {v : VerifierId} : v ∈ verified ↔ v ∈ expected := by
  obtain ⟨hfold, hall⟩ := collectVerifiedEncKeys_eq_ok.1 h
  refine ⟨fun hv => ?_, hall v⟩
  have hturn : ∀ m, ∀ a ∈ announcements, ∀ m', (∀ v ∈ m, v ∈ expected) →
      registry.collectAnnouncement ceremonyId expected m a = .ok m' → ∀ v ∈ m', v ∈ expected := by
    intro m a _ m' hm hcoll v hv
    obtain ⟨-, hw, -, rfl⟩ := collectAnnouncement_eq_ok.1 hcoll
    rcases mem_insert.1 hv with rfl | hv
    · exact hw
    · exact hm v hv
  exact foldlM_invariant hturn (fun v hv => absurd hv notMem_empty) hfold v hv

theorem exists_foldlM_collectAnnouncement :
    (∃ m, announcements.foldlM (registry.collectAnnouncement ceremonyId expected) verified =
        .ok m) ↔
      (∀ a ∈ announcements, registry.Authentic ceremonyId a ∧ a.verifierId ∈ expected) ∧
      (announcements.map SignedDkgKeyAnnouncement.verifierId).Nodup ∧
      ∀ a ∈ announcements, a.verifierId ∉ verified := by
  induction announcements generalizing verified with
  | nil => simp
  | cons a announcements ih =>
    simp only [foldlM_cons_eq_ok, forall_mem_cons, map_cons, nodup_cons]
    constructor
    · rintro ⟨m, _, hturn, hrest⟩
      obtain ⟨hver, hexp, hnew, rfl⟩ := collectAnnouncement_eq_ok.1 hturn
      obtain ⟨hall, hnodup, hfresh⟩ := ih.1 ⟨m, hrest⟩
      refine ⟨⟨⟨hver, hexp⟩, hall⟩, ⟨fun hmem => ?_, hnodup⟩, hnew, fun b hb hmem => ?_⟩
      · obtain ⟨b, hb, hba⟩ := mem_map.1 hmem
        exact hfresh b hb (mem_insert.2 (.inl hba))
      · exact hfresh b hb (mem_insert.2 (.inr hmem))
    · rintro ⟨⟨⟨hver, hexp⟩, hall⟩, ⟨hnot, hnodup⟩, hnew, hfresh⟩
      have hfresh' : ∀ b ∈ announcements,
          b.verifierId ∉ verified.insert a.verifierId a.encPublicKey := by
        intro b hb hmem
        rcases mem_insert.1 hmem with hba | hmem
        · exact hnot (mem_map.2 ⟨b, hb, hba⟩)
        · exact hfresh b hb hmem
      obtain ⟨m, hm⟩ := ih.2 ⟨hall, hnodup, hfresh'⟩
      exact ⟨m, _, collectAnnouncement_eq_ok.2 ⟨hver, hexp, hnew, rfl⟩, hm⟩

variable {key : DkgEncryptionPublicKey}

theorem lookup_of_foldlM_collectAnnouncement
    (h : announcements.foldlM (registry.collectAnnouncement ceremonyId expected) verified =
      .ok verified') {id : VerifierId} :
    verified'.lookup id = some key ↔ verified.lookup id = some key ∨
      ∃ a ∈ announcements, a.verifierId = id ∧ a.encPublicKey = key := by
  induction announcements generalizing verified with
  | nil =>
    obtain rfl := foldlM_nil_eq_ok.1 h
    simp
  | cons a announcements ih =>
    obtain ⟨_, hturn, hrest⟩ := foldlM_cons_eq_ok.1 h
    obtain ⟨-, -, hnew, rfl⟩ := collectAnnouncement_eq_ok.1 hturn
    rw [ih hrest, exists_mem_cons_iff, ← or_assoc]
    refine or_congr_left ?_
    by_cases hid : id = a.verifierId
    · rw [hid, lookup_insert, lookup_eq_none.2 hnew, Option.some.injEq]
      simp
    · rw [lookup_insert_of_ne _ hid]
      simp [Ne.symm hid]

theorem exists_collectVerifiedEncKeys :
    (∃ m, registry.collectVerifiedEncKeys announcements ceremonyId expected = .ok m) ↔
      (∀ a ∈ announcements, registry.Authentic ceremonyId a ∧ a.verifierId ∈ expected) ∧
      ∀ id ∈ expected, (announcements.map SignedDkgKeyAnnouncement.verifierId).count id = 1 := by
  constructor
  · rintro ⟨m, h⟩
    obtain ⟨hfold, hpresent⟩ := collectVerifiedEncKeys_eq_ok.1 h
    obtain ⟨hall, hnodup, -⟩ := exists_foldlM_collectAnnouncement.1 ⟨m, hfold⟩
    refine ⟨hall, fun id hid => count_eq_one_of_mem hnodup ?_⟩
    obtain ⟨key, hkey⟩ := mem_iff.1 (hpresent id hid)
    rcases (lookup_of_foldlM_collectAnnouncement hfold).1 hkey with hempty | ⟨a, ha, rfl, -⟩
    · simp at hempty
    · exact mem_map_of_mem ha
  · rintro ⟨hall, hone⟩
    have hnodup : (announcements.map SignedDkgKeyAnnouncement.verifierId).Nodup := by
      refine nodup_iff_count_le_one.2 fun id => ?_
      by_cases hid : id ∈ announcements.map SignedDkgKeyAnnouncement.verifierId
      · obtain ⟨a, ha, rfl⟩ := mem_map.1 hid
        exact (hone _ (hall a ha).2).le
      · rw [count_eq_zero_of_not_mem hid]
        exact Nat.zero_le 1
    obtain ⟨m, hfold⟩ := exists_foldlM_collectAnnouncement.2 ⟨hall, hnodup, fun a _ => notMem_empty⟩
    refine ⟨m, collectVerifiedEncKeys_eq_ok.2 ⟨hfold, fun id hid => ?_⟩⟩
    have hmem : id ∈ announcements.map SignedDkgKeyAnnouncement.verifierId := by
      refine count_pos_iff.1 ?_
      rw [hone id hid]
      exact Nat.one_pos
    obtain ⟨a, ha, rfl⟩ := mem_map.1 hmem
    exact mem_of_lookup_eq_some
      ((lookup_of_foldlM_collectAnnouncement hfold).2 (.inr ⟨a, ha, rfl, rfl⟩))

theorem lookup_of_collectVerifiedEncKeys
    (h : registry.collectVerifiedEncKeys announcements ceremonyId expected = .ok verified)
    {id : VerifierId} :
    verified.lookup id = some key ↔
      ∃ a ∈ announcements, a.verifierId = id ∧ a.encPublicKey = key := by
  rw [lookup_of_foldlM_collectAnnouncement (collectVerifiedEncKeys_eq_ok.1 h).1]
  simp

/-- The order of the announcements does not matter. -/
theorem collectVerifiedEncKeys_perm {announcements' : List SignedDkgKeyAnnouncement}
    (hperm : announcements.Perm announcements')
    (h : registry.collectVerifiedEncKeys announcements ceremonyId expected = .ok verified) :
    registry.collectVerifiedEncKeys announcements' ceremonyId expected = .ok verified := by
  obtain ⟨hall, hone⟩ := exists_collectVerifiedEncKeys.1 ⟨verified, h⟩
  have hall' : ∀ a ∈ announcements', registry.Authentic ceremonyId a ∧ a.verifierId ∈ expected :=
    fun a ha => hall a (hperm.mem_iff.2 ha)
  obtain ⟨m, hm⟩ := exists_collectVerifiedEncKeys.2 ⟨hall', fun id hid =>
    ((hperm.map _).count_eq id).symm.trans (hone id hid)⟩
  have hlookup : ∀ id, m.lookup id = verified.lookup id := fun id => by
    ext key
    rw [lookup_of_collectVerifiedEncKeys hm, lookup_of_collectVerifiedEncKeys h]
    simp only [hperm.mem_iff]
  rw [hm, ext_lookup hlookup]

/-- **The collection is exact**: it succeeds if the announcements are authentic ones, one of each
expected participant, and then has what each announced, in any order. -/
theorem collectVerifiedEncKeys_exact (announcements : List SignedDkgKeyAnnouncement)
    (ceremonyId : DkgCeremonyId) (expected : List VerifierId) :
    ((∃ m, registry.collectVerifiedEncKeys announcements ceremonyId expected = .ok m) ↔
      (∀ a ∈ announcements, registry.Authentic ceremonyId a ∧ a.verifierId ∈ expected) ∧
      ∀ id ∈ expected, (announcements.map SignedDkgKeyAnnouncement.verifierId).count id = 1) ∧
    ∀ m, registry.collectVerifiedEncKeys announcements ceremonyId expected = .ok m →
      (∀ id, id ∈ m ↔ id ∈ expected) ∧
      (∀ id key, m.lookup id = some key ↔
        ∃ a ∈ announcements, a.verifierId = id ∧ a.encPublicKey = key) ∧
      ∀ announcements', announcements.Perm announcements' →
        registry.collectVerifiedEncKeys announcements' ceremonyId expected = .ok m :=
  ⟨exists_collectVerifiedEncKeys, fun _ h => ⟨fun _ => mem_of_collectVerifiedEncKeys h,
    fun _ _ => lookup_of_collectVerifiedEncKeys h,
    fun _ hperm => collectVerifiedEncKeys_perm hperm h⟩⟩

/-- What a registered participant announces is authentic. -/
theorem authentic_createDkgKeyAnnouncement {X : SealingCrates} {SigningKey : Type}
    [Signer SigningKey] (encKey : DkgEncryptionKeyPair X) (ceremonyId : DkgCeremonyId)
    (signer : VerifierKeyPair SigningKey) {vk : VerifyingKey}
    (hvk : registry.entries.lookup signer.verifierId = some vk)
    (hsign : ∀ msg, Verifier.verify vk msg (Signer.sign signer.signingKey msg) = true) :
    registry.Authentic ceremonyId (createDkgKeyAnnouncement encKey ceremonyId signer) :=
  ⟨rfl, rfl, vk, _, hvk, rfl, hsign _⟩

end DkgParticipantRegistry

end TlsAttestation
