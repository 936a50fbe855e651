import TlsAttestation.Crypto.DkgEncrypt

/-!
# Who can open a package

A coordinator may change an envelope or deliver it elsewhere. The cryptography is ideal
(`DkgOpening.Ideal`). Then what is opened was made, under the names that it was made for
(`DkgOpening.honest_of_decrypt`). Since X25519 is commutative, the sender can open its own envelope
(`DkgSealing.decrypt_swapped`).
-/

namespace TlsAttestation

open ByteEncoding Fallible

/-! ### Derived keys -/

section

variable {X : SealingCrates}

def hkdfInfo (ceremonyId : DkgCeremonyId) (senderId recipientId : VerifierId) : Bytes :=
  strBytes "tls-attestation/dkg-round2/v1" ++ ceremonyId.asBytes.toList ++
    senderId.asBytes.toList ++ recipientId.asBytes.toList

theorem hkdfInfo_inj {ceremonyId ceremonyId' : DkgCeremonyId}
    {senderId senderId' recipientId recipientId' : VerifierId}
    (h : hkdfInfo ceremonyId senderId recipientId = hkdfInfo ceremonyId' senderId' recipientId') :
    ceremonyId = ceremonyId' ∧ senderId = senderId' ∧ recipientId = recipientId' := by
  obtain ⟨h, hrec⟩ := List.append_inj h (by simp)
  obtain ⟨h, hsend⟩ := List.append_inj h (by simp)
  obtain ⟨-, hcer⟩ := List.append_inj h rfl
  obtain ⟨ceremonyId⟩ := ceremonyId
  obtain ⟨ceremonyId'⟩ := ceremonyId'
  refine ⟨congrArg _ (Vector.toList_inj.1 hcer), ?_, ?_⟩
  · exact VerifierId.asBytes_injective (Vector.toList_inj.1 hsend)
  · exact VerifierId.asBytes_injective (Vector.toList_inj.1 hrec)

def sharedSecret (ours : DkgEncryptionKeyPair X) (theirs : DkgEncryptionPublicKey) :
    Bytes32 :=
  X.diffieHellman ours.secret theirs.toBytes

end

/-! ### Sealing and opening -/

section

variable {F G : Type} [Field F] [AddCommGroup G] [Module F G] (D : DkgCrates F G)
  (X : SealingCrates)

structure DkgSealing where
  plaintext : D.Round2Package
  ceremonyId : DkgCeremonyId
  senderKey : DkgEncryptionKeyPair X
  senderId : VerifierId
  recipientKey : DkgEncryptionKeyPair X
  recipientId : VerifierId
  nonce : Vector UInt8 24
  envelope : EncryptedDkgRound2Package
  encrypt_eq : encryptRound2Package D plaintext ceremonyId senderKey senderId
    recipientKey.publicKey recipientId nonce = .ok envelope

structure DkgOpening where
  envelope : EncryptedDkgRound2Package
  (recipientKey senderKey : DkgEncryptionKeyPair X)
  ceremonyId : DkgCeremonyId
  (senderId recipientId : VerifierId)

variable {D X}

def DkgSealing.key (h : DkgSealing D X) : Bytes32 :=
  deriveKey h.senderKey.secret h.recipientKey.publicKey h.ceremonyId h.senderId h.recipientId

def DkgOpening.decrypt (D : DkgCrates F G) (o : DkgOpening X) :
    Except CryptoError D.Round2Package :=
  decryptRound2Package D o.envelope o.recipientKey o.senderKey.publicKey o.ceremonyId o.senderId
    o.recipientId

def DkgOpening.key (o : DkgOpening X) : Bytes32 :=
  deriveKey o.recipientKey.secret o.senderKey.publicKey o.ceremonyId o.senderId o.recipientId

def DkgOpening.aad (o : DkgOpening X) : Bytes := buildAad o.ceremonyId o.senderId o.recipientId

def DkgSealing.SameKeys (h : DkgSealing D X) (o : DkgOpening X) : Prop :=
  h.senderKey.publicKey = o.senderKey.publicKey ∧
      h.recipientKey.publicKey = o.recipientKey.publicKey ∨
    h.senderKey.publicKey = o.recipientKey.publicKey ∧
      h.recipientKey.publicKey = o.senderKey.publicKey

/-- **Ideal cryptography**, where the packages `made` were sealed. -/
structure DkgOpening.Ideal (o : DkgOpening X) (made : Set (DkgSealing D X)) : Prop where
  aead : ∀ {bytes}, X.decrypt o.key o.envelope.nonce o.envelope.ciphertext o.aad = .ok bytes →
    ∃ h ∈ made, h.key = o.key ∧ h.nonce = o.envelope.nonce ∧
      h.envelope.ciphertext = o.envelope.ciphertext ∧ D.round2ToVec h.plaintext = .ok bytes
  hkdf : ∀ h ∈ made, h.key = o.key → sharedSecret h.senderKey h.recipientKey.publicKey =
        sharedSecret o.recipientKey o.senderKey.publicKey ∧
      hkdfInfo h.ceremonyId h.senderId h.recipientId =
        hkdfInfo o.ceremonyId o.senderId o.recipientId
  x25519 : ∀ h ∈ made, sharedSecret h.senderKey h.recipientKey.publicKey =
    sharedSecret o.recipientKey o.senderKey.publicKey → h.SameKeys o

theorem DkgSealing.envelope_eq (h : DkgSealing D X) :
    h.envelope = ⟨envelopeVersion, h.ceremonyId.asBytes, h.senderId.asBytes, h.recipientId.asBytes,
      h.nonce, h.envelope.ciphertext⟩ := by
  have hmade := h.encrypt_eq
  simp only [encryptRound2Package, do_eq_ok] at hmade
  obtain ⟨_, _, _, _, henv⟩ := hmade
  rw [← henv]

theorem DkgOpening.decrypt_eq_ok {o : DkgOpening X} {p : D.Round2Package} :
    o.decrypt D = .ok p ↔
      o.envelope.version = envelopeVersion ∧ o.envelope.ceremonyId = o.ceremonyId.asBytes ∧
      o.envelope.senderId = o.senderId.asBytes ∧ o.envelope.recipientId = o.recipientId.asBytes ∧
      ∃ bytes, X.decrypt o.key o.envelope.nonce o.envelope.ciphertext o.aad = .ok bytes ∧
        D.round2FromSlice bytes = .ok p := by
  simp only [decrypt, decryptRound2Package, do_eq_ok, exists_const]
  rfl

/-- **Nothing else is opened**: the envelope was made. -/
theorem DkgOpening.honest_of_decrypt (hD : D.RoundTrips) {o : DkgOpening X}
    {made : Set (DkgSealing D X)} (ho : o.Ideal made) {p : D.Round2Package}
    (h : o.decrypt D = .ok p) :
    ∃ h ∈ made, h.envelope = o.envelope ∧ h.plaintext = p ∧ h.ceremonyId = o.ceremonyId ∧
      h.senderId = o.senderId ∧ h.recipientId = o.recipientId ∧ h.SameKeys o := by
  obtain ⟨hvers, hceremony', hsender', hrecipient', bytes, hdecrypt, hread⟩ :=
    decrypt_eq_ok.1 h
  obtain ⟨h, hh, hkey, hnonce, hciphertext, hbytes⟩ := ho.aead hdecrypt
  obtain ⟨hshared, hinfo⟩ := ho.hkdf h hh hkey
  obtain ⟨hcer, hsend, hrec⟩ := hkdfInfo_inj hinfo
  refine ⟨h, hh, ?_, ?_, hcer, hsend, hrec, ho.x25519 h hh hshared⟩
  · rw [h.envelope_eq, hcer, hsend, hrec, hnonce, hciphertext, ← hvers,
      ← hceremony', ← hsender', ← hrecipient']
  · obtain ⟨bytes', hbytes', -, hread'⟩ := hD.exists_round2ToVec h.plaintext
    obtain rfl := Except.ok.inj (hbytes.symm.trans hbytes')
    exact Except.ok.inj (hread'.symm.trans hread)

/-- **Sealed packages** are opened by their recipients. An envelope is rejected unless it was made,
for the expected names and with the keys of sender and recipient. -/
theorem round2Package_sealed (hX : X.Lawful) (hD : D.RoundTrips) :
    (∀ (p : D.Round2Package) (ceremonyId : DkgCeremonyId)
      (senderKey recipientKey : DkgEncryptionKeyPair X) (senderId recipientId : VerifierId)
      (nonce : Vector UInt8 24), ∃ c,
        encryptRound2Package D p ceremonyId senderKey senderId recipientKey.publicKey recipientId
          nonce = .ok c ∧
        decryptRound2Package D c recipientKey senderKey.publicKey ceremonyId senderId recipientId =
          .ok p) ∧
    ∀ (o : DkgOpening X) (made : Set (DkgSealing D X)), o.Ideal made →
      (∃ e, o.decrypt D = .error e) ∨
      ∃ h ∈ made, h.envelope = o.envelope ∧ h.ceremonyId = o.ceremonyId ∧
        h.senderId = o.senderId ∧ h.recipientId = o.recipientId ∧ h.SameKeys o := by
  constructor
  · intro p ceremonyId senderKey recipientKey senderId recipientId nonce
    obtain ⟨c, hc⟩ := exists_encryptRound2Package hX hD p ceremonyId senderKey senderId
      recipientKey.publicKey recipientId nonce
    exact ⟨c, hc, decryptRound2Package_of_encrypt hX hD hc⟩
  · intro o made ho
    rcases hopen : o.decrypt D with e | p
    · exact .inl ⟨e, rfl⟩
    · obtain ⟨h, hh, henv, -, hnames⟩ := DkgOpening.honest_of_decrypt hD ho hopen
      exact .inr ⟨h, hh, henv, hnames⟩

def DkgSealing.swapped (h : DkgSealing D X) : DkgOpening X :=
  ⟨h.envelope, h.senderKey, h.recipientKey, h.ceremonyId, h.senderId, h.recipientId⟩

/-- The sender can open its envelope. -/
theorem DkgSealing.decrypt_swapped (hX : X.Lawful) (hD : D.RoundTrips) (h : DkgSealing D X) :
    h.swapped.decrypt D = .ok h.plaintext := by
  have hopen := decryptRound2Package_of_encrypt hX hD h.encrypt_eq
  simp only [decryptRound2Package, deriveKey_comm hX h.recipientKey h.senderKey] at hopen
  exact hopen

theorem DkgSealing.ideal_swapped (hX : X.Lawful) (h : DkgSealing D X) : h.swapped.Ideal {h} where
  aead := by
    intro bytes hdecrypt
    have hmade := h.encrypt_eq
    simp only [encryptRound2Package, do_eq_ok, expect_eq_ok] at hmade
    obtain ⟨bytes', hbytes', ciphertext, hencrypt, henv⟩ := hmade
    have hnonce : h.nonce = h.envelope.nonce := by rw [← henv]
    have hcipher : ciphertext = h.envelope.ciphertext := by rw [← henv]
    rw [hnonce, hcipher] at hencrypt
    obtain rfl := Except.ok.inj (hdecrypt.symm.trans (hX.decrypt_encrypt hencrypt))
    exact ⟨h, rfl, rfl, hnonce, rfl, hbytes'⟩
  hkdf := by
    rintro _ rfl -
    exact ⟨rfl, rfl⟩
  x25519 := by
    rintro _ rfl -
    exact .inr ⟨rfl, rfl⟩

end

/-! ### Crates to run it with -/

namespace SmallSealing

def bit (a : Bool) : UInt8 := if a then 1 else 0

def bitCrates : SealingCrates where
  StaticSecret := Bool
  publicKey a := .replicate 32 (bit a)
  diffieHellman a p := .replicate 32 (bit a + p.toList.headD 0)
  encrypt := crates.encrypt
  decrypt := crates.decrypt

theorem lawful_bitCrates : bitCrates.Lawful where
  diffieHellman_comm a b := congrArg (Vector.replicate 32) (UInt8.add_comm (bit a) (bit b))
  exists_encrypt := lawful_crates.exists_encrypt
  decrypt_encrypt := lawful_crates.decrypt_encrypt

def bitKey (a : Bool) : DkgEncryptionKeyPair bitCrates :=
  .ofSecret (X := bitCrates) a

theorem exists_bitSealing :
    ∃ h : DkgSealing Wide.crates bitCrates, h.senderKey = bitKey false ∧
      h.recipientKey = bitKey true := by
  obtain ⟨c, hc⟩ := exists_encryptRound2Package lawful_bitCrates Wide.roundTrips_crates (5 : Wide)
    ⟨.replicate 16 0⟩ (bitKey false) (.fromBytes (.replicate 32 0)) (bitKey true).publicKey
    (.fromBytes (.replicate 32 1)) (.replicate 24 0)
  exact ⟨⟨_, _, _, _, _, _, _, c, hc⟩, rfl, rfl⟩

/-- An envelope that is opened by its sender was made. -/
theorem round2Package_sealed_bit :
    ∃ h : DkgSealing Wide.crates bitCrates, (∃ e, h.swapped.decrypt Wide.crates = .error e) ∨
      ∃ h' ∈ ({h} : Set _), h'.envelope = h.swapped.envelope ∧
        h'.ceremonyId = h.swapped.ceremonyId ∧ h'.senderId = h.swapped.senderId ∧
        h'.recipientId = h.swapped.recipientId ∧ h'.SameKeys h.swapped := by
  obtain ⟨h, -, -⟩ := exists_bitSealing
  exact ⟨h, (round2Package_sealed lawful_bitCrates Wide.roundTrips_crates).2 h.swapped {h}
    (h.ideal_swapped lawful_bitCrates)⟩

/-- **Other keys**, of which none is the right one, open an envelope. -/
theorem decrypt_swapped_bit :
    ∃ h : DkgSealing Wide.crates bitCrates, h.swapped.Ideal {h} ∧
      h.swapped.recipientKey.publicKey ≠ h.recipientKey.publicKey ∧
      h.swapped.senderKey.publicKey ≠ h.senderKey.publicKey ∧
      h.swapped.decrypt Wide.crates = .ok h.plaintext := by
  obtain ⟨h, hsend, hrec⟩ := exists_bitSealing
  refine ⟨h, h.ideal_swapped lawful_bitCrates, ?_, ?_,
    h.decrypt_swapped lawful_bitCrates Wide.roundTrips_crates⟩
  · change h.senderKey.publicKey ≠ h.recipientKey.publicKey
    rw [hsend, hrec]
    decide
  · change h.recipientKey.publicKey ≠ h.senderKey.publicKey
    rw [hsend, hrec]
    decide

end SmallSealing

end TlsAttestation
