import TlsAttestation.Crypto.Dkg
import TlsAttestation.Lib.Hmac

/-!
# Packages under seal

`tls_attestation_crypto::dkg_encrypt`: the packages of the second round are encrypted for their
recipients. A package is decrypted to itself, under the names that it was encrypted under
(`decryptRound2Package_of_encrypt`).
-/

namespace TlsAttestation

open ByteEncoding Fallible

/-! ### The crates -/

structure SealingCrates where
  StaticSecret : Type
  publicKey : StaticSecret → Bytes32
  diffieHellman : StaticSecret → Bytes32 → Bytes32
  (encrypt decrypt : Bytes32 → Vector UInt8 24 → (msg aad : Bytes) → Except String Bytes)

/-- The longest message: the counter of blocks has 32 bits. -/
def maxPlaintextLength : ℕ := 2 ^ 38 - 64

/-- What is documented of them. -/
structure SealingCrates.Lawful (X : SealingCrates) : Prop where
  diffieHellman_comm : ∀ a b, X.diffieHellman a (X.publicKey b) = X.diffieHellman b (X.publicKey a)
  exists_encrypt : ∀ key nonce {msg : Bytes} aad, msg.length < maxPlaintextLength →
    ∃ c, X.encrypt key nonce msg aad = .ok c
  decrypt_encrypt : ∀ {key nonce msg aad c}, X.encrypt key nonce msg aad = .ok c →
    X.decrypt key nonce c aad = .ok msg

/-! ### Data -/

structure DkgCeremonyId where fromBytes :: asBytes : Vector UInt8 16
deriving DecidableEq

structure DkgEncryptionPublicKey where fromBytes :: toBytes : Bytes32
deriving DecidableEq

/-- The halves belong together. -/
structure DkgEncryptionKeyPair (X : SealingCrates) where
  secret : X.StaticSecret
  publicKey : DkgEncryptionPublicKey
  publicKey_eq : publicKey = .fromBytes (X.publicKey secret)

def DkgEncryptionKeyPair.ofSecret {X : SealingCrates} (secret : X.StaticSecret) :
    DkgEncryptionKeyPair X :=
  ⟨secret, .fromBytes (X.publicKey secret), rfl⟩

structure EncryptedDkgRound2Package where
  version : UInt8
  ceremonyId : Vector UInt8 16
  senderId : Bytes32
  recipientId : Bytes32
  nonce : Vector UInt8 24
  ciphertext : Bytes
deriving DecidableEq

def envelopeVersion : UInt8 := 1

/-! ### Keys and associated data -/

section

variable {X : SealingCrates}

def deriveKey (ourSecret : X.StaticSecret) (theirPub : DkgEncryptionPublicKey)
    (ceremonyId : DkgCeremonyId) (senderId recipientId : VerifierId) : Bytes32 :=
  let shared := X.diffieHellman ourSecret theirPub.toBytes
  let hk := Sha2.hkdfExtract none shared.toList
  Sha2.hkdfExpandBlock hk (strBytes "tls-attestation/dkg-round2/v1" ++ ceremonyId.asBytes.toList ++
    senderId.asBytes.toList ++ recipientId.asBytes.toList)

def buildAad (ceremonyId : DkgCeremonyId) (senderId recipientId : VerifierId) : Bytes :=
  [envelopeVersion] ++ ceremonyId.asBytes.toList ++ senderId.asBytes.toList ++
    recipientId.asBytes.toList

/-- Both sides have the same key. -/
theorem deriveKey_comm (hX : X.Lawful) (a b : DkgEncryptionKeyPair X) (ceremonyId : DkgCeremonyId)
    (senderId recipientId : VerifierId) :
    deriveKey a.secret b.publicKey ceremonyId senderId recipientId =
      deriveKey b.secret a.publicKey ceremonyId senderId recipientId := by
  simp only [deriveKey, a.publicKey_eq, b.publicKey_eq, hX.diffieHellman_comm a.secret b.secret]

end

/-! ### Encryption and decryption -/

section

variable {F G : Type} [Field F] [AddCommGroup G] [Module F G] (D : DkgCrates F G)
  {X : SealingCrates}

/-- Ceremony, sender and recipient go into the key and the associated data; `nonce` is drawn. -/
def encryptRound2Package (plaintext : D.Round2Package) (ceremonyId : DkgCeremonyId)
    (senderKey : DkgEncryptionKeyPair X) (senderId : VerifierId)
    (recipientPub : DkgEncryptionPublicKey) (recipientId : VerifierId) (nonce : Vector UInt8 24) :
    Except (Stop CryptoError) EncryptedDkgRound2Package := do
  let plainBytes ← expect (D.round2ToVec plaintext)
    "DkgRound2Package serialization must not fail — library invariant"
  let aad := buildAad ceremonyId senderId recipientId
  let key := deriveKey senderKey.secret recipientPub ceremonyId senderId recipientId
  let ciphertext ← (X.encrypt key nonce plainBytes aad).mapError fun e =>
    .error (.invalidKeyMaterial s!"AEAD encrypt failed: {e}")
  return ⟨envelopeVersion, ceremonyId.asBytes, senderId.asBytes, recipientId.asBytes, nonce,
    ciphertext⟩

/-- The fields of the envelope are compared with what is expected before it is opened. -/
def decryptRound2Package (envelope : EncryptedDkgRound2Package)
    (recipientKey : DkgEncryptionKeyPair X) (senderPub : DkgEncryptionPublicKey)
    (expectedCeremonyId : DkgCeremonyId) (expectedSenderId expectedRecipientId : VerifierId) :
    Except CryptoError D.Round2Package := do
  ensure (envelope.version = envelopeVersion) (.invalidKeyMaterial
    s!"unsupported DKG envelope version {envelope.version} (expected {envelopeVersion})")
  ensure (envelope.ceremonyId = expectedCeremonyId.asBytes)
    (.invalidKeyMaterial "ceremony_id mismatch in encrypted DKG Round-2 package")
  ensure (envelope.senderId = expectedSenderId.asBytes)
    (.invalidKeyMaterial "sender_id mismatch in encrypted DKG Round-2 package")
  ensure (envelope.recipientId = expectedRecipientId.asBytes)
    (.invalidKeyMaterial "recipient_id mismatch in encrypted DKG Round-2 package")
  let aad := buildAad expectedCeremonyId expectedSenderId expectedRecipientId
  let key := deriveKey recipientKey.secret senderPub expectedCeremonyId expectedSenderId
    expectedRecipientId
  let plainBytes ← (X.decrypt key envelope.nonce envelope.ciphertext aad).mapError fun _ =>
    .invalidKeyMaterial ("DKG Round-2 package decryption failed — " ++
      "authentication tag mismatch or wrong key")
  (D.round2FromSlice plainBytes).mapError fun e =>
    .invalidKeyMaterial s!"DkgRound2Package deserialization failed: {e}"

/-- **The JSON of a package** is short, and read back. -/
structure DkgCrates.RoundTrips : Prop where
  exists_round2ToVec : ∀ p, ∃ bytes, D.round2ToVec p = .ok bytes ∧
    bytes.length < maxPlaintextLength ∧ D.round2FromSlice bytes = .ok p

variable {D}

theorem exists_encryptRound2Package (hX : X.Lawful) (hD : D.RoundTrips) (p : D.Round2Package)
    (ceremonyId : DkgCeremonyId) (senderKey : DkgEncryptionKeyPair X) (senderId : VerifierId)
    (recipientPub : DkgEncryptionPublicKey) (recipientId : VerifierId) (nonce : Vector UInt8 24) :
    ∃ c, encryptRound2Package D p ceremonyId senderKey senderId recipientPub recipientId nonce =
      .ok c := by
  obtain ⟨bytes, hbytes, hlen, -⟩ := hD.exists_round2ToVec p
  simp only [encryptRound2Package, do_eq_ok, expect_eq_ok]
  obtain ⟨c, hc⟩ := hX.exists_encrypt (deriveKey senderKey.secret recipientPub ceremonyId senderId
    recipientId) nonce (buildAad ceremonyId senderId recipientId) hlen
  exact ⟨_, bytes, hbytes, c, hc, rfl⟩

/-- A package is decrypted to itself. -/
theorem decryptRound2Package_of_encrypt (hX : X.Lawful) (hD : D.RoundTrips) {p : D.Round2Package}
    {ceremonyId : DkgCeremonyId} {senderKey recipientKey : DkgEncryptionKeyPair X}
    {senderId recipientId : VerifierId} {nonce : Vector UInt8 24} {c : EncryptedDkgRound2Package}
    (h : encryptRound2Package D p ceremonyId senderKey senderId recipientKey.publicKey recipientId
      nonce = .ok c) :
    decryptRound2Package D c recipientKey senderKey.publicKey ceremonyId senderId recipientId =
      .ok p := by
  simp only [encryptRound2Package, do_eq_ok, expect_eq_ok] at h
  obtain ⟨bytes, hbytes, ciphertext, hcipher, rfl⟩ := h
  obtain ⟨bytes', hbytes', -, hread⟩ := hD.exists_round2ToVec p
  obtain rfl := Except.ok.inj (hbytes.symm.trans hbytes')
  simp only [decryptRound2Package, do_eq_ok]
  refine ⟨(), trivial, (), trivial, (), trivial, (), trivial, bytes, ?_, hread⟩
  rw [deriveKey_comm hX recipientKey senderKey]
  exact hX.decrypt_encrypt hcipher

end

/-! ### Crates to run it with -/

namespace SmallSealing

variable (key : Bytes32)

def xorWith (msg : Bytes) : Bytes :=
  msg.zipIdx.map fun p => p.1 ^^^ key.toList.getD (p.2 % 32) 0

theorem xorWith_xorWith (msg : Bytes) :
    xorWith key (xorWith key msg) = msg := by
  refine List.ext_getElem (by simp [xorWith]) fun i _ _ => ?_
  simp only [xorWith, List.getElem_map, List.getElem_zipIdx]
  rw [UInt8.xor_assoc, UInt8.xor_self, UInt8.xor_zero]

def tag (nonce : Vector UInt8 24) (msg aad : Bytes) : Bytes :=
  (Sha2.sha256 (key.toList ++ nonce.toList ++ aad ++ msg)).toList

theorem length_tag (nonce : Vector UInt8 24) (msg aad : Bytes) :
    (tag key nonce msg aad).length = 32 := by
  simp [tag]

/-- Sealing crates that compute: secrets have one byte. -/
def crates : SealingCrates where
  StaticSecret := UInt8
  publicKey a := .replicate 32 (3 * a)
  diffieHellman a p := .replicate 32 (a * p.get 0)
  encrypt key nonce msg aad :=
    if msg.length < maxPlaintextLength then .ok (tag key nonce msg aad ++ xorWith key msg)
    else .error "message too long"
  decrypt key nonce c aad :=
    let msg := xorWith key (c.drop 32)
    if c.take 32 = tag key nonce msg aad then .ok msg else .error "wrong tag"

theorem lawful_crates : crates.Lawful where
  diffieHellman_comm a b := by
    have hbytes : ∀ x y : UInt8, x * (3 * y) = y * (3 * x) := fun x y => by
      rw [← UInt8.mul_assoc, ← UInt8.mul_assoc, UInt8.mul_comm x 3, UInt8.mul_assoc,
        UInt8.mul_comm x y, ← UInt8.mul_assoc, UInt8.mul_comm 3 y]
    exact congrArg (Vector.replicate 32) (hbytes a b)
  exists_encrypt key nonce msg aad h := ⟨_, if_pos h⟩
  decrypt_encrypt := by
    intro key nonce msg aad c h
    simp only [crates] at h
    split at h
    · obtain rfl := Except.ok.inj h
      simp only [crates, List.drop_left' (length_tag key nonce msg aad),
        List.take_left' (length_tag key nonce msg aad), xorWith_xorWith, if_true]
    · cases h

end SmallSealing

theorem Wide.roundTrips_crates : Wide.crates.RoundTrips where
  exists_round2ToVec p :=
    ⟨Wide.toBytes p, rfl, lt_of_eq_of_lt (Wide.length_toBytes p) (by decide),
      congrArg _ (Wide.ofBytes_toBytes p)⟩

end TlsAttestation
