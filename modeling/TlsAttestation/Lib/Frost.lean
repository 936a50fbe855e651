import TlsAttestation.Lib.Encoding
import TlsAttestation.Lib.Fallible
import Mathlib.Data.Finmap
import Mathlib.Algebra.Module.Torsion.Field
import Mathlib.Algebra.Field.ZMod
import Mathlib.Algebra.BigOperators.Group.Finset.Basic
import Mathlib.Tactic.NormNum.Prime
import Mathlib.Tactic.Abel

/-!
# FROST

Two-round threshold Schnorr signatures (RFC 9591): commit, sign, aggregate, verify, with the checks
that make them fail. Group, hash functions and encodings are a `Frost.Ciphersuite`.
-/

namespace Frost

open ByteEncoding Fallible

/-! ### Data -/

abbrev Identifier (F : Type) [Zero F] := {x : F // x ≠ 0}

structure SigningNonces (F : Type) where
  hidingNonce : F
  bindingNonce : F
deriving DecidableEq

structure SigningCommitments (G : Type) where
  hidingCommitment : G
  bindingCommitment : G
deriving DecidableEq

structure KeyPackage (F G : Type) [Zero F] where
  identifier : Identifier F
  signingShare : F
  verifyingShare : G
  verifyingKey : G
  minSigners : ℕ
deriving DecidableEq

structure PublicKeyPackage (F G : Type) [Zero F] where
  verifyingShares : Finmap fun _ : Identifier F => G
  verifyingKey : G
deriving DecidableEq

structure SigningPackage (F G : Type) [Zero F] where
  signingCommitments : Finmap fun _ : Identifier F => SigningCommitments G
  message : Bytes
deriving DecidableEq

structure Signature (F G : Type) where
  R : G
  z : F
deriving DecidableEq

inductive Error where
  | malformedElement
  | invalidIdentityElement
  | malformedScalar
  | incorrectNumberOfCommitments
  | missingCommitment
  | incorrectCommitment
  | identityCommitment
  | unknownIdentifier
  | invalidSignature
deriving DecidableEq

/-- A group with a generator, hashes, and encodings of `ne` and `ns` bytes. -/
structure Ciphersuite (F G : Type) [Field F] [AddCommGroup G] [Module F G] (ne ns : ℕ) where
  /-- The generator. -/
  base : G
  base_ne_zero : base ≠ 0
  exists_smul_base : ∀ g : G, ∃ s : F, s • base = g
  /-- The binding factor of a participant, `H1`. -/
  bindingFactor : G → SigningPackage F G → Identifier F → F
  /-- `H2` of the commitment, the key and the message. -/
  challenge : G → G → Bytes → F
  /-- `H3` of random bytes and the share. -/
  nonce : Bytes32 → F → F
  serializeElement : G → Vector UInt8 ne
  deserializeElement : Vector UInt8 ne → Except Error G
  serializeScalar : F → Vector UInt8 ns
  deserializeScalar : Vector UInt8 ns → Except Error F
  /-- The neutral element is rejected when it is read. -/
  deserializeElement_eq_ok : ∀ b g, deserializeElement b = .ok g ↔ g ≠ 0 ∧ serializeElement g = b
  serializeElement_injective : Function.Injective serializeElement
  deserializeScalar_eq_ok : ∀ b s, deserializeScalar b = .ok s ↔ serializeScalar s = b
  /-- The texts of the errors. -/
  errorText : Error → String

namespace Ciphersuite

variable {F G : Type} [Field F] [AddCommGroup G] [Module F G] {ne ns : ℕ}
  (S : Ciphersuite F G ne ns)

theorem smul_base_ne_zero {r : F} (hr : r ≠ 0) : r • S.base ≠ 0 :=
  smul_ne_zero hr S.base_ne_zero

theorem smul_base_injective : Function.Injective fun r : F => r • S.base :=
  smul_left_injective F S.base_ne_zero

/-! ### Signatures as bytes -/

def serializeSignature (sig : Signature F G) : Vector UInt8 (ne + ns) :=
  S.serializeElement sig.R ++ S.serializeScalar sig.z

def deserializeSignature (bytes : Vector UInt8 (ne + ns)) : Except Error (Signature F G) := do
  let R ← S.deserializeElement (.ofFn fun i => bytes[i.1])
  let z ← S.deserializeScalar (.ofFn fun i => bytes[ne + i.1])
  return ⟨R, z⟩

theorem serializeScalar_injective : Function.Injective S.serializeScalar := by
  intro a b hab
  have ha := (S.deserializeScalar_eq_ok _ a).2 rfl
  rw [hab, (S.deserializeScalar_eq_ok _ b).2 rfl] at ha
  exact (Except.ok.inj ha).symm

theorem serializeSignature_injective : Function.Injective S.serializeSignature := by
  rintro ⟨R, z⟩ ⟨R', z'⟩ h
  obtain ⟨hR, hz⟩ := Vector.append_inj h
  exact congrArg₂ Signature.mk (S.serializeElement_injective hR) (S.serializeScalar_injective hz)

variable {sig : Signature F G}

/-- **A signature is read back exactly from its own bytes**, unless neutral. -/
theorem deserializeSignature_eq_ok {bytes : Vector UInt8 (ne + ns)} :
    S.deserializeSignature bytes = .ok sig ↔ sig.R ≠ 0 ∧ S.serializeSignature sig = bytes := by
  obtain ⟨R, z⟩ := sig
  simp only [deserializeSignature, do_eq_ok, Signature.mk.injEq, S.deserializeElement_eq_ok,
    S.deserializeScalar_eq_ok, serializeSignature]
  constructor
  · rintro ⟨R, ⟨hne, hR⟩, z, hz, rfl, rfl⟩
    refine ⟨hne, ?_⟩
    ext i hi
    rw [Vector.getElem_append, hR, hz]
    split
    · simp
    · simp [show ne + (i - ne) = i by omega]
  · rintro ⟨hne, rfl⟩
    refine ⟨R, ⟨hne, ?_⟩, z, ?_, rfl, rfl⟩
    · ext i hi
      simp
    · ext i hi
      simp

variable [DecidableEq F] [DecidableEq G]

/-! ### Round one -/

def nonces (signingShare : F) (random : Bytes32 × Bytes32) : SigningNonces F :=
  ⟨S.nonce random.1 signingShare, S.nonce random.2 signingShare⟩

def commitments (n : SigningNonces F) : SigningCommitments G :=
  ⟨n.hidingNonce • S.base, n.bindingNonce • S.base⟩

omit [DecidableEq F] [DecidableEq G] in
theorem commitments_injective : Function.Injective S.commitments := by
  rintro ⟨d, e⟩ ⟨d', e'⟩ h
  obtain ⟨hd, he⟩ := SigningCommitments.mk.inj h
  exact congrArg₂ SigningNonces.mk (S.smul_base_injective hd) (S.smul_base_injective he)

/-! ### Round two -/

/-- No signer may commit to the neutral element. -/
def groupCommitment (verifyingKey : G) (package : SigningPackage F G) : Except Error G := do
  ensure (∀ e ∈ package.signingCommitments.entries,
      e.2.hidingCommitment ≠ 0 ∧ e.2.bindingCommitment ≠ 0) .identityCommitment
  return (package.signingCommitments.entries.map fun e =>
    e.2.hidingCommitment + S.bindingFactor verifyingKey package e.1 • e.2.bindingCommitment).sum

def lagrange (signers : Finset (Identifier F)) (i : Identifier F) : F :=
  ∏ j ∈ signers.erase i, (j : F) / (j - i)

variable (package : SigningPackage F G)

/-- A signature share. The signer finds its own commitment in the package. -/
def sign (n : SigningNonces F) (key : KeyPackage F G) :
    Except Error F := do
  ensure (key.minSigners ≤ package.signingCommitments.entries.card) .incorrectNumberOfCommitments
  let commitment ← okOr (package.signingCommitments.lookup key.identifier) .missingCommitment
  ensure (S.commitments n = commitment) .incorrectCommitment
  let R ← S.groupCommitment key.verifyingKey package
  let ρ := S.bindingFactor key.verifyingKey package key.identifier
  let c := S.challenge R key.verifyingKey package.message
  return n.hidingNonce + ρ * n.bindingNonce +
    lagrange package.signingCommitments.keys key.identifier * key.signingShare * c

/-! ### Verification and aggregation -/

def verify (verifyingKey : G) (message : Bytes) (sig : Signature F G) : Except Error Unit :=
  ensure (sig.z • S.base = sig.R + S.challenge sig.R verifyingKey message • verifyingKey)
    .invalidSignature

/-- The sum of the shares, if it is a signature of the group. -/
def aggregate (shares : Finmap fun _ : Identifier F => F)
    (group : PublicKeyPackage F G) : Except Error (Signature F G) := do
  ensure (package.signingCommitments.keys.card = shares.keys.card ∧
      ∀ id ∈ package.signingCommitments.keys, id ∈ shares.keys ∧ id ∈ group.verifyingShares.keys)
    .unknownIdentifier
  let R ← S.groupCommitment group.verifyingKey package
  let sig : Signature F G := ⟨R, (shares.entries.map fun e => e.2).sum⟩
  S.verify group.verifyingKey package.message sig
  return sig

/-! ### What success means -/

variable {S}

omit [DecidableEq F] in
theorem verify_eq_ok {Y : G} {m : Bytes} {u : Unit} :
    S.verify Y m sig = .ok u ↔ sig.z • S.base = sig.R + S.challenge sig.R Y m • Y := by
  simp [verify]

variable {package : SigningPackage F G}

theorem lookup_of_sign_eq_ok {n : SigningNonces F}
    {key : KeyPackage F G} {z : F} (h : S.sign package n key = .ok z) :
    package.signingCommitments.lookup key.identifier = some (S.commitments n) := by
  simp only [sign, do_eq_ok] at h
  obtain ⟨_, _, c, hc, _, heq, _⟩ := h
  rw [hc, heq]

/-- An aggregated signature verifies. -/
theorem verify_of_aggregate_eq_ok {shares : Finmap fun _ : Identifier F => F}
    {group : PublicKeyPackage F G} (h : S.aggregate package shares group = .ok sig) :
    S.verify group.verifyingKey package.message sig = .ok () := by
  simp only [aggregate, do_eq_ok] at h
  obtain ⟨_, _, R, _, _, hver, rfl⟩ := h
  exact hver

/-! ### The signatures under one key -/

variable (S)

def signatureOf (s r : F) (m : Bytes) : Signature F G :=
  ⟨r • S.base, r + S.challenge (r • S.base) (s • S.base) m * s⟩

omit [DecidableEq F] in
/-- Every nonce gives a signature. -/
theorem verify_signatureOf (s r : F) (m : Bytes) :
    S.verify (s • S.base) m (S.signatureOf s r m) = .ok () := by
  rw [verify_eq_ok]
  simp only [signatureOf, add_smul, mul_smul]

end Ciphersuite

/-! ### A small group to run the protocol in -/

scoped instance fact_prime_toy : Fact (Nat.Prime 101) := ⟨by norm_num⟩

/-- Scalars and points of the small group, with `1` as its base point. -/
abbrev Toy := ZMod 101

/-- The members of the small group. -/
inductive ToyMember where
  | alice
  | bob
  | carol
deriving DecidableEq

namespace ToyMember

/-- Members are numbered from one on. -/
def number : ToyMember → ℕ
  | alice => 1
  | bob => 2
  | carol => 3

/-- The identifier of a member is its number. -/
def id (i : ToyMember) : Identifier Toy := ⟨(i.number : Toy), by cases i <;> decide⟩

end ToyMember

namespace Toy

def toByte (x : Toy) : UInt8 := .ofNat x.val

def ofByte (b : UInt8) : Toy := (b.toNat : Toy)

@[simp] theorem ofByte_toByte (x : Toy) : ofByte (toByte x) = x := by
  have hlt : x.val < 256 := (ZMod.val_lt x).trans (by decide)
  simp [ofByte, toByte, Nat.mod_eq_of_lt hlt]

theorem toByte_eq_zero {x : Toy} : toByte x = 0 ↔ x = 0 := by
  constructor
  · intro h
    rw [← ofByte_toByte x, h]
    rfl
  · rintro rfl
    rfl

def encode (n : ℕ) (x : Toy) : Vector UInt8 (n + 1) := .ofFn fun i => if i = 0 then toByte x else 0

def decode {n : ℕ} (b : Vector UInt8 (n + 1)) : Toy := ofByte b[0]

theorem decode_encode (n : ℕ) (x : Toy) : decode (encode n x) = x := by
  simp [decode, encode]

theorem encode_injective (n : ℕ) : Function.Injective (encode n) :=
  Function.LeftInverse.injective (decode_encode n)

end Toy

open Toy in
def toySuite (n k : ℕ) : Ciphersuite Toy Toy (n + 1) (k + 1) where
  base := 1
  base_ne_zero := by decide
  exists_smul_base g := ⟨g, by simp⟩
  bindingFactor Y package i := i + Y + (package.signingCommitments.entries.card : Toy)
  challenge R Y m := R + (Y + Y) + (ofBeBytes m : Toy)
  nonce random s := s + (ofBeBytes random.toList : Toy)
  serializeElement := encode n
  deserializeElement b :=
    if encode n (decode b) = b then
      if decode b = 0 then .error .invalidIdentityElement else .ok (decode b)
    else .error .malformedElement
  serializeScalar := encode k
  deserializeScalar b :=
    if encode k (decode b) = b then .ok (decode b) else .error .malformedScalar
  deserializeElement_eq_ok b g := by
    constructor
    · intro h
      split_ifs at h with hb h0
      obtain rfl := Except.ok.inj h
      exact ⟨h0, hb⟩
    · rintro ⟨hg, rfl⟩
      simp [decode_encode, hg]
  serializeElement_injective := encode_injective n
  deserializeScalar_eq_ok b s := by
    constructor
    · intro h
      split_ifs at h with hb
      obtain rfl := Except.ok.inj h
      exact hb
    · rintro rfl
      simp [decode_encode]
  errorText
    | .malformedElement => "Malformed element encoding."
    | .invalidIdentityElement => "Element equals identity."
    | .malformedScalar => "Malformed scalar encoding."
    | .incorrectNumberOfCommitments => "Incorrect number of commitments."
    | .missingCommitment => "The Signing Package must contain the signer's Commitment."
    | .incorrectCommitment => "The signer's commitment is incorrect."
    | .identityCommitment => "Commitment equals the identity."
    | .unknownIdentifier => "Unknown identifier."
    | .invalidSignature => "Invalid signature."

end Frost
