import TlsAttestation.Lib.Sha256
import Mathlib.Data.Set.Function

/-!
# Canonical hashing

`tls_attestation_core::hash`: digests, plain and tagged SHA-256, and the `CanonicalHasher`, modelled
by the string it has absorbed. A Rust slice is never longer than `isize::MAX` (`RVec`, `RString`),
so length prefixes are unambiguous. Collision resistance is of two strings, `NoCollision`.
-/

namespace TlsAttestation

open ByteEncoding

/-! ### Values with Rust's bounds on their size -/

/-- A `Vec` has at most `isize::MAX` bytes. -/
abbrev RVec (α : Type*) := {l : List α // l.length < 2 ^ 63}

/-- A list as a `Vec`; one that is too long is replaced by nothing. -/
def RVec.ofList {α : Type*} (l : List α) : RVec α :=
  if h : l.length < 2 ^ 63 then ⟨l, h⟩ else ⟨[], Nat.two_pow_pos 63⟩

/-- The UTF-8 bytes of a string, which is all that Rust hashes of it. -/
def strBytes (s : String) : Bytes := s.toByteArray.data.toList

/-- A `String` has at most `isize::MAX` bytes. -/
abbrev RString := {s : String // (strBytes s).length < 2 ^ 63}

/-- A string as a `String`; one that is too long is replaced by the empty one. -/
def RString.ofString (s : String) : RString :=
  if h : (strBytes s).length < 2 ^ 63 then ⟨s, h⟩ else ⟨"", Nat.two_pow_pos 63⟩

theorem strBytes_injective : Function.Injective strBytes := by
  intro s t h
  exact String.toByteArray_inj.1 (ByteArray.ext (Array.toList_inj.1 h))

/-! ### Hexadecimal, for the texts of errors -/

def hexDigit (n : ℕ) : Char := "0123456789abcdef".toList.getD n '0'

def hexEncode (bs : Bytes) : String :=
  String.ofList (bs.flatMap fun b => [hexDigit (b.toNat / 16), hexDigit (b.toNat % 16)])

/-! ### Digests -/

structure DigestBytes where fromBytes :: asBytes : Bytes32
deriving DecidableEq

theorem DigestBytes.asBytes_injective : Function.Injective DigestBytes.asBytes := by
  rintro ⟨_⟩ ⟨_⟩ h
  exact congrArg _ h

def DigestBytes.zero : DigestBytes := .fromBytes (.replicate 32 0)

def DigestBytes.xorWith (a b : DigestBytes) : DigestBytes :=
  .fromBytes (Vector.zipWith (· ^^^ ·) a.asBytes b.asBytes)

theorem DigestBytes.xorWith_xorWith_self (a b : DigestBytes) : (a.xorWith b).xorWith b = a := by
  refine DigestBytes.asBytes_injective (Vector.ext fun i hi => ?_)
  simp only [xorWith, Vector.getElem_zipWith]
  rw [UInt8.xor_assoc, UInt8.xor_self, UInt8.xor_zero]

instance DigestBytes.nontrivial : Nontrivial DigestBytes :=
  ⟨.zero, .fromBytes (.replicate 32 1), by decide⟩

def sha256 (data : Bytes) : DigestBytes := .fromBytes (Sha2.sha256 data)

def domainPrefixed (domain : String) : Bytes :=
  beBytes 4 (strBytes domain).length ++ strBytes domain

def sha256Tagged (domain : String) (data : Bytes) : DigestBytes :=
  sha256 (domainPrefixed domain ++ data)

/-- Different strings, different digests. -/
def NoCollision (s : Set Bytes) : Prop := Set.InjOn sha256 s

theorem NoCollision.eq {a b : Bytes} (h : NoCollision {a, b}) (heq : sha256 a = sha256 b) :
    a = b :=
  h (by simp) (by simp) heq

theorem NoCollision.of_ne {a b : Bytes} (h : sha256 a ≠ sha256 b) : NoCollision {a, b} := by
  rintro x (rfl | rfl) y (rfl | rfl) hxy
  · rfl
  · exact absurd hxy h
  · exact absurd hxy.symm h
  · rfl

theorem NoCollision.self (a : Bytes) : NoCollision {a, a} := by
  rw [NoCollision, Set.pair_eq_singleton]
  exact Set.injOn_singleton _ _

theorem NoCollision.mono {s t : Set Bytes} (h : NoCollision t) (hst : s ⊆ t) : NoCollision s :=
  Set.InjOn.mono hst h

/-- Domains do not overlap. -/
theorem domain_eq_of_append_eq {d₁ d₂ : String} {xs ys : Bytes}
    (h₁ : (strBytes d₁).length < 256 ^ 4) (h₂ : (strBytes d₂).length < 256 ^ 4)
    (h : domainPrefixed d₁ ++ xs = domainPrefixed d₂ ++ ys) : d₁ = d₂ := by
  obtain ⟨hd, -⟩ := selfDelimiting_lengthPrefixed (w := 4) (a := ⟨strBytes d₁, h₁⟩)
    (b := ⟨strBytes d₂, h₂⟩) h
  exact strBytes_injective (Subtype.mk.inj hd)

/-! ### The hasher -/

/-- The bytes that have been fed to the hash so far. -/
structure CanonicalHasher where
  inner : Bytes
deriving DecidableEq

namespace CanonicalHasher

def new (domain : String) : CanonicalHasher := ⟨domainPrefixed domain⟩

def updateBytes (h : CanonicalHasher) (data : Bytes) : CanonicalHasher :=
  ⟨h.inner ++ lengthPrefixed 8 data⟩

def updateFixed {n : ℕ} (h : CanonicalHasher) (data : Vector UInt8 n) : CanonicalHasher :=
  ⟨h.inner ++ data.toList⟩

def updateU64 (h : CanonicalHasher) (v : UInt64) : CanonicalHasher :=
  ⟨h.inner ++ beBytes 8 v.toNat⟩

def updateU32 (h : CanonicalHasher) (v : UInt32) : CanonicalHasher :=
  ⟨h.inner ++ beBytes 4 v.toNat⟩

def updateBool (h : CanonicalHasher) (v : Bool) : CanonicalHasher :=
  ⟨h.inner ++ [if v then 1 else 0]⟩

def updateDigest (h : CanonicalHasher) (d : DigestBytes) : CanonicalHasher :=
  ⟨h.inner ++ d.asBytes.toList⟩

def finalize (h : CanonicalHasher) : DigestBytes := sha256 h.inner

/-! What a hasher has absorbed, as one string. -/

@[simp] theorem inner_new (domain : String) : (new domain).inner = domainPrefixed domain := rfl

variable (h : CanonicalHasher)

@[simp] theorem inner_updateBytes (data : Bytes) :
    (h.updateBytes data).inner = h.inner ++ lengthPrefixed 8 data := rfl

@[simp] theorem inner_updateFixed {n : ℕ} (data : Vector UInt8 n) :
    (h.updateFixed data).inner = h.inner ++ data.toList := rfl

@[simp] theorem inner_updateU64 (v : UInt64) :
    (h.updateU64 v).inner = h.inner ++ beBytes 8 v.toNat := rfl

@[simp] theorem inner_updateU32 (v : UInt32) :
    (h.updateU32 v).inner = h.inner ++ beBytes 4 v.toNat := rfl

@[simp] theorem inner_updateBool (v : Bool) :
    (h.updateBool v).inner = h.inner ++ [if v then 1 else 0] := rfl

@[simp] theorem inner_updateDigest (d : DigestBytes) :
    (h.updateDigest d).inner = h.inner ++ d.asBytes.toList := rfl

end CanonicalHasher

/-! ### The fields of a hash, read back -/

theorem selfDelimiting_vector {n : ℕ} :
    SelfDelimiting fun v : Vector UInt8 n => v.toList :=
  .of_length (fun _ _ h => Vector.toList_inj.1 h) (by simp)

theorem selfDelimiting_u64 : SelfDelimiting fun v : UInt64 => beBytes 8 v.toNat :=
  .of_length (fun a b h => UInt64.toNat_inj.1 (beBytes_inj a.toNat_lt b.toNat_lt h)) (by simp)

theorem selfDelimiting_digest : SelfDelimiting fun d : DigestBytes => d.asBytes.toList :=
  selfDelimiting_vector.comp DigestBytes.asBytes_injective

theorem selfDelimiting_rvec {α : Type*} {enc : α → Bytes} (henc : SelfDelimiting enc) :
    SelfDelimiting fun l : RVec α => counted 8 enc l.1 :=
  (selfDelimiting_counted (w := 8) henc).comp
    (f := fun l : RVec α => ⟨l.1, l.2.trans (by decide)⟩) fun _ _ h =>
      Subtype.ext (Subtype.mk.inj h)

theorem selfDelimiting_rbytes : SelfDelimiting fun l : RVec UInt8 => lengthPrefixed 8 l.1 :=
  (selfDelimiting_lengthPrefixed (w := 8)).comp
    (f := fun l : RVec UInt8 => ⟨l.1, l.2.trans (by decide)⟩) fun _ _ h =>
      Subtype.ext (Subtype.mk.inj h)

theorem selfDelimiting_rstring :
    SelfDelimiting fun s : RString => lengthPrefixed 8 (strBytes s.1) :=
  (selfDelimiting_lengthPrefixed (w := 8)).comp
    (f := fun s : RString => ⟨strBytes s.1, s.2.trans (by decide)⟩) fun _ _ h =>
      Subtype.ext (strBytes_injective (Subtype.mk.inj h))

end TlsAttestation
