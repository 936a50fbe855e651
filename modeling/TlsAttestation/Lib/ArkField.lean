import Mathlib.Data.ZMod.Basic
import TlsAttestation.Lib.LittleEndian

/-!
# Scalar fields and their bytes

The scalar fields of BN254 and BLS12-377, as integers modulo the group order, to bytes and back.
`Ark.fromLeBytesModOrder` reduces; `Ark.deserialize` **refuses** an integer that is not reduced.
-/

namespace Ark

open ByteEncoding

inductive SerializationError where
  | notEnoughSpace
  | invalidData
  | unexpectedFlags
  | ioError
deriving DecidableEq, Repr

def SerializationError.display : SerializationError → String
  | .notEnoughSpace => "the last byte does not have enough space to encode the extra info bits"
  | .invalidData => "the input buffer contained invalid data"
  | .unexpectedFlags => "the call expects empty flags"
  | .ioError =>
    "I/O error: Error \x7b kind: UnexpectedEof, message: \"failed to fill whole buffer\" \x7d"

def SerializationError.debug : SerializationError → String
  | .notEnoughSpace => "NotEnoughSpace"
  | .invalidData => "InvalidData"
  | .unexpectedFlags => "UnexpectedFlags"
  | .ioError =>
    "IoError(Error \x7b kind: UnexpectedEof, message: \"failed to fill whole buffer\" \x7d)"

section

variable (r : ℕ)

def fromLeBytesModOrder (bs : Bytes) : ZMod r := (ofLeBytes bs : ZMod r)

variable {r} in
def serialize (x : ZMod r) : Bytes := leBytes 32 x.val

def deserialize (bs : Bytes) : Except SerializationError (ZMod r) :=
  if bs.length < 32 then .error .ioError
  else if ofLeBytes (bs.take 32) < r then .ok (ofLeBytes (bs.take 32) : ZMod r)
  else .error .invalidData

variable {r}

@[simp] theorem length_serialize (x : ZMod r) : (serialize x).length = 32 :=
  length_leBytes 32 _

/-- What was written is read back. -/
theorem deserialize_serialize [NeZero r] (hr : r ≤ 256 ^ 32) (x : ZMod r) :
    deserialize r (serialize x) = .ok x := by
  have hval : ofLeBytes ((serialize x).take 32) = x.val := by
    rw [List.take_of_length_le (by simp), serialize, ofLeBytes_leBytes]
    exact Nat.mod_eq_of_lt (x.val_lt.trans_le hr)
  rw [deserialize, hval, if_neg (by simp), if_pos x.val_lt, ZMod.natCast_zmod_val]

theorem fromLeBytesModOrder_serialize [NeZero r] (hr : r ≤ 256 ^ 32) (x : ZMod r) :
    fromLeBytesModOrder r (serialize x) = x := by
  rw [fromLeBytesModOrder, serialize, ofLeBytes_leBytes, Nat.mod_eq_of_lt (x.val_lt.trans_le hr),
    ZMod.natCast_zmod_val]

theorem fromLeBytesModOrder_inj {w : ℕ} (hr : 256 ^ w ≤ r) {bs cs : Bytes}
    (hlen : bs.length = cs.length) (hle : bs.length ≤ w) :
    fromLeBytesModOrder r bs = fromLeBytesModOrder r cs ↔ bs = cs := by
  have hlt : ∀ ds : Bytes, ds.length ≤ w → ofLeBytes ds < r := fun ds hds =>
    (ofLeBytes_lt ds).trans_le ((Nat.pow_le_pow_right (by decide) hds).trans hr)
  rw [fromLeBytesModOrder, fromLeBytesModOrder, ZMod.natCast_eq_natCast_iff',
    Nat.mod_eq_of_lt (hlt bs hle), Nat.mod_eq_of_lt (hlt cs (hlen ▸ hle)), ofLeBytes_inj hlen]

theorem serialize_injective [NeZero r] (hr : r ≤ 256 ^ 32) :
    Function.Injective (serialize (r := r)) := by
  intro x y h
  have hx := deserialize_serialize hr x
  rw [h, deserialize_serialize hr y] at hx
  exact (Except.ok.inj hx).symm

end

/-! ### The two scalar fields -/

namespace Bn254

def r : ℕ := 21888242871839275222246405745257275088548364400416034343698204186575808495617

abbrev Fr := ZMod r

instance : NeZero r := ⟨by decide⟩

theorem r_le : r ≤ 256 ^ 32 := by decide

theorem le_r : 256 ^ 31 ≤ r := by decide

end Bn254

namespace Bls12377

def r : ℕ := 8444461749428370424248824938781546531375899335154063827935233455917409239041

abbrev Fr := ZMod r

instance : NeZero r := ⟨by decide⟩

theorem r_le : r ≤ 256 ^ 32 := by decide

theorem le_r : 256 ^ 31 ≤ r := by decide

theorem coprime_r_two : Nat.Coprime r 2 := by decide

end Bls12377

end Ark
