import Mathlib.Tactic.IntervalCases
import TlsAttestation.Core.Hash
import TlsAttestation.Lib.Fallible

/-!
# Reading hexadecimal

`hex::decode` looks at the bytes of the text, two at a time. Digits may be in either case, but what
was written is read back (`hexDecode_hexEncode`).
-/

namespace TlsAttestation

open ByteEncoding List

inductive FromHexError where
  | invalidHexCharacter (c : UInt8) (index : ℕ)
  | oddLength
deriving DecidableEq, Repr

def debugChar (c : UInt8) : String :=
  let escaped :=
    match Char.ofNat c.toNat with
    | '\x00' => "\\0"
    | '\t' => "\\t"
    | '\n' => "\\n"
    | '\r' => "\\r"
    | '\'' => "\\'"
    | '\\' => "\\\\"
    | char =>
      -- blanks other than the space, controls and the soft hyphen are not printed as they are
      if (0x20 ≤ c ∧ c < 0x7f) ∨ (0xa0 < c ∧ c ≠ 0xad) then char.toString
      else "\\u\x7b" ++ String.ofList (Nat.toDigits 16 c.toNat) ++ "\x7d"
  "'" ++ escaped ++ "'"

def FromHexError.display : FromHexError → String
  | .invalidHexCharacter c index => s!"Invalid character {debugChar c} at position {index}"
  | .oddLength => "Odd number of digits"

def hexVal (c : UInt8) (index : ℕ) : Except FromHexError ℕ :=
  if 0x41 ≤ c ∧ c ≤ 0x46 then .ok (c.toNat - 0x41 + 10)
  else if 0x61 ≤ c ∧ c ≤ 0x66 then .ok (c.toNat - 0x61 + 10)
  else if 0x30 ≤ c ∧ c ≤ 0x39 then .ok (c.toNat - 0x30)
  else .error (.invalidHexCharacter c index)

def decodePairs : ℕ → Bytes → Except FromHexError Bytes
  | index, a :: b :: rest => do
    let high ← hexVal a index
    let low ← hexVal b (index + 1)
    let tail ← decodePairs (index + 2) rest
    return UInt8.ofNat (16 * high + low) :: tail
  | _, _ => .ok []

def hexDecode (s : String) : Except FromHexError Bytes :=
  if (strBytes s).length % 2 ≠ 0 then .error .oddLength else decodePairs 0 (strBytes s)

/-! ### What was written is read back -/

def hexDigitByte (n : ℕ) : UInt8 := UInt8.ofNat (hexDigit n).val.toNat

theorem utf8EncodeChar_hexDigit {n : ℕ} (h : n < 16) :
    String.utf8EncodeChar (hexDigit n) = [hexDigitByte n] := by
  interval_cases n <;> rfl

theorem hexVal_hexDigitByte {n : ℕ} (h : n < 16) (index : ℕ) :
    hexVal (hexDigitByte n) index = .ok n := by
  interval_cases n <;> rfl

def hexPair (b : UInt8) : Bytes := [hexDigitByte (b.toNat / 16), hexDigitByte (b.toNat % 16)]

theorem strBytes_hexEncode (bs : Bytes) : strBytes (hexEncode bs) = bs.flatMap hexPair := by
  have hbytes : strBytes (hexEncode bs) =
      (bs.flatMap fun b => [hexDigit (b.toNat / 16), hexDigit (b.toNat % 16)]).flatMap
        String.utf8EncodeChar := by
    rw [strBytes, hexEncode, String.toByteArray_ofList, List.utf8Encode]
    simp
  rw [hbytes, flatMap_assoc]
  refine flatMap_congr fun b _ => ?_
  have hb := b.toNat_lt
  rw [flatMap_cons, flatMap_cons, flatMap_nil, append_nil,
    utf8EncodeChar_hexDigit (by omega), utf8EncodeChar_hexDigit (by omega)]
  rfl

theorem decodePairs_flatMap_hexPair (bs : Bytes) (index : ℕ) :
    decodePairs index (bs.flatMap hexPair) = .ok bs := by
  induction bs generalizing index with
  | nil => rfl
  | cons b bs ih =>
    have hb := b.toNat_lt
    have hbyte : UInt8.ofNat (16 * (b.toNat / 16) + b.toNat % 16) = b := by
      rw [Nat.div_add_mod, UInt8.ofNat_toNat]
    rw [flatMap_cons, hexPair]
    simp only [cons_append, nil_append, decodePairs, hexVal_hexDigitByte
      (show b.toNat / 16 < 16 by omega), hexVal_hexDigitByte (show b.toNat % 16 < 16 by omega), ih]
    exact congrArg (fun c => Except.ok (c :: bs)) hbyte

theorem length_flatMap_hexPair (bs : Bytes) : (bs.flatMap hexPair).length = 2 * bs.length := by
  induction bs with
  | nil => rfl
  | cons b bs ih =>
    rw [flatMap_cons, length_append, ih, length_cons, hexPair]
    simp only [length_cons, length_nil]
    omega

/-- What was written is read back. -/
theorem hexDecode_hexEncode (bs : Bytes) : hexDecode (hexEncode bs) = .ok bs := by
  rw [hexDecode, strBytes_hexEncode, length_flatMap_hexPair, if_neg (by omega),
    decodePairs_flatMap_hexPair]

theorem hexEncode_injective : Function.Injective hexEncode := by
  intro bs bs' h
  have hbs := hexDecode_hexEncode bs
  rw [h, hexDecode_hexEncode bs'] at hbs
  exact (Except.ok.inj hbs).symm

end TlsAttestation
