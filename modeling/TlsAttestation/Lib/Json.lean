import Mathlib.Data.Nat.Notation

/-!
# JSON values and their texts

A value, and the text that a compact printer makes of it: no blanks, the members of an object in
their order, and in strings the escapes that JSON asks for and no others.
-/

/-- A JSON value. A number is kept as it is written, and an object may name a member twice. -/
inductive JsonValue where
  | null
  | bool (b : Bool)
  | number (literal : String)
  | string (s : String)
  | array (elements : List JsonValue)
  | object (members : List (String × JsonValue))

namespace JsonValue

/-- A character of a string: quotation marks, backslashes and controls are escaped. -/
def escape (c : Char) : String :=
  match c with
  | '"' => "\\\""
  | '\\' => "\\\\"
  | '\x08' => "\\b"
  | '\x0c' => "\\f"
  | '\n' => "\\n"
  | '\r' => "\\r"
  | '\t' => "\\t"
  | c =>
    if c.toNat < 0x20 then
      "\\u00" ++ String.ofList [Nat.digitChar (c.toNat / 16), Nat.digitChar (c.toNat % 16)]
    else c.toString

/-- A string between quotation marks. -/
def quote (s : String) : String := "\"" ++ String.join (s.toList.map escape) ++ "\""

mutual

/-- The text of a value, with no spaces between its parts. -/
def text : JsonValue → String
  | null => "null"
  | bool b => if b then "true" else "false"
  | number literal => literal
  | string s => quote s
  | array elements => "[" ++ ",".intercalate (texts elements) ++ "]"
  | object members => "\x7b" ++ ",".intercalate (memberTexts members) ++ "\x7d"

/-- The texts of the elements of an array. -/
def texts : List JsonValue → List String
  | [] => []
  | v :: vs => text v :: texts vs

/-- The texts of the members of an object, each with its name. -/
def memberTexts : List (String × JsonValue) → List String
  | [] => []
  | (name, v) :: members => (quote name ++ ":" ++ text v) :: memberTexts members

end

end JsonValue
