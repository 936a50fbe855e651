import TlsAttestation.CoSnarkProver.Main
import TlsAttestation.Lib.Json

/-!
# The responses of the prover, written and read

A response is written as JSON, without what is empty. But the list of public inputs is **not
optional** where it is read, so a response comes back exactly if that list is not empty
(`CoSnarkProver.fromJson_toJson_iff`).
-/

namespace TlsAttestation.CoSnarkProver

open Ark ByteEncoding Fallible ProverResponse

abbrev JsonObject := List (String × JsonValue)

/-- What is wrong with an object that is read as a structure. -/
inductive JsonError where
  | missingField (name : String)
  | duplicateField (name : String)
  | invalidType (expected : String)
deriving DecidableEq

/-! ### Writing -/

def skipNone (name : String) (x : Option String) : JsonObject :=
  x.toList.map fun s => (name, .string s)

variable (r : ProverResponse)

def ProverResponse.toJson : JsonObject :=
  [("ok", .bool r.ok)] ++ skipNone "error" r.error ++ skipNone "proof_hex" r.proofHex ++
    (if r.publicInputsHex = [] then []
      else [("public_inputs_hex", .array (r.publicInputsHex.map .string))]) ++
    skipNone "k_mac_hex" r.kMacHex ++ skipNone "vk_hex" r.vkHex ++
    [("mode_used", .string r.modeUsed)]

/-! ### Reading -/

def readBool : JsonValue → Except JsonError Bool
  | .bool b => .ok b
  | _ => .error (.invalidType "a boolean")

def readString : JsonValue → Except JsonError String
  | .string s => .ok s
  | _ => .error (.invalidType "a string")

def readStrings : JsonValue → Except JsonError (List String)
  | .array elements => elements.mapM readString
  | _ => .error (.invalidType "a sequence")

variable (obj : JsonObject)

def values (name : String) : List JsonValue :=
  (obj.filter (·.1 = name)).map (·.2)

def field (name : String) : Except JsonError (Option JsonValue) :=
  match values obj name with
  | [] => .ok none
  | [v] => .ok (some v)
  | _ => .error (.duplicateField name)

def required {α : Type} (read : JsonValue → Except JsonError α) (obj : JsonObject) (name : String) :
    Except JsonError α := do
  let v ← field obj name
  read (← okOr v (.missingField name))

def optional (name : String) : Except JsonError (Option String) := do
  match ← field obj name with
  | none => return none
  | some .null => return none
  | some v => return some (← readString v)

def ProverResponse.fromJson : Except JsonError ProverResponse := do
  let ok ← required readBool obj "ok"
  let error ← optional obj "error"
  let proofHex ← optional obj "proof_hex"
  let publicInputsHex ← required readStrings obj "public_inputs_hex"
  let kMacHex ← optional obj "k_mac_hex"
  let vkHex ← optional obj "vk_hex"
  let modeUsed ← required readString obj "mode_used"
  return ⟨ok, error, proofHex, publicInputsHex, kMacHex, vkHex, modeUsed⟩

/-! ### What comes back -/

@[simp] theorem values_append (obj obj' : JsonObject) (name : String) :
    values (obj ++ obj') name = values obj name ++ values obj' name := by
  simp [values]

@[simp] theorem values_cons (name name' : String) (v : JsonValue) (obj : JsonObject) :
    values ((name, v) :: obj) name' =
      if name = name' then v :: values obj name' else values obj name' := by
  by_cases h : name = name' <;> simp [values, h]

@[simp] theorem values_nil (name : String) : values [] name = [] := rfl

@[simp] theorem values_skipNone (name name' : String) (x : Option String) :
    values (skipNone name x) name' = if name = name' then x.toList.map .string else [] := by
  cases x with
  | none => simp [skipNone]
  | some s => simp [skipNone]

variable {obj : JsonObject} {name : String}

theorem optional_eq_ok {x : Option String}
    (h : values obj name = x.toList.map .string) : optional obj name = .ok x := by
  cases x with
  | none => simp [optional, field, h]
  | some s => simp [optional, field, h, readString]

theorem required_eq {α : Type} {read : JsonValue → Except JsonError α}
    {v : JsonValue} (h : values obj name = [v]) : required read obj name = read v := by
  simp only [required, field, h]
  rfl

theorem required_of_missing {α : Type} {read : JsonValue → Except JsonError α}
    (h : values obj name = []) :
    required read obj name = .error (.missingField name) := by
  simp only [required, field, h]
  rfl

theorem readStrings_array (l : List String) : readStrings (.array (l.map .string)) = .ok l := by
  induction l with
  | nil => rfl
  | cons s l ih =>
    simp only [readStrings, List.map_cons, List.mapM_cons] at ih ⊢
    rw [ih]
    rfl

theorem fromJson_toJson : fromJson r.toJson =
    if r.publicInputsHex = [] then .error (.missingField "public_inputs_hex") else .ok r := by
  have hvals (c : Prop) [Decidable c] (obj obj' : JsonObject) (name : String) :
      values (if c then obj else obj') name = if c then values obj name else values obj' name :=
    apply_ite (values · name) c obj obj'
  have hok : required readBool r.toJson "ok" = .ok r.ok :=
    required_eq (v := .bool r.ok) (by simp [toJson, hvals])
  have herror : optional r.toJson "error" = .ok r.error :=
    optional_eq_ok (by simp [toJson, hvals])
  have hproof : optional r.toJson "proof_hex" = .ok r.proofHex :=
    optional_eq_ok (by simp [toJson, hvals])
  have hkMac : optional r.toJson "k_mac_hex" = .ok r.kMacHex :=
    optional_eq_ok (by simp [toJson, hvals])
  have hvk : optional r.toJson "vk_hex" = .ok r.vkHex :=
    optional_eq_ok (by simp [toJson, hvals])
  have hmode : required readString r.toJson "mode_used" = .ok r.modeUsed :=
    required_eq (v := .string r.modeUsed) (by simp [toJson, hvals])
  rw [fromJson, hok, herror, hproof, hkMac, hvk, hmode]
  by_cases hins : r.publicInputsHex = []
  · rw [if_pos hins, required_of_missing (by simp [toJson, hins])]
    rfl
  · rw [if_neg hins, required_eq (v := .array (r.publicInputsHex.map .string))
      (by simp [toJson, hins]), readStrings_array]
    rfl

/-- **A response comes back** exactly if its list of public inputs is not empty. -/
theorem fromJson_toJson_iff :
    fromJson r.toJson = .ok r ↔ r.publicInputsHex ≠ [] := by
  rw [fromJson_toJson]
  split
  · next h => exact iff_of_false (by simp) (not_not.2 h)
  · next h => exact iff_of_true rfl h

end TlsAttestation.CoSnarkProver
