import Mathlib.Algebra.Group.Nat.Defs
import Mathlib.Data.List.Basic
import Mathlib.Data.List.GetD
import Mathlib.Data.List.Induction
import Mathlib.Data.Nat.Basic
import Mathlib.Data.Vector.Defs
import Mathlib.Logic.Function.Basic

/-!
# Self-delimiting byte encodings

The encoding of a field is **self-delimiting** (`ByteEncoding.SelfDelimiting`) if it can be cut off
the front of a string without knowing where it ends; so an equality of whole encodings is peeled one
field at a time. Fields of fixed width are also read by places (`ByteEncoding.bytesAt`).
-/

namespace ByteEncoding

/-- A string of bytes: Rust's `Vec<u8>`. -/
abbrev Bytes := List UInt8

/-- Thirty-two of them: Rust's `[u8; 32]`, a digest, a key or a field element. -/
abbrev Bytes32 := Vector UInt8 32

/-! ### Cutting a field off the front -/

/-- The encoding of a field determines the field and what follows it, whatever follows. -/
def SelfDelimiting {α : Type*} (enc : α → Bytes) : Prop :=
  ∀ ⦃a b : α⦄ ⦃xs ys : Bytes⦄, enc a ++ xs = enc b ++ ys → a = b ∧ xs = ys

namespace SelfDelimiting

variable {α β : Type*} {enc : α → Bytes} {enc' : β → Bytes}

theorem injective (h : SelfDelimiting enc) : Function.Injective enc := by
  intro a b hab
  have hnil : enc a ++ [] = enc b ++ [] := by rw [hab]
  exact (h hnil).1

theorem of_length (hinj : Function.Injective enc)
    (hlen : ∀ a b, (enc a).length = (enc b).length) : SelfDelimiting enc := by
  intro a b xs ys hab
  obtain ⟨hhead, htail⟩ := List.append_inj hab (hlen a b)
  exact ⟨hinj hhead, htail⟩

theorem comp (h : SelfDelimiting enc) {f : β → α} (hf : Function.Injective f) :
    SelfDelimiting fun b => enc (f b) := by
  intro a b xs ys hab
  obtain ⟨heq, htail⟩ := h hab
  exact ⟨hf heq, htail⟩

/-- **Two fields in a row**, peeled one after the other. -/
theorem append (h : SelfDelimiting enc) (h' : SelfDelimiting enc') :
    SelfDelimiting fun p : α × β => enc p.1 ++ enc' p.2 := by
  intro p q xs ys hpq
  have hassoc : enc p.1 ++ (enc' p.2 ++ xs) = enc q.1 ++ (enc' q.2 ++ ys) := by
    simpa only [List.append_assoc] using hpq
  obtain ⟨hfst, hrest⟩ := h hassoc
  obtain ⟨hsnd, htail⟩ := h' hrest
  exact ⟨Prod.ext hfst hsnd, htail⟩

/-- Items in a row, equally many on both sides. -/
theorem flatMap (h : SelfDelimiting enc) :
    ∀ {l l' : List α} {xs ys : Bytes}, l.length = l'.length →
      l.flatMap enc ++ xs = l'.flatMap enc ++ ys → l = l' ∧ xs = ys
  | [], [], xs, ys, _, heq => ⟨rfl, by simpa using heq⟩
  | [], _ :: _, _, _, hlen, _ => by simp at hlen
  | _ :: _, [], _, _, hlen, _ => by simp at hlen
  | a :: l, b :: l', xs, ys, hlen, heq => by
    have hassoc : enc a ++ (l.flatMap enc ++ xs) = enc b ++ (l'.flatMap enc ++ ys) := by
      simpa only [List.flatMap_cons, List.append_assoc] using heq
    obtain ⟨rfl, hrest⟩ := h hassoc
    obtain ⟨rfl, htail⟩ := flatMap h (by simpa using hlen) hrest
    exact ⟨rfl, htail⟩

end SelfDelimiting

/-! ### Big-endian integers -/

def beBytes : ℕ → ℕ → Bytes
  | 0, _ => []
  | w + 1, n => beBytes w (n / 256) ++ [UInt8.ofNat n]

def ofBeBytes (bs : Bytes) : ℕ := bs.foldl (fun acc b => acc * 256 + b.toNat) 0

@[simp] theorem length_beBytes (w n : ℕ) : (beBytes w n).length = w := by
  induction w generalizing n with
  | zero => rfl
  | succ w ih => simp [beBytes, ih]

@[simp] theorem ofBeBytes_nil : ofBeBytes [] = 0 := rfl

@[simp] theorem ofBeBytes_append_singleton (bs : Bytes) (b : UInt8) :
    ofBeBytes (bs ++ [b]) = ofBeBytes bs * 256 + b.toNat := by
  simp [ofBeBytes]

/-- **Reading back**, modulo what the width holds. -/
theorem ofBeBytes_beBytes (w n : ℕ) : ofBeBytes (beBytes w n) = n % 256 ^ w := by
  induction w generalizing n with
  | zero => simp [beBytes, Nat.mod_one]
  | succ w ih =>
    have hsplit : n % 256 ^ (w + 1) = n % 256 + 256 * (n / 256 % 256 ^ w) := by
      rw [Nat.pow_succ', Nat.mod_mul]
    rw [beBytes, ofBeBytes_append_singleton, ih, UInt8.toNat_ofNat', hsplit]
    omega

variable {w n offset : ℕ}

theorem beBytes_injective_mod {a b : ℕ} (h : beBytes w a = beBytes w b) :
    a % 256 ^ w = b % 256 ^ w := by
  rw [← ofBeBytes_beBytes, h, ofBeBytes_beBytes]

theorem beBytes_inj {a b : ℕ} (ha : a < 256 ^ w) (hb : b < 256 ^ w)
    (h : beBytes w a = beBytes w b) : a = b := by
  have hmod := beBytes_injective_mod h
  rwa [Nat.mod_eq_of_lt ha, Nat.mod_eq_of_lt hb] at hmod

/-! ### Length-prefixed bytes and counted items -/

def lengthPrefixed (w : ℕ) (bs : Bytes) : Bytes := beBytes w bs.length ++ bs

def counted {α : Type*} (w : ℕ) (enc : α → Bytes) (l : List α) : Bytes :=
  beBytes w l.length ++ l.flatMap enc

/-- **Counted items are self-delimiting** if the count fits. -/
theorem selfDelimiting_counted {α : Type*} {enc : α → Bytes} (h : SelfDelimiting enc) :
    SelfDelimiting fun l : {l : List α // l.length < 256 ^ w} => counted w enc l.1 := by
  rintro ⟨l, hl⟩ ⟨l', hl'⟩ xs ys heq
  have hassoc : beBytes w l.length ++ (l.flatMap enc ++ xs) =
      beBytes w l'.length ++ (l'.flatMap enc ++ ys) := by
    simpa only [counted, List.append_assoc] using heq
  obtain ⟨hcount, hitems⟩ := List.append_inj hassoc (by simp)
  obtain ⟨rfl, htail⟩ := h.flatMap (beBytes_inj hl hl' hcount) hitems
  exact ⟨rfl, htail⟩

/-- **Length-prefixed bytes are self-delimiting** if the length fits. -/
theorem selfDelimiting_lengthPrefixed :
    SelfDelimiting fun bs : {bs : Bytes // bs.length < 256 ^ w} => lengthPrefixed w bs.1 := by
  have hbyte : SelfDelimiting fun b : UInt8 => [b] :=
    SelfDelimiting.of_length (fun a b hab => by simpa using hab) fun _ _ => rfl
  intro bs bs' xs ys heq
  refine selfDelimiting_counted hbyte (a := bs) (b := bs') ?_
  simpa only [counted, List.flatMap_singleton', lengthPrefixed] using heq

/-! ### Fields at fixed places -/

theorem thirtyOne_lt : 31 < 32 := by decide

theorem size_toArray_of_length {bs : Bytes} (h : bs.length = 32) : bs.toArray.size = 32 := by
  rw [List.size_toArray, h]

/-- `n` bytes from a place on, with zeros past the end. -/
def bytesAt (n offset : ℕ) (bs : Bytes) : Vector UInt8 n := .ofFn fun i => bs.getD (offset + i) 0

theorem getElem_bytesAt {bs : Bytes} {i : ℕ} (hi : i < n) :
    (bytesAt n offset bs)[i] = bs.getD (offset + i) 0 := by
  simp [bytesAt]

@[simp]
theorem bytesAt_zero_append (v : Vector UInt8 n) (bs : Bytes) :
    bytesAt n 0 (v.toList ++ bs) = v := by
  refine Vector.ext fun i hi => ?_
  rw [getElem_bytesAt, Nat.zero_add, List.getD_append _ _ _ _ (by simpa using hi)]
  simp [hi]

@[simp]
theorem bytesAt_zero (v : Vector UInt8 n) : bytesAt n 0 v.toList = v := by
  rw [← List.append_nil v.toList, bytesAt_zero_append]

@[simp]
theorem bytesAt_toList_append {k : ℕ} (v : Vector UInt8 k) (bs : Bytes) (h : k ≤ offset) :
    bytesAt n offset (v.toList ++ bs) = bytesAt n (offset - k) bs := by
  have hlen : v.toList.length = k := v.length_toList
  refine Vector.ext fun i hi => ?_
  rw [getElem_bytesAt, getElem_bytesAt, List.getD_append_right _ _ _ _ (by omega), hlen,
    show offset + i - k = offset - k + i by omega]

theorem bytesAt_append_bytesAt {m : ℕ} (bs : Bytes) :
    bytesAt m offset bs ++ bytesAt n (offset + m) bs = bytesAt (m + n) offset bs := by
  refine Vector.ext fun i hi => ?_
  rw [Vector.getElem_append, getElem_bytesAt]
  split
  · rw [getElem_bytesAt]
  · rw [getElem_bytesAt, show offset + m + (i - m) = offset + i by omega]

end ByteEncoding
