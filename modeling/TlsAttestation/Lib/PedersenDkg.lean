import TlsAttestation.Lib.Frost
import Mathlib.Data.List.AList
import Mathlib.Algebra.BigOperators.Group.Multiset.Basic

/-!
# Distributed key generation

Each participant shares a secret with a random polynomial, and the key of the group is the sum of
the secrets. `PedersenDkg.part1` commits, `PedersenDkg.part2` checks the proofs and hands out
values, `PedersenDkg.part3` checks the values and adds them up.
-/

namespace PedersenDkg

open Fallible Frost

section

variable {F G : Type} [Field F] [AddCommGroup G] [Module F G]

/-! ### Data -/

structure Round1Secret (F G : Type) [Zero F] where
  identifier : Identifier F
  coefficients : List F
  commitment : List G
  minSigners : ℕ
  maxSigners : ℕ

/-- Commitments to the coefficients, and a proof of the first. -/
structure Round1Package (F G : Type) where
  commitment : List G
  proofOfKnowledge : Signature F G
deriving DecidableEq

structure Round2Secret (F G : Type) [Zero F] where
  identifier : Identifier F
  commitment : List G
  secretShare : F
  minSigners : ℕ
  maxSigners : ℕ

def evaluate (coefficients : List F) (x : F) : F := coefficients.foldr (fun c y => c + x * y) 0

def evaluateCommitment (commitment : List G) (x : F) : G :=
  commitment.foldr (fun c y => c + x • y) 0

def secretCommitment (commitment : List G) : G := commitment.headD 0

variable [DecidableEq F] [DecidableEq G]

def identifiers (F : Type) [Field F] [DecidableEq F] (n : ℕ) : List (Identifier F) :=
  (List.range n).filterMap fun k => if h : ((k + 1 : ℕ) : F) ≠ 0 then some ⟨_, h⟩ else none

def entriesOf {V W : Type} (ids : List (Identifier F)) (m : Finmap fun _ : Identifier F => V)
    (f : Identifier F → V → W) : AList fun _ : Identifier F => W :=
  (ids.filterMap fun id => (m.lookup id).map fun v =>
    (⟨id, f id v⟩ : (_ : Identifier F) × W)).toAList

structure Suite (F G : Type) [Zero F] where
  base : G
  challenge : Identifier F → G → G → F

variable (S : Suite F G)

/-! ### The three parts -/

/-- A polynomial, commitments to its coefficients and a proof of knowledge of the secret. -/
def part1 (identifier : Identifier F) (maxSigners minSigners : ℕ) (random : ℕ → F) :
    Except String (Round1Secret F G × Round1Package F G) := do
  ensure (2 ≤ minSigners) "Invalid value for minSigners"
  ensure (2 ≤ maxSigners) "Invalid value for maxSigners"
  ensure (minSigners ≤ maxSigners) "Invalid value for minSigners"
  let coefficients := (List.range minSigners).map random
  let commitment := coefficients.map (· • S.base)
  let nonce := random minSigners
  let c := S.challenge identifier (secretCommitment commitment) (nonce • S.base)
  return (⟨identifier, coefficients, commitment, minSigners, maxSigners⟩,
    ⟨commitment, ⟨nonce • S.base, nonce + c * coefficients.headD 0⟩⟩)

def Knows (identifier : Identifier F) (p : Round1Package F G) : Prop :=
  p.proofOfKnowledge.z • S.base = p.proofOfKnowledge.R +
    S.challenge identifier (secretCommitment p.commitment) p.proofOfKnowledge.R •
      secretCommitment p.commitment

instance (identifier : Identifier F) (p : Round1Package F G) :
    Decidable (Knows S identifier p) :=
  inferInstanceAs (Decidable (_ = _))

/-- The others' proofs are checked, and each gets its value of the polynomial. -/
def part2 (s : Round1Secret F G) (round1 : Finmap fun _ : Identifier F => Round1Package F G) :
    Except String (Round2Secret F G × AList fun _ : Identifier F => F) := do
  ensure (round1.keys.card = s.maxSigners - 1) "Incorrect number of packages."
  ensure (round1.keys ⊆ (identifiers F s.maxSigners).toFinset) "Unknown identifier."
  ensure (∀ e ∈ round1.entries, Knows S e.1 e.2) "The proof of knowledge is not valid."
  let out := entriesOf (identifiers F s.maxSigners) round1 fun id _ => evaluate s.coefficients id
  return (⟨s.identifier, s.commitment, evaluate s.coefficients s.identifier, s.minSigners,
    s.maxSigners⟩, out)

def commitmentAt (s : Round2Secret F G)
    (round1 : Finmap fun _ : Identifier F => Round1Package F G) (x : F) : G :=
  evaluateCommitment s.commitment x +
    (round1.entries.map fun e => evaluateCommitment e.2.commitment x).sum

/-- The values received are checked against the commitments, and added up. -/
def part3 (s : Round2Secret F G) (round1 : Finmap fun _ : Identifier F => Round1Package F G)
    (round2 : Finmap fun _ : Identifier F => F) :
    Except String (KeyPackage F G × PublicKeyPackage F G) := do
  ensure (round1.keys.card = s.maxSigners - 1) "Incorrect number of packages."
  ensure (round2.keys = round1.keys) "Incorrect number of packages."
  ensure (∀ e ∈ round1.entries, (round2.lookup e.1).map (· • S.base) =
    some (evaluateCommitment e.2.commitment (s.identifier : F))) "Invalid secret share."
  let signingShare := s.secretShare + (round2.entries.map fun e => e.2).sum
  let verifyingKey := secretCommitment s.commitment +
    (round1.entries.map fun e => secretCommitment e.2.commitment).sum
  let shares := (entriesOf (identifiers F s.maxSigners) round1 fun id _ =>
    commitmentAt s round1 (id : F)).insert s.identifier (commitmentAt s round1 (s.identifier : F))
  return (⟨s.identifier, signingShare, signingShare • S.base, verifyingKey, s.minSigners⟩,
    ⟨shares.toFinmap, verifyingKey⟩)

/-! ### What the parts have done -/

variable {id : Identifier F} {maxSigners minSigners : ℕ}

omit [AddCommGroup G] [Module F G] [DecidableEq G] in
theorem mem_entriesOf {V W : Type} {ids : List (Identifier F)}
    {m : Finmap fun _ : Identifier F => V} {f : Identifier F → V → W} :
    id ∈ entriesOf ids m f ↔ id ∈ ids ∧ id ∈ m := by
  rw [← AList.lookup_isSome, entriesOf, AList.lookup_to_alist, List.dlookup_isSome,
    ← Finmap.lookup_isSome, List.keys, List.mem_map]
  constructor
  · rintro ⟨e, he, rfl⟩
    obtain ⟨id, hid, hentry⟩ := List.mem_filterMap.1 he
    obtain ⟨v, hv, rfl⟩ := Option.map_eq_some_iff.1 hentry
    exact ⟨hid, Option.isSome_iff_exists.2 ⟨v, hv⟩⟩
  · rintro ⟨hid, hm⟩
    obtain ⟨v, hv⟩ := Option.isSome_iff_exists.1 hm
    exact ⟨⟨id, f id v⟩, List.mem_filterMap.2 ⟨id, hid, by rw [hv]; rfl⟩, rfl⟩

variable {S} {round1 : Finmap fun _ : Identifier F => Round1Package F G}

/-- **Part two** answers each of the others. -/
theorem part2_eq_ok {s : Round1Secret F G} {s' : Round2Secret F G}
    {out : AList fun _ : Identifier F => F} (h : part2 S s round1 = .ok (s', out)) :
    s'.commitment = s.commitment ∧ ∀ id, id ∈ out ↔ id ∈ round1 := by
  simp only [part2, do_eq_ok, Prod.mk.injEq] at h
  obtain ⟨_, _, _, hsub, _, _, rfl, rfl⟩ := h
  refine ⟨rfl, fun id => ?_⟩
  rw [mem_entriesOf, and_iff_right_iff_imp]
  exact fun hid => List.mem_toFinset.1 (hsub (Finmap.mem_keys.2 hid))

theorem part3_eq_ok {s : Round2Secret F G}
    {round2 : Finmap fun _ : Identifier F => F} {key : KeyPackage F G}
    {pub : PublicKeyPackage F G} (h : part3 S s round1 round2 = .ok (key, pub)) :
    round2.keys = round1.keys ∧ pub.verifyingKey = secretCommitment s.commitment +
      (round1.entries.map fun e => secretCommitment e.2.commitment).sum := by
  simp only [part3, do_eq_ok, Prod.mk.injEq] at h
  obtain ⟨_, _, _, hkeys, _, _, _, rfl⟩ := h
  exact ⟨hkeys, rfl⟩

omit [DecidableEq F] [DecidableEq G] in
theorem commitment_of_part1 {random : ℕ → F} {s : Round1Secret F G} {p : Round1Package F G}
    (h : part1 S id maxSigners minSigners random = .ok (s, p)) : s.commitment = p.commitment := by
  simp only [part1, do_eq_ok, Prod.mk.injEq] at h
  obtain ⟨_, _, _, _, _, _, rfl, rfl⟩ := h
  rfl

omit [DecidableEq F] [DecidableEq G] in
theorem signers_of_part1 {random : ℕ → F} {r : Round1Secret F G × Round1Package F G}
    (h : part1 S id maxSigners minSigners random = .ok r) :
    2 ≤ minSigners ∧ minSigners ≤ maxSigners := by
  simp only [part1, do_eq_ok] at h
  obtain ⟨_, hmin, _, -, _, hle, -⟩ := h
  exact ⟨hmin, hle⟩

omit [DecidableEq F] [DecidableEq G] in
theorem exists_part1 (id : Identifier F) (random : ℕ → F) (hmin : 2 ≤ minSigners)
    (hle : minSigners ≤ maxSigners) :
    ∃ r, part1 S id maxSigners minSigners random = .ok r := by
  simp only [part1, do_eq_ok]
  exact ⟨_, (), hmin, (), hmin.trans hle, (), hle, rfl⟩

end

end PedersenDkg
