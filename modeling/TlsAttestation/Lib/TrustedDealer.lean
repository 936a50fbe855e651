import TlsAttestation.Lib.PedersenDkg

/-!
# Key shares from a dealer

One party draws the polynomial and hands out its values, with commitments to the coefficients. What
an honest dealer hands out is accepted (`TrustedDealer.toKeyPackage_of_deal`).
-/

namespace PedersenDkg

variable {F G : Type} [Field F] [AddCommGroup G] [Module F G]

/-- The committed polynomial has the committed values. -/
theorem evaluateCommitment_map_smul (base : G) (coefficients : List F) (x : F) :
    evaluateCommitment (coefficients.map (· • base)) x = evaluate coefficients x • base := by
  induction coefficients with
  | nil => exact (zero_smul F base).symm
  | cons c cs ih =>
    calc evaluateCommitment ((c :: cs).map (· • base)) x
        = c • base + x • evaluateCommitment (cs.map (· • base)) x := rfl
      _ = c • base + x • evaluate cs x • base := by rw [ih]
      _ = (c + x * evaluate cs x) • base := by rw [add_smul, mul_smul]

end PedersenDkg

namespace TrustedDealer

open Fallible Frost PedersenDkg

section

variable {F G : Type} [Field F] [DecidableEq F] [AddCommGroup G] [DecidableEq G] [Module F G]

structure SecretShare (F G : Type) [Zero F] where
  identifier : Identifier F
  signingShare : F
  commitment : List G
deriving DecidableEq

def sharesOf (base : G) (coefficients : List F) (ids : List (Identifier F)) (h : ids.Nodup) :
    AList fun _ : Identifier F => SecretShare F G where
  entries := ids.map fun id =>
    ⟨id, id, evaluate coefficients id, coefficients.map (· • base)⟩
  nodupKeys := by
    rw [List.NodupKeys, List.keys, List.map_map]
    exact (List.map_id ids).symm ▸ h

/-- The values of a random polynomial, one for each identifier. -/
def deal (base : G) (maxSigners minSigners : ℕ) (ids : List (Identifier F)) (random : ℕ → F) :
    Except String ((AList fun _ : Identifier F => SecretShare F G) × PublicKeyPackage F G) := do
  ensure (2 ≤ minSigners) "Invalid value for minSigners"
  ensure (2 ≤ maxSigners) "Invalid value for maxSigners"
  ensure (minSigners ≤ maxSigners) "Invalid value for minSigners"
  ensure (ids.length = maxSigners) "Incorrect number of identifiers."
  if h : ids.Nodup then
    let coefficients := (List.range minSigners).map random
    let verifyingShares := ids.map fun id =>
      (⟨id, evaluate coefficients id • base⟩ : (_ : Identifier F) × G)
    return (sharesOf base coefficients ids h,
      ⟨verifyingShares.toFinmap, secretCommitment (coefficients.map (· • base))⟩)
  else .error "Duplicated identifier."

/-- A recipient checks its share against the commitments of the dealer. -/
def SecretShare.toKeyPackage (base : G) (s : SecretShare F G) : Except String (KeyPackage F G) := do
  ensure (s.signingShare • base = evaluateCommitment s.commitment (s.identifier : F))
    "Invalid secret share."
  return ⟨s.identifier, s.signingShare, s.signingShare • base, secretCommitment s.commitment,
    s.commitment.length⟩

variable {base : G} {maxSigners minSigners : ℕ} {ids : List (Identifier F)} {random : ℕ → F}
  {shares : AList fun _ : Identifier F => SecretShare F G} {pub : PublicKeyPackage F G}

omit [DecidableEq G] in
theorem deal_eq_ok (h : deal base maxSigners minSigners ids random = .ok (shares, pub)) :
    2 ≤ minSigners ∧ minSigners ≤ maxSigners ∧ ids.length = maxSigners ∧ ∃ hids : ids.Nodup,
      shares = sharesOf base ((List.range minSigners).map random) ids hids := by
  simp only [deal, do_eq_ok] at h
  obtain ⟨_, hmin, _, -, _, hle, _, hlen, h⟩ := h
  split at h
  · next hids =>
    obtain ⟨rfl, -⟩ := Prod.mk.inj (pure_eq_ok.1 h)
    exact ⟨hmin, hle, hlen, hids, rfl⟩
  · cases h

omit [DecidableEq G] in
theorem keys_of_deal (h : deal base maxSigners minSigners ids random = .ok (shares, pub)) :
    shares.keys = ids := by
  obtain ⟨-, -, -, hids, rfl⟩ := deal_eq_ok h
  rw [AList.keys, List.keys, sharesOf, List.map_map]
  exact List.map_id ids

omit [DecidableEq G] in
theorem exists_deal (base : G) (random : ℕ → F) (hmin : 2 ≤ minSigners)
    (hle : minSigners ≤ ids.length) (hids : ids.Nodup) :
    ∃ r, deal base ids.length minSigners ids random = .ok r := by
  simp only [deal, do_eq_ok, dif_pos hids]
  exact ⟨_, (), hmin, (), hmin.trans hle, (), hle, (), trivial, rfl⟩

/-- A share of an honest dealer is accepted. -/
theorem toKeyPackage_of_deal (h : deal base maxSigners minSigners ids random = .ok (shares, pub))
    {e : (_ : Identifier F) × SecretShare F G} (he : e ∈ shares.entries) :
    ∃ key, e.2.toKeyPackage base = .ok key ∧ key.identifier = e.1 := by
  obtain ⟨-, -, -, hids, rfl⟩ := deal_eq_ok h
  obtain ⟨id, -, rfl⟩ := List.mem_map.1 he
  simp only [SecretShare.toKeyPackage, do_eq_ok]
  exact ⟨_, ⟨(), (evaluateCommitment_map_smul base _ _).symm, rfl⟩, rfl⟩

end

end TrustedDealer
