import TlsAttestation.Contracts.DctlsVerifier

/-!
# Public inputs out of range

The contract compares no public input with the order `r`. So what is accepted for some words is
accepted for all congruent ones (`DctlsVerifier.groth16Verify_of_congruent`), and inputs are only
canonical for a proof that is never accepted (`DctlsVerifier.canonicalInputs_iff`).
-/

namespace TlsAttestation

open Bn254 Evm Fallible Function

namespace DctlsVerifier

/-- Of the inputs with given residues modulo `r`, at most one is accepted. -/
def Canonical (r : ℕ) {n : ℕ} (accepted : (Fin n → Word) → Prop) : Prop :=
  ∀ x x', (∀ i, (x i).toNat ≡ (x' i).toNat [MOD r]) → accepted x → accepted x' → x = x'

theorem exists_congruent_ne {r : ℕ} (hpos : 0 < r) (hr : 2 * r ≤ 2 ^ 256) (w : Word) :
    ∃ w' : Word, w.toNat ≡ w'.toNat [MOD r] ∧ w ≠ w' := by
  have hw := w.isLt
  have hof {k : ℕ} (hk : k < 2 ^ 256) : (BitVec.ofNat 256 k).toNat = k := by
    rw [BitVec.toNat_ofNat, Nat.mod_eq_of_lt hk]
  have hne {k : ℕ} (hk : k < 2 ^ 256) (hwk : w.toNat ≠ k) : w ≠ .ofNat 256 k := by
    rintro h
    rw [h, hof hk] at hwk
    exact hwk rfl
  rcases lt_or_ge (w.toNat + r) (2 ^ 256) with hlt | hge
  · refine ⟨.ofNat 256 (w.toNat + r), ?_, hne hlt (by omega)⟩
    rw [hof hlt]
    exact Nat.add_modEq_right.symm
  · have hlt : w.toNat - r < 2 ^ 256 := by omega
    refine ⟨.ofNat 256 (w.toNat - r), ?_, hne hlt (by omega)⟩
    rw [hof hlt]
    exact ((Nat.modEq_iff_dvd' (Nat.sub_le ..)).2 ⟨1, by omega⟩).symm

theorem canonical_iff_of_congruent {r n : ℕ} (hpos : 0 < r) (hr : 2 * r ≤ 2 ^ 256)
    {accepted : (Fin (n + 1) → Word) → Prop}
    (h : ∀ x x', (∀ i, (x i).toNat ≡ (x' i).toNat [MOD r]) → accepted x → accepted x') :
    Canonical r accepted ↔ ∀ x, ¬ accepted x := by
  constructor
  · intro hcan x hx
    obtain ⟨w, hw, hne⟩ := exists_congruent_ne hpos hr (x 0)
    have hcong : ∀ i, (x i).toNat ≡ (update x 0 w i).toNat [MOD r] := by
      intro i
      rcases eq_or_ne i 0 with rfl | hi
      · rwa [update_self]
      · rw [update_of_ne hi]
    have heq := congrFun (hcan x _ hcong hx (h x _ hcong hx)) 0
    rw [update_self] at heq
    exact hne heq
  · intro hnone x _ _ hx
    exact absurd hx (hnone x)

variable {r : ℕ} {G₁ G₂ GT : Type} [AddCommGroup G₁] [AddCommGroup G₂] [AddCommGroup GT]
  [Module (ZMod r) G₁] [Module (ZMod r) G₂] [Module (ZMod r) GT] [DecidableEq GT]
  {F : Precompiles} {B : PairingGroups r G₁ G₂ GT}

def CanonicalInputs (F : Precompiles) (r : ℕ) (s : DctlsVerifier) (proof : Proof) : Prop :=
  (Canonical r fun x : Fin 2 → Word => verifyHspMode1 F s proof (x 0) (x 1) = .ok true) ∧
    (Canonical r fun x : Fin 3 → Word => verifyHspMode2 F s proof (x 0) (x 1) (x 2) = .ok true) ∧
    Canonical r fun x : Fin 4 → Word =>
      verifySessionBinding F s proof (x 0) (x 1) (x 2) (x 3) = .ok true

def AcceptsSome (F : Precompiles) (s : DctlsVerifier) (proof : Proof) : Prop :=
  (∃ x : Fin 2 → Word, verifyHspMode1 F s proof (x 0) (x 1) = .ok true) ∨
    (∃ x : Fin 3 → Word, verifyHspMode2 F s proof (x 0) (x 1) (x 2) = .ok true) ∨
    ∃ x : Fin 4 → Word, verifySessionBinding F s proof (x 0) (x 1) (x 2) (x 3) = .ok true

/-- The multiplication, given two coordinates and a scalar in full, fails unless the coordinates are
those of a point. -/
def ChecksPoints (F : Precompiles) (B : PairingGroups r G₁ G₂ GT) : Prop :=
  ∀ (w : Word × Word) (s : Word) out, F.mul (bytes₁ w ++ s.bytes) = some out → ∃ P, w = B.encode₁ P

section

variable (hF : F.Implements B) (hcheck : ChecksPoints F B)

include hF hcheck

theorem g1ScalarMul_of_congruent {w t : Word × Word} {s s' : Word}
    (hs : s.toNat ≡ s'.toNat [MOD r]) (h : g1ScalarMul F w s = .ok t) :
    g1ScalarMul F w s' = .ok t := by
  obtain ⟨out, hout, -⟩ := bind_eq_ok.1 h
  obtain ⟨P, rfl⟩ := hcheck w s out (okOr_eq_ok.1 hout)
  rw [g1ScalarMul_encode₁ hF] at h ⊢
  rw [← h, ← Nat.cast_smul_eq_nsmul (ZMod r), ← Nat.cast_smul_eq_nsmul (ZMod r),
    (ZMod.natCast_eq_natCast_iff _ _ r).2 hs]

theorem foldlM_accumulate_of_congruent {x x' : List Word}
    (hx : List.Forall₂ (fun s s' => s.toNat ≡ s'.toNat [MOD r]) x x') (ic : List (Word × Word))
    {acc out : Word × Word} (h : (x.zip ic).foldlM (accumulate F) acc = .ok out) :
    (x'.zip ic).foldlM (accumulate F) acc = .ok out := by
  induction hx generalizing ic acc with
  | nil => exact h
  | cons hs _ ih =>
    cases ic with
    | nil => exact h
    | cons w ic =>
      obtain ⟨acc', hacc, hrest⟩ := foldlM_cons_eq_ok.1 h
      obtain ⟨term, hterm, hadd⟩ := bind_eq_ok.1 hacc
      exact foldlM_cons_eq_ok.2 ⟨acc',
        bind_eq_ok.2 ⟨term, g1ScalarMul_of_congruent hF hcheck hs hterm, hadd⟩, ih ic hrest⟩

/-- Congruent inputs are treated alike. -/
theorem groth16Verify_of_congruent {x x' : List Word}
    (hx : List.Forall₂ (fun s s' => s.toNat ≡ s'.toNat [MOD r]) x x') {proof : Proof}
    {vk : VerifyingKey} {ic : List (Word × Word)} {b : Bool}
    (h : groth16Verify F proof x vk ic = .ok b) : groth16Verify F proof x' vk ic = .ok b := by
  simp only [groth16Verify, do_eq_ok] at h ⊢
  obtain ⟨_, hlen, acc, hacc, hpair⟩ := h
  exact ⟨(), hx.length_eq ▸ hlen, acc, foldlM_accumulate_of_congruent hF hcheck hx _ hacc, hpair⟩

/-- **When public inputs are canonical**: if nothing is accepted. -/
theorem canonicalInputs_iff (hr : 2 * r ≤ 2 ^ 256) (s : DctlsVerifier) (proof : Proof) :
    CanonicalInputs F r s proof ↔ ¬ AcceptsSome F s proof := by
  simp only [AcceptsSome, not_or, not_exists]
  refine and_congr ?_ (and_congr ?_ ?_) <;>
    refine canonical_iff_of_congruent B.prime.pos hr fun x x' hx h =>
      groth16Verify_of_congruent hF hcheck ?_ h <;>
    simp only [List.forall₂_cons, hx, List.forall₂_nil_left_iff, and_self]

end

/-! ### The word after the order -/

theorem checksPoints_toyPairing : ChecksPoints toyPairing.precompiles toyPairing := by
  intro w s out h
  simp only [PairingGroups.precompiles] at h
  split at h
  · next hbs => exact ⟨_, (selfDelimiting_bytes₁ hbs.choose_spec).1⟩
  · cases h

/-- The contract once its owner has registered a key for proofs of the first mode. -/
def registered (vk : VerifyingKey) (ic : Vector (Word × Word) 3) : DctlsVerifier :=
  (deploy ⟨1, 0, 0⟩).step (⟨1, 0, 0⟩, .hspMode1 vk ic)

theorem exists_registered_toyKey : ∃ (svk : SolidityVK) (ic : Vector (Word × Word) 3),
    exportVk (arkKey toyPairing toyKey) "hsp_mode1" 2 = .ok svk ∧
      ic.toList = svk.ic.map G1Point.words := by
  obtain ⟨svk, hsvk⟩ := exists_exportVk_toyKey
  have hic : (svk.ic.map G1Point.words).length = 3 := by
    rw [(encodes_of_exportVk hsvk).ic]
    rfl
  exact ⟨svk, ⟨(svk.ic.map G1Point.words).toArray, hic⟩, hsvk, rfl⟩

theorem canonicalInputs_iff_toyKey : ∃ (svk : SolidityVK) (ic : Vector (Word × Word) 3),
    exportVk (arkKey toyPairing toyKey) "hsp_mode1" 2 = .ok svk ∧
      ic.toList = svk.ic.map G1Point.words ∧
      (CanonicalInputs toyPairing.precompiles 101 (registered svk.verifyingKey ic)
          (Proof.ofPoints toyPairing 1 1 1) ↔
        ¬ AcceptsSome toyPairing.precompiles (registered svk.verifyingKey ic)
          (Proof.ofPoints toyPairing 1 1 1)) := by
  obtain ⟨svk, ic, hsvk, hic⟩ := exists_registered_toyKey
  exact ⟨svk, ic, hsvk, hic, canonicalInputs_iff toyPairing.precompiles_implements
    checksPoints_toyPairing (by decide) _ _⟩

/-- **Two vectors for one proof**, for an exported key. -/
theorem not_canonicalInputs_toyKey : ∃ (svk : SolidityVK) (ic : Vector (Word × Word) 3),
    exportVk (arkKey toyPairing toyKey) "hsp_mode1" 2 = .ok svk ∧
      ic.toList = svk.ic.map G1Point.words ∧
      ¬ CanonicalInputs toyPairing.precompiles 101 (registered svk.verifyingKey ic)
        (Proof.ofPoints toyPairing (-1) 1 1) := by
  obtain ⟨svk, ic, hsvk, hic⟩ := exists_registered_toyKey
  refine ⟨svk, ic, hsvk, hic, fun hcan => ?_⟩
  have hzero : groth16Verify toyPairing.precompiles (Proof.ofPoints toyPairing (-1) 1 1) [0, 0]
      svk.verifyingKey ic.toList = .ok true := by
    rw [hic]
    refine (groth16Verify_eq_true toyPairing.precompiles_implements (encodes_of_exportVk hsvk)
      _ _ _ rfl).2 ?_
    decide
  have hcong : List.Forall₂ (fun s s' : Word => s.toNat ≡ s'.toNat [MOD 101]) [0, 0]
      [101, 0] := .cons (by decide) (.cons (by decide) .nil)
  have hshifted := groth16Verify_of_congruent toyPairing.precompiles_implements
    checksPoints_toyPairing hcong hzero
  have heq := congrFun (hcan.1 ![0, 0] ![101, 0] (by decide) hzero hshifted) 0
  exact absurd heq (by decide)

end DctlsVerifier

end TlsAttestation
