import Mathlib.Algebra.Module.LinearMap.Defs
import Mathlib.Data.ZMod.ValMinAbs
import Mathlib.LinearAlgebra.BilinearMap
import TlsAttestation.Lib.Evm

/-!
# A pairing, its built-in functions, and the equation of Groth16

Three groups of one odd prime order and a bilinear pairing (`Bn254.PairingGroups`), written
additively. What the Ethereum machine computes is `Bn254.Precompiles.Implements`; a verifier accepts
`(A, B, C)` if `e(A, B) = e(α, β) + e(Σ, γ) + e(C, δ)` (`Bn254.Groth16Key.Accepts`).
-/

namespace Bn254

open ByteEncoding Evm

/-! ### Coordinates -/

def q : ℕ := 21888242871839275222246405745257275088696311157297823662689037894645226208583

instance : NeZero q := ⟨by decide⟩

abbrev Fq := ZMod q

structure Fq2 where
  c0 : Fq
  c1 : Fq
deriving DecidableEq

abbrev G1Affine := Option (Fq × Fq)

abbrev G2Affine := Option (Fq2 × Fq2)

def word (x : Fq) : Word := .ofNat 256 x.val

def encode₁ : G1Affine → Word × Word
  | none => (0, 0)
  | some (x, y) => (word x, word y)

/-- The second coefficient comes first. -/
def encode₂ : G2Affine → Word × Word × Word × Word
  | none => (0, 0, 0, 0)
  | some (x, y) => (word x.c1, word x.c0, word y.c1, word y.c0)

def bytes₁ (w : Word × Word) : Bytes := w.1.bytes ++ w.2.bytes

def bytes₂ (w : Word × Word × Word × Word) : Bytes :=
  w.1.bytes ++ w.2.1.bytes ++ w.2.2.1.bytes ++ w.2.2.2.bytes

@[simp] theorem length_bytes₁ (w : Word × Word) : (bytes₁ w).length = 64 := by
  simp [bytes₁]

@[simp] theorem length_bytes₂ (w : Word × Word × Word × Word) : (bytes₂ w).length = 128 := by
  simp [bytes₂]

theorem toNat_word (x : Fq) : (word x).toNat = x.val := by
  have hlt : x.val < 2 ^ 256 := (ZMod.val_lt x).trans (by decide)
  rw [word, BitVec.toNat_ofNat, Nat.mod_eq_of_lt hlt]

theorem word_injective : Function.Injective word := by
  intro x y h
  have hval := congrArg BitVec.toNat h
  rw [toNat_word, toNat_word] at hval
  exact ZMod.val_injective q hval

@[simp] theorem word_zero : word 0 = 0 := by decide

@[simp] theorem word_eq_zero {x : Fq} : word x = 0 ↔ x = 0 := by
  rw [← word_zero, word_injective.eq_iff]

theorem encode₁_inj {P P' : G1Affine} (hP : P ≠ some (0, 0)) (hP' : P' ≠ some (0, 0))
    (h : encode₁ P = encode₁ P') : P = P' := by
  rcases P with _ | ⟨x, y⟩ <;> rcases P' with _ | ⟨x', y'⟩ <;> obtain ⟨hx, hy⟩ := Prod.mk.inj h
  · rfl
  · exact absurd (by rw [word_eq_zero.1 hx.symm, word_eq_zero.1 hy.symm]) hP'
  · exact absurd (by rw [word_eq_zero.1 hx, word_eq_zero.1 hy]) hP
  · rw [word_injective hx, word_injective hy]

theorem encode₂_inj {Q Q' : G2Affine} (hQ : Q ≠ some (⟨0, 0⟩, ⟨0, 0⟩))
    (hQ' : Q' ≠ some (⟨0, 0⟩, ⟨0, 0⟩)) (h : encode₂ Q = encode₂ Q') : Q = Q' := by
  rcases Q with _ | ⟨⟨x0, x1⟩, y0, y1⟩ <;> rcases Q' with _ | ⟨⟨x0', x1'⟩, y0', y1'⟩ <;>
    obtain ⟨hx1, hx0, hy1, hy0⟩ := by simpa only [encode₂, Prod.mk.injEq] using h
  · rfl
  · exact absurd (by rw [word_eq_zero.1 hx0.symm, word_eq_zero.1 hx1.symm,
      word_eq_zero.1 hy0.symm, word_eq_zero.1 hy1.symm]) hQ'
  · exact absurd (by rw [word_eq_zero.1 hx0, word_eq_zero.1 hx1, word_eq_zero.1 hy0,
      word_eq_zero.1 hy1]) hQ
  · rw [word_injective hx0, word_injective hx1, word_injective hy0, word_injective hy1]

theorem selfDelimiting_bytes : SelfDelimiting Word.bytes :=
  .of_length (Function.LeftInverse.injective Word.ofBytes_bytes) fun a b => by simp

theorem selfDelimiting_bytes₁ : SelfDelimiting bytes₁ :=
  selfDelimiting_bytes.append selfDelimiting_bytes

theorem selfDelimiting_bytes₂ : SelfDelimiting bytes₂ := by
  have h := selfDelimiting_bytes.append
    (selfDelimiting_bytes.append (selfDelimiting_bytes.append selfDelimiting_bytes))
  intro a b xs ys hab
  refine h ?_
  simpa only [bytes₂, List.append_assoc] using hab

/-! ### Groups with a pairing -/

/-- **Three groups of odd prime order and a pairing**, with coordinates. -/
structure PairingGroups (r : ℕ) (G₁ G₂ GT : Type) [AddCommGroup G₁] [AddCommGroup G₂]
    [AddCommGroup GT] [Module (ZMod r) G₁] [Module (ZMod r) G₂] [Module (ZMod r) GT] where
  prime : r.Prime
  odd : Odd r
  pairing : G₁ →ₗ[ZMod r] G₂ →ₗ[ZMod r] GT
  nondegenerate : ∀ P Q, pairing P Q = 0 → P = 0 ∨ Q = 0
  affine₁ : G₁ → G1Affine
  affine₂ : G₂ → G2Affine
  affine₁_injective : Function.Injective affine₁
  affine₂_injective : Function.Injective affine₂
  affine₁_zero : affine₁ 0 = none
  affine₂_zero : affine₂ 0 = none
  affine₁_ne : ∀ P, affine₁ P ≠ some (0, 0)
  affine₂_ne : ∀ Q, affine₂ Q ≠ some (⟨0, 0⟩, ⟨0, 0⟩)
  affine₁_neg : ∀ P, affine₁ (-P) = (affine₁ P).map fun c => (c.1, -c.2)

/-- `none` is a call that fails. -/
structure Precompiles where
  (add mul pairing : Bytes → Option Bytes)

section

variable {r : ℕ} {G₁ G₂ GT : Type} [AddCommGroup G₁] [AddCommGroup G₂] [AddCommGroup GT]
  [Module (ZMod r) G₁] [Module (ZMod r) G₂] [Module (ZMod r) GT]

namespace PairingGroups

variable (B : PairingGroups r G₁ G₂ GT)

def encode₁ (P : G₁) : Word × Word := Bn254.encode₁ (B.affine₁ P)

def encode₂ (Q : G₂) : Word × Word × Word × Word := Bn254.encode₂ (B.affine₂ Q)

include B in
theorem eq_zero_of_add_self {w : GT} (h : w + w = 0) : w = 0 := by
  obtain ⟨k, hk⟩ := B.odd
  have hr : r • w = 0 := by
    rw [← Nat.cast_smul_eq_nsmul (ZMod r), ZMod.natCast_self, zero_smul]
  rwa [hk, add_smul, mul_comm, mul_smul, two_nsmul, h, smul_zero, zero_add, one_smul] at hr

end PairingGroups

/-- The built-in functions compute in the groups. -/
structure Precompiles.Implements [DecidableEq GT] (F : Precompiles)
    (B : PairingGroups r G₁ G₂ GT) : Prop where
  add_eq : ∀ P Q, F.add (bytes₁ (B.encode₁ P) ++ bytes₁ (B.encode₁ Q)) =
    some (bytes₁ (B.encode₁ (P + Q)))
  mul_eq : ∀ P (s : Word), F.mul (bytes₁ (B.encode₁ P) ++ s.bytes) =
    some (bytes₁ (B.encode₁ (s.toNat • P)))
  pairing_eq : ∀ l : List (G₁ × G₂),
    F.pairing (l.flatMap fun p => bytes₁ (B.encode₁ p.1) ++ bytes₂ (B.encode₂ p.2)) =
      some (Word.bytes (if (l.map fun p => B.pairing p.1 p.2).sum = 0 then 1 else 0))

/-! ### Built-in functions for given groups -/

namespace PairingGroups

variable (B : PairingGroups r G₁ G₂ GT)

theorem encode₁_injective : Function.Injective B.encode₁ := fun P P' h =>
  B.affine₁_injective (encode₁_inj (B.affine₁_ne P) (B.affine₁_ne P') h)

theorem encode₂_injective : Function.Injective B.encode₂ := fun Q Q' h =>
  B.affine₂_injective (encode₂_inj (B.affine₂_ne Q) (B.affine₂_ne Q') h)

def pairBytes (p : G₁ × G₂) : Bytes := bytes₁ (B.encode₁ p.1) ++ bytes₂ (B.encode₂ p.2)

theorem selfDelimiting_pairBytes : SelfDelimiting B.pairBytes := by
  have h₁ := selfDelimiting_bytes₁.comp B.encode₁_injective
  have h₂ := selfDelimiting_bytes₂.comp B.encode₂_injective
  intro p p' xs ys h
  exact h₁.append h₂ h

theorem flatMap_pairBytes_injective : Function.Injective (List.flatMap B.pairBytes) := by
  intro l l' h
  have hlength : ∀ l : List (G₁ × G₂), (l.flatMap B.pairBytes).length = l.length * 192 := by
    intro l
    simp [pairBytes]
  have hlen : l.length = l'.length := by
    have := hlength l
    rw [h, hlength] at this
    omega
  exact (B.selfDelimiting_pairBytes.flatMap hlen (congrArg (· ++ []) h)).1

open Classical in
/-- Built-in functions that compute in given groups. -/
noncomputable def precompiles : Precompiles where
  add bs := if h : ∃ p : G₁ × G₁, bs = bytes₁ (B.encode₁ p.1) ++ bytes₁ (B.encode₁ p.2) then
      some (bytes₁ (B.encode₁ (h.choose.1 + h.choose.2)))
    else none
  mul bs := if h : ∃ p : G₁ × Word, bs = bytes₁ (B.encode₁ p.1) ++ p.2.bytes then
      some (bytes₁ (B.encode₁ (h.choose.2.toNat • h.choose.1)))
    else none
  pairing bs := if h : ∃ l : List (G₁ × G₂), bs = l.flatMap B.pairBytes then
      some (Word.bytes (if (h.choose.map fun p => B.pairing p.1 p.2).sum = 0 then 1 else 0))
    else none

theorem precompiles_implements [DecidableEq GT] : B.precompiles.Implements B where
  add_eq P Q := by
    have h : ∃ p : G₁ × G₁, bytes₁ (B.encode₁ P) ++ bytes₁ (B.encode₁ Q) =
        bytes₁ (B.encode₁ p.1) ++ bytes₁ (B.encode₁ p.2) := ⟨(P, Q), rfl⟩
    have h₁ := selfDelimiting_bytes₁.comp B.encode₁_injective
    have heq : (P, Q) = h.choose := (h₁.append h₁).injective h.choose_spec
    simp only [precompiles, dif_pos h, ← heq]
  mul_eq P s := by
    have h : ∃ p : G₁ × Word, bytes₁ (B.encode₁ P) ++ s.bytes =
        bytes₁ (B.encode₁ p.1) ++ p.2.bytes := ⟨(P, s), rfl⟩
    have h₁ := selfDelimiting_bytes₁.comp B.encode₁_injective
    have heq : (P, s) = h.choose := (h₁.append selfDelimiting_bytes).injective h.choose_spec
    simp only [precompiles, dif_pos h, ← heq]
  pairing_eq l := by
    have h : ∃ l' : List (G₁ × G₂), l.flatMap B.pairBytes = l'.flatMap B.pairBytes := ⟨l, rfl⟩
    have heq : l = h.choose := B.flatMap_pairBytes_injective h.choose_spec
    change B.precompiles.pairing (l.flatMap B.pairBytes) = _
    simp only [precompiles, dif_pos h, ← heq]

end PairingGroups

/-! ### Groth16 -/

structure Groth16Key (G₁ G₂ : Type) where
  alpha : G₁
  beta : G₂
  gamma : G₂
  delta : G₂
  ic : List G₁

namespace Groth16Key

variable (key : Groth16Key G₁ G₂)

def combination (x : List Word) : G₁ :=
  key.ic.headD 0 + (List.zipWith (fun s P => s.toNat • P) x key.ic.tail).sum

variable (B : PairingGroups r G₁ G₂ GT) (A : G₁) (Q : G₂) (C : G₁) (x : List Word)

def proofPart : GT := B.pairing A Q - B.pairing key.alpha key.beta

def inputPart : GT := B.pairing (key.combination x) key.gamma + B.pairing C key.delta

/-- The equation of Groth16. -/
def Accepts : Prop :=
  B.pairing A Q = B.pairing key.alpha key.beta + B.pairing (key.combination x) key.gamma +
    B.pairing C key.delta

theorem accepts_iff : key.Accepts B A Q C x ↔ key.proofPart B A Q = key.inputPart B C x := by
  rw [Accepts, proofPart, inputPart, sub_eq_iff_eq_add', add_assoc]

end Groth16Key

end

end Bn254
