import TlsAttestation.Core.Hash
import TlsAttestation.Lib.Bn254
import TlsAttestation.Lib.Fallible

/-!
# The export of a verifying key

`exportVk` negates `α`, swaps the coefficients of the coordinates in the second group into the
machine's order, and panics on a neutral point. Read back (`wordOfHex`), the literals are the
encodings of the points: `encodes_of_exportVk`.
-/

namespace TlsAttestation

open Bn254 ByteEncoding Evm Fallible
open List hiding Vector

/-! ### The export -/

structure G1Point where
  x : String
  y : String
deriving DecidableEq

structure G2Point where
  (x0 x1 y0 y1 : String)
deriving DecidableEq

structure SolidityVK where
  circuit : String
  numPublicInputs : ℕ
  alphaNeg : G1Point
  beta : G2Point
  gamma : G2Point
  delta : G2Point
  ic : List G1Point
deriving DecidableEq

structure ArkVerifyingKey where
  alphaG1 : G1Affine
  betaG2 : G2Affine
  gammaG2 : G2Affine
  deltaG2 : G2Affine
  gammaAbcG1 : List G1Affine

def serializeUncompressed (f : Fq) : Bytes := (beBytes 32 f.val).reverse

def fqToHex (f : Fq) : String := "0x" ++ hexEncode (serializeUncompressed f).reverse

def g1ToSolidity (p : G1Affine) : Except String G1Point := do
  let (x, y) ← okOr p "G1 point must not be infinity"
  return { x := fqToHex x, y := fqToHex y }

def g1Neg : G1Affine → G1Affine
  | none => none
  | some (x, y) => some (x, -y)

def g2ToSolidity (p : G2Affine) : Except String G2Point := do
  let (x, y) ← okOr p "G2 point must not be infinity"
  return { x0 := fqToHex x.c1, x1 := fqToHex x.c0, y0 := fqToHex y.c1, y1 := fqToHex y.c0 }

/-- **The export of a verifying key.** An error is a panic. -/
def exportVk (vk : ArkVerifyingKey) (circuit : String) (numPublicInputs : ℕ) :
    Except String SolidityVK := do
  let ic ← vk.gammaAbcG1.mapM g1ToSolidity
  let alphaNeg ← g1ToSolidity (g1Neg vk.alphaG1)
  let beta ← g2ToSolidity vk.betaG2
  let gamma ← g2ToSolidity vk.gammaG2
  let delta ← g2ToSolidity vk.deltaG2
  return { circuit, numPublicInputs, alphaNeg, beta, gamma, delta, ic }

/-! ### Reading the literals back -/

def hexValue (c : Char) : ℕ := "0123456789abcdef".toList.idxOf c

def wordOfHex (s : String) : Word :=
  .ofNat 256 ((s.toList.drop 2).foldl (fun n c => n * 16 + hexValue c) 0)

def G1Point.words (p : G1Point) : Word × Word := (wordOfHex p.x, wordOfHex p.y)

def G2Point.words (p : G2Point) : Word × Word × Word × Word :=
  (wordOfHex p.x0, wordOfHex p.x1, wordOfHex p.y0, wordOfHex p.y1)

theorem hexValue_hexDigit {n : ℕ} (h : n < 16) : hexValue (hexDigit n) = n := by
  interval_cases n <;> rfl

/-- Two digits are one byte. -/
theorem foldl_hexValue (bs : Bytes) (n : ℕ) :
    (bs.flatMap fun b => [hexDigit (b.toNat / 16), hexDigit (b.toNat % 16)]).foldl
        (fun n c => n * 16 + hexValue c) n =
      bs.foldl (fun n b => n * 256 + b.toNat) n := by
  induction bs generalizing n with
  | nil => rfl
  | cons b bs ih =>
    have hb := b.toNat_lt
    have hhigh := hexValue_hexDigit (n := b.toNat / 16) (by omega)
    have hlow := hexValue_hexDigit (n := b.toNat % 16) (by omega)
    have hbyte : (n * 16 + b.toNat / 16) * 16 + b.toNat % 16 = n * 256 + b.toNat := by omega
    rw [flatMap_cons, foldl_append, foldl_cons, foldl_cons, foldl_nil,
      hhigh, hlow, hbyte, ih, foldl_cons]

theorem drop_fqToHex (f : Fq) : (fqToHex f).toList.drop 2 = (beBytes 32 f.val).flatMap fun b =>
    [hexDigit (b.toNat / 16), hexDigit (b.toNat % 16)] := by
  have hlit : "0x".toList.length = 2 := by decide
  rw [fqToHex, serializeUncompressed, reverse_reverse, hexEncode, String.toList_append,
    drop_left' hlit, String.toList_ofList]

/-- A literal stands for its field element. -/
theorem wordOfHex_fqToHex (f : Fq) : wordOfHex (fqToHex f) = word f := by
  have hlt : f.val < 256 ^ 32 := (ZMod.val_lt f).trans (by decide)
  have hval := ofBeBytes_beBytes 32 f.val
  rw [Nat.mod_eq_of_lt hlt, ofBeBytes] at hval
  rw [wordOfHex, drop_fqToHex, foldl_hexValue, hval, word]

theorem words_of_g1ToSolidity {p : G1Affine} {s : G1Point} (h : g1ToSolidity p = .ok s) :
    s.words = encode₁ p := by
  simp only [g1ToSolidity, do_eq_ok] at h
  obtain ⟨⟨x, y⟩, rfl, rfl⟩ := h
  simp only [G1Point.words, wordOfHex_fqToHex, encode₁]

theorem words_of_g2ToSolidity {p : G2Affine} {s : G2Point} (h : g2ToSolidity p = .ok s) :
    s.words = encode₂ p := by
  simp only [g2ToSolidity, do_eq_ok] at h
  obtain ⟨⟨x, y⟩, rfl, rfl⟩ := h
  simp only [G2Point.words, wordOfHex_fqToHex, encode₂]

/-! ### The exported key -/

section

variable {r : ℕ} {G₁ G₂ GT : Type} [AddCommGroup G₁] [AddCommGroup G₂] [AddCommGroup GT]
  [Module (ZMod r) G₁] [Module (ZMod r) G₂] [Module (ZMod r) GT] (B : PairingGroups r G₁ G₂ GT)

def arkKey (key : Groth16Key G₁ G₂) : ArkVerifyingKey where
  alphaG1 := B.affine₁ key.alpha
  betaG2 := B.affine₂ key.beta
  gammaG2 := B.affine₂ key.gamma
  deltaG2 := B.affine₂ key.delta
  gammaAbcG1 := key.ic.map B.affine₁

theorem g1Neg_affine₁ (P : G₁) :
    g1Neg (B.affine₁ P) = B.affine₁ (-P) := by
  rw [B.affine₁_neg]
  cases B.affine₁ P <;> rfl

variable {B : PairingGroups r G₁ G₂ GT}

theorem words_of_forall₂ {l : List G₁} {ic : List G1Point}
    (h : Forall₂ (fun P s => g1ToSolidity (B.affine₁ P) = .ok s) l ic) :
    ic.map G1Point.words = l.map B.encode₁ := by
  induction h with
  | nil => rfl
  | cons hp _ ih =>
    rw [map_cons, map_cons, ih, words_of_g1ToSolidity hp, PairingGroups.encode₁]

/-- **The literals of an exported key are its points**, with `-α`. -/
structure SolidityVK.Encodes (svk : SolidityVK) (B : PairingGroups r G₁ G₂ GT)
    (key : Groth16Key G₁ G₂) : Prop where
  alphaNeg : svk.alphaNeg.words = B.encode₁ (-key.alpha)
  beta : svk.beta.words = B.encode₂ key.beta
  gamma : svk.gamma.words = B.encode₂ key.gamma
  delta : svk.delta.words = B.encode₂ key.delta
  ic : svk.ic.map G1Point.words = key.ic.map B.encode₁

/-- **The export is right**, where it does not panic. -/
theorem encodes_of_exportVk {key : Groth16Key G₁ G₂} {circuit : String} {numPublicInputs : ℕ}
    {svk : SolidityVK} (h : exportVk (arkKey B key) circuit numPublicInputs = .ok svk) :
    svk.Encodes B key := by
  simp only [exportVk, arkKey, g1Neg_affine₁, do_eq_ok, mapM_eq_ok, forall₂_map_left_iff] at h
  obtain ⟨ic, hic, alphaNeg, halpha, beta, hbeta, gamma, hgamma, delta, hdelta, rfl⟩ := h
  exact ⟨words_of_g1ToSolidity halpha, words_of_g2ToSolidity hbeta, words_of_g2ToSolidity hgamma,
    words_of_g2ToSolidity hdelta, words_of_forall₂ hic⟩

/-! ### When the export panics -/

theorem exists_g1ToSolidity {P : G₁} (h : P ≠ 0) :
    ∃ s, g1ToSolidity (B.affine₁ P) = .ok s := by
  obtain ⟨⟨x, y⟩, hxy⟩ := Option.ne_none_iff_exists'.1
    (B.affine₁_zero ▸ fun hnone => h (B.affine₁_injective hnone))
  exact ⟨_, by rw [g1ToSolidity, hxy]; rfl⟩

theorem exists_g2ToSolidity {Q : G₂} (h : Q ≠ 0) :
    ∃ s, g2ToSolidity (B.affine₂ Q) = .ok s := by
  obtain ⟨⟨x, y⟩, hxy⟩ := Option.ne_none_iff_exists'.1
    (B.affine₂_zero ▸ fun hnone => h (B.affine₂_injective hnone))
  exact ⟨_, by rw [g2ToSolidity, hxy]; rfl⟩

theorem exists_mapM_g1ToSolidity {l : List G₁} (h : ∀ P ∈ l, P ≠ 0) :
    ∃ ic, (l.map B.affine₁).mapM g1ToSolidity = .ok ic := by
  induction l with
  | nil => exact ⟨[], rfl⟩
  | cons P l ih =>
    obtain ⟨hP, hl⟩ := forall_mem_cons.1 h
    obtain ⟨s, hs⟩ := exists_g1ToSolidity (B := B) hP
    obtain ⟨ic, hic⟩ := ih hl
    exact ⟨s :: ic, mapM_eq_ok.2 (.cons hs (mapM_eq_ok.1 hic))⟩

/-- A key without neutral points is exported. -/
theorem exists_exportVk {key : Groth16Key G₁ G₂} (circuit : String) (numPublicInputs : ℕ)
    (halpha : key.alpha ≠ 0) (hbeta : key.beta ≠ 0) (hgamma : key.gamma ≠ 0)
    (hdelta : key.delta ≠ 0) (hic : ∀ P ∈ key.ic, P ≠ 0) :
    ∃ svk, exportVk (arkKey B key) circuit numPublicInputs = .ok svk := by
  obtain ⟨ic, hic⟩ := exists_mapM_g1ToSolidity (B := B) hic
  obtain ⟨alphaNeg, hα⟩ := exists_g1ToSolidity (B := B) (neg_ne_zero.2 halpha)
  obtain ⟨beta, hβ⟩ := exists_g2ToSolidity (B := B) hbeta
  obtain ⟨gamma, hγ⟩ := exists_g2ToSolidity (B := B) hgamma
  obtain ⟨delta, hδ⟩ := exists_g2ToSolidity (B := B) hdelta
  exact ⟨_, by simp only [exportVk, arkKey, hic, g1Neg_affine₁, hα, hβ, hγ, hδ]; rfl⟩

end

end TlsAttestation
