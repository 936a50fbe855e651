import TlsAttestation.Contracts.TLSAttestation
import TlsAttestation.Zk.VkExport

/-!
# Proofs on the chain

The contract `DctlsVerifier` checks that `e(A, B) - e(α, β) + e(Σ, γ) + e(C, δ) = 0`; the equation
of Groth16 has the last two terms on the other side (`DctlsVerifier.decidesGroth16_iff`).
-/

namespace TlsAttestation

open Bn254 ByteEncoding Evm Fallible Transaction
open List hiding Vector

namespace DctlsVerifier

structure Proof where
  (aX aY bX0 bX1 bY0 bY1 cX cY : Word)

/-- A key as it is stored, with the opposite of `α`. -/
structure VerifyingKey where
  alphaX : Word
  alphaY : Word
  betaX0 : Word
  betaX1 : Word
  betaY0 : Word
  betaY1 : Word
  gammaX0 : Word
  gammaX1 : Word
  gammaY0 : Word
  gammaY1 : Word
  deltaX0 : Word
  deltaX1 : Word
  deltaY0 : Word
  deltaY1 : Word

end DctlsVerifier

structure DctlsVerifier where
  owner : Address
  vkHspMode1 : DctlsVerifier.VerifyingKey
  icHspMode1 : Vector (Word × Word) 3
  vkHspMode2 : DctlsVerifier.VerifyingKey
  icHspMode2 : Vector (Word × Word) 4
  vkSessionBinding : DctlsVerifier.VerifyingKey
  icSessionBinding : Vector (Word × Word) 5
  vkRegistered : List String

namespace DctlsVerifier

/-! ### The registration of keys -/

variable (ctx : TxContext)

def register (store : DctlsVerifier → DctlsVerifier) (circuit : String) :
    Tx DctlsVerifier Unit := do
  require (ctx.sender = (← get).owner) "DctlsVerifier: not owner"
  modify store
  modify fun s => { s with vkRegistered := s.vkRegistered ++ [circuit] }

def setHspMode1VK (vk : VerifyingKey) (ic : Vector (Word × Word) 3) :
    Tx DctlsVerifier Unit :=
  register ctx (fun s => { s with vkHspMode1 := vk, icHspMode1 := ic }) "hsp_mode1"

def setHspMode2VK (vk : VerifyingKey) (ic : Vector (Word × Word) 4) :
    Tx DctlsVerifier Unit :=
  register ctx (fun s => { s with vkHspMode2 := vk, icHspMode2 := ic }) "hsp_mode2"

def setSessionBindingVK (vk : VerifyingKey) (ic : Vector (Word × Word) 5) :
    Tx DctlsVerifier Unit :=
  register ctx (fun s => { s with vkSessionBinding := vk, icSessionBinding := ic })
    "session_binding"

/-! ### The check of a proof -/

def decodePair (out : Bytes) : Except String (Word × Word) := do
  ensure (64 ≤ out.length) ""
  return (.ofBytes (out.take 32), .ofBytes ((out.drop 32).take 32))

variable (F : Precompiles)

def g1Add (a b : Word × Word) : Except String (Word × Word) := do
  let out ← okOr (F.add (a.1.bytes ++ a.2.bytes ++ b.1.bytes ++ b.2.bytes))
    "DctlsVerifier: bn256Add failed"
  decodePair out

def g1ScalarMul (p : Word × Word) (s : Word) : Except String (Word × Word) := do
  let out ← okOr (F.mul (p.1.bytes ++ p.2.bytes ++ s.bytes)) "DctlsVerifier: bn256ScalarMul failed"
  decodePair out

def packG1 (buf : Bytes) (offset : ℕ) (x y : Word) : Bytes :=
  mstore (mstore buf offset x) (offset + 32) y

def packG2 (buf : Bytes) (offset : ℕ) (x0 x1 y0 y1 : Word) : Bytes :=
  mstore (mstore (mstore (mstore buf offset x0) (offset + 32) x1) (offset + 64) y0) (offset + 96) y1

def pairingInput (proof : Proof) (vk : VerifyingKey) (acc : Word × Word) : Bytes :=
  let input := List.replicate 768 0
  let input := packG1 input 0 proof.aX proof.aY
  let input := packG2 input 64 proof.bX0 proof.bX1 proof.bY0 proof.bY1
  let input := packG1 input 192 vk.alphaX vk.alphaY
  let input := packG2 input 256 vk.betaX0 vk.betaX1 vk.betaY0 vk.betaY1
  let input := packG1 input 384 acc.1 acc.2
  let input := packG2 input 448 vk.gammaX0 vk.gammaX1 vk.gammaY0 vk.gammaY1
  let input := packG1 input 576 proof.cX proof.cY
  packG2 input 640 vk.deltaX0 vk.deltaX1 vk.deltaY0 vk.deltaY1

def accumulate (acc : Word × Word) (p : Word × (Word × Word)) :
    Except String (Word × Word) := do
  let term ← g1ScalarMul F p.2 p.1
  g1Add F acc term

/-- The inputs are combined with the key, and the check of pairings has to answer one. -/
def groth16Verify (proof : Proof) (publicInputs : List Word)
    (vk : VerifyingKey) (ic : List (Word × Word)) : Except String Bool := do
  ensure (publicInputs.length + 1 = ic.length) "DctlsVerifier: input count mismatch"
  let acc ← (publicInputs.zip ic.tail).foldlM (accumulate F) (ic.headD (0, 0))
  let result ← okOr (F.pairing (pairingInput proof vk acc))
    "DctlsVerifier: pairing precompile failed"
  return result.length = 32 ∧ Word.ofBytes result = 1

def verifyHspMode1 (s : DctlsVerifier) (proof : Proof)
    (kMacCommitment randBinding : Word) : Except String Bool :=
  groth16Verify F proof [kMacCommitment, randBinding] s.vkHspMode1 s.icHspMode1.toList

def verifyHspMode2 (s : DctlsVerifier) (proof : Proof)
    (kMacCommitment randBinding pmsHash : Word) : Except String Bool :=
  groth16Verify F proof [kMacCommitment, randBinding, pmsHash] s.vkHspMode2 s.icHspMode2.toList

def verifySessionBinding (s : DctlsVerifier) (proof : Proof)
    (kMacCommitment randBinding macCommitmentQ macCommitmentR : Word) : Except String Bool :=
  groth16Verify F proof [kMacCommitment, randBinding, macCommitmentQ, macCommitmentR]
    s.vkSessionBinding s.icSessionBinding.toList

def verifyFullAttestation (s : DctlsVerifier) (hspProof sessionProof : Proof)
    (kMacCommitment randBinding pmsHash macCommitmentQ macCommitmentR : Word) :
    Except String Unit := do
  let hsp ← groth16Verify F hspProof [kMacCommitment, randBinding, pmsHash] s.vkHspMode2
    s.icHspMode2.toList
  ensure hsp "DctlsVerifier: pi_HSP invalid"
  let session ← groth16Verify F sessionProof
    [kMacCommitment, randBinding, macCommitmentQ, macCommitmentR] s.vkSessionBinding
    s.icSessionBinding.toList
  ensure session "DctlsVerifier: pi_theta_s invalid"

/-! ### The buffer -/

theorem packG1_append {done rest : Bytes} {offset : ℕ} (h : done.length = offset) (x y : Word) :
    packG1 (done ++ rest) offset x y = (done ++ bytes₁ (x, y)) ++ rest.drop 64 := by
  rw [packG1, mstore_append h, mstore_append (by simp [h]), drop_drop, bytes₁, append_assoc done]

theorem packG2_append {done rest : Bytes} {offset : ℕ} (h : done.length = offset)
    (x0 x1 y0 y1 : Word) :
    packG2 (done ++ rest) offset x0 x1 y0 y1 =
      (done ++ bytes₂ (x0, x1, y0, y1)) ++ rest.drop 128 := by
  rw [packG2, mstore_append h, mstore_append (by simp [h]), mstore_append (by simp [h]),
    mstore_append (by simp [h])]
  simp only [drop_drop, bytes₂, append_assoc]

/-- The buffer holds the four pairs. -/
theorem pairingInput_eq (proof : Proof) (vk : VerifyingKey) (acc : Word × Word) :
    pairingInput proof vk acc =
      bytes₁ (proof.aX, proof.aY) ++ bytes₂ (proof.bX0, proof.bX1, proof.bY0, proof.bY1) ++
      (bytes₁ (vk.alphaX, vk.alphaY) ++ bytes₂ (vk.betaX0, vk.betaX1, vk.betaY0, vk.betaY1)) ++
      (bytes₁ acc ++ bytes₂ (vk.gammaX0, vk.gammaX1, vk.gammaY0, vk.gammaY1)) ++
      (bytes₁ (proof.cX, proof.cY) ++ bytes₂ (vk.deltaX0, vk.deltaX1, vk.deltaY0, vk.deltaY1)) := by
  -- each write finds the earlier ones in front of it and the rest of the zeros behind
  rw [pairingInput, ← nil_append (replicate 768 (0 : UInt8))]
  rw [packG1_append length_nil, packG2_append (by simp), packG1_append (by simp),
    packG2_append (by simp), packG1_append (by simp), packG2_append (by simp),
    packG1_append (by simp), packG2_append (by simp)]
  simp only [drop_replicate, Nat.sub_self, Nat.reduceSub,
    replicate_zero, append_nil, nil_append, append_assoc, Prod.mk.eta]

/-! ### What is checked -/

section

variable {r : ℕ} {G₁ G₂ GT : Type} [AddCommGroup G₁] [AddCommGroup G₂] [AddCommGroup GT]
  [Module (ZMod r) G₁] [Module (ZMod r) G₂] [Module (ZMod r) GT] [DecidableEq GT]
  {F : Precompiles} {B : PairingGroups r G₁ G₂ GT}

def Proof.ofPoints (B : PairingGroups r G₁ G₂ GT) (A : G₁) (Q : G₂) (C : G₁) : Proof where
  aX := (B.encode₁ A).1
  aY := (B.encode₁ A).2
  bX0 := (B.encode₂ Q).1
  bX1 := (B.encode₂ Q).2.1
  bY0 := (B.encode₂ Q).2.2.1
  bY1 := (B.encode₂ Q).2.2.2
  cX := (B.encode₁ C).1
  cY := (B.encode₁ C).2

theorem decodePair_bytes₁ (w : Word × Word) : decodePair (bytes₁ w) = .ok w := by
  have hlen : 64 ≤ (bytes₁ w).length := by simp
  have hfst : (bytes₁ w).take 32 = w.1.bytes := take_left' w.1.length_bytes
  have hsnd : ((bytes₁ w).drop 32).take 32 = w.2.bytes := by
    rw [bytes₁, drop_left' w.1.length_bytes, take_of_length_le (by simp)]
  simp only [decodePair, do_eq_ok, hfst, hsnd, Word.ofBytes_bytes, hlen, true_and, exists_const]

section

variable (hF : F.Implements B)

include hF

theorem g1Add_encode₁ (P Q : G₁) :
    g1Add F (B.encode₁ P) (B.encode₁ Q) = .ok (B.encode₁ (P + Q)) := by
  have hadd := hF.add_eq P Q
  simp only [bytes₁, ← append_assoc] at hadd
  simp only [g1Add, hadd, do_eq_ok, Option.some.injEq, exists_eq_left']
  exact decodePair_bytes₁ _

theorem g1ScalarMul_encode₁ (P : G₁) (s : Word) :
    g1ScalarMul F (B.encode₁ P) s = .ok (B.encode₁ (s.toNat • P)) := by
  have hmul := hF.mul_eq P s
  rw [bytes₁] at hmul
  simp only [g1ScalarMul, hmul, do_eq_ok, Option.some.injEq, exists_eq_left']
  exact decodePair_bytes₁ _

theorem accumulate_encode₁ (acc P : G₁) (s : Word) :
    accumulate F (B.encode₁ acc) (s, B.encode₁ P) = .ok (B.encode₁ (acc + s.toNat • P)) := by
  simp only [accumulate, bind_eq_ok, g1ScalarMul_encode₁ hF, Except.ok.injEq, exists_eq_left',
    g1Add_encode₁ hF]

/-- **The loop** adds up the multiples, from any point. -/
theorem foldlM_accumulate (x : List Word) (l : List G₁) (acc : G₁) :
    (x.zip (l.map B.encode₁)).foldlM (accumulate F) (B.encode₁ acc) =
      .ok (B.encode₁ (acc + (zipWith (fun s P => s.toNat • P) x l).sum)) := by
  induction x generalizing l acc with
  | nil => simp
  | cons s x ih =>
    cases l with
    | nil => simp
    | cons P l =>
      rw [map_cons, zip_cons_cons, foldlM_cons_eq_ok]
      refine ⟨_, accumulate_encode₁ hF acc P s, ?_⟩
      rw [ih, zipWith_cons_cons, sum_cons, add_assoc]

/-- **What the contract checks**, for some point in place of `-α`. -/
theorem groth16Verify_encode {vk : VerifyingKey} {A alpha C : G₁} {Q beta gamma delta : G₂}
    {ic : List G₁} {x : List Word} (hlen : x.length + 1 = ic.length)
    (halpha : (vk.alphaX, vk.alphaY) = B.encode₁ alpha)
    (hbeta : (vk.betaX0, vk.betaX1, vk.betaY0, vk.betaY1) = B.encode₂ beta)
    (hgamma : (vk.gammaX0, vk.gammaX1, vk.gammaY0, vk.gammaY1) = B.encode₂ gamma)
    (hdelta : (vk.deltaX0, vk.deltaX1, vk.deltaY0, vk.deltaY1) = B.encode₂ delta) :
    groth16Verify F (Proof.ofPoints B A Q C) x vk (ic.map B.encode₁) =
      .ok (B.pairing A Q + B.pairing alpha beta +
        B.pairing (ic.headD 0 + (zipWith (fun s P => s.toNat • P) x ic.tail).sum) gamma +
        B.pairing C delta = 0 : Bool) := by
  obtain ⟨P, l, rfl⟩ : ∃ P l, ic = P :: l := exists_cons_of_length_eq_add_one hlen.symm
  set acc := P + (zipWith (fun s P => s.toNat • P) x l).sum with hacc
  have hloop := foldlM_accumulate hF x l P
  -- the buffer is the four pairs, so the answer is about their pairings
  have hpair := hF.pairing_eq [(A, Q), (alpha, beta), (acc, gamma), (C, delta)]
  have hinput : pairingInput (Proof.ofPoints B A Q C) vk (B.encode₁ acc) =
      [(A, Q), (alpha, beta), (acc, gamma), (C, delta)].flatMap fun p =>
        bytes₁ (B.encode₁ p.1) ++ bytes₂ (B.encode₂ p.2) := by
    simp only [pairingInput_eq, halpha, hbeta, hgamma, hdelta, Proof.ofPoints, Prod.mk.eta,
      flatMap_cons, flatMap_nil, append_nil, append_assoc]
  simp only [groth16Verify, hlen, map_cons, tail_cons, headD_cons, do_eq_ok, hloop, Except.ok.injEq,
    exists_eq_left', hinput, hpair, Option.some.injEq, exists_const, true_and, ← hacc, map_nil,
    sum_cons, sum_nil, add_zero, Word.length_bytes, Word.ofBytes_bytes, ← add_assoc]
  split <;> simp_all

end

end

end DctlsVerifier

/-! ### Exported keys -/

def SolidityVK.verifyingKey (svk : SolidityVK) : DctlsVerifier.VerifyingKey where
  alphaX := svk.alphaNeg.words.1
  alphaY := svk.alphaNeg.words.2
  betaX0 := svk.beta.words.1
  betaX1 := svk.beta.words.2.1
  betaY0 := svk.beta.words.2.2.1
  betaY1 := svk.beta.words.2.2.2
  gammaX0 := svk.gamma.words.1
  gammaX1 := svk.gamma.words.2.1
  gammaY0 := svk.gamma.words.2.2.1
  gammaY1 := svk.gamma.words.2.2.2
  deltaX0 := svk.delta.words.1
  deltaX1 := svk.delta.words.2.1
  deltaY0 := svk.delta.words.2.2.1
  deltaY1 := svk.delta.words.2.2.2

namespace DctlsVerifier

section

variable {r : ℕ} {G₁ G₂ GT : Type} [AddCommGroup G₁] [AddCommGroup G₂] [AddCommGroup GT]
  [Module (ZMod r) G₁] [Module (ZMod r) G₂] [Module (ZMod r) GT] [DecidableEq GT]
  {F : Precompiles} {B : PairingGroups r G₁ G₂ GT} {key : Groth16Key G₁ G₂} {svk : SolidityVK}

/-- **For an exported key**, the terms of the inputs have the wrong sign. -/
theorem groth16Verify_eq_true (hF : F.Implements B) (hsvk : svk.Encodes B key) (A : G₁) (Q : G₂)
    (C : G₁) {x : List Word} (hlen : x.length + 1 = key.ic.length) :
    groth16Verify F (Proof.ofPoints B A Q C) x svk.verifyingKey (svk.ic.map G1Point.words) =
      .ok true ↔ key.proofPart B A Q = -key.inputPart B C x := by
  rw [hsvk.ic, groth16Verify_encode hF hlen hsvk.alphaNeg hsvk.beta hsvk.gamma hsvk.delta,
    Except.ok.injEq, decide_eq_true_iff, Groth16Key.proofPart, Groth16Key.inputPart,
    Groth16Key.combination, map_neg, LinearMap.neg_apply, ← sub_eq_add_neg, add_assoc,
    add_eq_zero_iff_eq_neg]

def DecidesGroth16 (F : Precompiles) (B : PairingGroups r G₁ G₂ GT) (key : Groth16Key G₁ G₂)
    (svk : SolidityVK) (A : G₁) (Q : G₂) (C : G₁) (x : List Word) : Prop :=
  groth16Verify F (Proof.ofPoints B A Q C) x svk.verifyingKey (svk.ic.map G1Point.words) =
    .ok true ↔ key.Accepts B A Q C x

/-- **Where the contract decides the equation of Groth16**: where the terms of the inputs cancel, or
where `e(A, B) - e(α, β)` is neither their sum nor its opposite. -/
theorem decidesGroth16_iff (hF : F.Implements B) {circuit : String} {numPublicInputs : ℕ}
    (hvk : exportVk (arkKey B key) circuit numPublicInputs = .ok svk) (A : G₁) (Q : G₂) (C : G₁)
    {x : List Word} (hlen : x.length + 1 = key.ic.length) :
    DecidesGroth16 F B key svk A Q C x ↔ key.inputPart B C x = 0 ∨
        (key.proofPart B A Q ≠ key.inputPart B C x ∧
          key.proofPart B A Q ≠ -key.inputPart B C x) := by
  rw [DecidesGroth16, groth16Verify_eq_true hF (encodes_of_exportVk hvk) A Q C hlen,
    Groth16Key.accepts_iff]
  generalize key.proofPart B A Q = u
  generalize key.inputPart B C x = w
  constructor
  · intro h
    by_cases hu : u = w
    · -- both equations hold, so the sum is its own opposite
      have hneg := h.2 hu
      rw [hu] at hneg
      exact .inl (B.eq_zero_of_add_self (eq_neg_iff_add_eq_zero.1 hneg))
    · exact .inr ⟨hu, fun hneg => hu (h.1 hneg)⟩
  · rintro (rfl | ⟨hu, hneg⟩)
    · rw [neg_zero]
    · exact iff_of_false hneg hu

/-! ### Before a key is registered -/

def VerifyingKey.unset : VerifyingKey := ⟨0, 0, 0, 0, 0, 0, 0, 0, 0, 0, 0, 0, 0, 0⟩

/-- **The contract as deployed**: nothing is stored but the owner. -/
def deploy (ctx : TxContext) : DctlsVerifier :=
  ⟨ctx.sender, .unset, .replicate 3 (0, 0), .unset, .replicate 4 (0, 0), .unset,
    .replicate 5 (0, 0), []⟩

inductive Registration where
  | hspMode1 (vk : VerifyingKey) (ic : Vector (Word × Word) 3)
  | hspMode2 (vk : VerifyingKey) (ic : Vector (Word × Word) 4)
  | sessionBinding (vk : VerifyingKey) (ic : Vector (Word × Word) 5)

def Registration.exec (ctx : TxContext) : Registration → Tx DctlsVerifier Unit
  | .hspMode1 vk ic => setHspMode1VK ctx vk ic
  | .hspMode2 vk ic => setHspMode2VK ctx vk ic
  | .sessionBinding vk ic => setSessionBindingVK ctx vk ic

def step (s : DctlsVerifier) (tx : TxContext × Registration) : DctlsVerifier :=
  match (tx.2.exec tx.1).run s with
  | .ok (_, s') => s'
  | .error _ => s

theorem sender_of_register {ctx : TxContext} {store : DctlsVerifier → DctlsVerifier}
    {circuit : String} {s s' : DctlsVerifier} {u : Unit}
    (h : (register ctx store circuit).run s = .ok (u, s')) : ctx.sender = s.owner := by
  rw [register, run_get_bind, run_require_bind] at h
  exact h.1

theorem step_of_ne_owner {s : DctlsVerifier} {tx : TxContext × Registration}
    (h : tx.1.sender ≠ s.owner) : s.step tx = s := by
  rw [step]
  split
  · next hrun =>
    obtain ⟨ctx, _ | _ | _⟩ := tx <;> exact absurd (sender_of_register hrun) h
  · rfl

theorem groth16Verify_unset (hF : F.Implements B) (x : List Word) :
    groth16Verify F ⟨0, 0, 0, 0, 0, 0, 0, 0⟩ x .unset
      (replicate (x.length + 1) (0, 0)) = .ok true := by
  have h₁ : B.encode₁ 0 = (0, 0) := congrArg Bn254.encode₁ B.affine₁_zero
  have h₂ : B.encode₂ 0 = (0, 0, 0, 0) := congrArg Bn254.encode₂ B.affine₂_zero
  have hver : groth16Verify F (.ofPoints B 0 0 0) x .unset
      ((replicate (x.length + 1) 0).map B.encode₁) = _ :=
    groth16Verify_encode hF (by simp) h₁.symm h₂.symm h₂.symm h₂.symm
  rw [map_replicate, h₁] at hver
  simpa [Proof.ofPoints, h₁, h₂] using hver

/-- **Until the owner registers keys, any inputs are attested** by proofs that are zero, whatever
others try to register. -/
theorem verifyFullAttestation_unregistered (hF : F.Implements B) {ctx : TxContext}
    {txs : List (TxContext × Registration)} (htxs : ∀ tx ∈ txs, tx.1.sender ≠ ctx.sender)
    (kMac rand pmsHash macQ macR : Word) :
    verifyFullAttestation F (txs.foldl step (deploy ctx)) ⟨0, 0, 0, 0, 0, 0, 0, 0⟩
      ⟨0, 0, 0, 0, 0, 0, 0, 0⟩ kMac rand pmsHash macQ macR = .ok () := by
  have h : txs.foldl step (deploy ctx) = deploy ctx :=
    foldlRecOn (motive := (· = deploy ctx)) txs step rfl fun _ hs tx htx => by
      rw [hs, step_of_ne_owner (htxs tx htx)]
  simp only [h, verifyFullAttestation, do_eq_ok]
  exact ⟨true, groth16Verify_unset hF _, (), rfl, true, groth16Verify_unset hF _, rfl⟩

end

/-! ### A small pairing -/

theorem valMinAbs_cast_injective :
    Function.Injective fun P : ZMod 101 => ((P.valMinAbs : ℤ) : Fq) := by
  intro P P' h
  have hdvd := (ZMod.intCast_eq_intCast_iff_dvd_sub _ _ q).1 h
  have hP := ZMod.valMinAbs_mem_Ioc P
  have hP' := ZMod.valMinAbs_mem_Ioc P'
  have hq : (201 : ℤ) < q := by decide
  rw [Set.mem_Ioc] at hP hP'
  have hzero := Int.eq_zero_of_abs_lt_dvd hdvd (by rw [abs_lt]; omega)
  exact ZMod.injective_valMinAbs (by omega)

def toyPairing : PairingGroups 101 (ZMod 101) (ZMod 101) (ZMod 101) where
  prime := by norm_num
  odd := by decide
  pairing := LinearMap.mul (ZMod 101) (ZMod 101)
  nondegenerate P Q h := by
    have : Fact (Nat.Prime 101) := ⟨by norm_num⟩
    exact mul_eq_zero.1 h
  affine₁ P := if P = 0 then none else some (1, ((P.valMinAbs : ℤ) : Fq))
  affine₂ Q := if Q = 0 then none else some (⟨1, 0⟩, ⟨((Q.valMinAbs : ℤ) : Fq), 0⟩)
  affine₁_injective P P' h := by
    by_cases hP : P = 0 <;> by_cases hP' : P' = 0 <;>
      simp only [hP, hP', if_true, if_false, Option.some.injEq, Prod.mk.injEq, true_and,
        reduceCtorEq] at h ⊢
    exact valMinAbs_cast_injective h
  affine₂_injective P P' h := by
    by_cases hP : P = 0 <;> by_cases hP' : P' = 0 <;>
      simp only [hP, hP', if_true, if_false, Option.some.injEq, Prod.mk.injEq, true_and,
        and_true, Fq2.mk.injEq, reduceCtorEq] at h ⊢
    exact valMinAbs_cast_injective h
  affine₁_zero := if_pos rfl
  affine₂_zero := if_pos rfl
  affine₁_ne P h := by
    have hone : (1 : Fq) ≠ 0 := by decide
    split at h
    · exact nomatch h
    · exact hone (Prod.mk.inj (Option.some.inj h)).1
  affine₂_ne P h := by
    have hone : (1 : Fq) ≠ 0 := by decide
    split at h
    · exact nomatch h
    · exact hone (Fq2.mk.inj (Prod.mk.inj (Option.some.inj h)).1).1
  affine₁_neg P := by
    have hodd : 2 * P.val ≠ 101 := by omega
    by_cases hP : P = 0
    · simp [hP]
    · simp [hP, ZMod.valMinAbs_neg_of_ne_half hodd]

theorem verifyFullAttestation_unregistered_stranger :
    verifyFullAttestation toyPairing.precompiles
      ([(⟨2, 0, 0⟩, .hspMode2 .unset (.replicate 4 (1, 2)))].foldl step (deploy ⟨1, 0, 0⟩))
      ⟨0, 0, 0, 0, 0, 0, 0, 0⟩ ⟨0, 0, 0, 0, 0, 0, 0, 0⟩ 1 2 3 4 5 = .ok () :=
  verifyFullAttestation_unregistered toyPairing.precompiles_implements (by simp) 1 2 3 4 5

def toyKey : Groth16Key (ZMod 101) (ZMod 101) := ⟨1, 1, 1, 1, [1, 1, 1]⟩

theorem exists_exportVk_toyKey :
    ∃ svk, exportVk (arkKey toyPairing toyKey) "hsp_mode1" 2 = .ok svk := by
  have hone : (1 : ZMod 101) ≠ 0 := by decide
  refine exists_exportVk "hsp_mode1" 2 hone hone hone hone ?_
  intro P hP
  rw [mem_replicate.1 (show P ∈ replicate 3 1 from hP) |>.2]
  exact hone

theorem decidesGroth16_cancelling : ∃ svk,
    exportVk (arkKey toyPairing toyKey) "hsp_mode1" 2 = .ok svk ∧
      DecidesGroth16 toyPairing.precompiles toyPairing toyKey svk 1 1 (-1) [0, 0] := by
  obtain ⟨svk, hsvk⟩ := exists_exportVk_toyKey
  refine ⟨svk, hsvk, (decidesGroth16_iff toyPairing.precompiles_implements hsvk 1 1 (-1) rfl).2
    (.inl ?_)⟩
  decide

/-- A good proof is rejected, and a bad one accepted. -/
theorem not_decidesGroth16_honest : ∃ svk,
    exportVk (arkKey toyPairing toyKey) "hsp_mode1" 2 = .ok svk ∧
      toyKey.Accepts toyPairing 3 1 1 [0, 0] ∧
      groth16Verify toyPairing.precompiles (Proof.ofPoints toyPairing 3 1 1) [0, 0]
        svk.verifyingKey (svk.ic.map G1Point.words) ≠ .ok true ∧
      ¬ toyKey.Accepts toyPairing (-1) 1 1 [0, 0] ∧
      groth16Verify toyPairing.precompiles (Proof.ofPoints toyPairing (-1) 1 1) [0, 0]
        svk.verifyingKey (svk.ic.map G1Point.words) = .ok true := by
  obtain ⟨svk, hsvk⟩ := exists_exportVk_toyKey
  have hver (A : ZMod 101) := groth16Verify_eq_true toyPairing.precompiles_implements
    (encodes_of_exportVk hsvk) A 1 1 (x := [0, 0]) rfl
  refine ⟨svk, hsvk, ?_, ?_, ?_, ?_⟩
  · rw [Groth16Key.accepts_iff]
    decide
  · rw [Ne, hver]
    decide
  · rw [Groth16Key.accepts_iff]
    decide
  · rw [hver]
    decide

end DctlsVerifier

end TlsAttestation
