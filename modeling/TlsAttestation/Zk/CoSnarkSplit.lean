import TlsAttestation.Zk.Completeness

/-!
# The split handshake proof

Two parties each send the coordinator their share of `K_MAC` under **one mask**, which cancels when
the two are added up. What it receives depends on the shares only through the key, up to a change of
the mask (`Zk.masks_hide_shares`); what it sends out is what the direct execution sends out
(`Zk.coSnarkExecuteSplit_agrees`).
-/

namespace TlsAttestation.Zk

open Ark ByteEncoding Fallible

open Ark.Bn254 (Fr r)

structure X25519 where
  EphemeralSecret : Type
  publicKey : EphemeralSecret → Bytes32
  diffieHellman : EphemeralSecret → Bytes32 → Bytes32

def X25519.Commutes (X : X25519) : Prop :=
  ∀ a b, X.diffieHellman a (X.publicKey b) = X.diffieHellman b (X.publicKey a)

structure MaskedShare where
  (dhPublicKey maskedBytes authTag : Bytes32)

structure CoSnarkParty (X : X25519) where
  dhSecret : X.EphemeralSecret
  macShare : Bytes32

def deriveMask (sharedSecret : Bytes32) : Bytes32 :=
  Sha2.sha256 (strBytes "co-snark/dh-mask/v1\x00" ++ sharedSecret.toList)

def computeAuthTag (sharedSecret maskedBytes : Bytes32) : Bytes32 :=
  Sha2.sha256 (strBytes "co-snark/mask-auth/v1\x00" ++ sharedSecret.toList ++ maskedBytes.toList)

namespace CoSnarkParty

variable {X : X25519}

def publicKey (party : CoSnarkParty X) : Bytes32 := X.publicKey party.dhSecret

def computeMaskedShare (party : CoSnarkParty X) (otherPublicKey : Bytes32) : MaskedShare :=
  let shared := X.diffieHellman party.dhSecret otherPublicKey
  let maskedBytes := zipBytes (· ^^^ ·) party.macShare (deriveMask shared)
  ⟨party.publicKey, maskedBytes, computeAuthTag shared maskedBytes⟩

end CoSnarkParty

section

variable (G : Groth16 Fr)

/-- The masks cancel: the coordinator learns the key, and proves it with a split of its own. -/
def coSnarkCombine (crs : G.ProvingKey) (pShare vShare : MaskedShare)
    (pDhPk vDhPk randBinding : Bytes32) (ρ : G.Randomness) :
    Except CoSnarkError HspProof := do
  ensure (pShare.dhPublicKey = pDhPk)
    (.prove "prover share dh_public_key does not match announced p_dh_pk")
  ensure (vShare.dhPublicKey = vDhPk)
    (.prove "verifier share dh_public_key does not match announced v_dh_pk")
  let kMac := zipBytes (· ^^^ ·) pShare.maskedBytes vShare.maskedBytes
  -- any split of the key will do, and the coordinator knows only this one
  let circuit := TlsPrfCircuit.new kMac (.replicate 32 0) randBinding
  let proof ← (G.createProof (discard circuit.generateConstraints) crs ρ).mapError
    fun e => CoSnarkError.prove e.display
  return {
    groth16Bytes := G.serializeProof proof
    kMacCommitmentBytes := serialize circuit.kMacCommitmentFe
    randBindingBytes := serialize circuit.randBindingFe
    kMac := kMac
    pmsHashBytes := [] }

/-- Two parties who mask their shares, and the coordinator, in one process. -/
def coSnarkExecuteSplit {X : X25519} (crs : G.ProvingKey) (secretP secretV : X.EphemeralSecret)
    (pMacShare vMacShare randBinding : Bytes32) (ρ : G.Randomness) :
    Except CoSnarkError HspProof :=
  let partyP : CoSnarkParty X := ⟨secretP, pMacShare⟩
  let partyV : CoSnarkParty X := ⟨secretV, vMacShare⟩
  let pkP := partyP.publicKey
  let pkV := partyV.publicKey
  coSnarkCombine G crs (partyP.computeMaskedShare pkV) (partyV.computeMaskedShare pkP) pkP pkV
    randBinding ρ

end

/-! ### What the coordinator receives -/

def maskedPair (p v mask : Bytes32) : Bytes32 × Bytes32 :=
  (zipBytes (· ^^^ ·) p mask, zipBytes (· ^^^ ·) v mask)

def receivedPair {X : X25519} (partyP partyV : CoSnarkParty X) :
    Bytes32 × Bytes32 :=
  ((partyP.computeMaskedShare partyV.publicKey).maskedBytes,
    (partyV.computeMaskedShare partyP.publicKey).maskedBytes)

theorem receivedPair_eq {X : X25519} (hX : X.Commutes) (partyP partyV : CoSnarkParty X) :
    receivedPair partyP partyV = maskedPair partyP.macShare partyV.macShare
      (deriveMask (X.diffieHellman partyP.dhSecret partyV.publicKey)) := by
  rw [maskedPair, CoSnarkParty.publicKey, hX partyP.dhSecret partyV.dhSecret]
  refine Prod.ext ?_ rfl
  exact congrArg (fun s => zipBytes (· ^^^ ·) partyP.macShare (deriveMask s)) (hX _ _)

theorem zipBytes_xor_cancel (x y : Bytes32) :
    zipBytes (· ^^^ ·) (zipBytes (· ^^^ ·) x y) y = x := by
  refine Vector.ext fun i hi => ?_
  simp only [zipBytes, Vector.getElem_zipWith, UInt8.xor_assoc, UInt8.xor_self, UInt8.xor_zero]

/-- The masks cancel. -/
theorem zipBytes_maskedPair (p v mask : Bytes32) :
    zipBytes (· ^^^ ·) (maskedPair p v mask).1 (maskedPair p v mask).2 = xorShares p v := by
  refine Vector.ext fun i hi => ?_
  simp only [maskedPair, xorShares, zipBytes, Vector.getElem_zipWith]
  have hmask : mask[i] ^^^ mask[i] = 0 := UInt8.xor_self
  grind

theorem xor_moved {p v p' v' : UInt8} (h : p ^^^ v = p' ^^^ v') (mask : UInt8) :
    p ^^^ mask = p' ^^^ (mask ^^^ (p ^^^ p')) ∧ v ^^^ mask = v' ^^^ (mask ^^^ (p ^^^ p')) := by
  have hp : p ^^^ p = 0 := UInt8.xor_self
  have hp' : p' ^^^ p' = 0 := UInt8.xor_self
  grind

/-- **The masked bytes reveal the key only**: for other shares of the key the masks can be renamed,
one to one, such that the coordinator receives the same. -/
theorem masks_hide_shares (p v p' v' : Bytes32) (h : xorShares p v = xorShares p' v') :
    (∀ (X : X25519) (a b : X.EphemeralSecret), X.Commutes → receivedPair (X := X) ⟨a, p⟩ ⟨b, v⟩ =
        maskedPair p v (deriveMask (X.diffieHellman a (X.publicKey b)))) ∧
    ∃ rename : Bytes32 ≃ Bytes32, ∀ mask, maskedPair p v mask = maskedPair p' v' (rename mask) := by
  refine ⟨fun X a b hX => receivedPair_eq hX _ _, ?_⟩
  have hinvolutive : Function.Involutive fun mask => zipBytes (· ^^^ ·) mask (xorShares p p') :=
    fun mask => zipBytes_xor_cancel mask _
  have hbytes (mask : Bytes32) (i : ℕ) (hi : i < 32) :=
    xor_moved (by simpa [xorShares] using congrArg (·[i]) h) mask[i]
  refine ⟨hinvolutive.toPerm, fun mask => ?_⟩
  change _ = maskedPair p' v' (zipBytes (· ^^^ ·) mask (xorShares p p'))
  refine Prod.ext (Vector.ext fun i hi => ?_) (Vector.ext fun i hi => ?_)
  · simpa [maskedPair, xorShares] using (hbytes mask i hi).1
  · simpa [maskedPair, xorShares] using (hbytes mask i hi).2

def byteKeys : X25519 where
  EphemeralSecret := UInt8
  publicKey a := .replicate 32 a
  diffieHellman a p := .replicate 32 (a * p.toList.headD 0)

theorem commutes_byteKeys : byteKeys.Commutes :=
  fun a b => congrArg (Vector.replicate 32) (UInt8.mul_comm a b)

theorem masks_hide_swapped_shares :
    (∀ a b : UInt8, receivedPair (X := byteKeys) ⟨a, .replicate 32 1⟩ ⟨b, .replicate 32 2⟩ =
      maskedPair (.replicate 32 1) (.replicate 32 2)
        (deriveMask (byteKeys.diffieHellman a (byteKeys.publicKey b)))) ∧
    ∃ rename : Bytes32 ≃ Bytes32, ∀ mask, maskedPair (.replicate 32 1) (.replicate 32 2) mask =
        maskedPair (.replicate 32 2) (.replicate 32 1) (rename mask) := by
  obtain ⟨hrecv, hrename⟩ := masks_hide_shares (.replicate 32 1) (.replicate 32 2)
    (.replicate 32 2) (.replicate 32 1)
    (Vector.ext fun i hi => by simpa [xorShares] using UInt8.xor_comm 1 2)
  exact ⟨fun a b => hrecv byteKeys a b commutes_byteKeys, hrename⟩

/-! ### What the coordinator sends out -/

section

variable {G : Groth16 Fr} {X : X25519} {crs : G.ProvingKey}

/-- **The split execution is the first mode** for the key and zero. -/
theorem coSnarkExecuteSplit_eq (hX : X.Commutes) (crs : G.ProvingKey) (a b : X.EphemeralSecret)
    (p v rand : Bytes32) (ρ : G.Randomness) :
    coSnarkExecuteSplit G crs a b p v rand ρ = executeCircuit G crs
      (TlsPrfCircuit.new (xorShares p v) (.replicate 32 0) rand) none ρ := by
  have hkMac : zipBytes (· ^^^ ·) (receivedPair (X := X) ⟨a, p⟩ ⟨b, v⟩).1
      (receivedPair (X := X) ⟨a, p⟩ ⟨b, v⟩).2 = xorShares p v := by
    rw [receivedPair_eq hX, zipBytes_maskedPair]
  have hcomb : combineMacKeyShares (xorShares p v) (.replicate 32 0) = xorShares p v :=
    xorShares_zero _
  have hkey (party : CoSnarkParty X) (other : Bytes32) :
      (party.computeMaskedShare other).dhPublicKey = party.publicKey := rfl
  simp only [receivedPair] at hkMac
  simp only [coSnarkExecuteSplit, coSnarkCombine, executeCircuit, hkMac, hkey, ensure, if_true,
    TlsPrfCircuit.new, hcomb]
  rfl

/-- **The split execution and the direct one agree**: only the prover can fail, the assignment
satisfies the circuit, and the reports are the same. -/
theorem coSnarkExecuteSplit_agrees (hX : X.Commutes) (crs : G.ProvingKey)
    (a b : X.EphemeralSecret) (p v rand : Bytes32) (ρ ρ' : G.Randomness) :
    let circuit := TlsPrfCircuit.new (xorShares p v) (.replicate 32 0) rand
    let prove := G.createProof (discard circuit.generateConstraints) crs ρ
    (∃ cs, synthesize .prove (discard (circuit.generateConstraints (m := Synth Fr))) = .ok cs ∧
      cs.Satisfied) ∧
    (∀ e, coSnarkExecuteSplit G crs a b p v rand ρ = .error e →
      ∃ e', prove = .error e' ∧ e = .prove e'.display) ∧
    ∀ proof, coSnarkExecuteSplit G crs a b p v rand ρ = .ok proof → proof.kMac = xorShares p v ∧
      ∀ proof', coSnarkExecute G crs p v rand ρ' = .ok proof' →
        proof.kMac = proof'.kMac ∧ proof.kMacCommitmentBytes = proof'.kMacCommitmentBytes ∧
          proof.randBindingBytes = proof'.randBindingBytes := by
  intro circuit prove
  obtain ⟨-, cs, -, hcs, -, hsat, -⟩ := TlsPrfCircuit.exists_synthesize_new (xorShares p v)
    (.replicate 32 0) rand (.replicate 32 0) (.replicate 32 0) (.replicate 32 0)
  rw [coSnarkExecuteSplit_eq hX]
  refine ⟨⟨cs, hcs, hsat⟩, ?_, ?_⟩
  · intro e he
    change prove.mapError _ >>= _ = _ at he
    cases hprove : prove with
    | error e' =>
      rw [hprove] at he
      exact ⟨e', rfl, (Except.error.inj he).symm⟩
    | ok π =>
      rw [hprove] at he
      cases he
  · intro proof hproof
    simp only [executeCircuit, bind_eq_ok, mapError_eq_ok, pure_eq_ok] at hproof
    obtain ⟨π, -, rfl⟩ := hproof
    refine ⟨xorShares_zero _, fun proof' hproof' => ?_⟩
    simp only [coSnarkExecute, executeCircuit, bind_eq_ok, mapError_eq_ok, pure_eq_ok] at hproof'
    obtain ⟨π', -, rfl⟩ := hproof'
    refine ⟨xorShares_zero _, ?_, rfl⟩
    simp only [TlsPrfCircuit.new, xorShares_zero]

end

theorem coSnarkExecuteSplit_agrees_ideal :
    let share (b : UInt8) : Bytes32 := .replicate 32 b
    ∃ crs proof proof', coSnarkExecuteSplit (Groth16.ideal Fr) (X := byteKeys) crs (5 : UInt8)
        (7 : UInt8) (share 1) (share 2) (share 3) () = .ok proof ∧
      coSnarkExecute (Groth16.ideal Fr) crs (share 1) (share 2) (share 3) () = .ok proof' ∧
      proof.kMac = proof'.kMac ∧ proof.kMacCommitmentBytes = proof'.kMacCommitmentBytes ∧
      proof.randBindingBytes = proof'.randBindingBytes := by
  intro share
  obtain ⟨crs, proof', hcrs, hproof'⟩ := exists_coSnarkExecute_ideal (share 1) (share 2) (share 3)
  obtain ⟨crs', proof, hcrs', hproof⟩ :=
    exists_coSnarkExecute_ideal (xorShares (share 1) (share 2)) (.replicate 32 0) (share 3)
  obtain rfl : crs = crs' := Except.ok.inj (hcrs.symm.trans hcrs')
  have hsplit := (coSnarkExecuteSplit_eq (G := Groth16.ideal Fr) commutes_byteKeys crs (5 : UInt8)
    (7 : UInt8) (share 1) (share 2) (share 3) ()).trans hproof
  obtain ⟨-, -, hagrees⟩ := coSnarkExecuteSplit_agrees (G := Groth16.ideal Fr) commutes_byteKeys crs
    (5 : UInt8) (7 : UInt8) (share 1) (share 2) (share 3) () ()
  exact ⟨crs, proof, proof', hsplit, hproof', (hagrees proof hsplit).2 proof' hproof'⟩

end TlsAttestation.Zk
