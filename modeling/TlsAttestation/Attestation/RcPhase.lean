import TlsAttestation.Attestation.Session
import TlsAttestation.Crypto.DkgSecp256k1
import TlsAttestation.Lib.FrostSigning
import TlsAttestation.Lib.PedersenDkg
import Mathlib.Data.List.Perm.Basic

/-!
# The randomness phase

`tls_attestation_attestation::rc_phase`: key generation, partial evaluations, and their combination.
**The order of arrival does not matter** (`RcPhaseOrchestrator.combinesInAnyOrder_iff`). Without
participants `RcPhaseOrchestrator.combine` panics.
-/

namespace TlsAttestation

open ByteEncoding Collect Fallible Frost List Secp256k1Dvrf

structure RcPhaseParams where
  alpha : DigestBytes
deriving DecidableEq

structure RcPhaseOutput where
  rand : DigestBytes
  dvrfOutput : Secp256k1DvrfOutput
  alpha : DigestBytes
deriving DecidableEq

structure RcPartialEval (F G : Type) [Zero F] where
  verifierId : VerifierId
  inner : Secp256k1PartialEval F G
deriving DecidableEq

/-- All key shares of a group, in one process. -/
structure RcPhaseOrchestrator (F G : Type) [Zero F] where
  dkgOutputs : List (Secp256k1DkgParticipantOutput F G)
  verifierIds : List VerifierId
  threshold : ℕ

section

variable {F G : Type} [Field F] [AddCommGroup G] [Module F G] [DecidableEq F] [DecidableEq G]

namespace RcPhaseOrchestrator

/-- Every verifier gets its key share from a key generation in this process. -/
def runDkg (D : Secp256k1DkgCrates F G) (verifierIds : List VerifierId) (threshold : ℕ)
    (random : ℕ → D.Random) : Except (Stop AttestationError) (RcPhaseOrchestrator F G) := do
  let dkgOutputs ← (runSecp256k1Dkg D verifierIds threshold random).mapError
    (Stop.map fun e => .crypto e.display)
  return ⟨dkgOutputs, verifierIds, threshold⟩

omit [DecidableEq G] in
theorem runDkg_eq_ok {D : Secp256k1DkgCrates F G} {verifierIds : List VerifierId} {threshold : ℕ}
    {random : ℕ → D.Random} {o : RcPhaseOrchestrator F G}
    (h : runDkg D verifierIds threshold random = .ok o) :
    o.verifierIds = verifierIds ∧ o.threshold = threshold := by
  simp only [runDkg, do_eq_ok] at h
  obtain ⟨outputs, -, rfl⟩ := h
  exact ⟨rfl, rfl⟩

variable (C : Secp256k1Crates F G) (o : RcPhaseOrchestrator F G)

def groupKey : Except (Stop AttestationError) (Secp256k1GroupKey F G) := do
  let out ← elementAt o.dkgOutputs 0
  return out.groupKey

/-- Round one at a position; an index out of range panics. -/
def partialEval (participantIndex : ℕ) (params : RcPhaseParams) :
    Except (Stop AttestationError) (RcPartialEval F G) := do
  let out ← elementAt o.dkgOutputs participantIndex
  let inner ← (Secp256k1Dvrf.partialEval C out.participant ⟨params.alpha⟩).mapError fun e =>
    .error (.crypto e.display)
  let verifierId ← elementAt o.verifierIds participantIndex
  return ⟨verifierId, inner⟩

def participantRefs (partialEvals : List (RcPartialEval F G)) :
    Except (Stop AttestationError) (List (Secp256k1FrostParticipant F G)) :=
  (partialEvals.filterMap fun pe => o.verifierIds.idxOf? pe.verifierId).mapM fun i => do
    let out ← elementAt o.dkgOutputs i
    return out.participant

/-- The randomness of enough partial evaluations, under the group key of the first output. -/
def combine (params : RcPhaseParams) (partialEvals : List (RcPartialEval F G)) :
    Except (Stop AttestationError) RcPhaseOutput := do
  ensure (o.threshold ≤ partialEvals.length) (.error (.crypto
    s!"RC Phase Combine: need {o.threshold} partial evals, got {partialEvals.length}"))
  let groupKey ← o.groupKey
  let participantRefs ← o.participantRefs partialEvals
  let dvrfOutput ← (Secp256k1Dvrf.combine C groupKey ⟨params.alpha⟩
    (partialEvals.map RcPartialEval.inner) participantRefs).mapError fun e =>
      .error (.crypto e.display)
  return ⟨dvrfOutput.rand, dvrfOutput, params.alpha⟩

end RcPhaseOrchestrator

/-- Anybody can verify an output: the key is in it. -/
def rcPhaseVerify (C : Secp256k1Crates F G) (output : RcPhaseOutput) :
    Except AttestationError Unit :=
  (verify C ⟨output.alpha⟩ output.dvrfOutput).mapError fun e =>
    .crypto s!"DVRF.Verify failed: {e.display}"

namespace RcPhaseOrchestrator

variable (C : Secp256k1Crates F G) (o : RcPhaseOrchestrator F G) (params : RcPhaseParams)

/-! ### What is assumed of FROST -/

/-- The outputs are shares of one secret, of a threshold cast to 16 bits, and under different
identifiers. -/
structure FrostCorrect : Prop where
  keys : ∀ out ∈ o.dkgOutputs, KeyGroup C.toCiphersuite out.groupKey.pubKeyPackage
    (o.threshold % 2 ^ 16) {key | ∃ out' ∈ o.dkgOutputs, out'.participant.keyPackage = key}
  identifiers : (o.dkgOutputs.map fun out => out.participant.keyPackage.identifier).Nodup

/-- **No neutral element turns up**, as the key or in the commitments. -/
structure NoNeutral (partialEvals : List (RcPartialEval F G)) : Prop where
  key : ∀ out ∈ o.dkgOutputs, out.groupKey.pubKeyPackage.verifyingKey ≠ 0
  nonces : ∀ pe ∈ partialEvals, pe.inner.nonces.hidingNonce ≠ 0 ∧ pe.inner.nonces.bindingNonce ≠ 0
  commitment : ∀ out ∈ o.dkgOutputs, C.groupCommitment out.groupKey.pubKeyPackage.verifyingKey
    (combinePackage ⟨params.alpha⟩ (partialEvals.map RcPartialEval.inner)) ≠ .ok 0

/-- Enough partial evaluations are combined to an output that is verified, the same in any order. -/
def CombinesInAnyOrder : Prop :=
  ∀ (indices : List ℕ) (partialEvals : List (RcPartialEval F G)), indices.Nodup →
    o.threshold ≤ indices.length →
    indices.mapM (fun i => o.partialEval C i params) = .ok partialEvals →
    o.NoNeutral C params partialEvals →
    ∃ output, o.combine C params partialEvals = .ok output ∧ rcPhaseVerify C output = .ok () ∧
      ∀ partialEvals', partialEvals'.Perm partialEvals →
        o.combine C params partialEvals' = .ok output

/-! ### Signers -/

/-- A partial evaluation, and the result of key generation for it. -/
abbrev Entry (F G : Type) [Zero F] :=
  RcPartialEval F G × Secp256k1DkgParticipantOutput F G

def Entry.signer (e : Entry F G) : Frost.Signer F G :=
  ⟨e.2.participant.keyPackage, e.1.inner.nonces⟩

def Obtained (e : Entry F G) : Prop :=
  ∃ i : ℕ, o.dkgOutputs[i]? = some e.2 ∧ o.verifierIds[i]? = some e.1.verifierId ∧
    e.1.inner.commitment = ⟨e.signer.key.identifier, C.commitments e.signer.nonces⟩

variable {C o params} {partialEvals : List (RcPartialEval F G)} {entries : List (Entry F G)}

omit [DecidableEq F] [DecidableEq G] in
theorem partialEval_eq_ok {i : ℕ} {pe : RcPartialEval F G} (h : o.partialEval C i params = .ok pe) :
    ∃ out, o.dkgOutputs[i]? = some out ∧ Obtained C o (pe, out) := by
  simp only [partialEval, Secp256k1Dvrf.partialEval, elementAt, do_eq_ok, Except.ok.injEq] at h
  obtain ⟨out, hout, _, rfl, verifierId, hid, rfl⟩ := h
  exact ⟨out, hout, i, hout, hid, rfl⟩

omit [DecidableEq F] [DecidableEq G] in
theorem exists_entries {indices : List ℕ}
    (h : indices.mapM (fun i => o.partialEval C i params) = .ok partialEvals) :
    ∃ entries : List (Entry F G), entries.map Prod.fst = partialEvals ∧
      (∀ e ∈ entries, Obtained C o e) ∧
      indices.map (fun i => o.dkgOutputs[i]?) = entries.map fun e => some e.2 := by
  rw [mapM_eq_ok] at h
  induction h with
  | nil => exact ⟨[], rfl, by simp, rfl⟩
  | @cons i pe indices partialEvals hpe _ ih =>
    obtain ⟨entries, rfl, hobt, houts⟩ := ih
    obtain ⟨out, hout, he⟩ := partialEval_eq_ok hpe
    refine ⟨(pe, out) :: entries, rfl, forall_mem_cons.2 ⟨he, hobt⟩, ?_⟩
    rw [map_cons, map_cons, hout, houts]

omit [DecidableEq F] [DecidableEq G] in
theorem nodup_signers (hfrost : o.FrostCorrect C) {indices : List ℕ} (hindices : indices.Nodup)
    (h : indices.map (fun i => o.dkgOutputs[i]?) = entries.map fun e => some e.2) :
    ((entries.map Entry.signer).map fun s => s.key.identifier).Nodup := by
  have hids : indices.map (fun i =>
      (o.dkgOutputs.map fun out => out.participant.keyPackage.identifier)[i]?) =
      ((entries.map Entry.signer).map fun s => s.key.identifier).map some := by
    have := congrArg (List.map (Option.map fun out => out.participant.keyPackage.identifier)) h
    simp only [map_map, Function.comp_def, Option.map_some] at this
    simp only [map_map, List.getElem?_map]
    exact this
  refine List.Nodup.of_map some ?_
  rw [← hids]
  refine hindices.map_on fun i hi j _ hij => ?_
  have hi' := mem_map_of_mem (f := fun i => o.dkgOutputs[i]?) hi
  rw [h] at hi'
  obtain ⟨e, -, he⟩ := mem_map.1 hi'
  obtain ⟨hlt, -⟩ := List.getElem?_eq_some_iff.1 he.symm
  exact (List.getElem?_inj (by rwa [length_map]) hfrost.identifiers).1 hij

/-! ### The combination of honest partial evaluations -/

omit [DecidableEq F] [DecidableEq G] in
theorem participantRefs_eq_ok (hids : o.verifierIds.Nodup) (h : ∀ e ∈ entries, Obtained C o e) :
    o.participantRefs (entries.map Prod.fst) = .ok (entries.map fun e => e.2.participant) := by
  have hindex : ∀ e ∈ entries, ∃ i, o.verifierIds.idxOf? e.1.verifierId = some i ∧
      o.dkgOutputs[i]? = some e.2 := by
    intro e he
    obtain ⟨i, hout, hid, -⟩ := h e he
    obtain ⟨hlt, hid⟩ := List.getElem?_eq_some_iff.1 hid
    refine ⟨i, List.idxOf?_eq_some_iff.2 ⟨hlt, hid, fun j hj hji => ?_⟩, hout⟩
    exact hj.ne ((hids.getElem_inj_iff).1 (hji.trans hid.symm))
  clear h
  induction entries with
  | nil => rfl
  | cons e entries ih =>
    obtain ⟨i, hi, hout⟩ := hindex e mem_cons_self
    have ih := ih fun e he => hindex e (mem_cons_of_mem _ he)
    unfold participantRefs at ih ⊢
    simp only [map_cons, filterMap_cons, hi, mapM_cons, do_eq_ok, elementAt]
    exact ⟨_, ⟨e.2, hout, rfl⟩, _, ih, rfl⟩

omit [DecidableEq G] in
theorem combinePackage_eq (h : ∀ e ∈ entries, Obtained C o e) :
    combinePackage ⟨params.alpha⟩ ((entries.map Prod.fst).map RcPartialEval.inner) =
      C.signerPackage (entries.map Entry.signer) params.alpha.asBytes.toList := by
  rw [combinePackage, secp256k1BuildSigningPackage, Ciphersuite.signerPackage]
  simp only [map_map]
  refine congrArg (SigningPackage.mk · _) (congrArg collect (map_congr_left fun e he => ?_))
  obtain ⟨_, _, _, hcomm⟩ := h e he
  simp only [Function.comp, hcomm]

variable (C params) in
def outputOf (k : Secp256k1GroupKey F G) (sig : Frost.Signature F G) : RcPhaseOutput :=
  let sigma := C.serializeSignature sig
  let rand := deriveRand sigma
  ⟨rand, ⟨rand, ⟨sigma, k.verifyingKeyBytes C⟩⟩, params.alpha⟩

theorem combine_eq_ok {k : Secp256k1GroupKey F G} (hkey : o.groupKey = .ok k)
    (hids : o.verifierIds.Nodup) (hlen : o.threshold ≤ entries.length)
    (h : ∀ e ∈ entries, Obtained C o e)
    (hhonest : HonestSigners C.toCiphersuite k.pubKeyPackage (entries.map Entry.signer))
    {sig : Frost.Signature F G} (hsig : C.groupSignature k.pubKeyPackage.verifyingKey
      (entries.map Entry.signer) params.alpha.asBytes.toList = sig) (hR : sig.R ≠ 0) :
    o.combine C params (entries.map Prod.fst) = .ok (outputOf C params k sig) := by
  have hshares : Secp256k1Dvrf.round2Shares C (entries.map fun e => e.2.participant)
      ((entries.map Prod.fst).map RcPartialEval.inner)
      (C.signerPackage (entries.map Entry.signer) params.alpha.asBytes.toList) =
      .ok ((entries.map Entry.signer).map fun s => ⟨s.key.identifier, C.shareOf
        k.pubKeyPackage.verifyingKey
          (entries.map Entry.signer) params.alpha.asBytes.toList s⟩) := by
    rw [Secp256k1Dvrf.round2Shares, map_map, map_map, zip_map', mapM_eq_ok,
      forall₂_map_left_iff, forall₂_map_right_iff, forall₂_same]
    intro e he
    simp only [Secp256k1Dvrf.round2Share, Secp256k1FrostParticipant.round2, do_eq_ok]
    exact ⟨_, C.sign_honest hhonest (mem_map_of_mem he), rfl⟩
  have hagg := C.aggregate_honest (m := params.alpha.asBytes.toList) hhonest
  simp only [combine, Secp256k1Dvrf.combine, secp256k1AggregateSignatureShares, do_eq_ok,
    exists_const, combinePackage_eq h, participantRefs_eq_ok hids h, hkey, Except.ok.injEq,
    length_map, hlen, true_and]
  refine ⟨_, rfl, _, rfl, _, ⟨_, hshares, _, ⟨sig, ?_, hR, rfl⟩, rfl⟩, rfl⟩
  rw [map_map, ← hsig]
  exact hagg

/-- **The output verifies**, unless the key is neutral. -/
theorem rcPhaseVerify_outputOf {k : Secp256k1GroupKey F G} {signers : List (Frost.Signer F G)}
    (hhonest : HonestSigners C.toCiphersuite k.pubKeyPackage signers)
    (hkey : k.pubKeyPackage.verifyingKey ≠ 0) {sig : Frost.Signature F G}
    (hsig : C.groupSignature k.pubKeyPackage.verifyingKey signers params.alpha.asBytes.toList = sig)
    (hR : sig.R ≠ 0) :
    rcPhaseVerify C (outputOf C params k sig) = .ok () := by
  have hver := C.verify_of_aggregate_eq_ok
    (C.aggregate_honest (m := params.alpha.asBytes.toList) hhonest)
  rw [hsig] at hver
  simp only [rcPhaseVerify, verify, secp256k1VerifyApproval, do_eq_ok, outputOf,
    Secp256k1GroupKey.verifyingKeyBytes, if_neg hkey]
  exact ⟨(), ⟨_, (C.deserializeElement_eq_ok _ _).2 ⟨hkey, rfl⟩, sig,
    C.deserializeSignature_eq_ok.2 ⟨hR, rfl⟩, hver⟩, trivial⟩

variable {out : Secp256k1DkgParticipantOutput F G}

omit [DecidableEq F] [DecidableEq G] in
theorem honestSigners (hfrost : o.FrostCorrect C)
    (hout : out ∈ o.dkgOutputs) (hobt : ∀ e ∈ entries, Obtained C o e)
    (hnodup : ((entries.map Entry.signer).map fun s => s.key.identifier).Nodup)
    (hlen : o.threshold ≤ entries.length)
    (hnonces : ∀ e ∈ entries, e.1.inner.nonces.hidingNonce ≠ 0 ∧
      e.1.inner.nonces.bindingNonce ≠ 0) :
    HonestSigners C.toCiphersuite out.groupKey.pubKeyPackage (entries.map Entry.signer) := by
  refine ⟨hnodup, ⟨o.threshold % 2 ^ 16, ?_, (hfrost.keys out hout).mono ?_⟩, ?_⟩
  · rw [length_map]
    exact (Nat.mod_le _ _).trans hlen
  · rintro _ ⟨_, hs, rfl⟩
    obtain ⟨e, he, rfl⟩ := mem_map.1 hs
    obtain ⟨i, hi, -⟩ := hobt e he
    exact ⟨e.2, mem_of_getElem? hi, rfl⟩
  · intro _ hs
    obtain ⟨e, he, rfl⟩ := mem_map.1 hs
    exact hnonces e he

theorem combinesInAnyOrder (hids : o.verifierIds.Nodup) (hfrost : o.FrostCorrect C)
    (hout : o.dkgOutputs[0]? = some out) :
    o.CombinesInAnyOrder C params := by
  intro indices partialEvals hindices hthr h hneutral
  obtain ⟨entries, rfl, hobt, houts⟩ := exists_entries h
  have hlen : o.threshold ≤ entries.length := by
    have := congrArg List.length houts
    rw [length_map, length_map] at this
    omega
  have hmem := mem_of_getElem? hout
  have hkey : o.groupKey = .ok out.groupKey := by
    simp only [groupKey, elementAt, do_eq_ok]
    exact ⟨out, hout, rfl⟩
  have hnodup := nodup_signers hfrost hindices houts
  have hhonest := honestSigners hfrost hmem hobt hnodup hlen fun e he =>
    hneutral.nonces e.1 (mem_map_of_mem he)
  have hR := hneutral.commitment out hmem
  rw [combinePackage_eq hobt, C.groupCommitment_signerPackage hhonest.nodup hhonest.nonces] at hR
  have hR := fun h0 => hR (congrArg Except.ok h0)
  refine ⟨_, combine_eq_ok hkey hids hlen hobt hhonest rfl hR,
    rcPhaseVerify_outputOf hhonest (hneutral.key out hmem) rfl hR, fun partialEvals' hperm => ?_⟩
  -- a permutation of the partial evaluations is one of the participants
  obtain ⟨entries', hentries', hperm'⟩ := perm_comp_forall₂ hperm
    (forall₂_map_left_iff.2 (forall₂_same.2 fun e _ => rfl) :
      Forall₂ (fun pe (e : Entry F G) => e.1 = pe) (entries.map Prod.fst) entries)
  have hpartial : entries'.map Prod.fst = partialEvals' := by
    rw [← forall₂_eq_eq_eq, forall₂_map_left_iff]
    exact hentries'.flip
  have hobtained' : ∀ e ∈ entries', Obtained C o e := fun e he => hobt e (hperm'.subset he)
  have hsigners := hperm'.map Entry.signer
  rw [← hpartial]
  exact combine_eq_ok hkey hids (hperm'.length_eq ▸ hlen) hobtained' (hhonest.perm hsigners)
    (C.groupSignature_perm hnodup hsigners.symm _).symm hR

/-- **The order does not matter**, unless nobody took part and nobody is needed. -/
theorem combinesInAnyOrder_iff (hids : o.verifierIds.Nodup) (hfrost : o.FrostCorrect C)
    (params : RcPhaseParams) :
    o.CombinesInAnyOrder C params ↔ ¬ (o.threshold = 0 ∧ o.dkgOutputs = []) := by
  rcases houtputs : o.dkgOutputs with _ | ⟨out, outputs⟩
  · constructor
    · rintro h ⟨hthr, -⟩
      obtain ⟨output, houtput, -⟩ := h [] [] List.nodup_nil hthr.le rfl
        ⟨by simp [houtputs], by simp, by simp [houtputs]⟩
      -- there is no group key to look up
      simp [combine, groupKey, elementAt, houtputs] at houtput
    · intro hthr indices partialEvals _ hindices h
      rcases indices with _ | ⟨i, indices⟩
      · exact absurd ⟨Nat.le_zero.1 hindices, rfl⟩ hthr
      · -- nobody can be asked for a partial evaluation
        simp [partialEval, elementAt, houtputs] at h
  · have hout : o.dkgOutputs[0]? = some out := by simp [houtputs]
    exact iff_of_true (combinesInAnyOrder hids hfrost hout) (by simp)

end RcPhaseOrchestrator

end

/-! ### A small group -/

def toyDkgCrates : Secp256k1DkgCrates Toy Toy where
  toCiphersuite := toySuite 32 31
  stdRng seed := (seed, seed.map (· + 1))
  identifierTryFrom n :=
    if h : (n.toNat : Toy) ≠ 0 then .ok ⟨n.toNat, h⟩ else .error "Malformed identifier."
  identifierOrder := LinearOrder.lift' (fun id => id.1.val)
    ((ZMod.val_injective 101).comp Subtype.val_injective)
  Random := ℕ → Toy
  Round1Secret := PedersenDkg.Round1Secret Toy Toy
  Round1Package := PedersenDkg.Round1Package Toy Toy
  Round2Secret := PedersenDkg.Round2Secret Toy Toy
  Round2Package := Toy
  part1 id maxSigners minSigners :=
    PedersenDkg.part1 ⟨1, fun id R Y => id + R + (Y + Y)⟩ id maxSigners.toNat minSigners.toNat
  part2 := PedersenDkg.part2 ⟨1, fun id R Y => id + R + (Y + Y)⟩
  part3 := PedersenDkg.part3 ⟨1, fun id R Y => id + R + (Y + Y)⟩

namespace RcPhaseOrchestrator

def toyParams : RcPhaseParams := ⟨.zero⟩

def toyVerifierIds : List VerifierId :=
  [⟨.replicate 32 1⟩, ⟨.replicate 32 2⟩, ⟨.replicate 32 3⟩]

theorem nodup_toyVerifierIds : toyVerifierIds.Nodup := by decide

def toyRandom (i k : ℕ) : Toy := (i + 3 * k + 2 : ℕ)

def OnLine (o : RcPhaseOrchestrator Toy Toy) : Prop :=
  (o.dkgOutputs.map fun out => out.participant.keyPackage.identifier).Nodup ∧
    ∀ out ∈ o.dkgOutputs, out.groupKey.pubKeyPackage.verifyingKey = 9 ∧
      ∀ key ∈ o.dkgOutputs.map (·.participant.keyPackage),
        key.signingShare = 18 * (key.identifier : Toy) + 9 ∧ key.verifyingKey = 9 ∧
        key.minSigners = 2 ∧
        (out.groupKey.pubKeyPackage.verifyingShares.lookup key.identifier).isSome

instance (o : RcPhaseOrchestrator Toy Toy) : Decidable (OnLine o) :=
  inferInstanceAs (Decidable (_ ∧ _))

theorem nine_eq_smul_base : (9 : Toy) = (9 : Toy) • toyDkgCrates.base := by decide

theorem frostCorrect_of_onLine {o : RcPhaseOrchestrator Toy Toy} (h : OnLine o)
    (hthr : o.threshold % 2 ^ 16 = 2) : o.FrostCorrect toyDkgCrates.toSecp256k1Crates := by
  refine ⟨fun out hout => ?_, h.1⟩
  obtain ⟨hkey, hkeys⟩ := h.2 out hout
  rw [hthr]
  constructor
  · exact ⟨_, 9, isShared_line 18 9, hkey.trans nine_eq_smul_base, fun key hmem =>
      (hkeys key (mem_map.2 hmem)).1⟩
  · intro key hmem
    rw [(hkeys key (mem_map.2 hmem)).2.1, hkey]
  · exact fun key hmem => (hkeys key (mem_map.2 hmem)).2.2.1
  · exact fun key hmem => Finmap.lookup_isSome.1 (hkeys key (mem_map.2 hmem)).2.2.2

def toyRun : Except (Stop AttestationError)
    (RcPhaseOrchestrator Toy Toy × List (RcPartialEval Toy Toy)) := do
  let o ← runDkg toyDkgCrates toyVerifierIds 2 toyRandom
  let partialEvals ← [0, 1].mapM fun i => o.partialEval toyDkgCrates.toSecp256k1Crates i toyParams
  return (o, partialEvals)

def ToyNonzero (partialEvals : List (RcPartialEval Toy Toy)) : Prop :=
  (∀ pe ∈ partialEvals, pe.inner.nonces.hidingNonce ≠ 0 ∧ pe.inner.nonces.bindingNonce ≠ 0) ∧
    (toyDkgCrates.groupCommitment 9 (combinePackage ⟨toyParams.alpha⟩
      (partialEvals.map RcPartialEval.inner))).toOption ≠ some 0

instance (partialEvals : List (RcPartialEval Toy Toy)) : Decidable (ToyNonzero partialEvals) :=
  inferInstanceAs (Decidable (_ ∧ _))

set_option maxRecDepth 100000 in
theorem exists_toyRun : ∃ r, toyRun = .ok r ∧ OnLine r.1 ∧ ToyNonzero r.2 := by
  have hrun : toyRun.toOption.any fun r => OnLine r.1 ∧ ToyNonzero r.2 := by decide +kernel
  obtain ⟨r, hr, hgood⟩ := exists_ok_of_any hrun
  exact ⟨r, hr, of_decide_eq_true hgood⟩

theorem combinesInAnyOrder_toyRun : ∃ o partialEvals output, toyRun = .ok (o, partialEvals) ∧
    o.combine toyDkgCrates.toSecp256k1Crates toyParams partialEvals = .ok output ∧
    o.combine toyDkgCrates.toSecp256k1Crates toyParams partialEvals.reverse = .ok output ∧
    rcPhaseVerify toyDkgCrates.toSecp256k1Crates output = .ok () := by
  obtain ⟨⟨o, partialEvals⟩, hrun, hline, hnonces, hR⟩ := exists_toyRun
  have hsteps := hrun
  simp only [toyRun, bind_eq_ok, pure_eq_ok, Prod.mk.injEq] at hsteps
  obtain ⟨o, ho, partialEvals, hpartialEvals, rfl, rfl⟩ := hsteps
  obtain ⟨hids, hthr⟩ := runDkg_eq_ok ho
  have hcombines := (combinesInAnyOrder_iff (hids ▸ nodup_toyVerifierIds)
    (frostCorrect_of_onLine hline (by rw [hthr]; rfl)) toyParams).2 (by simp [hthr])
  have hneutral : NoNeutral toyDkgCrates.toSecp256k1Crates o toyParams partialEvals := by
    refine ⟨fun out hout => ?_, hnonces, fun out hout h => hR ?_⟩
    · rw [(hline.2 out hout).1]
      decide
    · rw [← (hline.2 out hout).1]
      exact congrArg Except.toOption h
  obtain ⟨output, houtput, hver, hperm⟩ :=
    hcombines [0, 1] partialEvals (by decide) hthr.le hpartialEvals hneutral
  exact ⟨o, partialEvals, output, hrun, houtput, hperm _ (List.reverse_perm _), hver⟩

theorem not_combinesInAnyOrder_nobody : ∃ o, runDkg toyDkgCrates [] 0 toyRandom = .ok o ∧
    o.verifierIds.Nodup ∧ o.FrostCorrect toyDkgCrates.toSecp256k1Crates ∧
    o.combine toyDkgCrates.toSecp256k1Crates toyParams [] =
      .error (.panic "index out of bounds: the len is 0 but the index is 0") ∧
    ¬ o.CombinesInAnyOrder toyDkgCrates.toSecp256k1Crates toyParams := by
  refine ⟨⟨[], [], 0⟩, rfl, List.nodup_nil, ⟨by simp, List.nodup_nil⟩, rfl, fun h => ?_⟩
  obtain ⟨output, houtput, -⟩ := h [] [] List.nodup_nil le_rfl rfl ⟨by simp, by simp, by simp⟩
  cases houtput

end RcPhaseOrchestrator

end TlsAttestation
