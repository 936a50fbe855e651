import TlsAttestation.Lib.BitRows
import TlsAttestation.Lib.Proving
import TlsAttestation.Zk.CoSnark

/-!
# Completeness of the handshake proof

The rows do not depend on the shares (`Zk.TlsPrfCircuit.run_generateConstraints`), the prover's own
values satisfy the Boolean ones (`Zk.TlsPrfCircuit.exists_reached`), and the verifier reads the
inputs of the prover (`Zk.coSnarkVerify_of_mode1`). A proof of the second mode is refused by a
verifier that was not told which digest to expect (`Zk.coSnarkVerify_of_mode2`), and by all if the
shares are not of the derived key (`Zk.coSnarkVerify_mode2_iff`).
-/

namespace TlsAttestation.Zk

open Ark ByteEncoding Coupling Fallible Groth16
open List hiding Vector

open Ark.Bn254 (Fr r)

/-! ### The rows -/

namespace TlsPrfCircuit

theorem zip_forall₂ {α β γ δ : Type} {R : α → β → Prop} {S : γ → δ → Prop} {as : List α}
    {bs : List β} {cs : List γ} {ds : List δ} (h : Forall₂ R as bs) (h' : Forall₂ S cs ds) :
    Forall₂ (fun x y => R x.1 y.1 ∧ S x.2 y.2) (as.zip cs) (bs.zip ds) := by
  refine forall₂_iff_get.2 ⟨by simp [h.length_eq, h'.length_eq], fun i hi hi' => ?_⟩
  simp only [get_eq_getElem, getElem_zip]
  exact ⟨h.get _ _, h'.get _ _⟩

section

variable {μ μ' : SynthesisMode} (C : Coupling Fr μ μ')

theorem run_newWitnessBytes (bs bs' : Bytes) (hlen : bs.length = bs'.length) :
    C.simulation.Run (fun xs ys => C.simulation.BytesRel xs ys ∧ xs.length = bs.length)
      (newWitnessBytes bs : Synth Fr _) (newWitnessBytes bs' : Synth Fr _) := by
  induction bs generalizing bs' with
  | nil =>
    obtain rfl := length_eq_zero_iff.1 hlen.symm
    exact C.seq.pure ⟨.nil, rfl⟩
  | cons b bs ih =>
    cases bs' with
    | nil => exact absurd hlen (by simp)
    | cons b' bs' =>
      rw [newWitnessBytes, newWitnessBytes, mapM_cons, mapM_cons]
      exact C.seq.bind (run_newWitnessBits _ _) fun _ _ hx =>
        C.seq.bind (ih _ (Nat.succ.inj hlen)) fun _ _ hxs =>
        C.seq.pure ⟨.cons hx hxs.1, congrArg (· + 1) hxs.2⟩

theorem run_newWitnessBytes32 (q q' : Bytes32) :
    C.simulation.Run C.simulation.BytesRel (newWitnessBytes q.toList : Synth Fr _)
      (newWitnessBytes q'.toList : Synth Fr _) :=
  C.seq.mapM (R := fun _ _ => True) (fun _ _ _ => run_newWitnessBits _ _)
    (forall₂_iff_get.2 ⟨by simp, fun _ _ _ => trivial⟩)

variable {C}

theorem rel_packBytesToFpvar {xs ys : List (UInt8Var Boolean)} (h : C.simulation.BytesRel xs ys) :
    C.FpRel (packBytesToFpvar (Synth Fr) xs) (packBytesToFpvar (Synth Fr) ys) :=
  rel_leBitsToFp (forall₂_take 254 (rel_flatMap h fun _ _ hx => hx.toList))

theorem run_generatePrfConstraints {cmt rb cmt' rb' : LinComb Fr}
    (hcmt : C.FpRel cmt cmt') (hrb : C.FpRel rb rb') {pms pms' : Bytes}
    (hlen : pms.length = pms'.length) (hshort : pms.length ≤ 64) (cr sr cr' sr' : Bytes32)
    (h h' : Fr) :
    C.simulation.Run (fun _ _ => True) (generatePrfConstraints cmt rb pms cr sr h : Synth Fr _)
      (generatePrfConstraints cmt' rb' pms' cr' sr' h' : Synth Fr _) := by
  have hcr := run_newWitnessBytes32 C cr cr'
  have hsr := run_newWitnessBytes32 C sr sr'
  refine C.seq.bind (run_fpNewInput _ _) fun _ _ hexp => ?_
  refine C.seq.bind (run_newWitnessBytes C _ _ hlen) fun pmsVars pmsVars' hpms => ?_
  refine C.seq.bind (simulate_sha256FromByteVars C.simulation hpms.1) fun _ _ hhash => ?_
  refine C.seq.bind (run_fpEnforceEqual (rel_packBytesToFpvar hhash) hexp) fun _ _ _ => ?_
  refine C.seq.bind (simulate_tls12MasterSecretConstrained C.simulation hpms.1
    (.inl (hpms.2.trans_le hshort)) hcr hsr) fun _ _ hms => ?_
  refine C.seq.bind (simulate_tls12KeyExpansionConstrained C.simulation hms.1
    (.inl (hms.2.trans (by decide))) hcr hsr) fun _ _ hkb => ?_
  refine C.seq.bind (run_fpEnforceEqual (rel_append
    (rel_packBytesToFpvar (forall₂_take 32 hkb)) hrb) hcmt) fun _ _ _ => ?_
  exact C.seq.pure trivial

/-- The rows depend on the mode and on the length of the premaster secret, if it fits a block. -/
def SameShape (c c' : TlsPrfCircuit) : Prop :=
  Option.Rel (fun i i' => i.1.length = i'.1.length ∧ i.1.length ≤ 64) c.prfInputs c'.prfInputs

/-- Circuits of the same shape do the same. -/
theorem run_generateConstraints {c c' : TlsPrfCircuit} (h : SameShape c c') :
    C.simulation.Run (fun _ _ => True) (c.generateConstraints : Synth Fr _)
      (c'.generateConstraints : Synth Fr _) := by
  refine C.seq.bind (run_fpNewInput _ _) fun _ _ hcomm => ?_
  refine C.seq.bind (run_fpNewInput _ _) fun _ _ hrand => ?_
  refine C.seq.bind (run_newWitnessBytes32 C _ _) fun _ _ hp => ?_
  refine C.seq.bind (run_newWitnessBytes32 C _ _) fun _ _ hv => ?_
  refine C.seq.bind (C.seq.mapM (fun pv pv' h => C.simulation.xorBits h.1 h.2)
    (zip_forall₂ hp hv)) fun _ _ hxor => ?_
  refine C.seq.bind (run_fpEnforceEqual
    (rel_append (rel_packBytesToFpvar hxor) hrand) hcomm) fun _ _ _ => ?_
  unfold SameShape at h
  generalize c.prfInputs = inputs at h ⊢
  generalize c'.prfInputs = inputs' at h ⊢
  cases h with
  | none => exact C.seq.pure trivial
  | some hlen =>
    exact C.seq.bind (run_generatePrfConstraints hcomm hrand hlen.1 hlen.2 _ _ _ _ _ _)
      fun _ _ _ => C.seq.pure trivial

theorem exists_synthesize_of_sameShape {c c' : TlsPrfCircuit} (h : SameShape c c') :
    ∃ cs cs₀ : ConstraintSystem Fr, synthesize .prove (discard c.generateConstraints) = .ok cs ∧
      synthesize .setup (discard c'.generateConstraints) = .ok cs₀ ∧
      cs.toMatrices = cs₀.toMatrices :=
  exists_synthesize (run_generateConstraints (C := sameRows Fr .prove .setup) h)

end

/-! ### The prover's own values -/

theorem forget_generateConstraints (c : TlsPrfCircuit) :
    (forget Fr).Run (fun _ _ => True) (c.generateConstraints : Keeping Fr _)
      (c.generateConstraints : Synth Fr _) := by
  have hinput (x : Fr) : (forget Fr).Run Eq (Gadgets.fpNewInput x : Keeping Fr _)
      (Gadgets.fpNewInput x : Synth Fr _) := fun _ a _ h => ⟨a, h, rfl⟩
  have hequal (x y : LinComb Fr) : (forget Fr).Run Eq
      (Gadgets.fpEnforceEqual x y : Keeping Fr _) (Gadgets.fpEnforceEqual x y : Synth Fr _) :=
    fun _ a _ h => ⟨a, h, rfl⟩
  have hbytes := forget_newWitnessBytes (F := Fr)
  refine (forget Fr).bind (hinput _) ?_
  rintro cmt _ rfl
  refine (forget Fr).bind (hinput _) ?_
  rintro rb _ rfl
  refine (forget Fr).bind (hbytes _) fun _ _ hp => (forget Fr).bind (hbytes _) fun _ _ hv =>
    (forget Fr).bind ((forget Fr).mapM (fun pv pv' h => (forget Fr).xorBits h.1 h.2)
      (zip_forall₂ hp hv)) fun xorVars xorVars' hxor => ?_
  obtain rfl := forget_bytes_eq hxor
  refine (forget Fr).bind (hequal _ _) fun _ _ _ => ?_
  cases c.prfInputs with
  | none => exact (forget Fr).pure trivial
  | some inputs =>
    refine (forget Fr).bind (R := fun _ _ => True) ((forget Fr).bind (hinput _) ?_)
      fun _ _ _ => (forget Fr).pure trivial
    rintro expected _ rfl
    refine (forget Fr).bind (hbytes _) fun _ _ hpms =>
      (forget Fr).bind (simulate_sha256FromByteVars _ hpms) fun hash hash' hhash => ?_
    obtain rfl := forget_bytes_eq hhash
    refine (forget Fr).bind (hequal _ _) fun _ _ _ => (forget Fr).bind
      (simulate_tls12MasterSecretConstrained _ hpms (.inr (forget_fail _)) (hbytes _) (hbytes _))
      fun _ _ hms => (forget Fr).bind (simulate_tls12KeyExpansionConstrained _ hms.1
        (.inr (forget_fail _)) (hbytes _) (hbytes _)) fun kb kb' hkb => ?_
    rw [forget_bytes_eq hkb]
    exact (forget Fr).bind (hequal _ _) fun _ _ _ => (forget Fr).pure trivial

section

variable {final s : ConstraintSystem Fr}

theorem eval_packBytesToFpvar {xs : List (UInt8Var Boolean)} {ws : List (UInt8Var Wire)}
    (h : (proving final).BytesRel xs ws) :
    (packBytesToFpvar (Keeping Fr) xs).eval final.assignedValue =
      packed (ofLeBytes (bytesOn .native ws)) := by
  rw [← bytesOn_assigned_eq h, ← packBytesToFpvar_eq]
  exact eval_leBitsToFp_proving (forall₂_take 254 (rel_flatMap h fun _ _ hx => hx.toList))

theorem exists_reached {c : TlsPrfCircuit} (hcomm : c.kMacCommitmentFe =
      kMacCommitment (xorShares c.kMacProverShare c.kMacVerifierShare) c.randBindingFe)
    {w : TlsPrfWires Boolean (LinComb Fr)}
    (hrun : (c.generateConstraints : Keeping Fr _).1 (.new Fr .prove) = .ok (w, final)) :
    ∃ cmt rb s, final.Reached s ∧ s.instanceAssignment = [c.kMacCommitmentFe, c.randBindingFe] ∧
      cmt.eval final.assignedValue = c.kMacCommitmentFe ∧
      rb.eval final.assignedValue = c.randBindingFe ∧
      (c.prfInputs = none → final = s) ∧
      ∀ pms cr sr h, c.prfInputs = some (pms, cr, sr, h) → ∃ prf,
          (generatePrfConstraints cmt rb pms cr sr h : Keeping Fr _).1 s = .ok (prf, final) := by
  obtain ⟨cmt, s₁, hcmt, hrun, hkept₁⟩ := Keeping.exists_of_bind hrun
  obtain ⟨rb, s₂, hrb, hrun, hkept₂⟩ := Keeping.exists_of_bind hrun
  obtain ⟨pVars, s₃, hp, hrun, hkept₃⟩ := Keeping.exists_of_bind hrun
  obtain ⟨vVars, s₄, hv, hrun, hkept₄⟩ := Keeping.exists_of_bind hrun
  obtain ⟨xorVars, s₅, hxor, hrun, hkept₅⟩ := Keeping.exists_of_bind hrun
  obtain ⟨_, s₆, hequal, hrun, hkept₆⟩ := Keeping.exists_of_bind hrun
  -- every step holds in the last system, which keeps it
  obtain ⟨hs₁, hinputs₁, hcmt⟩ := reached_fpNewInput (.new final) hcmt hkept₁
  obtain ⟨hs₂, hinputs₂, hrb⟩ := reached_fpNewInput hs₁ hrb hkept₂
  obtain ⟨hs₃, hinputs₃, ps, hps, hp⟩ := proving_newWitnessBytes _ _ hs₂ hp hkept₃
  obtain ⟨hs₄, hinputs₄, vs, hvs, hv⟩ := proving_newWitnessBytes _ _ hs₃ hv hkept₄
  obtain ⟨hs₅, hinputs₅, zs, hzs, hxor⟩ := (proving final).mapM
    (fun _ _ h => (proving final).xorBits h.1 h.2) (zip_forall₂ hp hv) hs₄ hxor hkept₅
  have hzs := (determined_xorVars ps vs).of_mem hzs .native
  have hkMac : (Gadgets.fpAdd (m := Keeping Fr) (packBytesToFpvar (Keeping Fr) xorVars) rb).eval
      final.assignedValue = cmt.eval final.assignedValue := by
    refine (LinComb.eval_append _ _).trans ?_
    rw [eval_packBytesToFpvar hxor, hzs, mem_newWitnessBytes.1 hps, mem_newWitnessBytes.1 hvs, hrb,
      hcmt, hcomm, kMacCommitment, bytes32ToFr_eq, xorShares, Vector.toList_zipWith]
  obtain ⟨hs₆, hinputs₆, -⟩ := settles_fpEnforceEqual hkMac hs₅ hequal hkept₆
  refine ⟨cmt, rb, s₆, hs₆, ?_, hcmt, hrb, fun hnone => ?_, fun pms cr sr h hsome => ?_⟩
  · rw [hinputs₆, hinputs₅, hinputs₄, hinputs₃, hinputs₂, hinputs₁]
    rfl
  · rw [hnone] at hrun
    exact (Prod.mk.inj (Except.ok.inj hrun)).2.symm
  · rw [hsome] at hrun
    obtain ⟨prf, t, hprf, hrun, -⟩ := Keeping.exists_of_bind hrun
    obtain rfl : t = final := (Prod.mk.inj (Except.ok.inj hrun)).2
    exact ⟨prf, hprf⟩

theorem satisfied_iff_of_prf {cmt rb : LinComb Fr} {pms : Bytes} {cr sr : Bytes32}
    {prf : PrfWires Boolean (LinComb Fr)} (hs : final.Reached s)
    (hrun : (generatePrfConstraints cmt rb pms cr sr (pmsHash pms) : Keeping Fr _).1 s =
      .ok (prf, final)) :
    pms.length ≤ 64 ∧ final.instanceAssignment = s.instanceAssignment ++ [pmsHash pms] ∧
      (final.Satisfied ↔ packed (ofLeBytes (deriveKMacFromPms pms cr.toList sr.toList)) +
        rb.eval final.assignedValue = cmt.eval final.assignedValue) := by
  obtain ⟨expected, s₁, hexp, hrun, hkept₁⟩ := Keeping.exists_of_bind hrun
  obtain ⟨pmsVars, s₂, hpms, hrun, hkept₂⟩ := Keeping.exists_of_bind hrun
  obtain ⟨hash, s₃, hhash, hrun, hkept₃⟩ := Keeping.exists_of_bind hrun
  obtain ⟨_, s₄, hequal, hrun, hkept₄⟩ := Keeping.exists_of_bind hrun
  obtain ⟨ms, s₅, hms, hrun, hkept₅⟩ := Keeping.exists_of_bind hrun
  obtain ⟨kb, s₆, hkb, hrun, hkept₆⟩ := Keeping.exists_of_bind hrun
  obtain ⟨_, t, hlast, hrun, -⟩ := Keeping.exists_of_bind hrun
  obtain rfl : t = final := (Prod.mk.inj (Except.ok.inj hrun)).2
  have hbytes := proving_newWitnessBytes t
  obtain ⟨hs₁, hinputs₁, hexp⟩ := reached_fpNewInput hs hexp hkept₁
  obtain ⟨hs₂, hinputs₂, ps, hps, hpms⟩ := hbytes _ hs₁ hpms hkept₂
  obtain ⟨hs₃, hinputs₃, ds, hds, hhash⟩ := simulate_sha256FromByteVars _ hpms hs₂ hhash hkept₃
  have hds : bytesOn .native ds = (Sha2.sha256 (bytesOn .native ps)).toList :=
    (determined_sha256FromByteVars ps).of_mem hds .native
  have hps := mem_newWitnessBytes.1 hps
  have hdig : (packBytesToFpvar (Keeping Fr) hash).eval t.assignedValue =
      expected.eval t.assignedValue := by
    rw [eval_packBytesToFpvar hhash, hds, hps, hexp, pmsHash, bytes32ToFr_eq]
  obtain ⟨hs₄, hinputs₄, -⟩ := settles_fpEnforceEqual hdig hs₃ hequal hkept₄
  obtain ⟨hs₅, hinputs₅, ms', hms', hms⟩ := simulate_tls12MasterSecretConstrained _ hpms
    (.inr (proving_fail _)) (hbytes _) (hbytes _) hs₄ hms hkept₅
  obtain ⟨hs₆, hinputs₆, kb', hkb', hkb⟩ := simulate_tls12KeyExpansionConstrained _ hms.1
    (.inr (proving_fail _)) (hbytes _) (hbytes _) hs₅ hkb hkept₆
  obtain ⟨hcr, hsr, hshort, hms'⟩ := mem_tls12MasterSecretConstrained.1 hms'
  obtain ⟨hcr', hsr', -, hkb'⟩ := mem_tls12KeyExpansionConstrained.1 hkb'
  -- all is decided by the last row
  obtain ⟨hinputs₇, hsatisfied⟩ := satisfied_iff_of_fpEnforceEqual hs₆ hlast
  refine ⟨?_, ?_, ?_⟩
  · rwa [← hps, length_map]
  · rw [hinputs₇, hinputs₆, hinputs₅, hinputs₄, hinputs₃, hinputs₂, hinputs₁]
  · have hkMac : bytesOn .native (kb'.output.take 32) =
        deriveKMacFromPms pms cr.toList sr.toList := by
      rw [← PrfValues.take_keyBlock_ofSession, bytesOn, map_take, ← bytesOn, hkb', hms', hps,
        hcr, hsr, hcr', hsr']
      rfl
    rw [hsatisfied, show (Gadgets.fpAdd (m := Keeping Fr)
      (packBytesToFpvar (Keeping Fr) (kb.output.take 32)) rb).eval t.assignedValue = _ from
        LinComb.eval_append _ _, eval_packBytesToFpvar (forall₂_take 32 hkb), hkMac]

end

/-- **The system of a proof and that of the setup** have the same matrices, and the proof's is
satisfied. -/
theorem exists_synthesize_new (p v rand p' v' rand' : Bytes32) :
    ∃ cs₀ cs, synthesize .setup (discard ((new p' v' rand').generateConstraints : Synth Fr _)) =
        .ok cs₀ ∧
      synthesize .prove (discard ((new p v rand).generateConstraints : Synth Fr _)) = .ok cs ∧
      cs.toMatrices = cs₀.toMatrices ∧ cs.Satisfied ∧
      cs.instanceAssignment = [(new p v rand).kMacCommitmentFe, bytes32ToFr rand] := by
  obtain ⟨cs, cs₀, hcs, hcs₀, hsame⟩ :=
    exists_synthesize_of_sameShape (show SameShape (new p v rand) (new p' v' rand') from .none)
  obtain ⟨_, hrun⟩ := exists_of_synthesize_eq_ok hcs
  obtain ⟨_, hrun, -⟩ := forget_generateConstraints _ hrun
  obtain ⟨_, _, s, hs, hins, -, -, hnone, -⟩ := exists_reached rfl hrun
  obtain rfl := hnone rfl
  exact ⟨cs₀, cs, hcs₀, hcs, hsame, hs.rows, hins⟩

theorem satisfied_withTlsPrf_iff {p v rand : Bytes32} {pms : Bytes}
    {cr sr : Bytes32} {cs : ConstraintSystem Fr} (hcs : synthesize .prove
      (discard ((withTlsPrf p v rand pms cr sr).generateConstraints : Synth Fr _)) = .ok cs) :
    pms.length ≤ 64 ∧ cs.instanceAssignment =
        [kMacCommitment (xorShares p v) (bytes32ToFr rand), bytes32ToFr rand, pmsHash pms] ∧
      (cs.Satisfied ↔ bytes32ToFr (xorShares p v) =
        packed (ofLeBytes (deriveKMacFromPms pms cr.toList sr.toList))) := by
  obtain ⟨_, hrun⟩ := exists_of_synthesize_eq_ok hcs
  obtain ⟨_, hrun, -⟩ := forget_generateConstraints _ hrun
  obtain ⟨cmt, rb, s, hs, hins, hcmt, hrb, -, hsome⟩ := exists_reached rfl hrun
  obtain ⟨prf, hprf⟩ := hsome _ _ _ _ rfl
  obtain ⟨hshort, hinputs', hsatisfied⟩ := satisfied_iff_of_prf hs hprf
  refine ⟨hshort, by rw [hinputs', hins]; rfl, ?_⟩
  rw [hsatisfied, hcmt, hrb, eq_comm]
  exact add_left_inj _

end TlsPrfCircuit

/-! ### Execution -/

/-- How a proof of the handshake is made: the mode, and what the two parties put in. -/
inductive HspExecution where
  | mode1 (pShare vShare randBinding : Bytes32)
  | mode2 (pShare vShare randBinding : Bytes32) (pms : Bytes)
    (clientRandom serverRandom : Bytes32)

namespace HspExecution

def IsMode1 : HspExecution → Prop
  | .mode1 _ _ _ => True
  | .mode2 _ _ _ _ _ _ => False

/-- What goes into the second mode fits together: a pre-master secret of 48 bytes, and shares of the
key that it gives. -/
def Derived : HspExecution → Prop
  | .mode1 _ _ _ => True
  | .mode2 pShare vShare _ pms clientRandom serverRandom => pms.length = 48 ∧
    (xorShares pShare vShare).toList = deriveKMacFromPms pms clientRandom.toList serverRandom.toList

variable (G : Groth16 Fr)

def setup : HspExecution → G.Randomness → Except CoSnarkError G.ProvingKey
  | .mode1 _ _ _ => CoSnarkCrs.setup G
  | .mode2 _ _ _ _ _ _ => CoSnarkCrs.setupMode2 G

def execute (crs : G.ProvingKey) : HspExecution → G.Randomness → Except CoSnarkError HspProof
  | .mode1 pShare vShare randBinding => coSnarkExecute G crs pShare vShare randBinding
  | .mode2 pShare vShare randBinding pms clientRandom serverRandom =>
    coSnarkExecuteMode2 G crs pShare vShare randBinding pms clientRandom serverRandom

end HspExecution

variable {G : Groth16 Fr} {crs : G.ProvingKey} {proof : HspProof} {ρ ρ' : G.Randomness}
  {p v rand : Bytes32}

/-- **A proof of the first mode** is accepted by a verifier that expects no digest. -/
theorem coSnarkVerify_of_mode1 (hcompl : G.Complete) (hcrs : CoSnarkCrs.setup G ρ = .ok crs)
    (hproof : coSnarkExecute G crs p v rand ρ' = .ok proof) :
    coSnarkVerify G (G.vk crs) proof none = .ok () := by
  obtain ⟨cs₀, cs, hsetup, hprove, hmat, hsat, hins⟩ :=
    TlsPrfCircuit.exists_synthesize_new p v rand (.replicate 32 1) (.replicate 32 2)
      (.replicate 32 0)
  obtain ⟨π, hπ, rfl⟩ : ∃ π, G.createProof
      (discard (TlsPrfCircuit.new p v rand).generateConstraints)
      crs ρ' = .ok π ∧ _ = proof := by
    simpa only [coSnarkExecute, executeCircuit, do_eq_ok] using hproof
  have hver := hcompl.verify_createProof hsetup (mapError_eq_ok.1 hcrs) hprove hπ hmat hsat
  rw [hins] at hver
  have hread (x : Fr) : deserialize r (serialize x) = .ok x := deserialize_serialize Bn254.r_le x
  simp only [coSnarkVerify, deserializeField, do_eq_ok]
  refine ⟨π, hcompl.deserializeProof_serializeProof π, _, hread _, _, hread _, none, rfl, true,
    hver, (), rfl, (), ?_, rfl⟩
  -- the proof carries the key that its circuit commits to
  rfl

/-- A field element is never written as nothing, so a verifier reads the digest. -/
theorem deserializePmsHash_serialize (x : Fr) :
    deserializePmsHash (serialize x) = .ok (some x) := by
  have hne : (serialize x).isEmpty = false := by
    rw [isEmpty_eq_false_iff, ← length_pos_iff, length_serialize]
    omega
  rw [deserializePmsHash, hne, deserializeField, deserialize_serialize Bn254.r_le]
  rfl

/-- **A proof of the second mode** is refused by a verifier that expects no digest. -/
theorem coSnarkVerify_of_mode2 {pvk : G.VerifyingKey} {pms : Bytes} {cr sr : Bytes32}
    (hproof : coSnarkExecuteMode2 G crs p v rand pms cr sr ρ' = .ok proof) :
    coSnarkVerify G pvk proof none ≠ .ok () := by
  obtain ⟨π, -, rfl⟩ : ∃ π, G.createProof _ crs ρ' = .ok π ∧ _ = proof := by
    simpa only [coSnarkExecuteMode2, executeCircuit, do_eq_ok] using hproof
  intro hok
  simp only [coSnarkVerify, do_eq_ok] at hok
  obtain ⟨_, -, _, -, _, -, pmsFe, hpms, _, -, -, -, -, -, hmatches⟩ := hok
  obtain rfl := Except.ok.inj ((deserializePmsHash_serialize _).symm.trans hpms)
  exact Bool.false_ne_true hmatches

/-- **A proof that was made as intended** is accepted by a verifier that expects no digest exactly
if it is one of the first mode. -/
theorem coSnarkVerify_none_iff {execution : HspExecution} (hcompl : G.Complete)
    (hcrs : execution.setup G ρ = .ok crs) (hproof : execution.execute G crs ρ' = .ok proof) :
    coSnarkVerify G (G.vk crs) proof none = .ok () ↔ execution.IsMode1 := by
  cases execution with
  | mode1 p v rand => exact iff_of_true (coSnarkVerify_of_mode1 hcompl hcrs hproof) trivial
  | mode2 p v rand pms cr sr => exact iff_of_false (coSnarkVerify_of_mode2 hproof) id

theorem exists_coSnarkExecute_ideal (p v rand : Bytes32) :
    ∃ crs proof, CoSnarkCrs.setup (ideal Fr) () = .ok crs ∧
      coSnarkExecute (ideal Fr) crs p v rand () = .ok proof := by
  obtain ⟨cs₀, cs, hsetup, hprove, -⟩ := TlsPrfCircuit.exists_synthesize_new p v rand
    (.replicate 32 1) (.replicate 32 2) (.replicate 32 0)
  have hcrs : (ideal Fr).generateParameters
      (discard TlsPrfCircuit.dummy.generateConstraints) () = .ok (statements cs₀) := by
    change Except.map _ _ = _
    rw [TlsPrfCircuit.dummy, hsetup]
    rfl
  have hproof (crs : Set (List Fr)) : (ideal Fr).createProof
      (discard (TlsPrfCircuit.new p v rand).generateConstraints) crs () = .ok () := by
    change Except.map _ _ = _
    rw [hprove]
    rfl
  have hexec : ∃ proof, coSnarkExecute (ideal Fr) (statements cs₀) p v rand () = .ok proof := by
    simp only [coSnarkExecute, executeCircuit, do_eq_ok]
    exact ⟨_, (), hproof _, rfl⟩
  obtain ⟨proof, hexec⟩ := hexec
  exact ⟨_, proof, mapError_eq_ok.2 hcrs, hexec⟩

theorem exists_derived {pms : Bytes} (hpms : pms.length = 48) (rand cr sr : Bytes32) :
    ∃ p v, (HspExecution.mode2 p v rand pms cr sr).Derived := by
  obtain ⟨key, hkey⟩ : ∃ key : Bytes32, key.toList = deriveKMacFromPms pms cr.toList sr.toList := by
    refine ⟨⟨(deriveKMacFromPms pms cr.toList sr.toList).toArray, ?_⟩, rfl⟩
    simp [deriveKMacFromPms, tls12KeyExpansion, length_tlsPrfSha256]
  exact ⟨key, .replicate 32 0, hpms, by rw [xorShares_zero, hkey]⟩

/-! ### A verifier that expects the digest -/

namespace TlsPrfCircuit

/-- The circuit of a setup of the second mode, for pre-master secrets of a given length. -/
def dummyOfLength (n : ℕ) : TlsPrfCircuit :=
  withTlsPrf (.replicate 32 1) (.replicate 32 2) (.replicate 32 0) (List.replicate n 0)
    (.replicate 32 0) (.replicate 32 0)

theorem sameShape_dummyOfLength {pms : Bytes} {n : ℕ} (hlen : pms.length = n) (hn : n ≤ 64)
    (p v rand cr sr : Bytes32) :
    SameShape (withTlsPrf p v rand pms cr sr) (dummyOfLength n) :=
  .some ⟨by simpa using hlen, hlen.trans_le hn⟩

instance : Nontrivial Fr := ZMod.nontrivial_iff.2 (by decide)

/-- **The rows of the derivation** begin with the bits of the secret, and go on with its hash. -/
theorem exists_rows_of_prf {cmt rb : LinComb Fr} {pms : Bytes} {cr sr : Bytes32}
    {h : Fr} {prf : PrfWires Boolean (LinComb Fr)} {s final : ConstraintSystem Fr}
    (hrun : (generatePrfConstraints cmt rb pms cr sr h : Keeping Fr _).1 s = .ok (prf, final)) :
    ∃ bits l row rest, final.toMatrices.rows = s.toMatrices.rows ++ (bits ++ l ++ row :: rest) ∧
      Bits (pms.length * 8) bits ∧ Opens l ∧ ¬ BitRow row := by
  obtain ⟨expected, s₁, hexp, hrun, -⟩ := Keeping.exists_of_bind hrun
  obtain ⟨pmsVars, s₂, hpms, hrun, -⟩ := Keeping.exists_of_bind hrun
  obtain ⟨hash, s₃, hhash, hrun, -⟩ := Keeping.exists_of_bind hrun
  obtain ⟨_, s₄, hequal, -, hkept⟩ := Keeping.exists_of_bind hrun
  obtain rfl : s.pushInput h = s₁ := (Prod.mk.inj (Except.ok.inj hexp)).2
  obtain ⟨bits, hs₂, hbits⟩ := appends_newWitnessBytes pms hpms
  obtain ⟨l, hs₃, hl⟩ := composes_sha256FromByteVars composes_opens pmsVars hhash
  obtain ⟨_, hs₄, row, rfl, hrow⟩ := appends_fpEnforceEqual _ _ hequal
  obtain ⟨rest, hrest⟩ : s₄.toMatrices.rows <+: final.toMatrices.rows :=
    hkept.rows.map Constraint.coeffs
  refine ⟨bits, l, row, rest, ?_, hbits, hl, hrow⟩
  rw [← hrest, hs₄, hs₃, hs₂, append_assoc, append_assoc, append_assoc, append_assoc,
    singleton_append]
  rfl

/-- **Setups for secrets of two lengths** have the same matrices only if the lengths are the same:
the rows before the secret are, and its bits can be counted. -/
theorem toMatrices_eq_iff {n k : ℕ} {cs cs' : ConstraintSystem Fr}
    (h : synthesize .setup (discard (dummyOfLength n).generateConstraints) = .ok cs)
    (h' : synthesize .setup (discard (dummyOfLength k).generateConstraints) = .ok cs') :
    cs.toMatrices = cs'.toMatrices ↔ n = k := by
  refine ⟨fun hsame => ?_, ?_⟩
  · obtain ⟨_, h⟩ := exists_of_synthesize_eq_ok h
    obtain ⟨_, h'⟩ := exists_of_synthesize_eq_ok h'
    obtain ⟨_, h, -⟩ := forget_generateConstraints _ h
    obtain ⟨_, h', -⟩ := forget_generateConstraints _ h'
    iterate 6 obtain ⟨_, _, h, h'⟩ := Keeping.exists_of_bind_of_bind h h'
    obtain ⟨_, _, hprf, h, -⟩ := Keeping.exists_of_bind h
    obtain ⟨_, _, hprf', h', -⟩ := Keeping.exists_of_bind h'
    obtain rfl := (Prod.mk.inj (Except.ok.inj h)).2
    obtain rfl := (Prod.mk.inj (Except.ok.inj h')).2
    obtain ⟨bits, l, row, rest, hrows, hbits, hl, hrow⟩ := exists_rows_of_prf hprf
    obtain ⟨bits', l', row', rest', hrows', hbits', hl', hrow'⟩ := exists_rows_of_prf hprf'
    rw [length_replicate] at hbits hbits'
    rw [hsame, hrows'] at hrows
    exact (eq_of_opens hbits' hl' hrow' hbits hl hrow (append_cancel_left hrows)).symm
  · rintro rfl
    rw [Except.ok.inj (h.symm.trans h')]

end TlsPrfCircuit

open TlsPrfCircuit

variable {pms : Bytes} {cr sr : Bytes32}

theorem coSnarkVerify_some_iff (hexact : G.Exact) (hcrs : CoSnarkCrs.setupMode2 G ρ = .ok crs)
    (hproof : coSnarkExecuteMode2 G crs p v rand pms cr sr ρ' = .ok proof) :
    ∃ cs cs₀ : ConstraintSystem Fr,
      synthesize .prove (discard (withTlsPrf p v rand pms cr sr).generateConstraints) = .ok cs ∧
      synthesize .setup (discard dummyFullPrf.generateConstraints) = .ok cs₀ ∧
      (coSnarkVerify G (G.vk crs) proof (some (pmsHash pms)) = .ok () ↔
        cs.toMatrices = cs₀.toMatrices ∧ cs.Satisfied) := by
  obtain ⟨π, hπ, rfl⟩ : ∃ π, G.createProof _ crs ρ' = .ok π ∧ _ = proof := by
    simpa only [coSnarkExecuteMode2, executeCircuit, do_eq_ok] using hproof
  obtain ⟨cs, hcs⟩ := hexact.createProof_eq_ok.1 ⟨π, hπ⟩
  obtain ⟨-, cs₀, -, hcs₀, -⟩ := exists_synthesize_of_sameShape (sameShape_dummyOfLength
    (length_replicate (n := 48) (a := (0 : UInt8))) (by decide) p v rand cr sr)
  have hver := hexact.verify_createProof hcs₀ (mapError_eq_ok.1 hcrs) hcs hπ
  rw [(satisfied_withTlsPrf_iff hcs).2.1] at hver
  refine ⟨cs, cs₀, hcs, hcs₀, Iff.trans ?_ hver⟩
  have hread (x : Fr) : deserialize r (serialize x) = .ok x := deserialize_serialize Bn254.r_le x
  have hbytes := hexact.deserializeProof_serializeProof π
  simp only [coSnarkVerify, deserializeField, do_eq_ok]
  constructor
  · rintro ⟨π', hπ', c, hc, d, hd, o, ho, valid, hvalid, -, rfl, -⟩
    obtain rfl := Except.ok.inj (hbytes.symm.trans hπ')
    obtain rfl := Except.ok.inj ((hread _).symm.trans hc)
    obtain rfl := Except.ok.inj ((hread _).symm.trans hd)
    obtain rfl := Except.ok.inj ((deserializePmsHash_serialize _).symm.trans ho)
    exact hvalid
  · intro hvalid
    exact ⟨π, hbytes, _, hread _, _, hread _, _, deserializePmsHash_serialize _, true, hvalid, (),
      rfl, (), rfl, decide_eq_true rfl⟩

/-- **A proof of the second mode** is accepted by a verifier that expects its digest exactly if the
secret has the length of that of the setup, and the shares the packing of the derived key. The
prover does not look at either. -/
theorem coSnarkVerify_mode2_iff (hexact : G.Exact) (hcrs : CoSnarkCrs.setupMode2 G ρ = .ok crs)
    (hproof : coSnarkExecuteMode2 G crs p v rand pms cr sr ρ' = .ok proof) :
    coSnarkVerify G (G.vk crs) proof (some (pmsHash pms)) = .ok () ↔
      pms.length = 48 ∧ bytes32ToFr (xorShares p v) =
        packed (ofLeBytes (deriveKMacFromPms pms cr.toList sr.toList)) := by
  obtain ⟨cs, cs₀, hcs, hcs₀, hiff⟩ := coSnarkVerify_some_iff hexact hcrs hproof
  obtain ⟨hshort, -, hsatisfied⟩ := satisfied_withTlsPrf_iff hcs
  obtain ⟨cs', cs₁, hcs', hcs₁, hsame⟩ :=
    exists_synthesize_of_sameShape (sameShape_dummyOfLength rfl hshort p v rand cr sr)
  obtain rfl := Except.ok.inj (hcs.symm.trans hcs')
  rw [hiff, hsatisfied, hsame, toMatrices_eq_iff (k := 48) hcs₁ hcs₀]

theorem exists_coSnarkExecuteMode2 (p v rand cr sr : Bytes32) :
    ∃ crs proof, CoSnarkCrs.setupMode2 (verdict Fr) () = .ok crs ∧
      coSnarkExecuteMode2 (verdict Fr) crs p v rand (List.replicate 48 0) cr sr () = .ok proof := by
  obtain ⟨cs, cs₀, hcs, hcs₀, -⟩ := exists_synthesize_of_sameShape (sameShape_dummyOfLength
    (length_replicate (n := 48) (a := (0 : UInt8))) (by decide) p v rand cr sr)
  obtain ⟨π, hπ⟩ : ∃ π, (verdict Fr).createProof _ cs₀.toMatrices () = .ok π :=
    exact_verdict.createProof_eq_ok.2 ⟨cs, hcs⟩
  have hcrs : (verdict Fr).generateParameters (discard dummyFullPrf.generateConstraints)
      () = .ok cs₀.toMatrices := by
    change Except.map _ (synthesize .setup (discard (dummyOfLength 48).generateConstraints)) = _
    rw [hcs₀]
    rfl
  have hexec : ∃ proof, coSnarkExecuteMode2 (verdict Fr) cs₀.toMatrices p v rand
      (List.replicate 48 0) cr sr () = .ok proof := by
    simp only [coSnarkExecuteMode2, executeCircuit, do_eq_ok]
    exact ⟨_, π, hπ, rfl⟩
  obtain ⟨proof, hexec⟩ := hexec
  exact ⟨_, proof, mapError_eq_ok.2 hcrs, hexec⟩

/-- Shares of the derived key. -/
theorem coSnarkVerify_mode2_derived : ∃ p v crs proof,
    CoSnarkCrs.setupMode2 (verdict Fr) () = .ok crs ∧
    coSnarkExecuteMode2 (verdict Fr) crs p v (.replicate 32 0) (List.replicate 48 0)
      (.replicate 32 0) (.replicate 32 0) () = .ok proof ∧
    coSnarkVerify (verdict Fr) crs proof (some (pmsHash (List.replicate 48 0))) = .ok () := by
  obtain ⟨p, v, -, hkey⟩ := exists_derived (List.length_replicate (n := 48) (a := (0 : UInt8)))
    (.replicate 32 0) (.replicate 32 0) (.replicate 32 0)
  obtain ⟨crs, proof, hcrs, hproof⟩ :=
    exists_coSnarkExecuteMode2 p v (.replicate 32 0) (.replicate 32 0) (.replicate 32 0)
  refine ⟨p, v, crs, proof, hcrs, hproof,
    (coSnarkVerify_mode2_iff exact_verdict hcrs hproof).2 ⟨?_, ?_⟩⟩
  · rw [List.length_replicate]
  · rw [bytes32ToFr_eq, hkey]

/-- A success that is none. -/
theorem exists_mode2_refused : ∃ p crs proof, CoSnarkCrs.setupMode2 (verdict Fr) () = .ok crs ∧
    coSnarkExecuteMode2 (verdict Fr) crs p (.replicate 32 0) (.replicate 32 0)
      (List.replicate 48 0) (.replicate 32 0) (.replicate 32 0) () = .ok proof ∧
    coSnarkVerify (verdict Fr) crs proof (some (pmsHash (List.replicate 48 0))) ≠ .ok () := by
  by_contra hall
  -- one of two keys is not the derived one
  have hpack (p : Bytes32) : bytes32ToFr p = packed (ofLeBytes (deriveKMacFromPms
      (List.replicate 48 0) (Vector.replicate 32 0).toList (Vector.replicate 32 0).toList)) := by
    obtain ⟨crs, proof, hcrs, hproof⟩ := exists_coSnarkExecuteMode2 p (.replicate 32 0)
      (.replicate 32 0) (.replicate 32 0) (.replicate 32 0)
    obtain ⟨cs, cs₀, hcs, -, hiff⟩ := coSnarkVerify_some_iff exact_verdict hcrs hproof
    by_contra hne
    refine hall ⟨p, crs, proof, hcrs, hproof, fun hok => hne ?_⟩
    rw [← (satisfied_withTlsPrf_iff hcs).2.2.1 (hiff.1 hok).2, xorShares_zero]
  have hsame := (hpack (.replicate 32 0)).trans (hpack (.replicate 32 1)).symm
  rw [bytes32ToFr_eq, bytes32ToFr_eq, Vector.toList_replicate, Vector.toList_replicate, packed,
    packed, ZMod.natCast_eq_natCast_iff'] at hsame
  exact absurd hsame (by decide)

end TlsAttestation.Zk
