import TlsAttestation.Zk.Circuit
import TlsAttestation.Zk.Completeness
import TlsAttestation.Zk.TlsSessionBinding

/-!
# One key for all sessions

Keys are made from one run of a circuit, in setup mode, and are good for the runs with the same
matrices. For the circuits of the `zk` crate these are all runs (`Zk.circuits_uniform`): values
reach the rows nowhere, and all lengths are fixed but that of a pre-master secret.
-/

namespace TlsAttestation.Zk

open Ark Coupling

open Ark.Bn254 (Fr r)

variable {μ μ' : SynthesisMode}

/-- Both programs end well in any modes, and in the same matrices. -/
def SameMatrices {α β : Type} (x : Synth Fr α) (y : Synth Fr β) : Prop :=
  ∀ μ μ', ∃ cs cs', synthesize μ (discard x) = .ok cs ∧ synthesize μ' (discard y) = .ok cs' ∧
    cs.toMatrices = cs'.toMatrices

theorem sameMatrices_of_run {α β : Type} {x : Synth Fr α} {y : Synth Fr β}
    (h : ∀ μ μ', (sameRows Fr μ μ').seq.Run (fun _ _ => True) x y) :
    SameMatrices x y :=
  fun μ μ' => exists_synthesize (h μ μ')

/-! ### The sponge -/

/-- Two runs of the program, in whatever modes, go through the same rows. -/
def Uniform {α : Type} (x : Synth Fr α) : Prop :=
  ∀ μ μ', (sameRows Fr μ μ').seq.Run Eq x x

namespace Uniform

variable {α β : Type}

theorem pure (a : α) : Uniform (pure a) := fun _ _ => Sequencing.pure _ rfl

theorem bind {x : Synth Fr α} {f : α → Synth Fr β} (hx : Uniform x)
    (hf : ∀ a, Uniform (f a)) : Uniform (x >>= f) := by
  refine fun μ μ' => Sequencing.bind _ (hx μ μ') ?_
  rintro a _ rfl
  exact hf a μ μ'

theorem foldlM {f : β → α → Synth Fr β} (h : ∀ b a, Uniform (f b a)) (l : List α) (b : β) :
    Uniform (l.foldlM f b) := by
  refine fun μ μ' => Sequencing.foldlM _ (R := Eq) ?_ (List.forall₂_same.2 fun _ _ => rfl) rfl
  rintro b _ a _ rfl rfl
  exact h b a μ μ'

end Uniform

theorem rel_self (x : LinComb Fr) : x.Rel Eq x :=
  List.forall₂_same.2 fun _ _ => ⟨rfl, rfl⟩

theorem uniform_mul (x y : LinComb Fr) : Uniform (Synth.mul x y) := by
  rw [Synth.mul]
  split
  · exact .pure _
  · split
    · exact .pure _
    · intro μ μ'
      refine Sequencing.bind _ run_get fun s s' _ => ?_
      refine Sequencing.bind _ (run_newWitnessVariable (fun _ => rfl) fun _ => rfl) ?_
      rintro product _ rfl
      exact Sequencing.bind _ (run_enforceConstraint (rel_self x) (rel_self y)
        (rel_self _)) fun _ _ _ => Sequencing.pure _ rfl

theorem uniform_mimc7RoundGadget (key state : LinComb Fr) (c : Fr) :
    Uniform (mimc7RoundGadget key state c) :=
  (uniform_mul _ _).bind fun _ => (uniform_mul _ _).bind fun _ => (uniform_mul _ _).bind fun _ =>
    uniform_mul _ _

theorem uniform_mimc7SpongeGadget (inputs : List (LinComb Fr))
    (constants : Vector Fr mimcRounds) : Uniform (mimc7SpongeGadget inputs constants) := by
  refine Uniform.foldlM (fun state x => ?_) _ _
  have henc : Uniform (mimc7EncGadget (Gadgets.fpAdd (m := Synth Fr) state x)
      (Gadgets.fpConstant (m := Synth Fr) 0) constants) :=
    (Uniform.foldlM (fun _ _ => uniform_mimc7RoundGadget _ _ _) _ _).bind fun _ => .pure _
  exact henc.bind fun _ => .pure _

/-! ### The circuits -/

theorem HspCircuit.run_generateConstraints (c c' : HspCircuit) :
    (sameRows Fr μ μ').seq.Run (fun _ _ => True)
      (c.generateConstraints : Synth Fr _) (c'.generateConstraints : Synth Fr _) := by
  refine Sequencing.bind _ (run_fpNewInput _ _) fun sid _ hsid => ?_
  refine Sequencing.bind _ (run_fpNewInput _ _) fun rand _ hrand => ?_
  refine Sequencing.bind _ (run_fpNewInput _ _) fun cert _ hcert => ?_
  refine Sequencing.bind _ (run_fpNewInput _ _) fun binding _ hbind => ?_
  refine Sequencing.bind _ (run_fpNewWitness _ _) fun exporter _ hexp => ?_
  refine Sequencing.bind _ (run_fpNewWitness _ _) fun ht _ hht => ?_
  obtain ⟨rfl, rfl, rfl⟩ := And.intro hsid.eq (And.intro hrand.eq hcert.eq)
  obtain ⟨rfl, rfl⟩ := And.intro hexp.eq hht.eq
  refine Sequencing.bind _ (uniform_mimc7SpongeGadget _ _ μ μ') ?_
  rintro computed _ rfl
  exact Sequencing.bind _ (run_fpEnforceEqual (rel_self computed) hbind)
    fun _ _ _ => Sequencing.pure _ trivial

section

variable (C : Coupling Fr μ μ')

open TlsPrfCircuit in
theorem PgpBindingCircuit.run_generateConstraints (c c' : PgpBindingCircuit) :
    C.simulation.Run (fun _ _ => True) (c.generateConstraints : Synth Fr _)
      (c'.generateConstraints : Synth Fr _) := by
  refine C.seq.bind (run_fpNewInput _ _) fun _ _ hquery => ?_
  refine C.seq.bind (run_fpNewInput _ _) fun _ _ hresp => ?_
  refine C.seq.bind (run_fpNewInput _ _) fun _ _ htr => ?_
  refine C.seq.bind (run_fpNewInput _ _) fun _ _ hrand => ?_
  refine C.seq.bind (run_newWitnessBytes32 C _ _) fun _ _ hqh => ?_
  refine C.seq.bind (run_newWitnessBytes32 C _ _) fun _ _ hrh => ?_
  refine C.seq.bind (run_fpEnforceEqual
    (List.rel_append (rel_packBytesToFpvar hqh) hrand) hquery) fun _ _ _ => ?_
  refine C.seq.bind (run_fpEnforceEqual
    (List.rel_append (rel_packBytesToFpvar hrh) hrand) hresp) fun _ _ _ => ?_
  refine C.seq.bind (simulate_sha256FromByteVars C.simulation (List.rel_append hqh hrh))
    fun _ _ hdig => ?_
  exact C.seq.bind (run_fpEnforceEqual (List.rel_append (rel_packBytesToFpvar hdig) hrand) htr)
    fun _ _ _ => C.seq.pure trivial

namespace TlsSessionBindingCircuit

open TlsPrfCircuit

variable {C}

theorem run_enforceMac {key key' : List (UInt8Var Boolean)} {w w' : RecordWires Boolean}
    {rand commit rand' commit' : LinComb Fr} (hkey : C.simulation.BytesRel key key')
    (hlen : key.length ≤ 64) (hhdr : C.simulation.BytesRel w.hdrVars w'.hdrVars)
    (hdata : C.simulation.BytesRel w.dataHashVars w'.dataHashVars) (hrand : C.FpRel rand rand')
    (hcomm : C.FpRel commit commit') :
    C.simulation.Run (fun _ _ => True) (enforceMac key w rand commit : Synth Fr _)
      (enforceMac key' w' rand' commit' : Synth Fr _) :=
  C.seq.bind (simulate_hmacSha256GadgetConstrained C.simulation hkey (.inl hlen)
    (List.rel_append hhdr hdata)) fun _ _ hmac =>
      run_fpEnforceEqual (List.rel_append (rel_packBytesToFpvar hmac) hrand) hcomm

variable (C)

theorem run_generateConstraints (c c' : TlsSessionBindingCircuit) :
    C.simulation.Run (fun _ _ => True) (c.generateConstraints : Synth Fr _)
      (c'.generateConstraints : Synth Fr _) := by
  have hheader (h h' : TlsRecordHeader) := run_newWitnessBytes C h.toBytes h'.toBytes
    (h.length_toBytes.trans h'.length_toBytes.symm)
  refine C.seq.bind (run_fpNewInput _ _) fun _ _ hcomm => ?_
  refine C.seq.bind (run_fpNewInput _ _) fun _ _ hrand => ?_
  refine C.seq.bind (run_fpNewInput _ _) fun _ _ hmacQ => ?_
  refine C.seq.bind (run_fpNewInput _ _) fun _ _ hmacR => ?_
  refine C.seq.bind (run_newWitnessBytes C c.kMac.toList c'.kMac.toList (by simp))
    fun _ _ hkey => ?_
  refine C.seq.bind (run_fpEnforceEqual
    (List.rel_append (rel_packBytesToFpvar hkey.1) hrand) hcomm) fun _ _ _ => ?_
  refine C.seq.bind (hheader _ _) fun _ _ hhdrQ => ?_
  refine C.seq.bind (hheader _ _) fun _ _ hhdrR => ?_
  refine C.seq.bind (run_newWitnessBytes32 C _ _) fun _ _ hqdh => ?_
  refine C.seq.bind (run_newWitnessBytes32 C _ _) fun _ _ hrdh => ?_
  have hshort := hkey.2.trans_le (show c.kMac.toList.length ≤ 64 by simp)
  refine C.seq.bind (run_enforceMac hkey.1 hshort hhdrQ.1 hqdh hrand hmacQ) fun _ _ _ => ?_
  exact C.seq.bind (run_enforceMac hkey.1 hshort hhdrR.1 hrdh hrand hmacR)
    fun _ _ _ => C.seq.pure trivial

end TlsSessionBindingCircuit

end

/-- **One key is good for all sessions**: instances of a circuit have the same matrices, in the
second mode for secrets of one length. -/
theorem circuits_uniform :
    (∀ c c' : HspCircuit, SameMatrices c.generateConstraints c'.generateConstraints) ∧
    (∀ c c' : PgpBindingCircuit, SameMatrices c.generateConstraints c'.generateConstraints) ∧
    (∀ c c' : TlsSessionBindingCircuit, SameMatrices c.generateConstraints c'.generateConstraints) ∧
    (∀ c c' : TlsPrfCircuit, c.prfInputs = none → c'.prfInputs = none →
      SameMatrices c.generateConstraints c'.generateConstraints) ∧
    ∀ c c' : TlsPrfCircuit, ∀ inputs inputs', c.prfInputs = some inputs →
      c'.prfInputs = some inputs' → inputs.1.length = inputs'.1.length → inputs.1.length ≤ 64 →
        SameMatrices c.generateConstraints c'.generateConstraints := by
  refine ⟨fun c c' => sameMatrices_of_run fun _ _ => c.run_generateConstraints c',
    fun c c' => sameMatrices_of_run fun _ _ => c.run_generateConstraints _ c',
    fun c c' => sameMatrices_of_run fun _ _ => c.run_generateConstraints _ c', ?_, ?_⟩
  · intro c c' h h'
    refine sameMatrices_of_run fun _ _ => TlsPrfCircuit.run_generateConstraints ?_
    rw [TlsPrfCircuit.SameShape, h, h']
    exact .none
  · intro c c' inputs inputs' h h' hlen hshort
    refine sameMatrices_of_run fun _ _ => TlsPrfCircuit.run_generateConstraints ?_
    rw [TlsPrfCircuit.SameShape, h, h']
    exact .some ⟨hlen, hshort⟩

theorem sameMatrices_dummyFullPrf : SameMatrices TlsPrfCircuit.dummyFullPrf.generateConstraints
    (TlsPrfCircuit.withTlsPrf (.replicate 32 1) (.replicate 32 2) (.replicate 32 3)
      (List.replicate 48 4) (.replicate 32 5) (.replicate 32 6)).generateConstraints :=
  circuits_uniform.2.2.2.2 _ _ _ _ rfl rfl rfl (by decide)

end TlsAttestation.Zk
