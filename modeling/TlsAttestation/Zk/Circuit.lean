import TlsAttestation.Lib.ConstraintSystem
import TlsAttestation.Zk.Mimc

/-!
# The circuit of the commitment to a handshake

`HspCircuit` of the `zk` crate: the sponge of five values is a public input, and so are three of the
values (`Zk.HspCircuit.mem_generateConstraints`). The private transcript hash is absorbed last, so
it can be chosen for any other four values (`Zk.HspCircuit.exists_opening_iff`).
-/

namespace TlsAttestation.Zk

open Ark IteratedHash Synth

open Ark.Bn254 (Fr r)

structure HspCircuit where
  (sessionIdFe randFe certHashFe zkBinding dvrfExporterFe htHashFe : Fr)

structure HspWires (Fp : Type) where
  (sessionId rand certHash binding dvrfExporter htHash : Fp)

def HspWires.inputs {Fp : Type} (w : HspWires Fp) : List Fp :=
  [w.sessionId, w.rand, w.dvrfExporter, w.certHash, w.htHash]

namespace HspCircuit

/-- The binding is the sponge of the public fields and the two hidden ones. -/
def generateConstraints {m : Type → Type} {Bit Fp : Type} [Monad m] [FieldGadgets m Fr Bit Fp]
    (c : HspCircuit) : m (HspWires Fp) := do
  let sessionId ← Gadgets.fpNewInput c.sessionIdFe
  let rand ← Gadgets.fpNewInput c.randFe
  let certHash ← Gadgets.fpNewInput c.certHashFe
  let binding ← Gadgets.fpNewInput c.zkBinding
  let dvrfExporter ← Gadgets.fpNewWitness c.dvrfExporterFe
  let htHash ← Gadgets.fpNewWitness c.htHashFe
  let w : HspWires Fp := ⟨sessionId, rand, certHash, binding, dvrfExporter, htHash⟩
  let computed ← mimc7SpongeGadget w.inputs (mimcConstants r)
  Gadgets.fpEnforceEqual computed binding
  return w

variable (c : HspCircuit)

def publicInputs : List Fr := [c.sessionIdFe, c.randFe, c.certHashFe, c.zkBinding]

def Satisfied : Prop :=
  c.zkBinding = mimc7Sponge [c.sessionIdFe, c.randFe, c.dvrfExporterFe, c.certHashFe, c.htHashFe]
    (mimcConstants r)

/-- What the circuit enforces. -/
theorem mem_generateConstraints {c : HspCircuit} {w : HspWires Fr} :
    w ∈ c.generateConstraints (m := Sat Fr) ↔
      mimc7Sponge w.inputs (mimcConstants r) = w.binding := by
  obtain ⟨_, _, _, _, _, _⟩ := w
  simp [-bind_pure_comp, generateConstraints, mimc7SpongeGadget_eq]

theorem exists_second_opening {c : HspCircuit} {w : HspWires Fr}
    (h : w ∈ c.generateConstraints (m := Sat Fr))
    (sessionId rand dvrfExporter certHash : Fr) :
    ∃ htHash, ⟨sessionId, rand, certHash, w.binding, dvrfExporter, htHash⟩ ∈
      c.generateConstraints (m := Sat Fr) := by
  rw [mem_generateConstraints, mimc7Sponge_eq] at h
  -- the value that was absorbed last
  let last := absorb (oneBlock (mimcConstants r)) 0
    [w.sessionId, w.rand, w.dvrfExporter, w.certHash] + w.htHash
  have hlast : oneBlock (mimcConstants r) last = w.binding := by
    rw [← h]
    exact (absorb_concat _ _ _ _).symm
  refine ⟨-absorb (oneBlock (mimcConstants r)) 0 [sessionId, rand, dvrfExporter, certHash] + last,
    mem_generateConstraints.2 ?_⟩
  rw [mimc7Sponge_eq, ← hlast]
  exact absorb_concat_sub (oneBlock (mimcConstants r)) 0
    [sessionId, rand, dvrfExporter, certHash] last

/-- **The binding binds nothing**: whether it can be opened does not depend on the other values. -/
theorem exists_opening_iff (binding sessionId rand certHash dvrfExporter
    sessionId' rand' certHash' dvrfExporter' : Fr) :
    (∃ htHash, ⟨sessionId, rand, certHash, binding, dvrfExporter, htHash⟩ ∈
        c.generateConstraints (m := Sat Fr)) ↔
      ∃ htHash, ⟨sessionId', rand', certHash', binding, dvrfExporter', htHash⟩ ∈
        c.generateConstraints (m := Sat Fr) :=
  ⟨fun ⟨_, h⟩ => exists_second_opening h .., fun ⟨_, h⟩ => exists_second_opening h ..⟩

/-! ### The public inputs of a run -/

theorem assigns_mimc7RoundGadget (key state : LinComb Fr) (c : Fr) :
    Synth.Assigns [] (mimc7RoundGadget key state c : Synth Fr _) :=
  (assigns_mul _ _).bind fun _ => (assigns_mul _ _).bind fun _ =>
    (assigns_mul _ _).bind fun _ => assigns_mul _ _

theorem assigns_mimc7SpongeGadget (inputs : List (LinComb Fr)) (constants : Vector Fr mimcRounds) :
    Synth.Assigns [] (mimc7SpongeGadget inputs constants : Synth Fr _) := by
  refine assigns_foldlM (fun state x => ?_) inputs _
  have henc : Synth.Assigns [] (mimc7EncGadget (Gadgets.fpAdd (m := Synth Fr) state x)
      (Gadgets.fpConstant (m := Synth Fr) 0) constants : Synth Fr _) :=
    (assigns_foldlM (fun _ _ => assigns_mimc7RoundGadget _ _ _) _ _).bind fun _ => assigns_pure _
  exact henc.bind fun _ => assigns_pure _

/-- **A prover's run assigns the public inputs** in order. -/
theorem assigns_generateConstraints :
    Synth.Assigns c.publicInputs (c.generateConstraints (m := Synth Fr)) := by
  have hinput : ∀ x : Fr, Synth.Assigns [x] (Gadgets.fpNewInput x : Synth Fr _) :=
    fun x => (assigns_newInputVariable x).bind fun _ => assigns_pure _
  have hwit : ∀ x : Fr, Synth.Assigns [] (Gadgets.fpNewWitness x : Synth Fr _) :=
    fun x => (assigns_newWitnessVariable x).bind fun _ => assigns_pure _
  exact (hinput _).bind fun _ => (hinput _).bind fun _ => (hinput _).bind fun _ =>
    (hinput _).bind fun _ => (hwit _).bind fun _ => (hwit _).bind fun _ =>
      (assigns_mimc7SpongeGadget _ _).bind fun _ =>
        (assigns_enforceConstraint _ _ _).bind fun _ => assigns_pure _

end HspCircuit

/-! ### The circuit of a transcript -/

structure BindingCircuit where
  (sessionIdFe randFe hspCommitmentFe qpTranscriptFe bindingDigest pgpCommitmentFe : Fr)

structure BindingWires (Fp : Type) where
  (sessionId rand hspCommit qpTranscript binding pgpCommit : Fp)

def BindingWires.inputs {Fp : Type} (w : BindingWires Fp) : List Fp :=
  [w.sessionId, w.rand, w.hspCommit, w.qpTranscript, w.pgpCommit]

namespace BindingCircuit

def generateConstraints {m : Type → Type} {Bit Fp : Type} [Monad m] [FieldGadgets m Fr Bit Fp]
    (c : BindingCircuit) : m (BindingWires Fp) := do
  let sessionId ← Gadgets.fpNewInput c.sessionIdFe
  let rand ← Gadgets.fpNewInput c.randFe
  let hspCommit ← Gadgets.fpNewInput c.hspCommitmentFe
  let qpTranscript ← Gadgets.fpNewInput c.qpTranscriptFe
  let binding ← Gadgets.fpNewInput c.bindingDigest
  let pgpCommit ← Gadgets.fpNewWitness c.pgpCommitmentFe
  let w : BindingWires Fp := ⟨sessionId, rand, hspCommit, qpTranscript, binding, pgpCommit⟩
  let computed ← mimc7SpongeGadget w.inputs (mimcConstants r)
  Gadgets.fpEnforceEqual computed binding
  return w

theorem mem_generateConstraints {c : BindingCircuit} {w : BindingWires Fr} :
    w ∈ c.generateConstraints (m := Sat Fr) ↔
      mimc7Sponge w.inputs (mimcConstants r) = w.binding := by
  obtain ⟨_, _, _, _, _, _⟩ := w
  simp [-bind_pure_comp, generateConstraints, mimc7SpongeGadget_eq]

end BindingCircuit

end TlsAttestation.Zk
