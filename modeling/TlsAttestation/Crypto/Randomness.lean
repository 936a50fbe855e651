import TlsAttestation.Crypto.Dvrf
import TlsAttestation.Crypto.DvrfSecp256k1
import Mathlib.Data.List.Sort

/-!
# Engines for distributed randomness

`tls_attestation_crypto::randomness`: a verified output should be one that `generate` returns
(`RandomnessEngine.VerifySound`). `PrototypeDvrf` recomputes (`PrototypeDvrf.verifySound_iff`).
`Secp256k1DvrfEngine` compares the binding only, and is not sound with fewer than 256 participants
(`Secp256k1DvrfEngine.not_verifySound_of_length_lt`).
-/

namespace TlsAttestation

open ByteEncoding Fallible Frost
open List hiding Vector

/-! ### The trait -/

structure PartialRandomness where
  verifierId : VerifierId
  contribution : DigestBytes
deriving DecidableEq

structure RandomnessOutput where
  id : RandomnessId
  sessionId : SessionId
  epoch : Epoch
  value : DigestBytes
  partials : List PartialRandomness
  sessionBinding : DigestBytes
deriving DecidableEq

structure RandomnessEngine where
  generate : RandomnessId → SessionId → Nonce → Epoch → List VerifierId →
    Except CryptoError RandomnessOutput
  verify : RandomnessOutput → Nonce → Except CryptoError Unit

namespace RandomnessEngine

def Generates (engine : RandomnessEngine) (sessionId : SessionId) (nonce : Nonce) (epoch : Epoch)
    (value : DigestBytes) : Prop :=
  ∃ participants ≠ [], ∀ id, ∃ output,
    engine.generate id sessionId nonce epoch participants = .ok output ∧ output.value = value

/-- A verified output is correctly derived. -/
def VerifySound (engine : RandomnessEngine) : Prop :=
  ∀ (output : RandomnessOutput) (nonce : Nonce), engine.verify output nonce = .ok () →
    engine.Generates output.sessionId nonce output.epoch output.value

end RandomnessEngine

def sessionBinding (sessionId : SessionId) (nonce : Nonce) : DigestBytes :=
  (CanonicalHasher.new "tls-attestation/session-binding/v1")
    |>.updateFixed sessionId.asBytes
    |>.updateFixed nonce.asBytes
    |>.finalize

/-! ### The prototype -/

structure PrototypeDvrf where
  secrets : Finmap fun _ : VerifierId => Bytes32

namespace PrototypeDvrf

variable (sessionId : SessionId) (nonce : Nonce)

def computeContribution (verifierId : VerifierId) (secret : Bytes32) : DigestBytes :=
  (CanonicalHasher.new "tls-attestation/dvrf-contribution/v1")
    |>.updateFixed sessionId.asBytes
    |>.updateFixed nonce.asBytes
    |>.updateFixed verifierId.asBytes
    |>.updateFixed secret
    |>.finalize

def before (a b : PartialRandomness) : Prop :=
  a.verifierId.asBytes.toList ≤ b.verifierId.asBytes.toList

instance decidableRel_before : DecidableRel before :=
  fun a b => inferInstanceAs (Decidable (a.verifierId.asBytes.toList ≤ b.verifierId.asBytes.toList))

/-- **Combine contributions**: sort, xor, hash. -/
def combine (partials : List PartialRandomness) : DigestBytes :=
  let sorted := partials.insertionSort before
  let xorResult := sorted.foldl (fun acc p => acc.xorWith p.contribution) DigestBytes.zero
  sha256Tagged "tls-attestation/dvrf-combine/v1" xorResult.asBytes.toList

variable (d : PrototypeDvrf)

def contribute (verifierId : VerifierId) : Except CryptoError PartialRandomness := do
  let secret ← okOr (d.secrets.lookup verifierId) (.unknownVerifier verifierId.display)
  return ⟨verifierId, computeContribution sessionId nonce verifierId secret⟩

def generate (id : RandomnessId) (sessionId : SessionId) (nonce : Nonce)
    (epoch : Epoch) (participants : List VerifierId) : Except CryptoError RandomnessOutput := do
  ensure (participants ≠ []) (.insufficientContributions 1 0)
  let partials ← participants.mapM (d.contribute sessionId nonce)
  return {
    id, sessionId, epoch, partials
    value := combine partials
    sessionBinding := TlsAttestation.sessionBinding sessionId nonce }

def recompute (p : PartialRandomness) : Except CryptoError PartialRandomness := do
  let expected ← d.contribute sessionId nonce p.verifierId
  ensure (p.contribution = expected.contribution)
    (.randomnessVerificationFailed s!"contribution from {p.verifierId.display} is incorrect")
  return expected

def verify (output : RandomnessOutput) (nonce : Nonce) :
    Except CryptoError Unit := do
  ensure (output.sessionBinding = TlsAttestation.sessionBinding output.sessionId nonce)
    (.randomnessVerificationFailed "session binding mismatch")
  let recomputedPartials ← output.partials.mapM (d.recompute output.sessionId nonce)
  ensure (output.value = combine recomputedPartials)
    (.randomnessVerificationFailed "combined randomness value is incorrect")

def engine : RandomnessEngine := ⟨d.generate, d.verify⟩

variable {d : PrototypeDvrf} {sessionId : SessionId} {nonce : Nonce} {epoch : Epoch}

theorem contribute_eq_ok {v : VerifierId} {p : PartialRandomness} :
    d.contribute sessionId nonce v = .ok p ↔ ∃ secret, d.secrets.lookup v = some secret ∧
        ⟨v, computeContribution sessionId nonce v secret⟩ = p := by
  simp only [contribute, do_eq_ok]

theorem recompute_eq_ok {p q : PartialRandomness} :
    d.recompute sessionId nonce p = .ok q ↔
      d.contribute sessionId nonce p.verifierId = .ok p ∧ p = q := by
  simp only [recompute, do_eq_ok, contribute_eq_ok]
  constructor
  · rintro ⟨_, ⟨secret, hsec, rfl⟩, _, hcontribution, rfl⟩
    have hp : ⟨p.verifierId, computeContribution sessionId nonce p.verifierId secret⟩ = p :=
      congrArg (PartialRandomness.mk p.verifierId) hcontribution.symm
    exact ⟨⟨secret, hsec, hp⟩, hp.symm⟩
  · rintro ⟨⟨secret, hsec, hp⟩, rfl⟩
    exact ⟨p, ⟨secret, hsec, hp⟩, (), rfl, rfl⟩

/-- **A loop over known verifiers** gives what was given. -/
theorem mapM_recompute_eq_ok {partials qs : List PartialRandomness} :
    partials.mapM (d.recompute sessionId nonce) = .ok qs ↔
      (partials.map (·.verifierId)).mapM (d.contribute sessionId nonce) = .ok partials ∧
        partials = qs := by
  simp only [mapM_eq_ok, forall₂_map_left_iff, recompute_eq_ok]
  induction partials generalizing qs with
  | nil => cases qs <;> simp
  | cons p ps ih =>
    cases qs with
    | nil => simp
    | cons q qs =>
      simp only [forall₂_cons, ih, List.cons.injEq]
      tauto

theorem generate_eq_ok {id : RandomnessId} {participants : List VerifierId}
    {output : RandomnessOutput} :
    d.generate id sessionId nonce epoch participants = .ok output ↔ participants ≠ [] ∧ ∃ partials,
        participants.mapM (d.contribute sessionId nonce) = .ok partials ∧
        ⟨id, sessionId, epoch, combine partials, partials, sessionBinding sessionId nonce⟩ =
          output := by
  simp only [generate, do_eq_ok, exists_const]

/-- **A verified output** is of known verifiers. -/
theorem verify_eq_ok {output : RandomnessOutput} {u : Unit} :
    d.verify output nonce = .ok u ↔ output.sessionBinding = sessionBinding output.sessionId nonce ∧
        (output.partials.map (·.verifierId)).mapM (d.contribute output.sessionId nonce) =
          .ok output.partials ∧
        output.value = combine output.partials := by
  simp only [verify, do_eq_ok, mapM_recompute_eq_ok, exists_const]
  constructor
  · rintro ⟨hbind, _, ⟨hparts, rfl⟩, hvalue⟩
    exact ⟨hbind, hparts, hvalue⟩
  · rintro ⟨hbind, hparts, hvalue⟩
    exact ⟨hbind, _, ⟨hparts, rfl⟩, hvalue⟩

theorem combine_pair (p : PartialRandomness) : combine [p, p] = combine [] := by
  have hsorted : [p, p].insertionSort before = [p, p] :=
    perm_replicate.1 (perm_insertionSort before (List.replicate 2 p))
  have hnil : ([] : List PartialRandomness).insertionSort before = [] := rfl
  simp only [combine, hsorted, hnil, foldl_cons, foldl_nil, DigestBytes.xorWith_xorWith_self]

/-- **The prototype is sound** exactly if it knows a verifier. -/
theorem verifySound_iff : d.engine.VerifySound ↔ d.secrets ≠ ∅ := by
  constructor
  · rintro hsound hempty
    -- With no secrets the output without contributions verifies, and nothing is generated.
    obtain ⟨participants, hne, hgen⟩ := hsound
      ⟨.fromBytes (.replicate 16 0), .fromBytes (.replicate 16 0), ⟨0⟩, combine [], [],
        sessionBinding (.fromBytes (.replicate 16 0)) (.fromBytes (.replicate 32 0))⟩
      (.fromBytes (.replicate 32 0)) (verify_eq_ok.2 ⟨rfl, rfl, rfl⟩)
    obtain ⟨output, hout, -⟩ := hgen (.fromBytes (.replicate 16 0))
    obtain ⟨-, partials, hparts, -⟩ := generate_eq_ok.1 hout
    obtain ⟨v, vs, rfl⟩ := exists_cons_of_ne_nil hne
    rcases mapM_eq_ok.1 hparts with _ | ⟨hv, -⟩
    obtain ⟨secret, hsec, -⟩ := contribute_eq_ok.1 hv
    rw [hempty, Finmap.lookup_empty] at hsec
    exact absurd hsec (by simp)
  · intro hsecrets output nonce hver
    obtain ⟨-, hparts, hvalue⟩ := verify_eq_ok.1 hver
    by_cases hnil : output.partials = []
    · -- No contributions: the value is that of any known verifier listed twice.
      obtain ⟨v, hv⟩ : ∃ v, v ∈ d.secrets := by
        by_contra hnone
        refine hsecrets (Finmap.ext_lookup fun v => ?_)
        rw [Finmap.lookup_empty, Finmap.lookup_eq_none]
        exact fun hv => hnone ⟨v, hv⟩
      obtain ⟨secret, hsec⟩ := Finmap.mem_iff.1 hv
      have hcontr : d.contribute output.sessionId nonce v = .ok _ :=
        contribute_eq_ok.2 ⟨secret, hsec, rfl⟩
      have htwice := mapM_eq_ok.2 (.cons hcontr (.cons hcontr .nil))
      refine ⟨[v, v], by simp, fun id => ⟨_, generate_eq_ok.2 ⟨by simp, _, htwice, rfl⟩, ?_⟩⟩
      rw [hvalue, hnil]
      exact combine_pair _
    · refine ⟨output.partials.map (·.verifierId), by simpa using hnil, fun id => ?_⟩
      exact ⟨_, generate_eq_ok.2 ⟨by simpa using hnil, _, hparts, rfl⟩, hvalue.symm⟩

end PrototypeDvrf

/-! ### The engine on secp256k1 -/

structure Secp256k1DvrfEngine (F G : Type) [Zero F] where
  threshold : ℕ
  participants : List (Secp256k1FrostParticipant F G)
  groupKey : Secp256k1GroupKey F G
  threshold_le : threshold ≤ participants.length

namespace Secp256k1DvrfEngine

def new {F G : Type} [Zero F] (threshold : ℕ) (participants : List (Secp256k1FrostParticipant F G))
    (groupKey : Secp256k1GroupKey F G) : Except CryptoError (Secp256k1DvrfEngine F G) :=
  if h : threshold ≤ participants.length then .ok ⟨threshold, participants, groupKey, h⟩
  else .error (.insufficientContributions threshold participants.length)

def deriveAlpha (sessionId : SessionId) (nonce : Nonce) : DigestBytes :=
  (CanonicalHasher.new "secp256k1-dvrf/alpha/v1")
    |>.updateFixed sessionId.asBytes
    |>.updateFixed nonce.asBytes
    |>.finalize

def select {F G : Type} [Zero F] (e : Secp256k1DvrfEngine F G) (participants : List VerifierId) :
    List (Secp256k1FrostParticipant F G) :=
  (e.participants.filter fun p => participants.contains p.verifierId).take e.threshold

variable {F G : Type} [Field F] [AddCommGroup G] [Module F G] [DecidableEq F] [DecidableEq G]
  (C : Secp256k1Crates F G) (e : Secp256k1DvrfEngine F G)

def evaluate (input : Secp256k1DvrfInput)
    (selected : List (Secp256k1FrostParticipant F G)) : Except CryptoError Secp256k1DvrfOutput := do
  let partialEvals ← selected.mapM fun p => Secp256k1Dvrf.partialEval C p input
  Secp256k1Dvrf.combine C e.groupKey input partialEvals selected

def generate (id : RandomnessId) (sessionId : SessionId)
    (nonce : Nonce) (epoch : Epoch) (participants : List VerifierId) :
    Except CryptoError RandomnessOutput := do
  let selected := e.select participants
  ensure (e.threshold ≤ selected.length) (.insufficientContributions e.threshold selected.length)
  let dvrfOut ← e.evaluate C ⟨deriveAlpha sessionId nonce⟩ selected
  return {
    id, sessionId, epoch
    value := dvrfOut.rand
    partials := []
    sessionBinding := TlsAttestation.sessionBinding sessionId nonce }

def verify (output : RandomnessOutput) (nonce : Nonce) : Except CryptoError Unit :=
  ensure (output.sessionBinding = TlsAttestation.sessionBinding output.sessionId nonce)
    (.randomnessVerificationFailed "session binding mismatch")

def engine : RandomnessEngine := ⟨e.generate C, verify⟩

variable {C} {e : Secp256k1DvrfEngine F G}

/-- **The engine is sound** exactly if it generates every value. -/
theorem verifySound_iff :
    (e.engine C).VerifySound ↔ ∀ (sessionId : SessionId) (nonce : Nonce) (epoch : Epoch)
      (value : DigestBytes), (e.engine C).Generates sessionId nonce epoch value := by
  constructor
  · intro hsound sessionId nonce epoch value
    exact hsound ⟨.fromBytes (.replicate 16 0), sessionId, epoch, value, [],
      sessionBinding sessionId nonce⟩ nonce (ensure_eq_ok.2 rfl)
  · intro hall output nonce _
    exact hall _ _ _ _

/-! ### How many values there are -/

theorem le_length_of_forall_mem {l : List DigestBytes} (h : ∀ d, d ∈ l) :
    256 ^ 32 ≤ l.length := by
  let digestOf (n : ℕ) : DigestBytes :=
    .fromBytes ⟨(beBytes 32 n).toArray, size_toArray_of_length (length_beBytes 32 n)⟩
  have hinj {a b : ℕ} (ha : a < 256 ^ 32) (hb : b < 256 ^ 32) (hab : digestOf a = digestOf b) :
      a = b := by
    refine beBytes_inj ha hb ?_
    simpa [digestOf] using hab
  generalize 256 ^ 32 = n at hinj ⊢
  have hnodup : ((List.range n).map digestOf).Nodup :=
    List.Nodup.map_on (fun a ha b hb => hinj (mem_range.1 ha) (mem_range.1 hb)) nodup_range
  simpa using hnodup.length_le_of_subset fun d _ => h d

theorem exists_sublist_of_generates {sessionId : SessionId} {nonce : Nonce} {epoch : Epoch}
    {value : DigestBytes} (h : (e.engine C).Generates sessionId nonce epoch value) :
    ∃ selected, selected.Sublist e.participants ∧ e.threshold ≤ selected.length ∧ ∃ output,
      e.evaluate C ⟨deriveAlpha sessionId nonce⟩ selected = .ok output ∧ output.rand = value := by
  obtain ⟨participants, -, hgen⟩ := h
  obtain ⟨output, hout, rfl⟩ := hgen (.fromBytes (.replicate 16 0))
  simp only [engine, generate, do_eq_ok, exists_const] at hout
  obtain ⟨hlen, dvrfOut, hevaluate, rfl⟩ := hout
  exact ⟨_, (take_sublist _ _).trans filter_sublist, hlen, dvrfOut, hevaluate, rfl⟩

def values (C : Secp256k1Crates F G) (input : Secp256k1DvrfInput) :
    List DigestBytes :=
  e.participants.sublists.filterMap fun selected =>
    (e.evaluate C input selected).toOption.map (·.rand)

/-- **Fewer than 256 participants are not enough** for all values. -/
theorem not_verifySound_of_length_lt (h : e.participants.length < 256) :
    ¬ (e.engine C).VerifySound := by
  intro hsound
  let input : Secp256k1DvrfInput :=
    ⟨deriveAlpha (.fromBytes (.replicate 16 0)) (.fromBytes (.replicate 32 0))⟩
  have hmem : ∀ value, value ∈ e.values C input := by
    intro value
    obtain ⟨selected, hselected, -, output, hout, rfl⟩ :=
      exists_sublist_of_generates (verifySound_iff.1 hsound _ _ ⟨0⟩ value)
    refine mem_filterMap.2 ⟨selected, mem_sublists.2 hselected, ?_⟩
    rw [hout]
    rfl
  have hmany := le_length_of_forall_mem hmem
  have hfew : (e.values C input).length ≤ 2 ^ e.participants.length := by
    rw [← length_sublists]
    exact length_filterMap_le _ _
  have hlt : 2 ^ e.participants.length < 2 ^ 256 := Nat.pow_lt_pow_right (by omega) h
  have hcard : 2 ^ 256 = 256 ^ 32 := Nat.pow_mul 2 8 32
  exact absurd (hmany.trans hfew) (not_le.2 (hlt.trans_eq hcard))

end Secp256k1DvrfEngine

/-! ### Both engines -/

/-- **What verification is worth**: the prototype is sound exactly if it knows a verifier, the other
engine never with fewer than 256 participants. -/
theorem engines_verifySound_iff {F G : Type} [Field F] [AddCommGroup G] [Module F G] [DecidableEq F]
    [DecidableEq G] (C : Secp256k1Crates F G) (d : PrototypeDvrf) (e : Secp256k1DvrfEngine F G) :
    (d.engine.VerifySound ↔ d.secrets ≠ ∅) ∧
      (e.participants.length < 256 → ¬ (e.engine C).VerifySound) :=
  ⟨PrototypeDvrf.verifySound_iff, Secp256k1DvrfEngine.not_verifySound_of_length_lt⟩

def pairEngine : Secp256k1DvrfEngine Toy Toy where
  threshold := 2
  participants := [FrostDvRF.toyParticipant .alice, FrostDvRF.toyParticipant .bob].map
    fun p => ⟨p.keyPackage, p.verifierId⟩
  groupKey := ⟨FrostDvRF.toyGroupKey.pubKeyPackage, FrostDvRF.toyGroupKey.verifierToId⟩
  threshold_le := le_rfl

def pairCrates : Secp256k1Crates Toy Toy where
  toCiphersuite := toySuite 32 31
  stdRng seed := (seed, seed)

def forgedOutput (value : DigestBytes) : RandomnessOutput :=
  ⟨.fromBytes (.replicate 16 0), .fromBytes (.replicate 16 0), ⟨0⟩, value, [],
    sessionBinding (.fromBytes (.replicate 16 0)) (.fromBytes (.replicate 32 0))⟩

/-- **Two values are verified for one session, and at most one is generated.** The prototype without
secrets verifies, and generates none. -/
theorem exists_forgedOutput :
    (∃ value ∈ [DigestBytes.zero, .fromBytes (.replicate 32 1)],
      (pairEngine.engine pairCrates).verify (forgedOutput value) (.fromBytes (.replicate 32 0)) =
        .ok () ∧
      ¬ (pairEngine.engine pairCrates).Generates (forgedOutput value).sessionId
        (.fromBytes (.replicate 32 0)) (forgedOutput value).epoch value) ∧
      ¬ (PrototypeDvrf.mk ∅).engine.VerifySound := by
  have hver (value : DigestBytes) : (pairEngine.engine pairCrates).verify (forgedOutput value)
      (.fromBytes (.replicate 32 0)) = .ok () := ensure_eq_ok.2 rfl
  refine ⟨?_, fun h => PrototypeDvrf.verifySound_iff.1 h rfl⟩
  by_contra hnone
  have hgenerates : ∀ value ∈ [DigestBytes.zero, .fromBytes (.replicate 32 1)],
      (pairEngine.engine pairCrates).Generates (forgedOutput value).sessionId
        (.fromBytes (.replicate 32 0)) (forgedOutput value).epoch value := by
    intro value hvalue
    by_contra h
    exact hnone ⟨value, hvalue, hver value, h⟩
  obtain ⟨s, hs, hslen, o, ho, hzero⟩ := Secp256k1DvrfEngine.exists_sublist_of_generates
    (hgenerates .zero (by simp))
  obtain ⟨t, ht, htlen, o', ho', hone⟩ := Secp256k1DvrfEngine.exists_sublist_of_generates
    (hgenerates (.fromBytes (.replicate 32 1)) (by simp))
  obtain rfl : s = _ := hs.eq_of_length_le hslen
  obtain rfl : t = _ := ht.eq_of_length_le htlen
  have hsame : o = o' := Except.ok.inj (ho.symm.trans ho')
  rw [hsame, hone] at hzero
  exact absurd hzero (by decide)

end TlsAttestation
