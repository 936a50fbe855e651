import TlsAttestation.Crypto.Dvrf
import TlsAttestation.Crypto.DvrfSecp256k1

/-!
# Nonces across evaluations

A nonce that signs twice gives the key share away. The nonces of a participant depend on its key and
on `α` alone, the package also on everyone else. So a pair of nonces signs one package if the calls
for one `α` have the same participants, or, on secp256k1, if the calls with a common partial
evaluation are the same.
-/

namespace TlsAttestation

open ByteEncoding Collect Fallible Frost FrostDvRF
open List hiding Vector

/-! ### The log -/

structure ShareUse (F G : Type) [Zero F] where
  key : KeyPackage F G
  nonces : SigningNonces F
  package : SigningPackage F G

/-- A key share uses its nonces for one package only. -/
def NonceSafe {F G : Type} [Zero F] (log : List (ShareUse F G)) : Prop :=
  ∀ u ∈ log, ∀ v ∈ log, u.key = v.key → u.nonces = v.nonces → u.package = v.package

/-! ### The seeds of the nonces -/

section

variable {F : Type} {draw : F → Bytes32 → SigningNonces F} {preimages : Set Bytes}

/-- Nonces are drawn for a share from a seed, which is a hash of a string. Neither the hash nor the
generator collides on these strings. -/
structure SeedsApart (draw : F → Bytes32 → SigningNonces F) (preimages : Set Bytes) :
    Prop where
  hash : NoCollision preimages
  rng : ∀ share, Set.InjOn (draw share) {seed | ∃ b ∈ preimages, seed = Sha2.sha256 b}

theorem SeedsApart.eq (h : SeedsApart draw preimages) {a b : Bytes} (ha : a ∈ preimages)
    (hb : b ∈ preimages) {s : F}
    (hdraw : draw s (Sha2.sha256 a) = draw s (Sha2.sha256 b)) : a = b :=
  h.hash ha hb (congrArg DigestBytes.fromBytes (h.rng s ⟨a, ha, rfl⟩ ⟨b, hb, rfl⟩ hdraw))

/-- Two strings are apart as soon as the nonces drawn for them are. -/
theorem SeedsApart.of_pair [Inhabited F] {a b : Bytes}
    (hne : ∀ share, draw share (Sha2.sha256 a) ≠ draw share (Sha2.sha256 b))
    (hsub : preimages ⊆ {a, b}) : SeedsApart draw preimages := by
  refine ⟨(NoCollision.of_ne fun h => hne default ?_).mono hsub, fun share => ?_⟩
  · exact congrArg (fun d : DigestBytes => draw default d.asBytes) h
  · refine (Set.injOn_pair.2 fun h => absurd h (hne share)).mono ?_
    rintro _ ⟨c, hc, rfl⟩
    rcases hsub hc with rfl | rfl
    · exact .inl rfl
    · exact .inr rfl

end

section

variable {F G : Type} [Field F] [DecidableEq F] [AddCommGroup G] [DecidableEq G] [Module F G]

/-! ### Evaluations in one call -/

namespace FrostDvRF

structure Call (F G : Type) [Zero F] where
  alpha : DvRFInput
  participants : List (FrostParticipant F G)

variable (C : FrostCrates F G) (groupKey : FrostGroupKey F G)

def evaluateUses (c : Call F G) : List (ShareUse F G) :=
  if c.participants = [] then []
  else match signingPackage C groupKey c.alpha c.participants with
    | .error _ => []
    | .ok package =>
      (turns (shareEntry C package) (round1Outputs C c.alpha c.participants)).map fun o =>
        ⟨o.1.keyPackage, o.2.1, package⟩

def runUses (calls : List (Call F G)) : List (ShareUse F G) :=
  calls.flatMap (evaluateUses C groupKey)

variable {C groupKey}

theorem exists_of_mem_evaluateUses {c : Call F G} {u : ShareUse F G}
    (hu : u ∈ evaluateUses C groupKey c) :
    ∃ p ∈ c.participants, u.key = p.keyPackage ∧
      u.nonces = (p.round1Dvrf C c.alpha.bytes.asBytes.toList).1 ∧
      signingPackage C groupKey c.alpha c.participants = .ok u.package := by
  unfold evaluateUses at hu
  split at hu
  · simp at hu
  · split at hu
    · simp at hu
    · next package hpkg =>
      obtain ⟨o, ho, rfl⟩ := mem_map.1 hu
      obtain ⟨p, hp, rfl⟩ := mem_map.1 (turns_subset _ _ ho)
      exact ⟨p, hp, rfl, rfl, hpkg⟩

theorem exists_mem_evaluateUses {c : Call F G} {o : DvRFOutput}
    (h : evaluate C groupKey c.alpha c.participants = .ok o) {p : FrostParticipant F G}
    (hp : p ∈ c.participants) :
    ∃ u ∈ evaluateUses C groupKey c, u.key = p.keyPackage ∧
      u.nonces = (p.round1Dvrf C c.alpha.bytes.asBytes.toList).1 := by
  simp only [evaluate, do_eq_ok] at h
  obtain ⟨_, hne, package, hpkg, entries, hents, -⟩ := h
  refine ⟨⟨p.keyPackage, (p.round1Dvrf C c.alpha.bytes.asBytes.toList).1, package⟩, ?_, rfl, rfl⟩
  simp only [evaluateUses, if_neg hne, hpkg, turns_eq_self hents]
  exact mem_map.2 ⟨_, mem_map.2 ⟨p, hp, rfl⟩, rfl⟩

def packageEntries (C : FrostCrates F G) (groupKey : FrostGroupKey F G) (alpha : DvRFInput)
    (participants : List (FrostParticipant F G)) : List (Identifier F × SigningCommitments G) :=
  participants.filterMap fun p => (groupKey.verifierToIdentifier p.verifierId).map fun id =>
    (id, (p.round1Dvrf C alpha.bytes.asBytes.toList).2.inner)

omit [DecidableEq G] in
theorem signingPackage_eq_ok {alpha : DvRFInput} {participants : List (FrostParticipant F G)}
    {package : SigningPackage F G}
    (h : signingPackage C groupKey alpha participants = .ok package) :
    package =
      ⟨collect (packageEntries C groupKey alpha participants), alpha.bytes.asBytes.toList⟩ := by
  simp only [signingPackage, buildSigningPackage, do_eq_ok, collectCommitments_eq_ok, round1Outputs,
    map_map, forall₂_map_left_iff, FrostCommitment.fromBytes_eq_ok, Function.comp_apply,
    C.parseCommitments_json] at h
  obtain ⟨_, ⟨_, ⟨cs, hcs, rfl⟩, rfl⟩, rfl⟩ := h
  have hents : packageEntries C groupKey alpha participants =
      cs.map fun c => (c.identifier, c.inner) := by
    unfold packageEntries
    induction hcs with
    | nil => rfl
    | cons hc _ ih =>
      obtain ⟨hid, -, hinner⟩ := hc
      simp only [filterMap_cons, hid, Option.map_some, hinner, ih, map_cons]
  rw [hents]

def OneKeyGroup (groupKey : FrostGroupKey F G) (members : List (FrostParticipant F G)) : Prop :=
  ∀ p ∈ members, ∀ q ∈ members,
    groupKey.verifierToIdentifier p.verifierId = groupKey.verifierToIdentifier q.verifierId → p = q

omit [DecidableEq F] [DecidableEq G] in
theorem functional_packageEntries {members participants : List (FrostParticipant F G)}
    (hgroup : OneKeyGroup groupKey members) (hsub : participants ⊆ members) (alpha : DvRFInput) :
    Functional (packageEntries C groupKey alpha participants) := by
  intro id c d hc hd
  simp only [packageEntries, mem_filterMap, Option.map_eq_some_iff, Prod.mk.injEq] at hc hd
  obtain ⟨p, hp, _, hpid, rfl, rfl⟩ := hc
  obtain ⟨q, hq, _, hqid, rfl, rfl⟩ := hd
  rw [hgroup p (hsub hp) q (hsub hq) (hpid.trans hqid.symm)]

omit [DecidableEq G] in
/-- The package depends on the set of participants only. -/
theorem signingPackage_congr {members ps qs : List (FrostParticipant F G)}
    (hgroup : OneKeyGroup groupKey members) (hps : ps ⊆ members) (hpq : ∀ p, p ∈ ps ↔ p ∈ qs)
    {alpha : DvRFInput} {package package' : SigningPackage F G}
    (h : signingPackage C groupKey alpha ps = .ok package)
    (h' : signingPackage C groupKey alpha qs = .ok package') : package = package' := by
  rw [signingPackage_eq_ok h, signingPackage_eq_ok h',
    collect_congr (functional_packageEntries hgroup hps alpha)]
  intro e
  simp only [packageEntries, mem_filterMap, hpq]

/-- Neither the hash of the seeds nor the generator collides in these calls. -/
def SeedsInjective (C : FrostCrates F G) (calls : List (Call F G)) : Prop :=
  SeedsApart (fun share seed => C.nonces share (C.stdRng seed)) {b | ∃ c ∈ calls,
    ∃ p ∈ c.participants, b = p.dvrfNonceSeedPreimage C c.alpha.bytes.asBytes.toList}

omit [DecidableEq F] [DecidableEq G] in
theorem SeedsInjective.alpha_eq {calls : List (Call F G)} (h : SeedsInjective C calls)
    {c c' : Call F G} (hc : c ∈ calls) (hc' : c' ∈ calls) {p q : FrostParticipant F G}
    (hp : p ∈ c.participants) (hq : q ∈ c'.participants) (hkey : p.keyPackage = q.keyPackage)
    (hnonces : (p.round1Dvrf C c.alpha.bytes.asBytes.toList).1 =
      (q.round1Dvrf C c'.alpha.bytes.asBytes.toList).1) : c.alpha = c'.alpha := by
  have hpre : p.dvrfNonceSeedPreimage C c.alpha.bytes.asBytes.toList =
      q.dvrfNonceSeedPreimage C c'.alpha.bytes.asBytes.toList := by
    refine h.eq ⟨c, hc, p, hp, rfl⟩ ⟨c', hc', q, hq, rfl⟩ (s := p.keyPackage.signingShare) ?_
    simpa only [FrostParticipant.round1Dvrf, FrostParticipant.round1,
      FrostParticipant.dvrfNonceSeed, hkey] using hnonces
  simp only [FrostParticipant.dvrfNonceSeedPreimage, hkey] at hpre
  have hbytes := append_cancel_left hpre
  simp only [lengthPrefixed, Vector.length_toList] at hbytes
  have halpha := Vector.toList_inj.1 (append_cancel_left hbytes)
  exact DvRFInput.bytes_injective (DigestBytes.asBytes_injective halpha)

/-- Calls for one input that share a participant have the same participants. -/
def SameSigners (calls : List (Call F G)) : Prop :=
  ∀ c ∈ calls, ∀ c' ∈ calls, c.alpha = c'.alpha →
    (∃ p ∈ c.participants, ∃ q ∈ c'.participants, p.keyPackage = q.keyPackage) →
      ∀ p, p ∈ c.participants ↔ p ∈ c'.participants

/-- Same nonces, hence same input, same participants, same package. -/
theorem nonceSafe_runUses {calls : List (Call F G)}
    (hgroup : OneKeyGroup groupKey (calls.flatMap (·.participants)))
    (hseeds : SeedsInjective C calls) (hsame : SameSigners calls) :
    NonceSafe (runUses C groupKey calls) := by
  intro u hu v hv hkey hnonces
  obtain ⟨c, hc, hu⟩ := mem_flatMap.1 hu
  obtain ⟨c', hc', hv⟩ := mem_flatMap.1 hv
  obtain ⟨p, hp, hpkey, hpnonces, hpkg⟩ := exists_of_mem_evaluateUses hu
  obtain ⟨q, hq, hqkey, hqnonces, hpackage'⟩ := exists_of_mem_evaluateUses hv
  have hpq : p.keyPackage = q.keyPackage := hpkey.symm.trans (hkey.trans hqkey)
  have halpha : c.alpha = c'.alpha :=
    hseeds.alpha_eq hc hc' hp hq hpq (hpnonces.symm.trans (hnonces.trans hqnonces))
  have hmem := hsame c hc c' hc' halpha ⟨p, hp, q, hq, hpq⟩
  rw [← halpha] at hpackage'
  have hsub : c.participants ⊆ calls.flatMap (·.participants) :=
    fun x hx => mem_flatMap.2 ⟨c, hc, hx⟩
  exact signingPackage_congr hgroup hsub hmem hpkg hpackage'

end FrostDvRF

/-! ### Evaluations in two calls -/

namespace Secp256k1Dvrf

/-- A call of `partialEval`, or of `combine` on earlier results by number. -/
inductive Call (F G : Type) [Zero F] where
  | partialEval (participant : Secp256k1FrostParticipant F G) (input : Secp256k1DvrfInput)
  | combine (groupKey : Secp256k1GroupKey F G) (input : Secp256k1DvrfInput) (taken : List ℕ)
      (participants : List (Secp256k1FrostParticipant F G))

structure Combined (F G : Type) [Zero F] where
  input : Secp256k1DvrfInput
  partialEvals : List (Secp256k1PartialEval F G)
  participants : List (Secp256k1FrostParticipant F G)

structure State (F G : Type) [Zero F] where
  pool : List (Option (Secp256k1PartialEval F G))
  combined : List (Combined F G)

def takeFrom : List ℕ → List (Option (Secp256k1PartialEval F G)) →
    List (Secp256k1PartialEval F G) × List (Option (Secp256k1PartialEval F G))
  | [], pool => ([], pool)
  | i :: is, pool =>
    match pool[i]? with
    | some (some pe) =>
      let rest := takeFrom is (pool.set i none)
      (pe :: rest.1, rest.2)
    | _ => takeFrom is pool

variable (C : Secp256k1Crates F G)

def step (st : State F G) : Call F G → State F G
  | .partialEval p input =>
    match partialEval C p input with
    | .ok pe => { st with pool := st.pool ++ [some pe] }
    | .error _ => st
  | .combine _ input taken participants =>
    let t := takeFrom taken st.pool
    ⟨t.2, st.combined ++ [⟨input, t.1, participants⟩]⟩

variable (calls : List (Call F G))

def run : State F G := calls.foldl (step C) ⟨[], []⟩

def combineUses (c : Combined F G) : List (ShareUse F G) :=
  let package := combinePackage c.input c.partialEvals
  (turns (round2Share C package) (c.partialEvals.zip c.participants)).map fun e =>
    ⟨e.2.keyPackage, e.1.nonces, package⟩

def runUses : List (ShareUse F G) :=
  (run C calls).combined.flatMap (combineUses C)

/-! Every partial evaluation in a run was returned by a call. -/

def State.All (P : Secp256k1PartialEval F G → Prop) (st : State F G) : Prop :=
  (∀ pe, some pe ∈ st.pool → P pe) ∧ ∀ c ∈ st.combined, ∀ pe ∈ c.partialEvals, P pe

variable {P : Secp256k1PartialEval F G → Prop}

omit [DecidableEq F] [AddCommGroup G] [DecidableEq G] [Module F G] in
theorem takeFrom_subset :
    ∀ (taken : List ℕ) (pool : List (Option (Secp256k1PartialEval F G))),
      (∀ pe, some pe ∈ pool → P pe) →
      (∀ pe ∈ (takeFrom taken pool).1, P pe) ∧ ∀ pe, some pe ∈ (takeFrom taken pool).2 → P pe
  | [], pool, h => ⟨by simp [takeFrom], h⟩
  | i :: is, pool, h => by
    unfold takeFrom
    split
    · next pe hpe =>
      have hset : ∀ pe', some pe' ∈ pool.set i none → P pe' := by
        intro pe' hmem
        rcases mem_or_eq_of_mem_set hmem with hmem | hmem
        · exact h pe' hmem
        · exact absurd hmem (by simp)
      obtain ⟨htaken, hrest⟩ := takeFrom_subset is _ hset
      refine ⟨?_, hrest⟩
      rintro pe' (_ | ⟨_, hmem⟩)
      · exact h pe (mem_of_getElem? hpe)
      · exact htaken pe' hmem
    · exact takeFrom_subset is pool h

omit [DecidableEq F] [DecidableEq G] in
theorem State.All.step {st : State F G} (h : st.All P) {call : Call F G}
    (hcall : ∀ p input pe, call = .partialEval p input → partialEval C p input = .ok pe → P pe) :
    (step C st call).All P := by
  obtain ⟨hpool, hcomb⟩ := h
  cases call with
  | partialEval p input =>
    refine ⟨fun pe hpe => ?_, hcomb⟩
    rcases mem_append.1 hpe with hpe | hpe
    · exact hpool pe hpe
    · obtain rfl := Option.some.inj (mem_singleton.1 hpe)
      exact hcall p input _ rfl rfl
  | combine groupKey input taken participants =>
    obtain ⟨htaken, hrest⟩ := takeFrom_subset taken st.pool hpool
    refine ⟨hrest, fun c hc pe hpe => ?_⟩
    rcases mem_append.1 hc with hc | hc
    · exact hcomb c hc pe hpe
    · obtain rfl := mem_singleton.1 hc
      exact htaken pe hpe

omit [DecidableEq F] [DecidableEq G] in
theorem all_run :
    (run C calls).All fun pe =>
      ∃ p input, Call.partialEval p input ∈ calls ∧ partialEval C p input = .ok pe := by
  refine List.foldlRecOn calls _ ⟨by simp, by simp⟩ fun st h call hmem => h.step C ?_
  rintro p input pe rfl hpe
  exact ⟨p, input, hmem, hpe⟩

/-! Runs without reuse. -/

variable {C}

/-- One key group: identifiers tell participants apart. -/
def OneKeyGroup : Prop :=
  ∀ p q i j, Call.partialEval p i ∈ calls → Call.partialEval q j ∈ calls →
    p.keyPackage.identifier = q.keyPackage.identifier → p = q

variable (C) in
/-- Neither the hash of the seeds nor the generator collides in these calls. -/
def SeedsInjective : Prop :=
  SeedsApart (fun share seed => C.nonces share (C.stdRng seed)) {b | ∃ p i,
    Call.partialEval p i ∈ calls ∧ b = p.dvrfNonceSeedPreimage C i.alpha.asBytes.toList}

omit [DecidableEq F] [DecidableEq G] in
theorem SeedsInjective.input_eq {calls : List (Call F G)} (h : SeedsInjective C calls)
    {p : Secp256k1FrostParticipant F G} {i j : Secp256k1DvrfInput}
    (hi : Call.partialEval p i ∈ calls) (hj : Call.partialEval p j ∈ calls)
    (hnonces : (p.round1Dvrf C i.alpha.asBytes.toList).1 =
      (p.round1Dvrf C j.alpha.asBytes.toList).1) : i = j := by
  have hpre := h.eq ⟨p, i, hi, rfl⟩ ⟨p, j, hj, rfl⟩ (s := p.keyPackage.signingShare) hnonces
  have hbytes := append_cancel_left hpre
  simp only [lengthPrefixed, Vector.length_toList] at hbytes
  have halpha := DigestBytes.asBytes_injective (Vector.toList_inj.1 (append_cancel_left hbytes))
  obtain ⟨a⟩ := i
  exact congrArg Secp256k1DvrfInput.mk halpha

/-- **Calls of `combine` that share a partial evaluation are alike**, and none has two of one
participant. -/
structure SameSigners (combined : List (Combined F G)) : Prop where
  functional : ∀ c ∈ combined,
    Functional (c.partialEvals.map fun pe => (pe.commitment.identifier, pe.commitment.inner))
  same : ∀ c ∈ combined, ∀ c' ∈ combined, (∃ pe ∈ c.partialEvals, pe ∈ c'.partialEvals) →
    c.input = c'.input ∧ ∀ pe, pe ∈ c.partialEvals ↔ pe ∈ c'.partialEvals

theorem exists_of_mem_combineUses {c : Combined F G} {u : ShareUse F G} (hu : u ∈ combineUses C c) :
    u.package = combinePackage c.input c.partialEvals ∧
      ∃ pe ∈ c.partialEvals, pe.commitment.identifier = u.key.identifier ∧
        pe.commitment.inner = C.commitments u.nonces := by
  obtain ⟨e, he, rfl⟩ := mem_map.1 hu
  refine ⟨rfl, ?_⟩
  obtain ⟨z, hz⟩ := exists_ok_of_mem_turns he
  simp only [round2Share, Secp256k1FrostParticipant.round2, do_eq_ok] at hz
  obtain ⟨z, hsign, -⟩ := hz
  have hmem := mem_of_lookup_collect (Ciphersuite.lookup_of_sign_eq_ok hsign)
  simp only [map_map, mem_map, Function.comp_apply, Prod.mk.injEq] at hmem
  obtain ⟨pe, hpe, hid, hinner⟩ := hmem
  exact ⟨pe, hpe, hid, hinner⟩

omit [AddCommGroup G] [DecidableEq G] [Module F G] in
theorem combinePackage_congr {input : Secp256k1DvrfInput} {ps qs : List (Secp256k1PartialEval F G)}
    (hps : Functional (ps.map fun pe => (pe.commitment.identifier, pe.commitment.inner)))
    (h : ∀ pe, pe ∈ ps ↔ pe ∈ qs) : combinePackage input ps = combinePackage input qs := by
  simp only [combinePackage, secp256k1BuildSigningPackage, map_map, Function.comp_def]
  rw [collect_congr hps]
  intro e
  simp only [mem_map, h]

/-- Two shares with the same nonces have a partial evaluation in common. -/
theorem nonceSafe_runUses {calls : List (Call F G)} (hgroup : OneKeyGroup calls)
    (hseeds : SeedsInjective C calls) (hsame : SameSigners (run C calls).combined) :
    NonceSafe (runUses C calls) := by
  intro u hu v hv hkey hnonces
  obtain ⟨c, hc, hu⟩ := mem_flatMap.1 hu
  obtain ⟨c', hc', hv⟩ := mem_flatMap.1 hv
  obtain ⟨hupackage, pe, hpe, hid, hinner⟩ := exists_of_mem_combineUses hu
  obtain ⟨hvpackage, pe', hpe', hid', hinner'⟩ := exists_of_mem_combineUses hv
  have hshared : pe = pe' := by
    obtain ⟨p, i, hcall, hok⟩ := (all_run C calls).2 c hc pe hpe
    obtain ⟨q, j, hcall', hok'⟩ := (all_run C calls).2 c' hc' pe' hpe'
    obtain rfl := Except.ok.inj hok
    obtain rfl := Except.ok.inj hok'
    obtain rfl : p = q := hgroup p q i j hcall hcall'
      (by rw [hkey] at hid; exact hid.trans hid'.symm)
    have hcomm : C.commitments (p.round1Dvrf C i.alpha.asBytes.toList).1 =
        C.commitments (p.round1Dvrf C j.alpha.asBytes.toList).1 := by
      rw [hnonces] at hinner
      exact hinner.trans hinner'.symm
    rw [hseeds.input_eq hcall hcall' (C.commitments_injective hcomm)]
  obtain ⟨hinput, hmem⟩ := hsame.same c hc c' hc' ⟨pe, hpe, hshared ▸ hpe'⟩
  rw [hupackage, hvpackage, ← hinput]
  exact combinePackage_congr (hsame.functional c hc) hmem

end Secp256k1Dvrf

/-- **Nonces are not reused when the signers for an input do not change**, in every sequence of
`evaluate` calls, and in every one of `partialEval` and `combine` calls. -/
theorem nonceSafe_of_sameSigners {C : FrostCrates F G} {groupKey : FrostGroupKey F G}
    {calls : List (FrostDvRF.Call F G)}
    (hgroup : FrostDvRF.OneKeyGroup groupKey (calls.flatMap (·.participants)))
    (hseeds : FrostDvRF.SeedsInjective C calls) (hsame : FrostDvRF.SameSigners calls)
    {D : Secp256k1Crates F G} {calls' : List (Secp256k1Dvrf.Call F G)}
    (hgroup' : Secp256k1Dvrf.OneKeyGroup calls') (hseeds' : Secp256k1Dvrf.SeedsInjective D calls')
    (hsame' : Secp256k1Dvrf.SameSigners (Secp256k1Dvrf.run D calls').combined) :
    NonceSafe (runUses C groupKey calls) ∧ NonceSafe (Secp256k1Dvrf.runUses D calls') :=
  ⟨nonceSafe_runUses hgroup hseeds hsame, Secp256k1Dvrf.nonceSafe_runUses hgroup' hseeds' hsame'⟩

end

/-! ### Small runs -/

namespace FrostDvRF

def toyCalls : List (Call Toy Toy) :=
  [⟨toyAlpha, [toyParticipant .alice, toyParticipant .bob]⟩,
    ⟨toyAlpha, [toyParticipant .alice, toyParticipant .carol]⟩]

theorem keys_signingPackage {F G : Type} [Field F] [DecidableEq F] [AddCommGroup G] [Module F G]
    {C : FrostCrates F G} {groupKey : FrostGroupKey F G} {alpha : DvRFInput}
    {participants : List (FrostParticipant F G)} {package : SigningPackage F G}
    (h : signingPackage C groupKey alpha participants = .ok package) :
    package.signingCommitments.keys =
      (participants.filterMap fun p => groupKey.verifierToIdentifier p.verifierId).toFinset := by
  rw [signingPackage_eq_ok h, keys_collect, packageEntries, map_filterMap]
  simp [Function.comp_def]

/-- The common participant signs both packages with the same nonces. -/
theorem not_nonceSafe_toyCalls : ¬ NonceSafe (runUses toyCrates toyGroupKey toyCalls) := by
  intro hsafe
  obtain ⟨u, hu, hukey, hunonces⟩ := exists_mem_evaluateUses
    (c := ⟨toyAlpha, [toyParticipant .alice, toyParticipant .bob]⟩) evaluate_toy_first_two
    (p := toyParticipant .alice) (by simp)
  obtain ⟨v, hv, hvkey, hvnonces⟩ := exists_mem_evaluateUses
    (c := ⟨toyAlpha, [toyParticipant .alice, toyParticipant .carol]⟩) evaluate_toy_outer_two
    (p := toyParticipant .alice) (by simp)
  have hpkg : u.package = v.package :=
    hsafe u (List.mem_flatMap.2 ⟨_, by simp [toyCalls], hu⟩)
      v (List.mem_flatMap.2 ⟨_, by simp [toyCalls], hv⟩)
      (hukey.trans hvkey.symm) (hunonces.trans hvnonces.symm)
  -- the first package is for the identifiers 1 and 2, the second for 1 and 3
  obtain ⟨_, _, _, _, hup⟩ := exists_of_mem_evaluateUses hu
  obtain ⟨_, _, _, _, hvp⟩ := exists_of_mem_evaluateUses hv
  have hkeys := congrArg (fun package => package.signingCommitments.keys) hpkg
  simp only [keys_signingPackage hup, keys_signingPackage hvp] at hkeys
  exact absurd hkeys (by decide)

/-- Two evaluations of one input by the same participants, in another order. -/
def steadyCalls : List (Call Toy Toy) :=
  [⟨toyAlpha, [toyParticipant .alice, toyParticipant .bob]⟩,
    ⟨toyAlpha, [toyParticipant .bob, toyParticipant .alice]⟩]

theorem oneKeyGroup_steadyCalls :
    OneKeyGroup toyGroupKey (steadyCalls.flatMap (·.participants)) := by
  unfold OneKeyGroup
  decide

theorem sameSigners_steadyCalls : SameSigners steadyCalls := by
  intro c hc c' hc' _ _ p
  simp only [steadyCalls, mem_cons, not_mem_nil, or_false] at hc hc'
  rcases hc with rfl | rfl <;> rcases hc' with rfl | rfl <;> simp [or_comm]

/-- In the small group, seeds that differ modulo 101 give different nonces. -/
theorem seedsApart_toy {n k : ℕ} {rng : Bytes32 → Bytes32}
    {preimages : Set Bytes} {a b : Bytes} (hsub : preimages ⊆ {a, b})
    (hne : (ofBeBytes (Sha2.sha256 a).toList : Toy) ≠ (ofBeBytes (Sha2.sha256 b).toList : Toy)) :
    SeedsApart (fun share seed => (toySuite n k).nonces share (seed, rng seed)) preimages :=
  .of_pair (fun _ h => hne (add_left_cancel (congrArg SigningNonces.hidingNonce h))) hsub

set_option maxRecDepth 100000 in
theorem seedsInjective_steadyCalls : SeedsInjective toyCrates steadyCalls := by
  refine seedsApart_toy
    (a := (toyParticipant .alice).dvrfNonceSeedPreimage toyCrates toyAlpha.bytes.asBytes.toList)
    (b := (toyParticipant .bob).dvrfNonceSeedPreimage toyCrates toyAlpha.bytes.asBytes.toList)
    ?_ (by decide +kernel)
  rintro _ ⟨c, hc, p, hp, rfl⟩
  simp only [steadyCalls, mem_cons, not_mem_nil, or_false] at hc
  rcases hc with rfl | rfl <;> rcases (by simpa using hp) with rfl | rfl <;> simp

end FrostDvRF

namespace Secp256k1Dvrf

def toyCrates : Secp256k1Crates Toy Toy where
  toCiphersuite := toySuite 32 31
  stdRng seed := (seed, seed.map (· + 1))

def toyParticipant (i : ToyMember) : Secp256k1FrostParticipant Toy Toy :=
  ⟨(FrostDvRF.toyParticipant i).keyPackage, (FrostDvRF.toyParticipant i).verifierId⟩

def toyInput : Secp256k1DvrfInput := ⟨.zero⟩

/-- Two partial evaluations of one input, combined once. -/
def pooledCalls : List (Call Toy Toy) :=
  [.partialEval (toyParticipant .alice) toyInput, .partialEval (toyParticipant .bob) toyInput,
    .combine ⟨toyGroupKey.pubKeyPackage, toyGroupKey.verifierToId⟩ toyInput
      [0, 1] [toyParticipant .alice, toyParticipant .bob]]

theorem oneKeyGroup_pooledCalls : OneKeyGroup pooledCalls := by
  intro p q i j hp hq hid
  simp only [pooledCalls, mem_cons, not_mem_nil, or_false, reduceCtorEq,
    Call.partialEval.injEq] at hp hq
  rcases hp with ⟨rfl, -⟩ | ⟨rfl, -⟩ <;> rcases hq with ⟨rfl, -⟩ | ⟨rfl, -⟩
  · rfl
  · exact absurd hid (by decide)
  · exact absurd hid (by decide)
  · rfl

set_option maxRecDepth 100000 in
theorem seedsInjective_pooledCalls : SeedsInjective toyCrates pooledCalls := by
  refine seedsApart_toy
    (a := (toyParticipant .alice).dvrfNonceSeedPreimage toyCrates toyInput.alpha.asBytes.toList)
    (b := (toyParticipant .bob).dvrfNonceSeedPreimage toyCrates toyInput.alpha.asBytes.toList)
    ?_ (by decide +kernel)
  rintro _ ⟨p, i, h, rfl⟩
  simp only [pooledCalls, mem_cons, not_mem_nil, or_false, reduceCtorEq,
    Call.partialEval.injEq] at h
  rcases h with ⟨rfl, rfl⟩ | ⟨rfl, rfl⟩ <;> simp

def toyEval (i : ToyMember) : Secp256k1PartialEval Toy Toy :=
  let out := (toyParticipant i).round1Dvrf toyCrates toyInput.alpha.asBytes.toList
  ⟨(toyParticipant i).verifierId, out.2, out.1⟩

theorem run_pooledCalls : (run toyCrates pooledCalls).combined =
    [⟨toyInput, [toyEval .alice, toyEval .bob],
      [toyParticipant .alice, toyParticipant .bob]⟩] := rfl

theorem sameSigners_pooledCalls : SameSigners (run toyCrates pooledCalls).combined := by
  rw [run_pooledCalls]
  constructor
  · intro c hc id d e hd he
    rw [mem_singleton.1 hc] at hd he
    simp only [map_cons, map_nil, mem_cons, not_mem_nil, or_false, Prod.mk.injEq] at hd he
    rcases hd with ⟨rfl, rfl⟩ | ⟨rfl, rfl⟩ <;> rcases he with ⟨h, rfl⟩ | ⟨h, rfl⟩
    · rfl
    · exact absurd h (by decide : ToyMember.alice.id ≠ ToyMember.bob.id)
    · exact absurd h (by decide : ToyMember.bob.id ≠ ToyMember.alice.id)
    · rfl
  · rintro c hc d hd -
    rw [mem_singleton.1 hc, mem_singleton.1 hd]
    exact ⟨rfl, fun _ => Iff.rfl⟩

end Secp256k1Dvrf

theorem nonceSafe_steadyCalls : NonceSafe (runUses toyCrates toyGroupKey steadyCalls) ∧
      NonceSafe (Secp256k1Dvrf.runUses Secp256k1Dvrf.toyCrates Secp256k1Dvrf.pooledCalls) :=
  nonceSafe_of_sameSigners oneKeyGroup_steadyCalls seedsInjective_steadyCalls
    sameSigners_steadyCalls Secp256k1Dvrf.oneKeyGroup_pooledCalls
    Secp256k1Dvrf.seedsInjective_pooledCalls Secp256k1Dvrf.sameSigners_pooledCalls

end TlsAttestation
