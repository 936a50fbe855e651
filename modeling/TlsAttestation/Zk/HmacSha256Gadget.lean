import TlsAttestation.Zk.Sha256Gadget
import TlsAttestation.Zk.Tls12Hmac

/-!
# HMAC and key derivation of constrained bytes

The key derivation of `Zk.tlsPrfSha256` as gadgets. The output is the one that the **assigned**
inputs have (`Zk.determined_tlsPrfPSha256Constrained`). The random values of the handshake enter
each derivation as fresh variables, which it returns (`Zk.Derivation`); the program drops them.
-/

namespace TlsAttestation.Zk

open Ark ByteEncoding Sha2

section

variable {m : Type → Type} {F Bit Fp : Type} [Monad m] [Gadgets m F Bit Fp]

/-- HMAC of constrained bytes. Longer keys are not supported. -/
def hmacSha256GadgetConstrained (keyVars dataVars : List (UInt8Var Bit)) :
    m (List (UInt8Var Bit)) := do
  if 64 < keyVars.length then Gadgets.fail .assignmentMissing
  else
    let kPadded := keyVars ++ List.replicate (64 - keyVars.length) (constBits m 0)
    let ipadKey ← kPadded.mapM fun b => xorBits b (constBits m 0x36)
    let opadKey ← kPadded.mapM fun b => xorBits b (constBits m 0x5c)
    let innerHash ← sha256FromByteVars (ipadKey ++ dataVars)
    sha256FromByteVars (opadKey ++ innerHash)

def tlsPrfPSha256Constrained (secretVars labelAndSeedVars : List (UInt8Var Bit)) (outputLen : ℕ) :
    m (List (UInt8Var Bit)) :=
  pHash (hmacSha256GadgetConstrained secretVars) labelAndSeedVars outputLen

structure Derivation (Bit : Type) where
  (crVars srVars output : List (UInt8Var Bit))

def tls12MasterSecretConstrained (pmsVars : List (UInt8Var Bit))
    (clientRandom serverRandom : Bytes32) : m (Derivation Bit) := do
  let crVars ← newWitnessBytes clientRandom.toList
  let srVars ← newWitnessBytes serverRandom.toList
  let output ← tlsPrfPSha256Constrained pmsVars
    (constantBytes m labelMasterSecret ++ crVars ++ srVars) 48
  return ⟨crVars, srVars, output⟩

def tls12KeyExpansionConstrained (msVars : List (UInt8Var Bit))
    (clientRandom serverRandom : Bytes32) : m (Derivation Bit) := do
  let srVars ← newWitnessBytes serverRandom.toList
  let crVars ← newWitnessBytes clientRandom.toList
  let output ← tlsPrfPSha256Constrained msVars
    (constantBytes m labelKeyExpansion ++ srVars ++ crVars) 96
  return ⟨crVars, srVars, output⟩

def kMacConstrained (pmsVars : List (UInt8Var Bit)) (clientRandom serverRandom : Bytes32) :
    m (List (UInt8Var Bit)) := do
  let ms ← tls12MasterSecretConstrained pmsVars clientRandom serverRandom
  let keyBlock ← tls12KeyExpansionConstrained ms.output clientRandom serverRandom
  return keyBlock.output.take 32

end

/-! ### Readings that agree -/

section

variable {m m' : Type → Type} {F Bit Bit' Fp Fp' : Type} [Monad m] [Monad m'] [LawfulMonad m]
  [LawfulMonad m'] [Gadgets m F Bit Fp] [Gadgets m' F Bit' Fp'] (S : Simulation m m')
  {xs data : List (UInt8Var Bit)} {ys data' : List (UInt8Var Bit')}

/-- A key is not too long, or readings agree that it is. -/
def ShortOrAgree (n : ℕ) : Prop :=
  n ≤ 64 ∨ S.Run S.BytesRel (Gadgets.fail (m := m) .assignmentMissing)
    (Gadgets.fail (m := m') .assignmentMissing)

theorem simulate_hmacSha256GadgetConstrained (h : S.BytesRel xs ys)
    (hshort : ShortOrAgree S xs.length) (hdata : S.BytesRel data data') :
    S.Run S.BytesRel (hmacSha256GadgetConstrained xs data)
      (hmacSha256GadgetConstrained ys data') := by
  rw [hmacSha256GadgetConstrained, hmacSha256GadgetConstrained, ← h.length_eq]
  split
  · next hlong => exact hshort.resolve_left (by omega)
  · have hzeros : S.BytesRel (List.replicate (64 - xs.length) (constBits m (0 : BitVec 8)))
        (List.replicate (64 - xs.length) (constBits m' 0)) := by
      refine List.forall₂_iff_get.2 ⟨by simp, fun i hi hi' => ?_⟩
      simpa using S.constBits 0
    have hxor (w : BitVec 8) := S.mapM
      (fun (a : UInt8Var Bit) b hab => S.xorBits hab (S.constBits w)) (List.rel_append h hzeros)
    exact S.bind (hxor 0x36) fun _ _ hipad => S.bind (hxor 0x5c) fun _ _ hopad =>
      S.bind (simulate_sha256FromByteVars S (List.rel_append hipad hdata)) fun _ _ hinner =>
      simulate_sha256FromByteVars S (List.rel_append hopad hinner)

theorem simulate_tlsPrfPSha256Constrained (h : S.BytesRel xs ys)
    (hshort : ShortOrAgree S xs.length) (hdata : S.BytesRel data data') (n : ℕ) :
    S.Run (fun out out' => S.BytesRel out out' ∧ out.length ≤ n)
      (tlsPrfPSha256Constrained xs data n) (tlsPrfPSha256Constrained ys data' n) := by
  have hhmac {a : List (UInt8Var Bit)} {a' : List (UInt8Var Bit')} (ha : S.BytesRel a a') :=
    simulate_hmacSha256GadgetConstrained S h hshort ha
  -- the induction is on the turns that are left
  have hloop (fuel : ℕ) : ∀ {a out : List (UInt8Var Bit)} {a' out' : List (UInt8Var Bit')},
      S.BytesRel a a' → S.BytesRel out out' →
      S.Run S.BytesRel (pHashLoop (hmacSha256GadgetConstrained xs) data n fuel a out)
        (pHashLoop (hmacSha256GadgetConstrained ys) data' n fuel a' out') := by
    induction fuel with
    | zero => exact fun _ hout => S.pure hout
    | succ fuel ih =>
      intro a out a' out' ha hout
      rw [pHashLoop, pHashLoop, hout.length_eq]
      split
      · exact S.bind (hhmac ha) fun _ _ hnext => S.bind (hhmac (List.rel_append hnext hdata))
          fun _ _ hblock => ih hnext (List.rel_append hout hblock)
      · exact S.pure hout
  exact S.bind (hloop n hdata .nil) fun out out' hout =>
    S.pure ⟨List.forall₂_take n hout, List.length_take_le n out⟩

variable {cr sr cr' sr' : Bytes32} (h : S.BytesRel xs ys) (hshort : ShortOrAgree S xs.length)
  (hcr : S.Run S.BytesRel (newWitnessBytes cr.toList) (newWitnessBytes cr'.toList))
  (hsr : S.Run S.BytesRel (newWitnessBytes sr.toList) (newWitnessBytes sr'.toList))

include h hshort hcr hsr

theorem simulate_tls12MasterSecretConstrained :
    S.Run (fun d d' => S.BytesRel d.output d'.output ∧ d.output.length ≤ 48)
      (tls12MasterSecretConstrained xs cr sr) (tls12MasterSecretConstrained ys cr' sr') :=
  S.bind hcr fun _ _ hcr => S.bind hsr fun _ _ hsr =>
    S.bind (simulate_tlsPrfPSha256Constrained S h hshort
      (List.rel_append (List.rel_append (simulate_constantBytes S _) hcr) hsr) 48)
    fun _ _ hout => S.pure hout

theorem simulate_tls12KeyExpansionConstrained :
    S.Run (fun d d' => S.BytesRel d.output d'.output)
      (tls12KeyExpansionConstrained xs cr sr) (tls12KeyExpansionConstrained ys cr' sr') :=
  S.bind hsr fun _ _ hsr => S.bind hcr fun _ _ hcr =>
    S.bind (simulate_tlsPrfPSha256Constrained S h hshort
      (List.rel_append (List.rel_append (simulate_constantBytes S _) hsr) hcr) 96)
    fun _ _ hout => S.pure hout.1

end

/-! ### Correctness -/

variable {F : Type} [Zero F] [One F] [Add F] [Mul F]

/-- In every satisfying assignment, the output is the HMAC. -/
theorem determined_hmacSha256GadgetConstrained {keyVars : List (UInt8Var Wire)}
    (hkey : keyVars.length ≤ 64) (dataVars : List (UInt8Var Wire)) :
    Determined (hmacSha256GadgetConstrained (m := Sat F) keyVars dataVars) fun out =>
      ∀ side, out.map (byteOn side) =
        (hmacSha256 (keyVars.map (byteOn side)) (dataVars.map (byteOn side))).toList := by
  set kPadded := keyVars ++ List.replicate (64 - keyVars.length) (constBits (Sat F) 0)
  have hpad : ∀ side, kPadded.map (byteOn side) = hmacKey (keyVars.map (byteOn side)) := by
    intro side
    rw [hmacKey_of_length_le (by simpa using hkey), List.map_append, List.map_replicate,
      List.length_map]
    congr 2
    exact byteOn_constBits side 0
  rw [hmacSha256GadgetConstrained, if_neg (by omega)]
  refine (determined_mapM_xorByte _ kPadded).bind fun ipadKey hipad =>
    (determined_mapM_xorByte _ kPadded).bind fun opadKey hopad =>
    (determined_sha256FromByteVars _).bind fun innerHash hinner =>
    (determined_sha256FromByteVars _).mono fun out hout side => ?_
  have hi : byteOn side (constBits (Sat F) 0x36) = 0x36 := byteOn_constBits side 0x36
  have ho : byteOn side (constBits (Sat F) 0x5c) = 0x5c := byteOn_constBits side 0x5c
  rw [hout, List.map_append, hopad, hpad, hinner, List.map_append, hipad, hpad, hi, ho,
    hmacSha256, hmacOuter]

theorem determined_tlsPrfPSha256Constrained {secretVars : List (UInt8Var Wire)}
    (hsec : secretVars.length ≤ 64) (labelVars seedVars : List (UInt8Var Wire)) (outputLen : ℕ) :
    Determined (tlsPrfPSha256Constrained (m := Sat F) secretVars (labelVars ++ seedVars)
      outputLen) fun out => ∀ side, out.map (byteOn side) =
        tlsPrfSha256 (secretVars.map (byteOn side)) (labelVars.map (byteOn side))
          (seedVars.map (byteOn side)) outputLen := by
  let hmac : Side → Bytes → Bytes := fun side a =>
    (hmacSha256 (secretVars.map (byteOn side)) a).toList
  have hhmac : ∀ xs, Determined (hmacSha256GadgetConstrained (m := Sat F) secretVars xs)
      fun out => ∀ side, out.map (byteOn side) = hmac side (xs.map (byteOn side)) :=
    fun xs => determined_hmacSha256GadgetConstrained hsec xs
  refine (determined_pHash hhmac _ outputLen).mono fun out hout side => ?_
  rw [hout, List.map_append]
  rfl

/-! ### Derivations -/

theorem length_le_of_mem_tlsPrf {secretVars labelAndSeedVars out : List (UInt8Var Wire)} {n : ℕ}
    (h : out ∈ tlsPrfPSha256Constrained (m := Sat F) secretVars labelAndSeedVars (n + 1)) :
    secretVars.length ≤ 64 := by
  by_contra hlong
  rw [tlsPrfPSha256Constrained, pHash, pHashLoop, if_pos (by simp), Sat.mem_bind] at h
  obtain ⟨_, h, -⟩ := h
  obtain ⟨_, hfail, -⟩ := Sat.mem_bind.1 h
  rw [hmacSha256GadgetConstrained, if_pos (by omega)] at hfail
  exact hfail

/-- The pseudorandom function pins its output down. -/
theorem mem_tlsPrfPSha256Constrained {secretVars labelVars seedVars out : List (UInt8Var Wire)}
    {n : ℕ} :
    out ∈ tlsPrfPSha256Constrained (m := Sat F) secretVars (labelVars ++ seedVars) (n + 1) ↔
      secretVars.length ≤ 64 ∧ ∀ side, bytesOn side out =
        tlsPrfSha256 (bytesOn side secretVars) (bytesOn side labelVars) (bytesOn side seedVars)
          (n + 1) := by
  constructor
  · intro h
    have hlen := length_le_of_mem_tlsPrf h
    exact ⟨hlen, (determined_tlsPrfPSha256Constrained hlen labelVars seedVars (n + 1)).of_mem h⟩
  · rintro ⟨hlen, h⟩
    refine ((determined_tlsPrfPSha256Constrained hlen labelVars seedVars (n + 1)).mem_iff ?_).2 h
    exact fun _ _ ha hb => ext_bytesOn fun side => (ha side).trans (hb side).symm

variable {secretVars : List (UInt8Var Wire)} {cr sr : Bytes32} {d : Derivation Wire}

theorem mem_tls12MasterSecretConstrained :
    d ∈ tls12MasterSecretConstrained (m := Sat F) secretVars cr sr ↔
      bytesOn .native d.crVars = cr.toList ∧ bytesOn .native d.srVars = sr.toList ∧
        secretVars.length ≤ 64 ∧
        ∀ side, bytesOn side d.output = tlsPrfSha256 (bytesOn side secretVars) labelMasterSecret
          (bytesOn side d.crVars ++ bytesOn side d.srVars) 48 := by
  obtain ⟨crVars, srVars, output⟩ := d
  simp [-bind_pure_comp, tls12MasterSecretConstrained, mem_newWitnessBytes,
    mem_tlsPrfPSha256Constrained, bytesOn, map_byteOn_constantBytes]

theorem mem_tls12KeyExpansionConstrained :
    d ∈ tls12KeyExpansionConstrained (m := Sat F) secretVars cr sr ↔
      bytesOn .native d.crVars = cr.toList ∧ bytesOn .native d.srVars = sr.toList ∧
        secretVars.length ≤ 64 ∧
        ∀ side, bytesOn side d.output = tlsPrfSha256 (bytesOn side secretVars) labelKeyExpansion
          (bytesOn side d.srVars ++ bytesOn side d.crVars) 96 := by
  obtain ⟨crVars, srVars, output⟩ := d
  simp [-bind_pure_comp, tls12KeyExpansionConstrained, mem_newWitnessBytes,
    mem_tlsPrfPSha256Constrained, bytesOn, map_byteOn_constantBytes, and_left_comm]

/-- **The constrained derivation computes `K_MAC`** of 48 bytes: it can be satisfied, and only so.
-/
theorem kMacConstrained_eq (F : Type) [Zero F] [One F] [Add F] [Mul F]
    (pmsVars : List (UInt8Var Wire)) (hlen : pmsVars.length = 48) (cr sr : Bytes32) :
    (∃ out, out ∈ kMacConstrained (m := Sat F) pmsVars cr sr) ∧
      ∀ out ∈ kMacConstrained (m := Sat F) pmsVars cr sr, bytesOn .native out =
        deriveKMacFromPms (bytesOn .native pmsVars) cr.toList sr.toList := by
  have hconst := map_byteOn_constantBytes (F := F)
  simp only [kMacConstrained, Sat.mem_bind, Sat.mem_pure,
    mem_tls12MasterSecretConstrained, mem_tls12KeyExpansionConstrained]
  constructor
  · obtain ⟨ms, hms⟩ : ∃ ms, ∀ side, bytesOn side ms = tlsPrfSha256 (bytesOn side pmsVars)
        labelMasterSecret (cr.toList ++ sr.toList) 48 :=
      ⟨_, bytesOn_byteWires (by simp only [length_tlsPrfSha256])⟩
    obtain ⟨kb, hkb⟩ : ∃ kb, ∀ side, bytesOn side kb = tlsPrfSha256 (bytesOn side ms)
        labelKeyExpansion (sr.toList ++ cr.toList) 96 :=
      ⟨_, bytesOn_byteWires (by simp only [length_tlsPrfSha256])⟩
    have hmsLen : ms.length = 48 := by
      simpa only [List.length_map, length_tlsPrfSha256] using congrArg List.length (hms .native)
    refine ⟨_, ⟨constantBytes (Sat F) cr.toList, constantBytes (Sat F) sr.toList, ms⟩,
      ⟨hconst _ _, hconst _ _, by omega, ?_⟩,
      ⟨constantBytes (Sat F) cr.toList, constantBytes (Sat F) sr.toList, kb⟩,
      ⟨hconst _ _, hconst _ _, hmsLen.trans_le (by decide), ?_⟩, rfl⟩
    · simpa only [bytesOn, hconst] using hms
    · simpa only [bytesOn, hconst] using hkb
  · rintro _ ⟨ms, ⟨hcr, hsr, -, hms⟩, kb, ⟨hcr', hsr', -, hkb⟩, rfl⟩
    rw [bytesOn, List.map_take]
    change (bytesOn .native kb.output).take 32 = _
    rw [hkb, hms, hcr, hsr, hcr', hsr', deriveKMacFromPms, tls12KeyExpansion]
    exact take_tlsPrfSha256 _ _ _ (by decide) (by decide)

theorem exists_kMacConstrained_zero : ∃ out ∈ kMacConstrained (m := Sat ℤ)
    (constantBytes (Sat ℤ) (List.replicate 48 0)) (.replicate 32 0) (.replicate 32 0),
      bytesOn .native out =
        deriveKMacFromPms (List.replicate 48 0) (List.replicate 32 0) (List.replicate 32 0) := by
  obtain ⟨⟨out, hout⟩, heq⟩ := kMacConstrained_eq ℤ
    (constantBytes (Sat ℤ) (List.replicate 48 0)) (by simp [constantBytes])
    (.replicate 32 0) (.replicate 32 0)
  refine ⟨out, hout, (heq out hout).trans ?_⟩
  rw [bytesOn, map_byteOn_constantBytes, Vector.toList_replicate]

end TlsAttestation.Zk
