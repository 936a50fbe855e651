import TlsAttestation.Crypto.Dkg
import TlsAttestation.Crypto.DvrfSecp256k1
import TlsAttestation.Lib.Panics
import TlsAttestation.Lib.TrustedDealer

/-!
# Key shares from a dealer

The functions of `tls_attestation_crypto` in which one party makes the keys of all. The number of
participants is cast to 16 bits. Where the cast loses something, `frostTrustedDealerKeygen` is out
of bounds and `secp256k1TrustedDealerKeygen` returns an error. What the crate promises is
`DealerCrates.Lawful`.
-/

namespace TlsAttestation

open Collect Fallible Frost List

inductive IdentifierList (F : Type) [Zero F] where
  | default
  | custom (identifiers : List (Identifier F))

/-- The crates of a dealer. The shares are in the order of their `BTreeMap`. -/
structure DealerCrates (F G : Type) [Field F] where
  /-- The function `Identifier::try_from`. -/
  identifierTryFrom : UInt16 → Except String (Identifier F)
  /-- What the dealer draws. -/
  Random : Type
  SecretShare : Type
  /-- The function `keys::generate_with_dealer`. -/
  generateWithDealer : (maxSigners minSigners : UInt16) → IdentifierList F → Random →
    Except String ((AList fun _ : Identifier F => SecretShare) × PublicKeyPackage F G)
  /-- The function `KeyPackage::try_from`. -/
  keyPackageTryFrom : SecretShare → Except String (KeyPackage F G)

/-- What is documented of the crates. -/
structure DealerCrates.Lawful {F G : Type} [Field F] (E : DealerCrates F G) : Prop where
  /-- Only zero is not an identifier. -/
  exists_identifier : ∀ n : UInt16, n ≠ 0 → ∃ id, E.identifierTryFrom n = .ok id
  /-- Different numbers are different identifiers. -/
  identifier_injective : ∀ {m n : UInt16} {id : Identifier F},
    E.identifierTryFrom m = .ok id → E.identifierTryFrom n = .ok id → m = n
  /-- There are shares if the numbers of signers make sense. -/
  exists_default : ∀ {maxSigners minSigners : UInt16} (random : E.Random),
    2 ≤ minSigners → minSigners ≤ maxSigners →
      ∃ r, E.generateWithDealer maxSigners minSigners .default random = .ok r
  /-- The same for a list of the right length. -/
  exists_custom : ∀ {maxSigners minSigners : UInt16} {ids : List (Identifier F)}
    (random : E.Random), 2 ≤ minSigners → minSigners ≤ maxSigners →
      ids.length = maxSigners.toNat → ids.Nodup →
      ∃ r, E.generateWithDealer maxSigners minSigners (.custom ids) random = .ok r
  /-- Other numbers of signers are refused. -/
  signers_le : ∀ {maxSigners minSigners ids random r},
    E.generateWithDealer maxSigners minSigners ids random = .ok r →
      2 ≤ minSigners ∧ minSigners ≤ maxSigners
  /-- There is a share for each of the first numbers. -/
  length_default : ∀ {maxSigners minSigners random shares pub},
    E.generateWithDealer maxSigners minSigners .default random = .ok (shares, pub) →
      shares.keys.length = maxSigners.toNat
  /-- There is a share for each identifier of a list. -/
  mem_custom : ∀ {maxSigners minSigners ids random shares pub},
    E.generateWithDealer maxSigners minSigners (.custom ids) random = .ok (shares, pub) →
      ∀ id ∈ ids, id ∈ shares
  /-- The shares are key packages, under their identifiers. -/
  exists_keyPackage : ∀ {maxSigners minSigners ids random shares pub},
    E.generateWithDealer maxSigners minSigners ids random = .ok (shares, pub) →
      ∀ e ∈ shares.entries, ∃ key, E.keyPackageTryFrom e.2 = .ok key ∧ key.identifier = e.1

section

variable {F G : Type} [Field F] {E : DealerCrates F G}

/-! ### What an assignment is -/

/-- **The participants are told apart**, and the group finds each under its verifier. -/
structure Assigned (participants : List (VerifierId × Identifier F))
    (verifierToId : Finmap fun _ : VerifierId => Identifier F) : Prop where
  nodup : (participants.map Prod.snd).Nodup
  lookup : ∀ p ∈ participants, verifierToId.lookup p.1 = some p.2

theorem assigned_collect_iff {l : List (VerifierId × Identifier F)}
    (hl : (l.map Prod.snd).Nodup) : Assigned l (collect l) ↔ (l.map Prod.fst).Nodup := by
  constructor
  · intro h
    refine (List.Nodup.of_map _ hl).map_on fun p hp q hq hpq => ?_
    have hlookup := h.lookup p hp
    rw [hpq, h.lookup q hq] at hlookup
    exact Prod.ext hpq (Option.some.inj hlookup).symm
  · intro hfst
    refine ⟨hl, fun p hp => lookup_collect_of_mem hp fun id hid => ?_⟩
    exact congrArg Prod.snd (inj_on_of_nodup_map hfst hid hp rfl)

/-- **A call that assigns identifiers**, without a panic. -/
structure AssignsIdentifiers {ε O : Type} (participants : O → List (VerifierId × Identifier F))
    (verifierToId : O → Finmap fun _ : VerifierId => Identifier F) (x : Except (Stop ε) O) :
    Prop where
  noPanic : NoPanic x
  assigned : ∀ o, x = .ok o → Assigned (participants o) (verifierToId o)

theorem map_of_forall₂_zipIdx {α β : Type} {ids : List α} {g : β → α} {vs : List VerifierId} {k : ℕ}
    {ys : List β} (h : Forall₂ (fun v y => ids[v.2]? = some (g y)) (vs.zipIdx k) ys) :
    ys.map g = (ids.drop k).take vs.length ∧ vs.length ≤ (ids.drop k).length := by
  induction vs generalizing k ys with
  | nil =>
    obtain rfl := forall₂_nil_left_iff.1 h
    exact ⟨rfl, Nat.zero_le _⟩
  | cons v vs ih =>
    rw [zipIdx_cons, forall₂_cons_left_iff] at h
    obtain ⟨y, ys, hy, hrest, rfl⟩ := h
    obtain ⟨hk, hy⟩ := List.getElem?_eq_some_iff.1 hy
    obtain ⟨hmap, hle⟩ := ih hrest
    rw [drop_eq_getElem_cons hk, hy, map_cons, hmap, length_cons, take_succ_cons, length_cons]
    exact ⟨rfl, Nat.succ_le_succ hle⟩

/-! ### The FROST adapter -/

structure TrustedDealerKeygenOutput (F G : Type) [Zero F] where
  participants : List (FrostParticipant F G)
  groupKey : FrostGroupKey F G

def TrustedDealerKeygenOutput.identifiers (o : TrustedDealerKeygenOutput F G) :
    List (VerifierId × Identifier F) :=
  o.participants.map fun p => (p.verifierId, p.identifier)

variable (E) in
/-- The identifiers of `1u16..=n`. -/
def dealerIdentifiers (n : UInt16) : Except (Stop CryptoError) (List (Identifier F)) :=
  (List.range' 1 n.toNat).mapM fun i =>
    expect (E.identifierTryFrom (.ofNat i)) "1..=n is a valid non-zero u16"

section

variable [DecidableEq F]

variable (E) in
def dealtParticipant (identifiers : List (Identifier F))
    (shares : AList fun _ : Identifier F => E.SecretShare) (v : VerifierId × ℕ) :
    Except (Stop CryptoError) (FrostParticipant F G) := do
  let frostId ← okOr identifiers[v.2]? (.panic
    s!"index out of bounds: the len is {identifiers.length} but the index is {v.2}")
  let secretShare ← okOr (shares.lookup frostId)
    (.error (.invalidKeyMaterial s!"missing share for FROST identifier {v.2}"))
  let keyPackage ← (E.keyPackageTryFrom secretShare).mapError fun e =>
    .error (.invalidKeyMaterial e)
  return ⟨keyPackage, frostId, v.1⟩

variable (E) in
def dealtParticipants (identifiers : List (Identifier F))
    (shares : AList fun _ : Identifier F => E.SecretShare) (verifierIds : List VerifierId) :
    Except (Stop CryptoError)
      (List (FrostParticipant F G) × Finmap fun _ : VerifierId => Identifier F) :=
  verifierIds.zipIdx.foldlM (fun out v => do
    let p ← dealtParticipant E identifiers shares v
    return (out.1 ++ [p], out.2.insert p.verifierId p.identifier)) ([], ∅)

variable (E) in
/-- Shares of a fresh key; the number of verifiers is cast to 16 bits after the checks. -/
def frostTrustedDealerKeygen (verifierIds : List VerifierId) (threshold : ℕ) (random : E.Random) :
    Except (Stop CryptoError) (TrustedDealerKeygenOutput F G) := do
  let n := verifierIds.length
  ensure (2 ≤ n) (.error (.invalidKeyMaterial s!"FROST requires at least 2 participants (got {n})"))
  ensure (2 ≤ threshold) (.error (.invalidKeyMaterial
    s!"FROST requires threshold >= 2 (got {threshold})"))
  ensure (threshold ≤ n) (.error (.invalidKeyMaterial
    s!"threshold {threshold} exceeds participant count {n}"))
  ensure verifierIds.Nodup (.error (.invalidKeyMaterial "verifier_ids must not contain duplicates"))
  let identifiers ← dealerIdentifiers E (.ofNat n)
  let (shares, pubKeyPackage) ←
    (E.generateWithDealer (.ofNat n) (.ofNat threshold) (.custom identifiers) random).mapError
      fun e => .error (.invalidKeyMaterial e)
  let (participants, verifierToId) ← dealtParticipants E identifiers shares verifierIds
  return ⟨participants, ⟨pubKeyPackage, verifierToId⟩⟩

variable {identifiers : List (Identifier F)} {verifierIds : List VerifierId} {threshold : ℕ}
  {random : E.Random} {shares : AList fun _ : Identifier F => E.SecretShare}
  {pub : PublicKeyPackage F G}

omit [DecidableEq F] in
theorem exists_dealerIdentifiers (hE : E.Lawful) (n : UInt16) :
    ∃ ids, dealerIdentifiers E n = .ok ids ∧ ids.length = n.toNat ∧ ids.Nodup := by
  have hlt := n.toNat_lt
  have htoNat : ∀ i ∈ List.range' 1 n.toNat, (UInt16.ofNat i).toNat = i := by
    intro i hi
    have := mem_range'_1.1 hi
    rw [UInt16.toNat_ofNat', Nat.mod_eq_of_lt (by omega)]
  obtain ⟨ids, hids⟩ := exists_mapM_eq_ok (f := fun i : ℕ =>
    (expect (E.identifierTryFrom (.ofNat i)) "1..=n is a valid non-zero u16" :
      Except (Stop CryptoError) (Identifier F))) (l := List.range' 1 n.toNat) fun i hi => by
    have hne : UInt16.ofNat i ≠ 0 := by
      intro hzero
      have htwo := htoNat i hi
      rw [hzero] at htwo
      have := mem_range'_1.1 hi
      simp at htwo
      omega
    obtain ⟨id, hid⟩ := hE.exists_identifier _ hne
    exact ⟨id, expect_eq_ok.2 hid⟩
  refine ⟨ids, hids, ?_, ?_⟩
  · rw [← (mapM_eq_ok.1 hids).length_eq, length_range']
  · refine nodup_of_mapM hids nodup_range' fun i hi j hj id hiid hjid => ?_
    have heq := hE.identifier_injective (expect_eq_ok.1 hiid) (expect_eq_ok.1 hjid)
    rw [← htoNat i hi, ← htoNat j hj, heq]

variable {maxSigners minSigners : UInt16}

theorem exists_dealtParticipant (hE : E.Lawful)
    (hgen : E.generateWithDealer maxSigners minSigners (.custom identifiers) random =
      .ok (shares, pub)) {v : VerifierId × ℕ} (hv : v.2 < identifiers.length) :
    ∃ p, dealtParticipant E identifiers shares v = .ok p := by
  have hid : identifiers[v.2]? = some identifiers[v.2] := List.getElem?_eq_getElem hv
  have hmem := hE.mem_custom hgen _ (getElem_mem hv)
  obtain ⟨share, hshare⟩ := Option.isSome_iff_exists.1 (AList.lookup_isSome.2 hmem)
  obtain ⟨key, hkey, -⟩ := hE.exists_keyPackage hgen _ (AList.mem_lookup_iff.1 hshare)
  simp only [dealtParticipant, do_eq_ok]
  exact ⟨_, _, hid, share, hshare, key, hkey, rfl⟩

theorem dealtParticipant_eq_ok {v : VerifierId × ℕ} {p : FrostParticipant F G}
    (h : dealtParticipant E identifiers shares v = .ok p) :
    identifiers[v.2]? = some p.identifier ∧ p.verifierId = v.1 := by
  simp only [dealtParticipant, do_eq_ok] at h
  obtain ⟨id, hid, _, -, _, -, rfl⟩ := h
  exact ⟨hid, rfl⟩

theorem dealtParticipants_eq_ok {ps : List (FrostParticipant F G)}
    {m : Finmap fun _ : VerifierId => Identifier F}
    (h : dealtParticipants E identifiers shares verifierIds = .ok (ps, m)) :
    verifierIds.length ≤ identifiers.length ∧
      ps.map (fun p => p.identifier) = identifiers.take verifierIds.length ∧
      ps.map (fun p => p.verifierId) = verifierIds ∧
      m = collect (ps.map fun p => (p.verifierId, p.identifier)) := by
  obtain ⟨ps', hps, hfold⟩ := foldlM_bind_eq_ok.1 h
  have hpair : ∀ (qs l : List (FrostParticipant F G))
      (m : Finmap fun _ : VerifierId => Identifier F),
      qs.foldl (fun out p => (out.1 ++ [p], out.2.insert p.verifierId p.identifier)) (l, m) =
        (l ++ qs, qs.foldl (fun m p => m.insert p.verifierId p.identifier) m) := by
    intro qs
    induction qs with
    | nil => simp
    | cons q qs ih =>
      intro l m
      rw [foldl_cons, foldl_cons, ih, append_assoc]
      rfl
  rw [hpair] at hfold
  obtain ⟨rfl, rfl⟩ := Prod.mk.inj hfold
  obtain ⟨hids, hle⟩ := map_of_forall₂_zipIdx (g := fun p : FrostParticipant F G => p.identifier)
    (hps.imp fun v p hp => (dealtParticipant_eq_ok hp).1)
  refine ⟨by simpa using hle, by simpa using hids, ?_, ?_⟩
  · rw [nil_append, ← zipIdx_map_fst 0 verifierIds, ← forall₂_eq_eq_eq,
      forall₂_map_left_iff, forall₂_map_right_iff]
    exact Forall₂.flip (hps.imp fun v p hp => (dealtParticipant_eq_ok hp).2)
  · rw [collect, foldl_map, nil_append]

theorem assigned_frostTrustedDealerKeygen (hE : E.Lawful) {o : TrustedDealerKeygenOutput F G}
    (h : frostTrustedDealerKeygen E verifierIds threshold random = .ok o) :
    Assigned o.identifiers o.groupKey.verifierToId := by
  simp only [frostTrustedDealerKeygen, do_eq_ok] at h
  obtain ⟨_, -, _, -, _, -, _, hnodup, ids, hids, ⟨shares, pub⟩, -, ⟨ps, m⟩, hloop, rfl⟩ := h
  obtain ⟨ids', hids', -, hidsNodup⟩ := exists_dealerIdentifiers hE (.ofNat verifierIds.length)
  obtain rfl := Except.ok.inj (hids.symm.trans hids')
  obtain ⟨-, hps, hvs, rfl⟩ := dealtParticipants_eq_ok hloop
  refine (assigned_collect_iff ?_).2 ?_
  · change ((ps.map fun p => (p.verifierId, p.identifier)).map Prod.snd).Nodup
    rw [map_map]
    exact hps ▸ hidsNodup.sublist (take_sublist _ _)
  · change ((ps.map fun p => (p.verifierId, p.identifier)).map Prod.fst).Nodup
    rw [map_map]
    exact hvs ▸ hnodup

/-! When the loop runs out of identifiers. -/

theorem noPanic_dealtParticipants (hle : verifierIds.length ≤ identifiers.length) :
    NoPanic (dealtParticipants E identifiers shares verifierIds) := by
  refine noPanic_foldlM (fun out v hv => ?_) ([], ∅)
  have hlt : v.2 < identifiers.length :=
    (snd_lt_of_mem_zipIdx hv).trans_le (by simpa using hle)
  refine NoPanic.bind ?_ fun _ _ => noPanic_pure _
  rw [dealtParticipant, List.getElem?_eq_getElem hlt]
  refine (noPanic_ok _).bind fun _ _ => (noPanic_okOr _ _).bind fun _ _ => ?_
  exact (noPanic_mapError _ _).bind fun _ _ => noPanic_pure _

theorem exists_panic_dealtParticipants (hE : E.Lawful)
    (hgen : E.generateWithDealer maxSigners minSigners (.custom identifiers) random =
      .ok (shares, pub)) (hlt : identifiers.length < verifierIds.length) :
    ∃ message, dealtParticipants E identifiers shares verifierIds = .error (.panic message) := by
  rcases hloop : dealtParticipants E identifiers shares verifierIds with e | ⟨ps, m⟩
  · obtain ⟨out, v, -, hturn⟩ := exists_of_foldlM_error hloop
    by_cases hv : v.2 < identifiers.length
    · obtain ⟨p, hp⟩ := exists_dealtParticipant hE hgen hv
      rw [hp] at hturn
      cases hturn
    · rw [dealtParticipant, List.getElem?_eq_none (Nat.le_of_not_lt hv)] at hturn
      exact ⟨_, congrArg _ (Except.error.inj hturn).symm⟩
  · exact absurd (dealtParticipants_eq_ok hloop).1 (Nat.not_le.2 hlt)

theorem two_le_ofNat_le_ofNat_iff {m n : ℕ} :
    2 ≤ UInt16.ofNat m ∧ UInt16.ofNat m ≤ UInt16.ofNat n ↔
      2 ≤ m % 2 ^ 16 ∧ m % 2 ^ 16 ≤ n % 2 ^ 16 := by
  rw [UInt16.le_iff_toNat_le, UInt16.le_iff_toNat_le, UInt16.toNat_ofNat', UInt16.toNat_ofNat']
  rfl

/-- When the dealer of the FROST adapter is right. -/
theorem assignsIdentifiers_frostTrustedDealerKeygen (hE : E.Lawful) :
    AssignsIdentifiers TrustedDealerKeygenOutput.identifiers (fun o => o.groupKey.verifierToId)
        (frostTrustedDealerKeygen E verifierIds threshold random) ↔
      ¬ (verifierIds.Nodup ∧ 2 ^ 16 ≤ verifierIds.length ∧ threshold ≤ verifierIds.length ∧
        2 ≤ threshold % 2 ^ 16 ∧ threshold % 2 ^ 16 ≤ verifierIds.length % 2 ^ 16) := by
  obtain ⟨ids, hids, hlength, hidsNodup⟩ :=
    exists_dealerIdentifiers hE (.ofNat verifierIds.length)
  have hmod : ids.length = verifierIds.length % 2 ^ 16 := by rw [hlength, UInt16.toNat_ofNat']
  constructor
  · rintro h ⟨hnodup, hmany, hle, hsigners⟩
    obtain ⟨htwo, hcast⟩ := two_le_ofNat_le_ofNat_iff.2 hsigners
    obtain ⟨⟨shares, pub⟩, hgen⟩ := hE.exists_custom random htwo hcast hlength hidsNodup
    have hlt : ids.length < verifierIds.length := by
      have := Nat.mod_lt verifierIds.length (show 0 < 2 ^ 16 by decide)
      omega
    obtain ⟨message, hpanic⟩ := exists_panic_dealtParticipants hE hgen hlt
    have hthr : 2 ≤ threshold := hsigners.1.trans (Nat.mod_le _ _)
    refine h.noPanic message ?_
    simp only [frostTrustedDealerKeygen, ensure, if_pos hthr, if_pos (hthr.trans hle),
      if_pos hle, if_pos hnodup, bind, Except.bind, hids, hgen, Except.mapError, hpanic]
  · intro h
    refine ⟨?_, fun o => assigned_frostTrustedDealerKeygen hE⟩
    refine (noPanic_ensure _ _).bind fun _ _ => (noPanic_ensure _ _).bind fun _ _ => ?_
    refine (noPanic_ensure _ _).bind fun _ hle => (noPanic_ensure _ _).bind fun _ hnodup => ?_
    rw [hids]
    refine (noPanic_ok _).bind fun _ heq => ?_
    obtain rfl := Except.ok.inj heq
    refine (noPanic_mapError _ _).bind fun r hgen => ?_
    have hsigners := two_le_ofNat_le_ofNat_iff.1 (hE.signers_le (mapError_eq_ok.1 hgen))
    refine (noPanic_dealtParticipants ?_).bind fun _ _ => noPanic_pure _
    have hfew : ¬ 2 ^ 16 ≤ verifierIds.length := fun hmany =>
      h ⟨ensure_eq_ok.1 hnodup, hmany, ensure_eq_ok.1 hle, hsigners⟩
    rw [hmod, Nat.mod_eq_of_lt (Nat.lt_of_not_le hfew)]

end

/-! ### The adapter for secp256k1 -/

structure Secp256k1KeygenOutput (F G : Type) [Zero F] where
  participants : List (Secp256k1FrostParticipant F G)
  groupKey : Secp256k1GroupKey F G

def Secp256k1KeygenOutput.identifiers (o : Secp256k1KeygenOutput F G) :
    List (VerifierId × Identifier F) :=
  o.participants.map fun p => (p.verifierId, p.keyPackage.identifier)

variable (E) in
def Secp256k1FrostParticipant.fromSecretShare (secretShare : E.SecretShare)
    (verifierId : VerifierId) : Except CryptoError (Secp256k1FrostParticipant F G) := do
  let keyPackage ← (E.keyPackageTryFrom secretShare).mapError .aggregationFailed
  return ⟨keyPackage, verifierId⟩

def orderedIdentifier (idOrder : List (Identifier F)) (i : ℕ) :
    Except (Stop CryptoError) (Identifier F) := do
  ensure (i < idOrder.length) (.error (.invalidKeyMaterial "id count mismatch"))
  okOr idOrder[i]?
    (.panic s!"index out of bounds: the len is {idOrder.length} but the index is {i}")

def secp256k1VerifierToId (idOrder : List (Identifier F)) (verifierIds : List VerifierId) :
    Except (Stop CryptoError) (Finmap fun _ : VerifierId => Identifier F) :=
  verifierIds.zipIdx.foldlM (fun m v => do
    let id ← orderedIdentifier idOrder v.2
    return m.insert v.1 id) ∅

variable (E) in
def secp256k1Participants (shares : AList fun _ : Identifier F => E.SecretShare)
    (verifierIds : List VerifierId) :
    Except (Stop CryptoError) (List (Secp256k1FrostParticipant F G)) :=
  ((shares.entries.map Sigma.snd).zip verifierIds).mapM fun s =>
    (Secp256k1FrostParticipant.fromSecretShare E s.1 s.2).mapError .error

variable (E) in
/-- The same on secp256k1, without a check for repeated verifiers. -/
def secp256k1TrustedDealerKeygen (verifierIds : List VerifierId) (threshold : ℕ)
    (random : E.Random) : Except (Stop CryptoError) (Secp256k1KeygenOutput F G) := do
  let n := verifierIds.length
  ensure (2 ≤ n) (.error (.invalidKeyMaterial "need at least 2 participants"))
  ensure (¬ (threshold < 2 ∨ n < threshold)) (.error (.invalidKeyMaterial
    s!"threshold must be in [2, n={n}]"))
  let (shares, publicKeyPackage) ←
    (E.generateWithDealer (.ofNat n) (.ofNat threshold) .default random).mapError fun e =>
      .error (.aggregationFailed e)
  let verifierToId ← secp256k1VerifierToId shares.keys verifierIds
  let participants ← secp256k1Participants E shares verifierIds
  return ⟨participants, ⟨publicKeyPackage, verifierToId⟩⟩

section

variable {idOrder : List (Identifier F)} {verifierIds : List VerifierId} {threshold : ℕ}
  {random : E.Random} {shares : AList fun _ : Identifier F => E.SecretShare}
  {pub : PublicKeyPackage F G}

theorem orderedIdentifier_eq_ok {i : ℕ} {id : Identifier F} :
    orderedIdentifier idOrder i = .ok id ↔ idOrder[i]? = some id := by
  simp only [orderedIdentifier, do_eq_ok, exists_const]
  exact and_iff_right_of_imp fun h => (List.getElem?_eq_some_iff.1 h).1

theorem noPanic_orderedIdentifier (i : ℕ) : NoPanic (orderedIdentifier idOrder i) := by
  refine (noPanic_ensure _ _).bind fun _ hi => ?_
  rw [List.getElem?_eq_getElem (ensure_eq_ok.1 hi)]
  exact noPanic_ok _

theorem secp256k1VerifierToId_eq_ok {m : Finmap fun _ : VerifierId => Identifier F} :
    secp256k1VerifierToId idOrder verifierIds = .ok m ↔ verifierIds.length ≤ idOrder.length ∧
        m = collect (verifierIds.zip (idOrder.take verifierIds.length)) := by
  rw [secp256k1VerifierToId, foldlM_insert_eq_ok, zipIdx_map_fst]
  simp only [orderedIdentifier_eq_ok]
  constructor
  · rintro ⟨ids, hids, rfl⟩
    obtain ⟨hmap, hle⟩ := map_of_forall₂_zipIdx (g := id) hids
    rw [map_id, drop_zero] at hmap
    exact ⟨hle, by rw [hmap]⟩
  · rintro ⟨hle, rfl⟩
    refine ⟨_, forall₂_of_length_eq_of_get ?_ fun i hi hi' => ?_, rfl⟩
    · rw [length_zipIdx, length_take, Nat.min_eq_left hle]
    · simp only [length_zipIdx] at hi
      simp [List.getElem?_eq_getElem (hi.trans_le hle)]

theorem secp256k1Participants_eq_ok (hE : E.Lawful) {maxSigners minSigners : UInt16}
    {ids : IdentifierList F}
    (hgen : E.generateWithDealer maxSigners minSigners ids random = .ok (shares, pub))
    (hlength : shares.keys.length = verifierIds.length) :
    ∃ ps, secp256k1Participants E shares verifierIds = .ok ps ∧
      ps.map (fun p => p.keyPackage.identifier) = shares.keys ∧
      ps.map (fun p => p.verifierId) = verifierIds := by
  have hlen : shares.entries.length = verifierIds.length := by
    rw [← hlength, AList.keys, List.keys, length_map]
  have hshare : ∀ s ∈ shares.entries.zip verifierIds, ∃ p : Secp256k1FrostParticipant F G,
      Secp256k1FrostParticipant.fromSecretShare E s.1.2 s.2 = .ok p ∧
        p.keyPackage.identifier = s.1.1 ∧ p.verifierId = s.2 := by
    intro s hs
    obtain ⟨key, hkey, hid⟩ := hE.exists_keyPackage hgen s.1 (of_mem_zip hs).1
    simp only [Secp256k1FrostParticipant.fromSecretShare, do_eq_ok]
    exact ⟨_, ⟨key, hkey, rfl⟩, hid, rfl⟩
  have hturn : ∀ s ∈ shares.entries.zip verifierIds, ∃ p : Secp256k1FrostParticipant F G,
      ((Secp256k1FrostParticipant.fromSecretShare E s.1.2 s.2).mapError .error :
        Except (Stop CryptoError) _) = .ok p := by
    intro s hs
    obtain ⟨p, hp, -⟩ := hshare s hs
    exact ⟨p, mapError_eq_ok.2 hp⟩
  obtain ⟨ps, hps⟩ := exists_mapM_eq_ok hturn
  rw [mapM_eq_ok] at hps
  have hdata : Forall₂ (fun p s => p.keyPackage.identifier = s.1.1 ∧ p.verifierId = s.2)
      ps (shares.entries.zip verifierIds) := by
    refine Forall₂.flip (((forall₂_and_left _ _).2 ⟨hshare, hps⟩).imp ?_)
    rintro s p ⟨⟨q, hq, hdata⟩, hp⟩
    obtain rfl := Except.ok.inj (hq.symm.trans (mapError_eq_ok.1 hp))
    exact hdata
  have hfst : (shares.entries.zip verifierIds).map Prod.fst = shares.entries :=
    map_fst_zip hlen.le
  have hsnd : (shares.entries.zip verifierIds).map Prod.snd = verifierIds :=
    map_snd_zip hlen.ge
  refine ⟨ps, ?_, ?_, ?_⟩
  · rw [secp256k1Participants, zip_map_left, mapM_eq_ok, forall₂_map_left_iff]
    exact hps
  · refine Eq.trans ?_ (congrArg List.keys hfst)
    rw [List.keys, map_map, ← forall₂_eq_eq_eq, forall₂_map_left_iff, forall₂_map_right_iff]
    exact hdata.imp fun _ _ h => h.1
  · refine Eq.trans ?_ hsnd
    rw [← forall₂_eq_eq_eq, forall₂_map_left_iff, forall₂_map_right_iff]
    exact hdata.imp fun _ _ h => h.2

theorem secp256k1TrustedDealerKeygen_eq_ok (hE : E.Lawful) {o : Secp256k1KeygenOutput F G}
    (h : secp256k1TrustedDealerKeygen E verifierIds threshold random = .ok o) :
    (2 ≤ threshold ∧ threshold ≤ verifierIds.length ∧ verifierIds.length < 2 ^ 16) ∧
      o.identifiers.map Prod.fst = verifierIds ∧ (o.identifiers.map Prod.snd).Nodup ∧
      o.groupKey.verifierToId = collect o.identifiers := by
  simp only [secp256k1TrustedDealerKeygen, do_eq_ok, secp256k1VerifierToId_eq_ok] at h
  obtain ⟨_, -, _, hthr, ⟨shares, pub⟩, hgen, _, ⟨hle, rfl⟩, ps, hps, rfl⟩ := h
  have hkeys : shares.keys.length = verifierIds.length % 2 ^ 16 := by
    rw [hE.length_default hgen, UInt16.toNat_ofNat']
  have hfew : verifierIds.length < 2 ^ 16 := by
    have := Nat.mod_lt verifierIds.length (show 0 < 2 ^ 16 by decide)
    simp only at hle
    omega
  rw [Nat.mod_eq_of_lt hfew] at hkeys
  obtain ⟨ps', hps', hids, hvs⟩ := secp256k1Participants_eq_ok hE hgen hkeys
  obtain rfl := Except.ok.inj (hps.symm.trans hps')
  refine ⟨⟨by omega, by omega, hfew⟩, ?_, ?_, ?_⟩
  · rw [Secp256k1KeygenOutput.identifiers, map_map]
    exact hvs
  · rw [Secp256k1KeygenOutput.identifiers, map_map]
    exact hids ▸ shares.keys_nodup
  · rw [Secp256k1KeygenOutput.identifiers, ← zip_map', hvs, hids, ← hkeys, take_length]

theorem exists_secp256k1TrustedDealerKeygen (hE : E.Lawful) (random : E.Random)
    (htwo : 2 ≤ threshold) (hle : threshold ≤ verifierIds.length)
    (hfew : verifierIds.length < 2 ^ 16) :
    ∃ o, secp256k1TrustedDealerKeygen E verifierIds threshold random = .ok o := by
  have hsigners : 2 ≤ threshold % 2 ^ 16 ∧ threshold % 2 ^ 16 ≤ verifierIds.length % 2 ^ 16 := by
    rw [Nat.mod_eq_of_lt hfew, Nat.mod_eq_of_lt (hle.trans_lt hfew)]
    exact ⟨htwo, hle⟩
  obtain ⟨htwo', hcast⟩ := two_le_ofNat_le_ofNat_iff.2 hsigners
  obtain ⟨⟨shares, pub⟩, hgen⟩ := hE.exists_default random htwo' hcast
  have hkeys : shares.keys.length = verifierIds.length := by
    rw [hE.length_default hgen, UInt16.toNat_ofNat', Nat.mod_eq_of_lt hfew]
  obtain ⟨ps, hps, -⟩ := secp256k1Participants_eq_ok hE hgen hkeys
  simp only [secp256k1TrustedDealerKeygen, do_eq_ok, secp256k1VerifierToId_eq_ok]
  exact ⟨_, (), htwo.trans hle, (), by omega, _, hgen, _, ⟨hkeys.ge, rfl⟩, ps, hps, rfl⟩

/-- When the dealer for secp256k1 is right. -/
theorem assignsIdentifiers_secp256k1TrustedDealerKeygen (hE : E.Lawful) :
    AssignsIdentifiers Secp256k1KeygenOutput.identifiers (fun o => o.groupKey.verifierToId)
        (secp256k1TrustedDealerKeygen E verifierIds threshold random) ↔
      (2 ≤ threshold → threshold ≤ verifierIds.length → verifierIds.length < 2 ^ 16 →
        verifierIds.Nodup) := by
  constructor
  · intro h htwo hle hfew
    obtain ⟨o, ho⟩ := exists_secp256k1TrustedDealerKeygen hE random htwo hle hfew
    obtain ⟨-, hfst, hsnd, hmap⟩ := secp256k1TrustedDealerKeygen_eq_ok hE ho
    have hassigned := h.assigned o ho
    rw [hmap, assigned_collect_iff hsnd, hfst] at hassigned
    exact hassigned
  · intro h
    refine ⟨?_, fun o ho => ?_⟩
    · refine (noPanic_ensure _ _).bind fun _ _ => (noPanic_ensure _ _).bind fun _ _ => ?_
      refine (noPanic_mapError _ _).bind fun r _ => NoPanic.bind ?_ fun _ _ => NoPanic.bind ?_ ?_
      · refine noPanic_foldlM (fun m v _ => ?_) ∅
        exact (noPanic_orderedIdentifier v.2).bind fun _ _ => noPanic_pure _
      · exact noPanic_mapM fun s _ => noPanic_mapError _ id
      · exact fun _ _ => noPanic_pure _
    · obtain ⟨⟨htwo, hle, hfew⟩, hfst, hsnd, hmap⟩ := secp256k1TrustedDealerKeygen_eq_ok hE ho
      rw [hmap, assigned_collect_iff hsnd, hfst]
      exact h htwo hle hfew

end

end

/-! ### A dealer to run the functions with -/

namespace Wide

theorem map_identifiers {n : ℕ} (hn : n < 2 ^ 16) :
    (PedersenDkg.identifiers Wide n).map Subtype.val =
      (List.range n).map fun k => ((k + 1 : ℕ) : Wide) := by
  rw [PedersenDkg.identifiers, map_filterMap, ← filterMap_eq_map]
  refine filterMap_congr fun k hk => ?_
  have hlt := mem_range.1 hk
  have hne : ((k + 1 : ℕ) : Wide) ≠ 0 := by
    rw [Ne, ZMod.natCast_eq_zero_iff]
    exact fun hdvd => absurd (Nat.le_of_dvd (Nat.succ_pos k) hdvd) (by omega)
  rw [dif_pos hne]
  rfl

theorem length_identifiers {n : ℕ} (hn : n < 2 ^ 16) :
    (PedersenDkg.identifiers Wide n).length = n := by
  rw [← length_map (f := Subtype.val), map_identifiers hn, length_map, length_range]

theorem nodup_identifiers {n : ℕ} (hn : n < 2 ^ 16) : (PedersenDkg.identifiers Wide n).Nodup := by
  refine List.Nodup.of_map Subtype.val ?_
  rw [map_identifiers hn]
  refine nodup_range.map_on fun i hi j hj hij => ?_
  have hi := mem_range.1 hi
  have hj := mem_range.1 hj
  rw [ZMod.natCast_eq_natCast_iff', Nat.mod_eq_of_lt (by omega), Nat.mod_eq_of_lt (by omega)] at hij
  omega

def identifiersOf (maxSigners : UInt16) : IdentifierList Wide → List (Identifier Wide)
  | .default => PedersenDkg.identifiers Wide maxSigners.toNat
  | .custom ids => ids

/-- A dealer over a small group, which computes. -/
def dealer : DealerCrates Wide Wide where
  identifierTryFrom := identifierTryFrom
  Random := ℕ → Wide
  SecretShare := TrustedDealer.SecretShare Wide Wide
  generateWithDealer maxSigners minSigners ids :=
    TrustedDealer.deal 1 maxSigners.toNat minSigners.toNat (identifiersOf maxSigners ids)
  keyPackageTryFrom := TrustedDealer.SecretShare.toKeyPackage 1

theorem lawful_dealer : dealer.Lawful where
  exists_identifier := lawful_crates.exists_identifier
  identifier_injective := lawful_crates.identifier_injective
  exists_default {maxSigners minSigners} random hmin hle := by
    have hlength := length_identifiers maxSigners.toNat_lt
    have hle' : minSigners.toNat ≤ (PedersenDkg.identifiers Wide maxSigners.toNat).length := by
      rw [hlength]
      exact hle
    have hdeal := TrustedDealer.exists_deal (1 : Wide) random (UInt16.le_iff_toNat_le.1 hmin) hle'
      (nodup_identifiers maxSigners.toNat_lt)
    rwa [hlength] at hdeal
  exists_custom {maxSigners minSigners ids} random hmin hle hlength hids := by
    have hle' : minSigners.toNat ≤ ids.length := by
      rw [hlength]
      exact hle
    have hdeal := TrustedDealer.exists_deal (1 : Wide) random (UInt16.le_iff_toNat_le.1 hmin) hle'
      hids
    rwa [hlength] at hdeal
  signers_le {_ _ _ _ r} h := by
    obtain ⟨shares, pub⟩ := r
    obtain ⟨hmin, hle, -⟩ := TrustedDealer.deal_eq_ok h
    exact ⟨hmin, hle⟩
  length_default h :=
    (congrArg List.length (TrustedDealer.keys_of_deal h)).trans (TrustedDealer.deal_eq_ok h).2.2.1
  mem_custom h id hid :=
    AList.mem_keys.2 ((congrArg (id ∈ ·) (TrustedDealer.keys_of_deal h)).mpr hid)
  exists_keyPackage h _ he := TrustedDealer.toKeyPackage_of_deal h he

end Wide

end TlsAttestation
