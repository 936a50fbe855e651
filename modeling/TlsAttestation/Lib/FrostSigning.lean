import Mathlib.LinearAlgebra.Lagrange
import TlsAttestation.Lib.Collect
import TlsAttestation.Lib.Frost

/-!
# Honest signing

When all signers follow the protocol, the sum of their shares satisfies the equation that the
aggregation checks (`Frost.Ciphersuite.aggregate_honest`): the keys are values of a polynomial
(`Frost.KeyGroup`), which the Lagrange coefficients put together. The order of the signers is lost
(`Frost.Ciphersuite.signerPackage_perm`).
-/

namespace Frost

open ByteEncoding Collect Fallible List Polynomial

/-! ### Shared secrets -/

section

variable {F : Type} [Field F]

/-- The shares lie on a polynomial of degree less than `t`, with the secret at zero. -/
def IsShared (t : ℕ) (share : F → F) (secret : F) : Prop :=
  ∃ p : F[X], p.degree < t ∧ (∀ x, p.eval x = share x) ∧ p.eval 0 = secret

theorem isShared_line (a b : F) : IsShared 2 (fun x => a * x + b) b := by
  refine ⟨C a * X + C b, ?_, fun x => by simp, by simp⟩
  rw [Nat.cast_ofNat]
  exact degree_linear_lt

variable [DecidableEq F]

/-- The Lagrange coefficients put the secret together. -/
theorem IsShared.sum_lagrange {t : ℕ} {share : F → F} {secret : F} (h : IsShared t share secret)
    {signers : Finset (Identifier F)} (ht : t ≤ signers.card) :
    ∑ i ∈ signers, Ciphersuite.lagrange signers i * share i = secret := by
  obtain ⟨p, hp, hshare, rfl⟩ := h
  have hdegree : p.degree < signers.card := hp.trans_le (Nat.cast_le.2 ht)
  have hinterpolate := Lagrange.eq_interpolate (s := signers) (v := fun i => (i : F))
    Subtype.val_injective.injOn hdegree
  calc ∑ i ∈ signers, Ciphersuite.lagrange signers i * share i
      = ∑ i ∈ signers, p.eval (i : F) * (Lagrange.basis signers (fun i => (i : F)) i).eval 0 := by
        refine Finset.sum_congr rfl fun i _ => ?_
        rw [hshare, mul_comm, Ciphersuite.lagrange, Lagrange.basis, eval_prod]
        refine congrArg _ (Finset.prod_congr rfl fun j _ => ?_)
        rw [Lagrange.basisDivisor, eval_mul, eval_C, eval_sub, eval_X, eval_C, zero_sub,
          ← neg_sub (j : F) i, inv_neg, neg_mul_neg, div_eq_inv_mul]
    _ = p.eval 0 := by
        conv_rhs => rw [hinterpolate, Lagrange.interpolate_apply, eval_finsetSum]
        exact Finset.sum_congr rfl fun i _ => by rw [eval_mul, eval_C]

end

/-! ### Signers -/

structure Signer (F G : Type) [Zero F] where
  key : KeyPackage F G
  nonces : SigningNonces F

section

variable {F G : Type} [Field F] [AddCommGroup G] [Module F G] {ne ns : ℕ}

/-- The keys are shares of the secret behind the group key, for the threshold `t`. -/
structure KeyGroup (S : Ciphersuite F G ne ns) (group : PublicKeyPackage F G) (t : ℕ)
    (keys : Set (KeyPackage F G)) : Prop where
  shared : ∃ (share : F → F) (secret : F), IsShared t share secret ∧
    group.verifyingKey = secret • S.base ∧ ∀ key ∈ keys, key.signingShare = share key.identifier
  verifyingKey : ∀ key ∈ keys, key.verifyingKey = group.verifyingKey
  minSigners : ∀ key ∈ keys, key.minSigners = t
  mem_verifyingShares : ∀ key ∈ keys, key.identifier ∈ group.verifyingShares

variable {group : PublicKeyPackage F G}

theorem KeyGroup.mono {S : Ciphersuite F G ne ns} {t : ℕ}
    {keys keys' : Set (KeyPackage F G)} (h : KeyGroup S group t keys) (hsub : keys' ⊆ keys) :
    KeyGroup S group t keys' := by
  obtain ⟨share, secret, hshared, hsec, hkeys⟩ := h.shared
  exact ⟨⟨share, secret, hshared, hsec, fun key hkey => hkeys key (hsub hkey)⟩,
    fun key hkey => h.verifyingKey key (hsub hkey), fun key hkey => h.minSigners key (hsub hkey),
    fun key hkey => h.mem_verifyingShares key (hsub hkey)⟩

variable [DecidableEq F]

namespace Ciphersuite

variable (S : Ciphersuite F G ne ns)

def signerPackage (signers : List (Signer F G)) (m : Bytes) :
    SigningPackage F G :=
  ⟨collect (signers.map fun s => (s.key.identifier, S.commitments s.nonces)), m⟩

def boundNonce (verifyingKey : G) (package : SigningPackage F G) (s : Signer F G) : F :=
  s.nonces.hidingNonce +
    S.bindingFactor verifyingKey package s.key.identifier * s.nonces.bindingNonce

def groupNonce (verifyingKey : G) (signers : List (Signer F G)) (m : Bytes) : F :=
  (signers.map (S.boundNonce verifyingKey (S.signerPackage signers m))).sum

def shareOf (verifyingKey : G) (signers : List (Signer F G)) (m : Bytes) (s : Signer F G) : F :=
  S.boundNonce verifyingKey (S.signerPackage signers m) s +
    lagrange (signers.map fun s => s.key.identifier).toFinset s.key.identifier *
      s.key.signingShare *
      S.challenge (S.groupNonce verifyingKey signers m • S.base) verifyingKey m

def groupSignature (verifyingKey : G) (signers : List (Signer F G)) (m : Bytes) : Signature F G :=
  ⟨S.groupNonce verifyingKey signers m • S.base,
    (signers.map (S.shareOf verifyingKey signers m)).sum⟩

end Ciphersuite

/-- Enough different members of a group, whose nonces are not zero. -/
structure HonestSigners (S : Ciphersuite F G ne ns) (group : PublicKeyPackage F G)
    (signers : List (Signer F G)) : Prop where
  nodup : (signers.map fun s => s.key.identifier).Nodup
  enough : ∃ t ≤ signers.length, KeyGroup S group t {key | ∃ s ∈ signers, s.key = key}
  nonces : ∀ s ∈ signers, s.nonces.hidingNonce ≠ 0 ∧ s.nonces.bindingNonce ≠ 0

omit [DecidableEq F] in
theorem HonestSigners.perm {S : Ciphersuite F G ne ns}
    {signers signers' : List (Signer F G)} (h : HonestSigners S group signers)
    (hperm : signers'.Perm signers) : HonestSigners S group signers' := by
  obtain ⟨t, ht, hgroup⟩ := h.enough
  refine ⟨(hperm.map _).nodup_iff.2 h.nodup, ⟨t, hperm.length_eq ▸ ht, hgroup.mono ?_⟩,
    fun s hs => h.nonces s (hperm.subset hs)⟩
  rintro key ⟨s, hs, rfl⟩
  exact ⟨s, hperm.subset hs, rfl⟩

/-! ### The signature of honest signers -/

namespace Ciphersuite

variable {S : Ciphersuite F G ne ns} {group : PublicKeyPackage F G}
  {signers signers' : List (Signer F G)} {m : Bytes}

omit [AddCommGroup G] [Module F G] [DecidableEq F] in
theorem map_fst_signers {V : Type} (signers : List (Signer F G)) (f : Signer F G → V) :
    (signers.map fun s => (s.key.identifier, f s)).map Prod.fst =
      signers.map fun s => s.key.identifier :=
  map_map

theorem keys_signerPackage : (S.signerPackage signers m).signingCommitments.keys =
    (signers.map fun s => s.key.identifier).toFinset := by
  rw [signerPackage, keys_collect, map_fst_signers]

theorem entries_signerPackage (hnodup : (signers.map fun s => s.key.identifier).Nodup) :
    (S.signerPackage signers m).signingCommitments.entries =
      (signers.map fun s => (⟨s.key.identifier, S.commitments s.nonces⟩ :
        (_ : Identifier F) × SigningCommitments G) : Multiset _) := by
  rw [signerPackage, entries_collect (by rwa [map_fst_signers]), map_map]
  rfl

theorem signerPackage_perm (hnodup : (signers.map fun s => s.key.identifier).Nodup)
    (h : signers.Perm signers') : S.signerPackage signers m = S.signerPackage signers' m := by
  have hcoll := collect_perm (l := signers.map fun s => (s.key.identifier,
    S.commitments s.nonces)) (by rwa [map_fst_signers]) (h.map _)
  rw [signerPackage, signerPackage, hcoll]

theorem groupSignature_perm (hnodup : (signers.map fun s => s.key.identifier).Nodup)
    (h : signers.Perm signers') (Y : G) :
    S.groupSignature Y signers m = S.groupSignature Y signers' m := by
  have hnonce : S.groupNonce Y signers m = S.groupNonce Y signers' m := by
    rw [groupNonce, groupNonce, signerPackage_perm hnodup h]
    exact (h.map _).sum_eq
  have hshare : S.shareOf Y signers m = S.shareOf Y signers' m := by
    funext s
    rw [shareOf, shareOf, signerPackage_perm hnodup h, hnonce, toFinset_eq_of_perm _ _ (h.map _)]
  rw [groupSignature, groupSignature, hnonce, hshare, (h.map _).sum_eq]

variable [DecidableEq G]

/-- **The commitment of the group** is to all nonces together. -/
theorem groupCommitment_signerPackage (hnodup : (signers.map fun s => s.key.identifier).Nodup)
    (hnonces : ∀ s ∈ signers, s.nonces.hidingNonce ≠ 0 ∧ s.nonces.bindingNonce ≠ 0) (Y : G) :
    S.groupCommitment Y (S.signerPackage signers m) = .ok (S.groupNonce Y signers m • S.base) := by
  simp only [groupCommitment, do_eq_ok, exists_const, entries_signerPackage hnodup]
  constructor
  · intro e he
    obtain ⟨s, hs, rfl⟩ := mem_map.1 (Multiset.mem_coe.1 he)
    exact ⟨S.smul_base_ne_zero (hnonces s hs).1, S.smul_base_ne_zero (hnonces s hs).2⟩
  · rw [Multiset.map_coe, Multiset.sum_coe, map_map, groupNonce, sum_smul, map_map]
    refine congrArg List.sum (map_congr_left fun s _ => ?_)
    simp only [Function.comp, commitments, boundNonce, add_smul, mul_smul]

/-- An honest signer gives its share. -/
theorem sign_honest (h : HonestSigners S group signers) {s : Signer F G} (hs : s ∈ signers) :
    S.sign (S.signerPackage signers m) s.nonces s.key =
      .ok (S.shareOf group.verifyingKey signers m s) := by
  obtain ⟨t, ht, hgroup⟩ := h.enough
  have hY : s.key.verifyingKey = group.verifyingKey := hgroup.verifyingKey _ ⟨s, hs, rfl⟩
  have hmin : s.key.minSigners ≤ (S.signerPackage signers m).signingCommitments.entries.card := by
    rw [hgroup.minSigners _ ⟨s, hs, rfl⟩, entries_signerPackage h.nodup, Multiset.coe_card,
      length_map]
    exact ht
  have hlookup : (S.signerPackage signers m).signingCommitments.lookup s.key.identifier =
      some (S.commitments s.nonces) := by
    refine (lookup_collect_iff (functional_of_nodup ?_)).2
      (mem_map_of_mem (f := fun s : Signer F G => (s.key.identifier, S.commitments s.nonces)) hs)
    rw [map_fst_signers]
    exact h.nodup
  simp only [sign, do_eq_ok, exists_const]
  refine ⟨hmin, _, hlookup, rfl, _, groupCommitment_signerPackage h.nodup h.nonces _, ?_⟩
  rw [hY, keys_signerPackage]
  rfl

omit [DecidableEq G] in
/-- The shares add up. -/
theorem sum_shareOf (h : HonestSigners S group signers) :
    (signers.map (S.shareOf group.verifyingKey signers m)).sum • S.base =
      S.groupNonce group.verifyingKey signers m • S.base +
        S.challenge (S.groupNonce group.verifyingKey signers m • S.base) group.verifyingKey m •
          group.verifyingKey := by
  obtain ⟨t, ht, hgroup⟩ := h.enough
  obtain ⟨share, secret, hshared, hY, hshare⟩ := hgroup.shared
  have hcard : t ≤ (signers.map fun s => s.key.identifier).toFinset.card := by
    rw [toFinset_card_of_nodup h.nodup, length_map]
    exact ht
  have hsec : (signers.map fun s => lagrange
      (signers.map fun s => s.key.identifier).toFinset s.key.identifier *
        s.key.signingShare).sum = secret := by
    rw [← hshared.sum_lagrange hcard, sum_toFinset _ h.nodup, map_map]
    refine congrArg List.sum (map_congr_left fun s hs => ?_)
    rw [hshare _ ⟨s, hs, rfl⟩]
    rfl
  have hsplit : (signers.map (S.shareOf group.verifyingKey signers m)).sum =
      S.groupNonce group.verifyingKey signers m +
        S.challenge (S.groupNonce group.verifyingKey signers m • S.base) group.verifyingKey m *
          secret := by
    rw [← hsec, mul_comm, ← sum_map_mul_right]
    exact sum_map_add
  rw [hsplit, add_smul, mul_smul, ← hY]

/-- Honest signers have a signature in the end. -/
theorem aggregate_honest (h : HonestSigners S group signers) :
    S.aggregate (S.signerPackage signers m) (collect (signers.map fun s => (s.key.identifier,
          S.shareOf group.verifyingKey signers m s))) group =
      .ok (S.groupSignature group.verifyingKey signers m) := by
  have hknown : ∀ s ∈ signers, s.key.identifier ∈ group.verifyingShares := by
    obtain ⟨t, -, hgroup⟩ := h.enough
    exact fun s hs => hgroup.mem_verifyingShares _ ⟨s, hs, rfl⟩
  have hsum : ((collect (signers.map fun s => (s.key.identifier,
      S.shareOf group.verifyingKey signers m s))).entries.map fun e => e.2).sum =
        (signers.map (S.shareOf group.verifyingKey signers m)).sum := by
    rw [entries_collect (by rw [map_fst_signers]; exact h.nodup), Multiset.map_coe,
      Multiset.sum_coe, map_map, map_map]
    rfl
  simp only [aggregate, do_eq_ok, exists_const]
  rw [keys_signerPackage, keys_collect, map_fst_signers]
  refine ⟨⟨rfl, fun id hid => ⟨hid, ?_⟩⟩, _, groupCommitment_signerPackage h.nodup h.nonces _, (),
    ?_⟩
  · obtain ⟨s, hs, rfl⟩ := mem_map.1 (mem_toFinset.1 hid)
    exact Finmap.mem_keys.2 (hknown s hs)
  · rw [hsum]
    exact ⟨verify_eq_ok.2 (sum_shareOf h), rfl⟩

end Ciphersuite

end

end Frost
