import TlsAttestation.Core.Types

/-!
# Runs of the canonical hasher

What is hashed is a domain and a sequence of updates, or a domain and one string. The absorbed
stream determines the domain, and, given the kinds of the updates, all that they were called with
(`canonicalEncoding_injective`).
-/

namespace TlsAttestation

open ByteEncoding

/-! ### Updates -/

inductive UpdateKind where
  | bytes
  | fixed (n : ℕ)
  | u64
  | u32
  | bool
  | digest
  /-- A count, and as many identifiers. -/
  | verifiers

abbrev UpdateKind.Arg : UpdateKind → Type
  | bytes => RVec UInt8
  | fixed n => Vector UInt8 n
  | u64 => UInt64
  | u32 => UInt32
  | bool => Bool
  | digest => DigestBytes
  | verifiers => RVec VerifierId

/-- A call on a hasher. -/
abbrev Update := (k : UpdateKind) × k.Arg

def Update.encode : Update → Bytes
  | ⟨.bytes, data⟩ => lengthPrefixed 8 data.1
  | ⟨.fixed _, data⟩ => data.toList
  | ⟨.u64, v⟩ => beBytes 8 v.toNat
  | ⟨.u32, v⟩ => beBytes 4 v.toNat
  | ⟨.bool, v⟩ => [if v then 1 else 0]
  | ⟨.digest, d⟩ => d.asBytes.toList
  | ⟨.verifiers, vs⟩ => counted 8 (fun v : VerifierId => v.asBytes.toList) vs.1

theorem selfDelimiting_verifierId : SelfDelimiting fun v : VerifierId => v.asBytes.toList :=
  selfDelimiting_vector.comp VerifierId.asBytes_injective

theorem UpdateKind.selfDelimiting (k : UpdateKind) :
    SelfDelimiting fun arg : k.Arg => Update.encode ⟨k, arg⟩ := by
  cases k with
  | bytes => exact selfDelimiting_rbytes
  | fixed n => exact selfDelimiting_vector
  | u64 => exact selfDelimiting_u64
  | u32 =>
    refine .of_length (fun a b h => UInt32.toNat_inj.1 ?_) (by simp [Update.encode])
    exact beBytes_inj a.toNat_lt b.toNat_lt h
  | bool =>
    refine .of_length (fun a b h => ?_) fun _ _ => rfl
    revert a b
    decide
  | digest => exact selfDelimiting_digest
  | verifiers => exact selfDelimiting_rvec selfDelimiting_verifierId

/-- **Updates of the same kinds** are read back one after the other. -/
theorem Update.flatMap_encode_inj {us vs : List Update} {xs ys : Bytes}
    (h : us.flatMap encode ++ xs = vs.flatMap encode ++ ys)
    (hkinds : us.map Sigma.fst = vs.map Sigma.fst) : us = vs ∧ xs = ys := by
  induction us generalizing vs with
  | nil =>
    obtain rfl := List.map_eq_nil_iff.1 hkinds.symm
    exact ⟨rfl, h⟩
  | cons u us ih =>
    obtain ⟨v, vs, rfl, hkind, hkinds'⟩ := List.map_eq_cons_iff.1 hkinds.symm
    obtain ⟨k, arg⟩ := u
    obtain ⟨k', arg'⟩ := v
    obtain rfl : k' = k := hkind
    rw [List.flatMap_cons, List.flatMap_cons, List.append_assoc, List.append_assoc] at h
    obtain ⟨harg, hrest⟩ := k'.selfDelimiting h
    obtain ⟨rfl, htail⟩ := ih hrest hkinds'.symm
    exact ⟨by rw [harg], htail⟩

/-! ### Runs -/

namespace CanonicalHasher

def update (h : CanonicalHasher) : Update → CanonicalHasher
  | ⟨.bytes, data⟩ => h.updateBytes data.1
  | ⟨.fixed _, data⟩ => h.updateFixed data
  | ⟨.u64, v⟩ => h.updateU64 v
  | ⟨.u32, v⟩ => h.updateU32 v
  | ⟨.bool, v⟩ => h.updateBool v
  | ⟨.digest, d⟩ => h.updateDigest d
  | ⟨.verifiers, vs⟩ =>
    vs.1.foldl (fun h v => h.updateFixed v.asBytes) (h.updateU64 (.ofNat vs.1.length))

theorem inner_foldl_updateFixed (vs : List VerifierId) (h : CanonicalHasher) :
    (vs.foldl (fun h v => h.updateFixed v.asBytes) h).inner =
      h.inner ++ vs.flatMap fun v => v.asBytes.toList := by
  induction vs generalizing h with
  | nil => simp
  | cons v vs ih => simp [ih]

theorem inner_update (h : CanonicalHasher) (u : Update) :
    (h.update u).inner = h.inner ++ u.encode := by
  obtain ⟨k, arg⟩ := u
  cases k with
  | verifiers =>
    have hlen : (UInt64.ofNat arg.1.length).toNat = arg.1.length := by
      rw [UInt64.toNat_ofNat']
      exact Nat.mod_eq_of_lt (arg.2.trans (by decide))
    rw [update, inner_foldl_updateFixed, inner_updateU64, hlen, List.append_assoc]
    rfl
  | _ => rfl

theorem inner_foldl_update (us : List Update) (h : CanonicalHasher) :
    (us.foldl update h).inner = h.inner ++ us.flatMap Update.encode := by
  induction us generalizing h with
  | nil => simp
  | cons u us ih => rw [List.foldl_cons, ih, inner_update, List.flatMap_cons, List.append_assoc]

def run (domain : String) (updates : List Update) : CanonicalHasher :=
  updates.foldl update (.new domain)

theorem run_inj {domain : String} (us vs : List Update)
    (h : (run domain us).inner = (run domain vs).inner)
    (hkinds : us.map Sigma.fst = vs.map Sigma.fst) : us = vs := by
  rw [run, run, inner_foldl_update, inner_foldl_update, List.append_cancel_left_eq] at h
  exact (Update.flatMap_encode_inj (congrArg (· ++ []) h) hkinds).1

end CanonicalHasher

/-- What is hashed under a domain. -/
inductive Hashing where
  | canonicalHasher (updates : List Update)
  | sha256Tagged (data : Bytes)

namespace Hashing

variable (domain : String)

def absorbed : Hashing → Bytes
  | canonicalHasher updates => (CanonicalHasher.run domain updates).inner
  | sha256Tagged data => domainPrefixed domain ++ data

theorem exists_absorbed_eq (a : Hashing) :
    ∃ rest, a.absorbed domain = domainPrefixed domain ++ rest := by
  cases a with
  | canonicalHasher updates => exact ⟨_, CanonicalHasher.inner_foldl_update updates _⟩
  | sha256Tagged data => exact ⟨data, rfl⟩

end Hashing

/-- **The canonical encoding is injective**: in the domain, whatever is hashed under it, and in the
arguments, if the updates are of the same kinds. -/
theorem canonicalEncoding_injective :
    (∀ (d d' : String) (a b : Hashing), (strBytes d).length < 2 ^ 32 →
      (strBytes d').length < 2 ^ 32 → a.absorbed d = b.absorbed d' → d = d') ∧
    (∀ (d : String) (us vs : List Update), us.map Sigma.fst = vs.map Sigma.fst →
      (Hashing.canonicalHasher us).absorbed d = (Hashing.canonicalHasher vs).absorbed d → us = vs) ∧
    ∀ (d : String) (data data' : Bytes),
      (Hashing.sha256Tagged data).absorbed d = (Hashing.sha256Tagged data').absorbed d →
        data = data' := by
  refine ⟨fun d d' a b hd hd' h => ?_, fun d us vs hkinds h => ?_, fun d data data' h => ?_⟩
  · obtain ⟨xs, hxs⟩ := a.exists_absorbed_eq d
    obtain ⟨ys, hys⟩ := b.exists_absorbed_eq d'
    rw [hxs, hys] at h
    exact domain_eq_of_append_eq hd hd' h
  · exact CanonicalHasher.run_inj us vs h hkinds
  · exact List.append_cancel_left h

end TlsAttestation
