import Mathlib.Data.List.AList
import Mathlib.Data.Finmap

/-!
# Hash maps

Association lists without repeated keys, Mathlib's `AList`. The order in which a program sees the
entries depends on the state of the hash function, a `Hasher`.
-/

abbrev HashMap (K V : Type) := AList fun _ : K => V

def HashMap.collect {K V : Type} [DecidableEq K] (l : List ((_ : K) × V)) : HashMap K V :=
  l.foldl (fun m e => m.insert e.1 e.2) ∅

def HashMap.modify {K V : Type} [DecidableEq K] (m : HashMap K V) (k : K) (f : V → V) :
    HashMap K V :=
  match m.lookup k with
  | some v => m.insert k (f v)
  | none => m

namespace HashMap

open AList List

variable {K V : Type} [DecidableEq K] {l : List ((_ : K) × V)} {k : K}

theorem collect_concat (l : List ((_ : K) × V)) (e : (_ : K) × V) :
    collect (l ++ [e]) = (collect l).insert e.1 e.2 := by
  rw [collect, foldl_append]
  rfl

omit [DecidableEq K] in
theorem nodupKeys_concat {e : (_ : K) × V} :
    (l ++ [e]).NodupKeys ↔ l.NodupKeys ∧ e.1 ∉ l.keys := by
  rw [List.NodupKeys, keys_append, nodup_append_comm]
  exact nodup_cons.trans and_comm

theorem mem_collect : k ∈ collect l ↔ k ∈ l.keys := by
  induction l using List.reverseRecOn with
  | nil => simp [collect]
  | append_singleton l e ih =>
    rw [collect_concat, mem_insert, ih, keys_append]
    simp [or_comm]

variable {m : HashMap K V} {f : V → V}

@[simp] theorem lookup_modify_self :
    (m.modify k f).lookup k = (m.lookup k).map f := by
  rcases hk : m.lookup k with _ | v
  · simp only [modify, hk, Option.map_none]
  · simp only [modify, hk, lookup_insert, Option.map_some]

@[simp] theorem lookup_modify_ne {k' : K} (hne : k' ≠ k) :
    (m.modify k f).lookup k' = m.lookup k' := by
  rcases hk : m.lookup k with _ | v
  · simp only [modify, hk]
  · simp only [modify, hk, lookup_insert_ne hne]

theorem mem_modify {k' : K} : k' ∈ m.modify k f ↔ k' ∈ m := by
  by_cases hne : k' = k
  · rw [hne, ← lookup_isSome, lookup_modify_self, Option.isSome_map, lookup_isSome]
  · rw [← lookup_isSome, lookup_modify_ne hne, lookup_isSome]

theorem lookup_collect (hl : l.NodupKeys) {v : V} :
    (collect l).lookup k = some v ↔ (⟨k, v⟩ : (_ : K) × V) ∈ l := by
  induction l using List.reverseRecOn with
  | nil => simp [collect]
  | append_singleton l e ih =>
    obtain ⟨k', v'⟩ := e
    obtain ⟨hl', hk'⟩ := nodupKeys_concat.1 hl
    rw [collect_concat, mem_append, mem_singleton]
    by_cases hk : k = k'
    · subst hk
      have hnot : (⟨k, v⟩ : (_ : K) × V) ∉ l := fun h => hk' (mem_keys.2 ⟨v, h⟩)
      simp [hnot, eq_comm]
    · rw [lookup_insert_ne hk, ih hl']
      simp [hk]

theorem entries_collect_perm (hl : l.NodupKeys) : (collect l).entries.Perm l := by
  induction l using List.reverseRecOn with
  | nil => exact .refl _
  | append_singleton l e ih =>
    obtain ⟨hl, hk⟩ := nodupKeys_concat.1 hl
    rw [collect_concat, entries_insert_of_notMem (mt mem_collect.1 hk)]
    exact ((ih hl).cons e).trans (perm_append_singleton e l).symm

omit [DecidableEq K] in
theorem keys_filterMap_sublist {α : Type*} (name : α → K) (g : α → Option V) (as : List α) :
    (as.filterMap fun a => (g a).map fun v => (⟨name a, v⟩ : (_ : K) × V)).keys.Sublist
      (as.map name) := by
  induction as with
  | nil => exact .refl _
  | cons a as ih =>
    rcases hg : g a with _ | v
    · rw [filterMap_cons_none (by rw [hg]; rfl)]
      exact ih.cons (name a)
    · rw [filterMap_cons_some (by rw [hg]; rfl)]
      exact ih.cons_cons (name a)

end HashMap

structure Hasher (K : Type) where
  iter {V : Type} : HashMap K V → List ((_ : K) × V)
  perm {V : Type} (m : HashMap K V) : (iter m).Perm m.entries

namespace Hasher

variable {K V : Type} (h : Hasher K)

def inOrder (K : Type) : Hasher K := ⟨fun m => m.entries, fun _ => .rfl⟩

theorem nodupKeys_iter (m : HashMap K V) : (h.iter m).NodupKeys :=
  (List.perm_nodupKeys (h.perm m)).2 m.nodupKeys

theorem keys_iter_perm (m : HashMap K V) : (h.iter m).keys.Perm m.keys := (h.perm m).map _

theorem mem_keys_iter {m : HashMap K V} {k : K} : k ∈ (h.iter m).keys ↔ k ∈ m :=
  (h.keys_iter_perm m).mem_iff

theorem length_iter (m : HashMap K V) : (h.iter m).length = m.entries.length := (h.perm m).length_eq

variable [DecidableEq K]

theorem mem_iter {m : HashMap K V} {k : K} {v : V} :
    (⟨k, v⟩ : (_ : K) × V) ∈ h.iter m ↔ m.lookup k = some v := by
  rw [(h.perm m).mem_iff, AList.mem_lookup_iff.symm, Option.mem_def]

theorem lookup_collect_map {W : Type} (m : HashMap K V) (f : K → V → W) (k : K) :
    (HashMap.collect ((h.iter m).map fun e => (⟨e.1, f e.1 e.2⟩ : (_ : K) × W))).lookup k =
      (m.lookup k).map (f k) := by
  have hkeys : ((h.iter m).map fun e => (⟨e.1, f e.1 e.2⟩ : (_ : K) × W)).NodupKeys := by
    rw [List.NodupKeys, List.keys, List.map_map]
    exact h.nodupKeys_iter m
  ext w
  rw [HashMap.lookup_collect hkeys, Option.map_eq_some_iff, List.mem_map]
  constructor
  · rintro ⟨e, he, heq⟩
    obtain ⟨rfl, hw⟩ := Sigma.mk.inj heq
    exact ⟨e.2, h.mem_iter.1 he, eq_of_heq hw⟩
  · rintro ⟨v, hv, rfl⟩
    exact ⟨⟨k, v⟩, h.mem_iter.2 hv, rfl⟩

end Hasher
