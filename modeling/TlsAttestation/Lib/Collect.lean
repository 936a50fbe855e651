import Mathlib.Data.Finmap
import TlsAttestation.Lib.Fallible

/-!
# Maps built by inserting

A loop that inserts pairs into a map. The order does not matter when no key comes with two values
(`Collect.collect_congr`). A loop that may fail before it inserts computes all values first
(`Collect.foldlM_insert_eq_ok`).
-/

namespace Collect

open Finmap List

variable {K V : Type*} [DecidableEq K]

def collect (l : List (K × V)) : Finmap fun _ : K => V :=
  l.foldl (fun m e => m.insert e.1 e.2) ∅

theorem collect_append_singleton (l : List (K × V)) (e : K × V) :
    collect (l ++ [e]) = (collect l).insert e.1 e.2 := by
  simp [collect]

variable {l l' : List (K × V)} {k : K} {v : V}

theorem mem_of_lookup_collect (h : (collect l).lookup k = some v) : (k, v) ∈ l := by
  induction l using List.reverseRecOn with
  | nil => simp [collect] at h
  | append_singleton l e ih =>
    rw [collect_append_singleton] at h
    by_cases hk : k = e.1
    · subst hk
      rw [lookup_insert, Option.some.injEq] at h
      simp [← h]
    · rw [lookup_insert_of_ne _ hk] at h
      exact mem_append_left _ (ih h)

theorem lookup_collect_of_mem (hmem : (k, v) ∈ l) (huniq : ∀ w, (k, w) ∈ l → w = v) :
    (collect l).lookup k = some v := by
  induction l using List.reverseRecOn with
  | nil => simp at hmem
  | append_singleton l e ih =>
    rw [collect_append_singleton]
    by_cases hk : k = e.1
    · subst hk
      rw [lookup_insert, huniq e.2 (by simp)]
    · rw [lookup_insert_of_ne _ hk]
      refine ih ?_ fun w hw => huniq w (mem_append_left _ hw)
      rcases mem_append.1 hmem with hmem | hmem
      · exact hmem
      · exact absurd (congrArg Prod.fst (mem_singleton.1 hmem)) hk

/-- **Two loops with the same keys** find values of the same item. -/
theorem exists_lookup_collect_map {α W : Type*} {l : List α} {key : α → K} {f : α → V} (g : α → W)
    (h : (collect (l.map fun a => (key a, f a))).lookup k = some v) :
    ∃ a ∈ l, key a = k ∧ f a = v ∧
      (collect (l.map fun a => (key a, g a))).lookup k = some (g a) := by
  induction l using List.reverseRecOn with
  | nil => simp [collect] at h
  | append_singleton l a ih =>
    rw [map_append, map_singleton, collect_append_singleton] at h ⊢
    by_cases hk : k = key a
    · subst hk
      rw [lookup_insert, Option.some.injEq] at h
      exact ⟨a, by simp, rfl, h, lookup_insert _⟩
    · rw [lookup_insert_of_ne _ hk] at h ⊢
      obtain ⟨b, hb, hrest⟩ := ih h
      exact ⟨b, mem_append_left _ hb, hrest⟩

theorem keys_collect (l : List (K × V)) : (collect l).keys = (l.map Prod.fst).toFinset := by
  induction l using List.reverseRecOn with
  | nil => simp [collect]
  | append_singleton l e ih =>
    ext k
    rw [collect_append_singleton, Finmap.mem_keys, Finmap.mem_insert, ← Finmap.mem_keys, ih]
    simp

def Functional (l : List (K × V)) : Prop := ∀ k v w, (k, v) ∈ l → (k, w) ∈ l → v = w

omit [DecidableEq K] in
theorem Functional.of_subset (h : Functional l) (hsub : l' ⊆ l) :
    Functional l' :=
  fun k v w hv hw => h k v w (hsub hv) (hsub hw)

theorem lookup_collect_iff (hl : Functional l) :
    (collect l).lookup k = some v ↔ (k, v) ∈ l :=
  ⟨mem_of_lookup_collect, fun h => lookup_collect_of_mem h fun w hw => hl k w v hw h⟩

/-- **The order does not matter** when no key has two values. -/
theorem collect_congr (hl : Functional l) (h : ∀ e, e ∈ l ↔ e ∈ l') :
    collect l = collect l' := by
  have hl' : Functional l' := hl.of_subset fun e he => (h e).2 he
  refine ext_lookup fun k => Option.ext fun v => ?_
  rw [lookup_collect_iff hl, lookup_collect_iff hl', h]

omit [DecidableEq K] in
theorem functional_of_nodup (hl : (l.map Prod.fst).Nodup) : Functional l :=
  fun _ _ _ hv hw => congrArg Prod.snd (inj_on_of_nodup_map hl hv hw rfl)

theorem collect_perm (hl : (l.map Prod.fst).Nodup) (h : l.Perm l') :
    collect l = collect l' :=
  collect_congr (functional_of_nodup hl) fun _ => h.mem_iff

theorem entries_collect (hl : (l.map Prod.fst).Nodup) :
    (collect l).entries = (l.map fun e => (⟨e.1, e.2⟩ : (_ : K) × V) : Multiset _) := by
  induction l using List.reverseRecOn with
  | nil => rfl
  | append_singleton l e ih =>
    rw [map_append, map_singleton, nodup_append] at hl
    obtain ⟨hl, -, hne⟩ := hl
    have he : e.1 ∉ collect l := by
      rw [← Finmap.mem_keys, keys_collect, List.mem_toFinset]
      exact fun hmem => hne e.1 hmem e.1 (mem_singleton_self _) rfl
    rw [collect_append_singleton, entries_insert_of_notMem he, ih hl, map_append,
      map_singleton, ← Multiset.coe_add, add_comm]
    rfl

universe u

/-- **A loop that inserts a value for each item** under its key. -/
theorem foldlM_insert_eq_ok {ε : Type*} {α K V : Type u} [DecidableEq K] {f : α → Except ε V}
    {key : α → K} {l : List α} {m : Finmap fun _ : K => V} :
    (l.foldlM (fun m x => do let v ← f x; return m.insert (key x) v) ∅ :
        Except ε (Finmap fun _ : K => V)) = .ok m ↔
      ∃ vs, Forall₂ (fun x v => f x = .ok v) l vs ∧ m = collect ((l.map key).zip vs) := by
  suffices h : ∀ m₀ : Finmap fun _ : K => V,
      (l.foldlM (fun m x => do let v ← f x; return m.insert (key x) v) m₀ :
          Except ε (Finmap fun _ : K => V)) = .ok m ↔
        ∃ vs, Forall₂ (fun x v => f x = .ok v) l vs ∧
          m = ((l.map key).zip vs).foldl (fun m e => m.insert e.1 e.2) m₀ from h ∅
  induction l with
  | nil =>
    intro m₀
    rw [Fallible.foldlM_nil_eq_ok]
    simp [eq_comm]
  | cons x l ih =>
    intro m₀
    simp only [Fallible.foldlM_cons_eq_ok, Fallible.bind_eq_ok, Fallible.pure_eq_ok, ih]
    constructor
    · rintro ⟨_, ⟨v, hv, rfl⟩, vs, hvs, rfl⟩
      exact ⟨v :: vs, .cons hv hvs, rfl⟩
    · rintro ⟨_, _ | ⟨hv, hvs⟩, rfl⟩
      exact ⟨_, ⟨_, hv, rfl⟩, _, hvs, rfl⟩

end Collect
