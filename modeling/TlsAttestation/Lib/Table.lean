import Mathlib.Data.List.Nodup

/-!
# Tables with a unique key

A table is a list of rows of which no two have the same key; that is part of the type. The
operations are statements of SQL, with one equation for `Table.find` after each.
-/

@[ext]
structure Table (ρ κ : Type*) (key : ρ → κ) where
  rows : List ρ
  nodup : (rows.map key).Nodup

namespace Table

variable {ρ κ : Type*} {key : ρ → κ} [DecidableEq κ]

omit [DecidableEq κ] in
def empty : Table ρ κ key := ⟨[], List.nodup_nil⟩

variable (t : Table ρ κ key)

def find (k : κ) : Option ρ := t.rows.find? fun r => key r = k

omit [DecidableEq κ] in
def count (p : ρ → Bool) : ℕ := t.rows.countP p

def insert (r : ρ) : Option (Table ρ κ key) :=
  if h : key r ∈ t.rows.map key then none
  else some
    { rows := t.rows ++ [r]
      nodup := by
        rw [List.map_append]
        exact t.nodup.append (List.nodup_singleton _) (by simpa using h) }

def update (k : κ) (f : ρ → ρ) (hf : ∀ r, key (f r) = key r) :
    Table ρ κ key where
  rows := t.rows.map fun r => if key r = k then f r else r
  nodup := by
    have hkey : (key ∘ fun r => if key r = k then f r else r) = key := by
      funext r
      by_cases hr : key r = k
      · simp [hr, hf]
      · simp [hr]
    rw [List.map_map, hkey]
    exact t.nodup

omit [DecidableEq κ] in
def delete (p : ρ → Bool) : Table ρ κ key where
  rows := t.rows.filter fun r => !p r
  nodup := t.nodup.sublist (List.filter_sublist.map key)

variable {t t' : Table ρ κ key} {r : ρ} {k : κ}

/-! ### What is found -/

theorem find_eq_none : t.find k = none ↔ k ∉ t.rows.map key := by
  simp [find]

theorem find_eq_some : t.find k = some r ↔ r ∈ t.rows ∧ key r = k := by
  constructor
  · intro h
    exact ⟨List.mem_of_find?_eq_some h, by simpa using List.find?_some h⟩
  · rintro ⟨hr, rfl⟩
    rcases hfind : t.find (key r) with _ | r'
    · exact absurd (List.mem_map_of_mem hr) (find_eq_none.1 hfind)
    · have hmem : r' ∈ t.rows := List.mem_of_find?_eq_some hfind
      have hkey : key r' = key r := by simpa using List.find?_some hfind
      rw [List.inj_on_of_nodup_map t.nodup hmem hr hkey]

omit [DecidableEq κ] in
theorem count_pos {p : ρ → Bool} : 0 < t.count p ↔ ∃ r ∈ t.rows, p r = true :=
  List.countP_pos_iff

/-! ### After each statement -/

theorem insert_eq_none : t.insert r = none ↔ key r ∈ t.rows.map key := by
  unfold insert
  split
  case isTrue h => simp [h]
  case isFalse h => simp [h]

theorem insert_eq_some :
    t.insert r = some t' ↔ key r ∉ t.rows.map key ∧ t'.rows = t.rows ++ [r] := by
  unfold insert
  split
  case isTrue h => simp [h]
  case isFalse h =>
    rw [Option.some.injEq, Table.ext_iff, eq_comm]
    simp [h]

theorem find_insert (h : t.insert r = some t') :
    t'.find k = if key r = k then some r else t.find k := by
  obtain ⟨hnew, hrows⟩ := insert_eq_some.1 h
  split
  · next hk => exact find_eq_some.2 ⟨by simp [hrows], hk⟩
  · next hk => simp [find, hrows, hk]

theorem find_update {f : ρ → ρ} {hf : ∀ r, key (f r) = key r} {j : κ} :
    (t.update k f hf).find j = if j = k then (t.find k).map f else t.find j := by
  have hkey : ∀ r, key (if key r = k then f r else r) = key r := by
    intro r
    by_cases hr : key r = k
    · simp [hr, hf]
    · simp [hr]
  have hfind : (t.update k f hf).find j = (t.find j).map fun r => if key r = k then f r else r := by
    rw [find, update, List.find?_map]
    simp only [Function.comp_def, hkey]
    rfl
  rw [hfind]
  by_cases hj : j = k
  · subst hj
    rw [if_pos rfl]
    rcases hr : t.find j with _ | r
    · rfl
    · simp [(find_eq_some.1 hr).2]
  · rw [if_neg hj]
    rcases hr : t.find j with _ | r
    · rfl
    · simp [(find_eq_some.1 hr).2, hj]

theorem find_delete {j : κ} :
    (t.delete fun r => key r = k).find j = if j = k then none else t.find j := by
  by_cases hj : j = k
  · subst hj
    rw [if_pos rfl, find_eq_none]
    simp [delete]
  · rw [if_neg hj]
    rcases hr : t.find j with _ | r
    · rw [find_eq_none] at hr ⊢
      simp only [delete, List.mem_map, List.mem_filter] at hr ⊢
      rintro ⟨r, ⟨hmem, -⟩, hkey⟩
      exact hr ⟨r, hmem, hkey⟩
    · obtain ⟨hmem, rfl⟩ := find_eq_some.1 hr
      rw [find_eq_some]
      simp [delete, hmem, hj]

omit [DecidableEq κ] in
theorem mem_delete {p : ρ → Bool} : r ∈ (t.delete p).rows ↔ r ∈ t.rows ∧ p r = false := by
  simp [delete]

omit [DecidableEq κ] in
theorem delete_eq_self {p : ρ → Bool} (h : ∀ r ∈ t.rows, p r = false) : t.delete p = t := by
  refine Table.ext (List.filter_eq_self.2 fun r hr => ?_)
  simp [h r hr]

end Table
