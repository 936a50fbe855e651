import Mathlib.Data.Set.Insert
import Mathlib.Logic.Function.Basic
import Mathlib.Logic.Relation

/-!
# Tokens that are spent once

A ledger keeps tokens in slots. A token that has never been in it can be put into a slot; a spender,
who spends one token only, takes that of a slot out. No token is spent twice
(`OneTime.Reachable.spent_inj`).
-/

namespace OneTime

/-- Slots, the tokens that were in use, and what was spent. -/
structure Ledger (K T J : Type*) where
  store : K → Option T
  issued : Set T
  spent : J → Option T

variable {K T J : Type*} [DecidableEq K] [DecidableEq J]

def Ledger.empty : Ledger K T J := ⟨fun _ => none, ∅, fun _ => none⟩

def Ledger.put (l : Ledger K T J) (k : K) (t : T) : Ledger K T J :=
  { l with store := Function.update l.store k (some t), issued := insert t l.issued }

def Ledger.take (l : Ledger K T J) (k : K) (t : T) (j : J) : Ledger K T J :=
  { l with store := Function.update l.store k none, spent := Function.update l.spent j (some t) }

inductive Step (l : Ledger K T J) : Ledger K T J → Prop
  | put {k : K} {t : T} (hfresh : t ∉ l.issued) : Step l (l.put k t)
  | take {k : K} {t : T} {j : J} (hstore : l.store k = some t) (hspent : l.spent j = none) :
    Step l (l.take k t j)

def Reachable (l : Ledger K T J) : Prop :=
  Relation.ReflTransGen Step Ledger.empty l

omit [DecidableEq K] [DecidableEq J] in
structure Sound (l : Ledger K T J) : Prop where
  issued_of_store : ∀ {k t}, l.store k = some t → t ∈ l.issued
  issued_of_spent : ∀ {j t}, l.spent j = some t → t ∈ l.issued
  not_both : ∀ {k j t}, l.store k = some t → l.spent j ≠ some t
  store_inj : ∀ {k k' t}, l.store k = some t → l.store k' = some t → k = k'
  spent_inj : ∀ {j j' t}, l.spent j = some t → l.spent j' = some t → j = j'

omit [DecidableEq K] [DecidableEq J] in
theorem sound_empty : Sound (Ledger.empty : Ledger K T J) where
  issued_of_store h := by cases h
  issued_of_spent h := by cases h
  not_both h := by cases h
  store_inj h := by cases h
  spent_inj h := by cases h

variable {l : Ledger K T J} {k : K} {t t' : T} {j : J}

omit [DecidableEq J] in
theorem store_put {k' : K} :
    (l.put k t).store k' = some t' ↔ k' = k ∧ t' = t ∨ k' ≠ k ∧ l.store k' = some t' := by
  rcases eq_or_ne k' k with rfl | hne
  · simp [Ledger.put, eq_comm]
  · simp [Ledger.put, hne]

theorem store_take {k' : K} :
    (l.take k t j).store k' = some t' ↔ k' ≠ k ∧ l.store k' = some t' := by
  rcases eq_or_ne k' k with rfl | hne
  · simp [Ledger.take]
  · simp [Ledger.take, hne]

theorem spent_take {j' : J} :
    (l.take k t j).spent j' = some t' ↔ j' = j ∧ t' = t ∨ j' ≠ j ∧ l.spent j' = some t' := by
  rcases eq_or_ne j' j with rfl | hne
  · simp [Ledger.take, eq_comm]
  · simp [Ledger.take, hne]

omit [DecidableEq J] in
theorem Sound.put (hl : Sound l) (hfresh : t ∉ l.issued) :
    Sound (l.put k t) where
  issued_of_store := by
    intro k' t' h
    rcases store_put.1 h with ⟨-, rfl⟩ | ⟨-, h⟩
    · exact Set.mem_insert _ _
    · exact Set.mem_insert_of_mem _ (hl.issued_of_store h)
  issued_of_spent h := Set.mem_insert_of_mem _ (hl.issued_of_spent h)
  not_both := by
    intro k' j t' h hspent
    rcases store_put.1 h with ⟨-, rfl⟩ | ⟨-, h⟩
    · exact hfresh (hl.issued_of_spent hspent)
    · exact hl.not_both h hspent
  store_inj := by
    intro k₁ k₂ t' h₁ h₂
    -- A fresh token is in no other slot.
    rcases store_put.1 h₁ with ⟨rfl, rfl⟩ | ⟨-, hold₁⟩
    · rcases store_put.1 h₂ with ⟨rfl, -⟩ | ⟨-, hold₂⟩
      · rfl
      · exact absurd (hl.issued_of_store hold₂) hfresh
    · rcases store_put.1 h₂ with ⟨-, rfl⟩ | ⟨-, hold₂⟩
      · exact absurd (hl.issued_of_store hold₁) hfresh
      · exact hl.store_inj hold₁ hold₂
  spent_inj := hl.spent_inj

theorem Sound.take (hl : Sound l) (hstore : l.store k = some t) : Sound (l.take k t j) where
  issued_of_store h := hl.issued_of_store (store_take.1 h).2
  issued_of_spent := by
    intro j' t' h
    rcases spent_take.1 h with ⟨-, rfl⟩ | ⟨-, h⟩
    · exact hl.issued_of_store hstore
    · exact hl.issued_of_spent h
  not_both := by
    intro k' j' t' h hspent
    obtain ⟨hne, hold⟩ := store_take.1 h
    rcases spent_take.1 hspent with ⟨-, rfl⟩ | ⟨-, hspent'⟩
    · exact hne (hl.store_inj hold hstore)
    · exact hl.not_both hold hspent'
  store_inj h₁ h₂ := hl.store_inj (store_take.1 h₁).2 (store_take.1 h₂).2
  spent_inj := by
    intro j₁ j₂ t' h₁ h₂
    -- The token was in its slot, so nobody else has spent it.
    rcases spent_take.1 h₁ with ⟨rfl, rfl⟩ | ⟨-, hold₁⟩
    · rcases spent_take.1 h₂ with ⟨rfl, -⟩ | ⟨-, hold₂⟩
      · rfl
      · exact absurd hold₂ (hl.not_both hstore)
    · rcases spent_take.1 h₂ with ⟨-, rfl⟩ | ⟨-, hold₂⟩
      · exact absurd hold₁ (hl.not_both hstore)
      · exact hl.spent_inj hold₁ hold₂

theorem Sound.step {l' : Ledger K T J} (hl : Sound l) (h : Step l l') : Sound l' := by
  cases h with
  | put hfresh => exact hl.put hfresh
  | take hstore _ => exact hl.take hstore

theorem Reachable.sound (h : Reachable l) : Sound l := by
  induction h with
  | refl => exact sound_empty
  | tail _ hstep ih => exact ih.step hstep

/-- A token is spent once. -/
theorem Reachable.spent_inj (h : Reachable l) {j' : J} (hj : l.spent j = some t)
    (hj' : l.spent j' = some t) : j = j' :=
  h.sound.spent_inj hj hj'

end OneTime
