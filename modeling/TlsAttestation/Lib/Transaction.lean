import TlsAttestation.Lib.Fallible

/-!
# Transactions

A transaction may be reverted with a reason; then nothing it did has happened. That is
`StateT σ (Except String)`: an error carries no state, other than in `Effect`.
-/

namespace Transaction

open Fallible

abbrev Tx (σ α : Type) := StateT σ (Except String) α

variable {σ τ α β : Type}

def require (c : Prop) [Decidable c] (reason : String) : Tx σ Unit := fun s =>
  if c then .ok ((), s) else .error reason

def within (get : σ → τ) (set : σ → τ → σ) (x : Tx τ α) : Tx σ α := fun s => do
  let (a, t) ← x.run (get s)
  return (a, set s t)

/-! ### When a transaction goes through -/

variable {s s' : σ}

theorem run_pure {a b : α} :
    (pure a : Tx σ α).run s = .ok (b, s') ↔ a = b ∧ s = s' := by
  rw [StateT.run_pure, pure_eq_ok, Prod.mk.injEq]

theorem run_bind {x : Tx σ α} {f : α → Tx σ β} {b : β} :
    (x >>= f).run s = .ok (b, s') ↔ ∃ a t, x.run s = .ok (a, t) ∧ (f a).run t = .ok (b, s') := by
  rw [StateT.run_bind, bind_eq_ok, Prod.exists]

theorem run_require {c : Prop} [Decidable c] {reason : String} {u : Unit} :
    (require c reason).run s = .ok (u, s') ↔ c ∧ s = s' := by
  by_cases hc : c <;> simp [require, StateT.run, hc]

theorem run_require_bind {c : Prop} [Decidable c] {reason : String} {f : Unit → Tx σ β} {b : β} :
    (require c reason >>= f).run s = .ok (b, s') ↔ c ∧ (f ()).run s = .ok (b, s') := by
  by_cases hc : c <;> simp [require, StateT.run, bind, StateT.bind, Except.bind, hc]

theorem run_get_bind {f : σ → Tx σ β} : (get >>= f).run s = (f s).run s := rfl

theorem run_modify_bind {g : σ → σ} {f : PUnit → Tx σ β} :
    (modify g >>= f).run s = (f ⟨⟩).run (g s) := rfl

theorem run_modify {f : σ → σ} {u : PUnit} :
    (modify f : Tx σ PUnit).run s = .ok (u, s') ↔ f s = s' := by
  rw [StateT.run_modify, pure_eq_ok, Prod.mk.injEq]
  exact and_iff_right rfl

theorem run_within {get : σ → τ} {set : σ → τ → σ} {x : Tx τ α} {a : α} :
    (within get set x).run s = .ok (a, s') ↔ ∃ t, x.run (get s) = .ok (a, t) ∧ set s t = s' := by
  simp only [within, StateT.run, do_eq_ok, Prod.exists, Prod.mk.injEq]
  constructor
  · rintro ⟨b, t, hx, rfl, hs⟩
    exact ⟨t, hx, hs⟩
  · rintro ⟨t, hx, hs⟩
    exact ⟨a, t, hx, rfl, hs⟩

theorem run_within_bind {get : σ → τ} {set : σ → τ → σ} {x : Tx τ α} {f : α → Tx σ β} {b : β} :
    (within get set x >>= f).run s = .ok (b, s') ↔
      ∃ a t, x.run (get s) = .ok (a, t) ∧ (f a).run (set s t) = .ok (b, s') := by
  simp only [run_bind, run_within, exists_exists_and_eq_and]

end Transaction
