import TlsAttestation.Lib.IterMut

/-!
# Code that does not panic

A computation with errors in `Fallible.Stop` may end in a panic. `Fallible.NoPanic` says that it
does not, with one rule for each way of composing; `Effect.NoPanicAt` says it of a run from one
state.
-/

namespace Fallible

universe u

variable {ε ε' : Type u} {α β : Type u}

def NoPanic (x : Except (Stop ε) α) : Prop := ∀ message, x ≠ .error (.panic message)

theorem noPanic_ok (a : α) : NoPanic (.ok a : Except (Stop ε) α) := nofun

theorem noPanic_error (e : ε) : NoPanic (.error (.error e) : Except (Stop ε) α) := nofun

theorem noPanic_pure (a : α) : NoPanic (pure a : Except (Stop ε) α) := nofun

theorem NoPanic.of_error {e : Stop ε} (h : NoPanic (.error e : Except (Stop ε) α)) :
    NoPanic (.error e : Except (Stop ε) β) :=
  fun message heq => h message (congrArg _ (Except.error.inj heq))

theorem NoPanic.bind {x : Except (Stop ε) α} {f : α → Except (Stop ε) β} (hx : NoPanic x)
    (hf : ∀ a, x = .ok a → NoPanic (f a)) : NoPanic (x >>= f) := by
  rcases x with e | a
  · exact hx.of_error
  · exact hf a rfl

theorem noPanic_ensure {ε : Type} (c : Prop) [Decidable c] (e : ε) :
    NoPanic (ensure c (.error e : Stop ε)) := by
  rw [ensure]
  split
  · exact noPanic_ok ()
  · exact noPanic_error e

theorem noPanic_okOr (x : Option α) (e : ε) : NoPanic (okOr x (.error e)) := by
  rcases x with _ | a
  · exact noPanic_error e
  · exact noPanic_ok a

theorem noPanic_mapError (x : Except ε' α) (f : ε' → ε) :
    NoPanic (x.mapError fun e => .error (f e)) := by
  rcases x with e | a
  · exact noPanic_error (f e)
  · exact noPanic_ok a

theorem NoPanic.mapError {x : Except (Stop ε') α} (hx : NoPanic x) (f : ε' → ε) :
    NoPanic (x.mapError (Stop.map f)) := by
  rcases x with (e | message) | a
  · exact noPanic_error (f e)
  · exact absurd rfl (hx message)
  · exact noPanic_ok a

theorem noPanic_expect {x : Except ε' α} (h : ∃ a, x = .ok a) (message : String) :
    NoPanic (expect x message : Except (Stop ε) α) := by
  obtain ⟨a, rfl⟩ := h
  exact noPanic_ok a

theorem noPanic_foldlM {step : β → α → Except (Stop ε) β} {l : List α}
    (hstep : ∀ s, ∀ x ∈ l, NoPanic (step s x)) (s : β) : NoPanic (l.foldlM step s) := by
  induction l generalizing s with
  | nil => exact noPanic_pure s
  | cons x l ih =>
    rw [List.foldlM_cons]
    exact (hstep s x List.mem_cons_self).bind fun t _ =>
      ih (fun s y hy => hstep s y (List.mem_cons_of_mem x hy)) t

theorem noPanic_mapM {f : α → Except (Stop ε) β} {l : List α} (hf : ∀ x ∈ l, NoPanic (f x)) :
    NoPanic (l.mapM f) := by
  induction l with
  | nil => exact noPanic_pure []
  | cons x l ih =>
    rw [List.mapM_cons]
    refine (hf x List.mem_cons_self).bind fun y _ => ?_
    exact (ih fun z hz => hf z (List.mem_cons_of_mem x hz)).bind fun _ _ => noPanic_pure _

end Fallible

namespace Effect

open Fallible

universe u

variable {ε σ α β : Type u} {s : σ}

def NoPanicAt (x : EStateM (Stop ε) σ α) (s : σ) : Prop := NoPanic (resultOf (x.run s)).1

theorem NoPanicAt.bind {x : EStateM (Stop ε) σ α} {f : α → EStateM (Stop ε) σ β}
    (hx : NoPanicAt x s) (hf : ∀ a t, x.run s = .ok a t → NoPanicAt (f a) t) :
    NoPanicAt (x >>= f) s := by
  rw [NoPanicAt] at hx ⊢
  rcases hrun : x.run s with ⟨a, t⟩ | ⟨e, t⟩
  · rw [run_bind_of_ok f hrun]
    exact hf a t hrun
  · rw [run_bind_of_error f hrun]
    rw [hrun] at hx
    exact hx.of_error

theorem noPanicAt_lift {x : Except (Stop ε) α} (hx : NoPanic x) :
    NoPanicAt (lift id x) s := by
  rcases x with e | a
  · exact hx
  · exact noPanic_ok a

theorem noPanicAt_iterMut {κ : Type*} {f : κ → α → EStateM (Stop ε) σ α} {ks : List κ} {l : List σ}
    {Q : κ → σ → Prop} (hturn : ∀ k a s, Q k s → NoPanicAt (f k a) s) (hQ : List.Forall₂ Q ks l)
    (a : α) : NoPanicAt (iterMut f ks a) l := by
  intro message h
  rcases hrun : (iterMut f ks a).run l with ⟨b, l'⟩ | ⟨e, l'⟩
  · rw [hrun] at h
    cases h
  · rw [hrun] at h
    obtain rfl := Except.error.inj h
    refine iterMut_error (E := fun e => e ≠ .panic message) (fun _ => True)
      (fun _ _ _ _ _ _ _ _ => trivial) (fun k a s e s' hk _ hturn' heq => ?_) hQ trivial hrun rfl
    have hno := hturn k a s hk message
    rw [hturn'] at hno
    exact hno (congrArg _ heq)

end Effect
