import TlsAttestation.Lib.Fallible

/-!
# Code that changes a state and returns early

`EStateM ε σ` is a program that may leave with an error; the changes it made before stay. The
theorems say when a run ends well, and in which state. A program on a part of the state is one on
all of it by `Effect.zoom`.
-/

namespace Effect

universe u

variable {ε ε' σ τ : Type u} {α β γ : Type u}

def lift (f : ε' → ε) (x : Except ε' α) : EStateM ε σ α := fun s =>
  match x with
  | .ok a => .ok a s
  | .error e => .error (f e) s

def check (c : Prop) [Decidable c] (e : ε) : EStateM ε σ PUnit := fun s =>
  if c then .ok ⟨⟩ s else .error e s

/-- A program on a part of a state, with its errors converted. -/
def zoom (get : σ → τ) (set : σ → τ → σ) (f : ε' → ε) (x : EStateM ε' τ α) : EStateM ε σ α :=
  fun s =>
    match x.run (get s) with
    | .ok a t => .ok a (set s t)
    | .error e t => .error (f e) (set s t)

/-- The handler starts in the state of the error. -/
def orElse (x : EStateM ε σ α) (handler : ε → EStateM ε σ α) : EStateM ε σ α := fun s =>
  match x.run s with
  | .ok a t => .ok a t
  | .error e t => (handler e).run t

def resultOf : EStateM.Result ε σ α → Except ε α × σ
  | .ok a s => (.ok a, s)
  | .error e s => (.error e, s)

/-- A program whose error is a result. -/
def attempt (x : EStateM ε' σ α) : EStateM ε σ (Except ε' α) := fun s =>
  .ok (resultOf (x.run s)).1 (resultOf (x.run s)).2

def forEach (f : α → EStateM ε σ β) : List α → EStateM ε σ (List β)
  | [] => pure []
  | a :: l => do
    let b ← f a
    let bs ← forEach f l
    return b :: bs

/-! ### When a run ends well -/

variable {a : α} {s s' t : σ} {x : EStateM ε σ α} {f : α → EStateM ε σ β} {e : ε}

theorem run_pure_ok {b : α} :
    (pure a : EStateM ε σ α).run s = .ok b s' ↔ a = b ∧ s = s' := by
  simp

theorem run_bind_ok {b : β} :
    (x >>= f).run s = .ok b s' ↔ ∃ a t, x.run s = .ok a t ∧ (f a).run t = .ok b s' := by
  rw [EStateM.run_bind]
  rcases x.run s with ⟨a, t⟩ | ⟨e, t⟩ <;> simp

theorem run_map_ok {f : α → β} {b : β} :
    (f <$> x).run s = .ok b s' ↔ ∃ a, x.run s = .ok a s' ∧ f a = b := by
  rw [map_eq_pure_bind, run_bind_ok]
  simp only [run_pure_ok]
  exact ⟨fun ⟨a, t, hx, hb, ht⟩ => ⟨a, ht ▸ hx, hb⟩, fun ⟨a, hx, hb⟩ => ⟨a, s', hx, hb, rfl⟩⟩

theorem run_map_error {f : α → β} :
    (f <$> x).run s = .error e s' ↔ x.run s = .error e s' := by
  rw [map_eq_pure_bind, EStateM.run_bind]
  rcases x.run s with ⟨a, t⟩ | ⟨e', t⟩ <;> simp

theorem not_run_throw_ok :
    ¬ (throw e : EStateM ε σ α).run s = .ok a s' := by
  intro h
  cases h

theorem run_lift_ok {f : ε' → ε} {x : Except ε' α} :
    (lift f x).run s = .ok a s' ↔ x = .ok a ∧ s = s' := by
  rcases x with e | b <;> simp [lift, EStateM.run]

theorem run_zoom_ok {get : σ → τ} {set : σ → τ → σ} {f : ε' → ε} {x : EStateM ε' τ α} :
    (zoom get set f x).run s = .ok a s' ↔ ∃ t, x.run (get s) = .ok a t ∧ set s t = s' := by
  simp only [zoom, EStateM.run]
  rcases x (get s) with ⟨b, t⟩ | ⟨e, t⟩
  · simp only [EStateM.Result.ok.injEq]
    exact ⟨fun ⟨hb, ht⟩ => ⟨t, ⟨hb, rfl⟩, ht⟩, fun ⟨t', ⟨hb, ht⟩, hs⟩ => ⟨hb, ht ▸ hs⟩⟩
  · simp

theorem run_orElse_ok {handler : ε → EStateM ε σ α}
    (hhandler : ∀ e t, ¬ (handler e).run t = .ok a s') :
    (orElse x handler).run s = .ok a s' ↔ x.run s = .ok a s' := by
  simp only [orElse, EStateM.run]
  rcases hx : x s with ⟨b, t⟩ | ⟨e, t⟩
  · simp
  · simpa [EStateM.run] using hhandler e t

theorem run_check_ok {c : Prop} [Decidable c] {u : PUnit} :
    (check c e : EStateM ε σ PUnit).run s = .ok u s' ↔ c ∧ s = s' := by
  by_cases hc : c <;> simp [check, EStateM.run, hc]

theorem run_get_ok :
    (get : EStateM ε σ σ).run s = .ok t s' ↔ s = t ∧ s = s' := by
  simp

theorem forall_run_ok_iff (h : x.run s = .ok a t) {P : α → σ → Prop} :
    (∀ b t', x.run s = .ok b t' → P b t') ↔ P a t := by
  constructor
  · intro hall
    exact hall a t h
  · intro hP b t' hb
    rw [h] at hb
    obtain ⟨rfl, rfl⟩ := EStateM.Result.ok.inj hb
    exact hP

theorem forall_run_ok_of_error (h : x.run s = .error e t) {P : α → σ → Prop} :
    ∀ b t', x.run s = .ok b t' → P b t' := by
  intro b t' hb
  rw [h] at hb
  cases hb

/-! ### When a run ends with an error -/

theorem run_bind_error :
    (x >>= f).run s = .error e s' ↔
      x.run s = .error e s' ∨ ∃ a t, x.run s = .ok a t ∧ (f a).run t = .error e s' := by
  rw [EStateM.run_bind]
  rcases x.run s with ⟨a, t⟩ | ⟨e', t⟩ <;> simp

theorem not_run_pure_error :
    ¬ (pure a : EStateM ε σ α).run s = .error e s' := by
  intro h
  cases h

theorem run_lift_error {f : ε' → ε} {x : Except ε' α} :
    (lift f x).run s = .error e s' ↔ (∃ e', x = .error e' ∧ f e' = e) ∧ s = s' := by
  rcases x with e' | b <;> simp [lift, EStateM.run]

theorem run_zoom_error {get : σ → τ} {set : σ → τ → σ} {f : ε' → ε} {x : EStateM ε' τ α} :
    (zoom get set f x).run s = .error e s' ↔
      ∃ e' t, x.run (get s) = .error e' t ∧ f e' = e ∧ set s t = s' := by
  simp only [zoom, EStateM.run]
  rcases x (get s) with ⟨b, t⟩ | ⟨e', t⟩
  · simp
  · simp only [EStateM.Result.error.injEq]
    exact ⟨fun ⟨he, hs⟩ => ⟨e', t, ⟨rfl, rfl⟩, he, hs⟩,
      fun ⟨_, _, ⟨he', ht⟩, he, hs⟩ => ⟨he' ▸ he, ht ▸ hs⟩⟩

theorem run_orElse_error {handler : ε → EStateM ε σ α} :
    (orElse x handler).run s = .error e s' ↔
      ∃ e' t, x.run s = .error e' t ∧ (handler e').run t = .error e s' := by
  simp only [orElse, EStateM.run]
  rcases x s with ⟨b, t⟩ | ⟨e', t⟩
  · simp
  · simp only [EStateM.Result.error.injEq]
    exact ⟨fun h => ⟨e', t, ⟨rfl, rfl⟩, h⟩, fun ⟨_, _, ⟨he', ht⟩, h⟩ => he' ▸ ht ▸ h⟩

/-! ### How a run goes on -/

theorem run_bind_of_ok (f : α → EStateM ε σ β) (h : x.run s = .ok a t) :
    (x >>= f).run s = (f a).run t := by
  rw [EStateM.run_bind, h]

theorem run_bind_of_error (f : α → EStateM ε σ β) (h : x.run s = .error e t) :
    (x >>= f).run s = .error e t := by
  rw [EStateM.run_bind, h]

theorem run_lift_bind (f : ε' → ε) (x : Except ε' α) (k : α → EStateM ε σ β) (s : σ) :
    (lift f x >>= k).run s = match x with
      | .ok a => (k a).run s
      | .error e => .error (f e) s := by
  rcases x with e | a <;> rfl

@[simp] theorem run_get_bind (k : σ → EStateM ε σ β) : (get >>= k).run s = (k s).run s := rfl

@[simp] theorem run_set_bind (t : σ) (k : PUnit → EStateM ε σ β) :
    (set t >>= k).run s = (k ⟨⟩).run t := rfl

theorem run_lift_bind_ok {f : ε' → ε} {x : Except ε' α} {k : α → EStateM ε σ β} {b : β} :
    (lift f x >>= k).run s = .ok b s' ↔ ∃ a, x = .ok a ∧ (k a).run s = .ok b s' := by
  rw [run_lift_bind]
  rcases x with e | a <;> simp

theorem run_check_bind {c : Prop} [Decidable c] (k : PUnit → EStateM ε σ β) :
    (check c e >>= k).run s = if c then (k ⟨⟩).run s else .error e s := by
  by_cases hc : c
  · rw [if_pos hc, run_bind_of_ok k (run_check_ok.2 ⟨hc, rfl⟩)]
  · rw [if_neg hc]
    exact run_bind_of_error k (if_neg hc)

theorem run_check_bind_ok {c : Prop} [Decidable c] {k : PUnit → EStateM ε σ β} {b : β} :
    (check c e >>= k).run s = .ok b s' ↔ c ∧ (k ⟨⟩).run s = .ok b s' := by
  rw [run_check_bind]
  by_cases hc : c <;> simp [hc]

theorem resultOf_bind_snd {P : σ → Prop} (herror : ∀ e t, x.run s = .error e t → P t)
    (hok : ∀ a t, x.run s = .ok a t → P (resultOf ((f a).run t)).2) :
    P (resultOf ((x >>= f).run s)).2 := by
  rcases hx : x.run s with ⟨a, t⟩ | ⟨e, t⟩
  · rw [run_bind_of_ok f hx]
    exact hok a t hx
  · rw [run_bind_of_error f hx]
    exact herror e t hx

theorem zoom_zoom {ε'' υ : Type u} {get : σ → τ} {set : σ → τ → σ} {f : ε' → ε} {get' : τ → υ}
    {set' : τ → υ → τ} {f' : ε'' → ε'} {x : EStateM ε'' υ α} :
    zoom get set f (zoom get' set' f' x) =
      zoom (fun s => get' (get s)) (fun s u => set s (set' (get s) u)) (fun e => f (f' e)) x := by
  funext s
  simp only [zoom, EStateM.run]
  rcases x (get' (get s)) with ⟨a, u⟩ | ⟨e, u⟩ <;> rfl

/-! ### Many runs -/

theorem map_resultOf_eq (runs : List (EStateM.Result ε σ α)) (as : List α) :
    runs.map (fun r => (resultOf r).1) = as.map .ok ↔
      ∃ rs : List (α × σ), runs = rs.map (fun r => .ok r.1 r.2) ∧ as = rs.map Prod.fst := by
  induction runs generalizing as with
  | nil =>
    rcases as with _ | ⟨a, as⟩
    · exact ⟨fun _ => ⟨[], rfl, rfl⟩, fun _ => rfl⟩
    · refine ⟨nofun, fun ⟨rs, hruns, has⟩ => ?_⟩
      rw [List.map_eq_nil_iff.1 hruns.symm] at has
      cases has
  | cons run runs ih =>
    rcases as with _ | ⟨a, as⟩
    · refine ⟨nofun, fun ⟨rs, hruns, has⟩ => ?_⟩
      rw [List.map_eq_nil_iff.1 has.symm] at hruns
      cases hruns
    · rw [List.map_cons, List.map_cons, List.cons.injEq, ih]
      constructor
      · rintro ⟨hrun, rs, rfl, rfl⟩
        rcases run with ⟨b, t⟩ | ⟨e, t⟩
        · obtain rfl := Except.ok.inj hrun
          exact ⟨(b, t) :: rs, rfl, rfl⟩
        · cases hrun
      · rintro ⟨_ | ⟨r, rs⟩, hruns, has⟩
        · cases hruns
        · obtain ⟨rfl, rfl⟩ := List.cons.inj hruns
          obtain ⟨rfl, rfl⟩ := List.cons.inj has
          exact ⟨rfl, rs, rfl, rfl⟩

/-! ### Loops -/

theorem forEach_map {f : β → EStateM ε σ γ} {g : α → β} (l : List α) :
    forEach f (l.map g) = forEach (fun a => f (g a)) l := by
  induction l with
  | nil => rfl
  | cons a l ih => simp only [List.map_cons, forEach, ih]

/-- **The loop rule**, for all results and for what is kept of the state. -/
theorem run_forEach_ok {P : α → β → Prop} {I : σ → Prop} {l : List α}
    (hstep : ∀ a ∈ l, ∀ s b s', I s → (f a).run s = .ok b s' → P a b ∧ I s') {bs : List β}
    (hs : I s) (h : (forEach f l).run s = .ok bs s') :
    List.Forall₂ P l bs ∧ I s' := by
  induction l generalizing s bs with
  | nil =>
    obtain ⟨rfl, rfl⟩ := run_pure_ok.1 h
    exact ⟨.nil, hs⟩
  | cons a l ih =>
    simp only [forEach, run_bind_ok, run_pure_ok] at h
    obtain ⟨b, t, hb, bs, t', hbs, rfl, rfl⟩ := h
    obtain ⟨hP, ht⟩ := hstep a List.mem_cons_self s b t hs hb
    obtain ⟨hPs, hs'⟩ := ih (fun a ha => hstep a (List.mem_cons_of_mem _ ha)) ht hbs
    exact ⟨.cons hP hPs, hs'⟩

end Effect
