import TlsAttestation.Lib.Effect

/-!
# Loops over a slice that is changed

`for (x, k) in slice.iter_mut().zip(items)`: the body may change one element of a list of states. If
it leaves with an error, the loop does, and the elements that were not reached are as they were.
-/

namespace Effect

open List

universe u

variable {ε σ α α' : Type u} {κ : Type*}

def iterMut (f : κ → α → EStateM ε σ α) : List κ → α → EStateM ε (List σ) α
  | [], a => fun l => .ok a l
  | k :: ks, a => fun l =>
    match l with
    | [] => .ok a []
    | s :: l =>
      match (f k a).run s with
      | .error e s' => .error e (s' :: l)
      | .ok b s' =>
        match (iterMut f ks b).run l with
        | .error e l' => .error e (s' :: l')
        | .ok c l' => .ok c (s' :: l')

variable {f : κ → α → EStateM ε σ α} {g : κ → α' → EStateM ε σ α'} {a b : α} {k : κ}
  {ks : List κ} {s s' : σ} {l l' : List σ}

theorem run_iterMut_nil_ok : (iterMut f [] a).run l = .ok b l' ↔ a = b ∧ l = l' := by
  change EStateM.Result.ok a l = .ok b l' ↔ _
  rw [EStateM.Result.ok.injEq]

theorem run_iterMut_cons :
    (iterMut f (k :: ks) a).run (s :: l) = match (f k a).run s with
      | .error e s' => .error e (s' :: l)
      | .ok b s' =>
        match (iterMut f ks b).run l with
        | .error e l' => .error e (s' :: l')
        | .ok c l' => .ok c (s' :: l') :=
  rfl

theorem run_iterMut_cons_ok :
    (iterMut f (k :: ks) a).run (s :: l) = .ok b l' ↔
      ∃ c s' l'', (f k a).run s = .ok c s' ∧ (iterMut f ks c).run l = .ok b l'' ∧
        l' = s' :: l'' := by
  rw [run_iterMut_cons]
  constructor
  · intro h
    rcases hturn : (f k a).run s with ⟨c, s'⟩ | ⟨e, s'⟩
    · rw [hturn] at h
      rcases hrest : (iterMut f ks c).run l with ⟨d, l''⟩ | ⟨e, l''⟩
      · simp only [hrest, EStateM.Result.ok.injEq] at h
        obtain ⟨rfl, rfl⟩ := h
        exact ⟨c, s', l'', rfl, hrest, rfl⟩
      · simp only [hrest] at h
        cases h
    · rw [hturn] at h
      cases h
  · rintro ⟨c, s', l'', hturn, hrest, rfl⟩
    rw [hturn]
    simp only [hrest]

theorem exists_resultOf_iterMut_cons (hturn : (f k a).run s = .ok b s') (ks : List κ) (l : List σ) :
    ∃ l', (resultOf ((iterMut f (k :: ks) a).run (s :: l))).2 = s' :: l' := by
  rw [run_iterMut_cons, hturn]
  rcases hrest : (iterMut f ks b).run l with ⟨c, l'⟩ | ⟨e, l'⟩
  · exact ⟨l', by simp only [hrest, resultOf]⟩
  · exact ⟨l', by simp only [hrest, resultOf]⟩

variable {Q : κ → σ → Prop}

/-- The invariant rule. -/
theorem iterMut_invariant {P : σ → σ → Prop} (Inv : α → Prop)
    (hstep : ∀ k a s b s', Q k s → Inv a → (f k a).run s = .ok b s' → P s s' ∧ Inv b)
    (hQ : Forall₂ Q ks l) (ha : Inv a) (h : (iterMut f ks a).run l = .ok b l') :
    Forall₂ P l l' ∧ Inv b := by
  induction hQ generalizing a l' with
  | nil =>
    obtain ⟨rfl, rfl⟩ := run_iterMut_nil_ok.1 h
    exact ⟨.nil, ha⟩
  | cons hk _ ih =>
    obtain ⟨c, s', l'', hturn, hrest, rfl⟩ := run_iterMut_cons_ok.1 h
    obtain ⟨hP, hc⟩ := hstep _ _ _ _ _ hk ha hturn
    obtain ⟨hPs, hb⟩ := ih hc hrest
    exact ⟨.cons hP hPs, hb⟩

/-- **The rule for what has been done** so far. -/
theorem iterMut_done (Inv : List (κ × σ) → α → Prop)
    (hstep : ∀ done k s rest a b s', ks.zip l = done ++ (k, s) :: rest → Inv done a →
      (f k a).run s = .ok b s' → Inv (done ++ [(k, s)]) b)
    (ha : Inv [] a) (h : (iterMut f ks a).run l = .ok b l') : Inv (ks.zip l) b := by
  -- The induction is on what is left, after the pairs `done`.
  have hleft : ∀ done ks' l₁ a l₂, ks.zip l = done ++ ks'.zip l₁ → Inv done a →
      (iterMut f ks' a).run l₁ = .ok b l₂ → Inv (ks.zip l) b := by
    intro done ks'
    induction ks' generalizing done with
    | nil =>
      intro l₁ a l₂ hdone ha h
      obtain ⟨rfl, -⟩ := run_iterMut_nil_ok.1 h
      rwa [hdone, zip_nil_left, append_nil]
    | cons k ks' ih =>
      rintro (_ | ⟨s, l₁⟩) a l₂ hdone ha h
      · obtain ⟨rfl, -⟩ := EStateM.Result.ok.inj h
        rwa [hdone, zip_nil_right, append_nil]
      · obtain ⟨c, s', l'', hturn, hrest, rfl⟩ := run_iterMut_cons_ok.1 h
        rw [zip_cons_cons] at hdone
        refine ih (done ++ [(k, s)]) l₁ c l'' ?_ (hstep done k s _ a c s' hdone ha hturn) hrest
        rw [hdone, append_assoc, singleton_append]
  exact hleft [] ks l a l' rfl ha h

/-- The rule for errors. -/
theorem iterMut_error {E : ε → Prop} (Inv : α → Prop)
    (hstep : ∀ k a s b s', Q k s → Inv a → (f k a).run s = .ok b s' → Inv b)
    (herror : ∀ k a s e s', Q k s → Inv a → (f k a).run s = .error e s' → E e)
    (hQ : Forall₂ Q ks l) (ha : Inv a) {e : ε} (h : (iterMut f ks a).run l = .error e l') :
    E e := by
  induction hQ generalizing a l' with
  | nil => cases h
  | @cons k s ks l hk _ ih =>
    rw [run_iterMut_cons] at h
    rcases hturn : (f k a).run s with ⟨c, s'⟩ | ⟨e', s'⟩
    · simp only [hturn] at h
      rcases hrest : (iterMut f ks c).run l with ⟨d, l''⟩ | ⟨e', l''⟩
      · simp only [hrest] at h
        cases h
      · simp only [hrest, EStateM.Result.error.injEq] at h
        obtain ⟨rfl, -⟩ := h
        exact ih (hstep _ _ _ _ _ hk ha hturn) hrest
    · simp only [hturn, EStateM.Result.error.injEq] at h
      obtain ⟨rfl, -⟩ := h
      exact herror _ _ _ _ _ hk ha hturn

/-- The rule for the elements that are left. -/
theorem forall₂_iterMut {P : σ → σ → Prop} (hrefl : ∀ s, P s s)
    (hturn : ∀ k a s, P s (resultOf ((f k a).run s)).2) (ks : List κ) (a : α) (l : List σ) :
    Forall₂ P l (resultOf ((iterMut f ks a).run l)).2 := by
  induction ks generalizing a l with
  | nil => exact forall₂_same.2 fun s _ => hrefl s
  | cons k ks ih =>
    rcases l with _ | ⟨s, l⟩
    · exact .nil
    · have hfirst := hturn k a s
      rw [run_iterMut_cons]
      rcases hrun : (f k a).run s with ⟨c, s'⟩ | ⟨e, s'⟩
      · rw [hrun] at hfirst
        have hrest := ih c l
        rcases hlater : (iterMut f ks c).run l with ⟨d, l''⟩ | ⟨e, l''⟩
        · rw [hlater] at hrest
          simp only [hlater]
          exact .cons hfirst hrest
        · rw [hlater] at hrest
          simp only [hlater]
          exact .cons hfirst hrest
      · rw [hrun] at hfirst
        exact .cons hfirst (forall₂_same.2 fun s _ => hrefl s)

/-- The simulation rule. -/
theorem iterMut_simulation (Rel : α → α' → Prop)
    (hstep : ∀ k a a' s b s', Q k s → Rel a a' → (f k a).run s = .ok b s' →
      ∃ b', (g k a').run s = .ok b' s' ∧ Rel b b') (hQ : Forall₂ Q ks l) {a' : α'}
    (ha : Rel a a') (h : (iterMut f ks a).run l = .ok b l') :
    ∃ b', (iterMut g ks a').run l = .ok b' l' ∧ Rel b b' := by
  induction hQ generalizing a a' l' with
  | nil =>
    obtain ⟨rfl, rfl⟩ := run_iterMut_nil_ok.1 h
    exact ⟨a', run_iterMut_nil_ok.2 ⟨rfl, rfl⟩, ha⟩
  | cons hk _ ih =>
    obtain ⟨c, s', l'', hturn, hrest, rfl⟩ := run_iterMut_cons_ok.1 h
    obtain ⟨c', hturn', hc⟩ := hstep _ _ _ _ _ _ hk ha hturn
    obtain ⟨b', hrest', hb⟩ := ih hc hrest
    exact ⟨b', run_iterMut_cons_ok.2 ⟨c', s', l'', hturn', hrest', rfl⟩, hb⟩

end Effect
