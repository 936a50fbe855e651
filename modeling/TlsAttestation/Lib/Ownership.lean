import TlsAttestation.Lib.Threads

/-!
# Entries of a table that threads create and change

A thread may create the entry under its key, and from then on change it; it touches nothing else.
That is about its program alone (`Threads.Owns`). So every entry is that of the thread that has
created it (`Threads.owns_of_createdBy`).
-/

namespace Threads

open Function

universe u v w x y

variable {ι : Type w} {σ : Type u} {α : Type v} {K : Type x} {V : Type y} [DecidableEq ι]
  [DecidableEq K]

/-! ### One thread -/

inductive Moves (k : K) : Option V → (K → Option V) → (K → Option V) → Option V → Prop
  | keep (own : Option V) (f : K → Option V) : Moves k own f f own
  | create (f : K → Option V) (v : V) (habsent : f k = none) :
      Moves k none f (update f k (some v)) (some v)
  | change (f : K → Option V) (v v' : V) :
      Moves k (some v) f (update f k (some v')) (some v')

variable {k : K} {c : Pool ι σ α} {own : ι → Option V} {i : ι} {v : V} {schedule : List ι}

theorem Moves.eq_or {own own' : Option V} {f f' : K → Option V} (h : Moves k own f f' own') :
    own' = own ∧ f' = f ∨ ∃ v, own' = some v ∧ f' = update f k (some v) ∧
        (own = none ∧ f k = none ∨ ∃ u, own = some u) := by
  cases h with
  | keep => exact .inl ⟨rfl, rfl⟩
  | create _ v habsent => exact .inr ⟨v, rfl, rfl, .inl ⟨rfl, habsent⟩⟩
  | change _ u v => exact .inr ⟨v, rfl, rfl, .inr ⟨u, rfl⟩⟩

/-- **The thread keeps to its entry**, now `own`, and returns with `Post`; before, the value is not
a last one. -/
def Owns (view : σ → K → Option V) (Last : V → Prop) (k : K) (Post : Option V → α → Prop) :
    Option V → Prog σ α → Prop
  | own, .done a => Post own a
  | own, .locked update next =>
    (∀ v ∈ own, ¬ Last v) ∧ ∀ s, ∃ own', Moves k own (view s) (view (update s)) own' ∧
      Owns view Last k Post own' (next s)

section Rules

variable {view : σ → K → Option V} {Last : V → Prop} {k : K} {own : Option V}

theorem Owns.bind {β : Type v} {Post : Option V → α → Prop} {Post' : Option V → β → Prop}
    {p : Prog σ α} {q : α → Prog σ β} (h : Owns view Last k Post own p)
    (hq : ∀ own a, Post own a → Owns view Last k Post' own (q a)) :
    Owns view Last k Post' own (p.bind q) := by
  induction p generalizing own with
  | done a => exact hq own a h
  | locked update next ih =>
    obtain ⟨hlast, hnext⟩ := h
    refine ⟨hlast, fun s => ?_⟩
    obtain ⟨own', hmoves, hown'⟩ := hnext s
    exact ⟨own', hmoves, ih s hown'⟩

end Rules

section Errors

variable {ε σ α β γ : Type u} {view : σ → K → Option V} {Last : V → Prop} {k : K} {own : Option V}

def Results (Ok : Option V → α → Prop) (Err : Option V → ε → Prop) (own : Option V) :
    Except ε α → Prop
  | .ok a => Ok own a
  | .error e => Err own e

variable {Err : Option V → ε → Prop} {Ok : Option V → α → Prop}

theorem owns_atomic {x : EStateM ε σ α} (hlast : ∀ v ∈ own, ¬ Last v)
    (hok : ∀ s a s', x.run s = .ok a s' → ∃ own', Moves k own (view s) (view s') own' ∧ Ok own' a)
    (herr : ∀ s e s', x.run s = .error e s' →
      ∃ own', Moves k own (view s) (view s') own' ∧ Err own' e) :
    Owns view Last k (Results Ok Err) own (.atomic x) := by
  refine ⟨hlast, fun s => ?_⟩
  dsimp only
  rcases h : x.run s with ⟨a, s'⟩ | ⟨e, s'⟩
  · exact hok s a s' h
  · exact herr s e s' h

/-- Go on unless there was an error. -/
theorem Owns.andThen {Ok' : Option V → β → Prop} {p : Prog σ (Except ε α)}
    {q : α → Prog σ (Except ε β)} (h : Owns view Last k (Results Ok Err) own p)
    (hq : ∀ own a, Ok own a → Owns view Last k (Results Ok' Err) own (q a)) :
    Owns view Last k (Results Ok' Err) own (p.andThen q) := by
  refine h.bind fun own r hr => ?_
  rcases r with e | a
  · exact hr
  · exact hq own a hr

theorem owns_forEach {f : γ → Prog σ (Except ε β)} {l : List γ}
    (hf : ∀ a ∈ l, Owns view Last k (Results (fun own' _ => own' = own) Err) own (f a)) :
    Owns view Last k (Results (fun own' _ => own' = own) Err) own (Prog.forEach f l) := by
  induction l with
  | nil => exact rfl
  | cons a l ih =>
    refine (hf a List.mem_cons_self).andThen fun own' b hown' => ?_
    subst hown'
    refine (ih fun c hc => hf c (List.mem_cons_of_mem _ hc)).andThen fun own'' bs hown'' => ?_
    exact hown''

end Errors

/-! ### All threads -/

variable {view : σ → K → Option V} {Last : V → Prop} {key : ι → K} {Post : ι → Option V → α → Prop}

/-- Every entry of the shared table is owned by one thread, which works under its key. -/
structure Owned (view : σ → K → Option V) (Last : V → Prop) (key : ι → K)
    (Post : ι → Option V → α → Prop) (c : Pool ι σ α) (own : ι → Option V) : Prop where
  owns : ∀ i, Owns view Last (key i) (Post i) (own i) (c.threads i)
  entry : ∀ i v, own i = some v → view c.shared (key i) = some v
  owner : ∀ k v, view c.shared k = some v → ∃ i, key i = k ∧ own i = some v
  unique : ∀ i j v v', key i = key j → own i = some v → own j = some v' → i = j

theorem Owned.replace (h : Owned view Last key Post c own) {s : σ} {p : Prog σ α}
    (hview : view s = update (view c.shared) (key i) (some v))
    (hp : Owns view Last (key i) (Post i) (some v) p)
    (halone : ∀ j v', key j = key i → own j = some v' → j = i) :
    Owned view Last key Post ⟨s, update c.threads i p⟩ (update own i (some v)) where
  owns j := by
    by_cases hj : j = i
    · subst hj
      simpa only [update_self] using hp
    · simpa only [update_of_ne hj] using h.owns j
  entry j v' hj := by
    by_cases hji : j = i
    · subst hji
      rw [update_self] at hj
      rw [hview, update_self, hj]
    · rw [update_of_ne hji] at hj
      have hkey : key j ≠ key i := fun hkey => hji (halone j v' hkey hj)
      rw [hview, update_of_ne hkey]
      exact h.entry j v' hj
  owner k v' hk := by
    by_cases hki : k = key i
    · refine ⟨i, hki.symm, ?_⟩
      rw [hview, hki, update_self] at hk
      rw [update_self, hk]
    · rw [hview, update_of_ne hki] at hk
      obtain ⟨j, hj, hown⟩ := h.owner k v' hk
      have hji : j ≠ i := by
        rintro rfl
        exact hki hj.symm
      exact ⟨j, hj, by rw [update_of_ne hji, hown]⟩
  unique j l v₁ v₂ hkey hj hl := by
    by_cases hji : j = i
    · by_cases hli : l = i
      · rw [hji, hli]
      · rw [update_of_ne hli] at hl
        rw [hji, halone l v₂ (hji ▸ hkey.symm) hl]
    · rw [update_of_ne hji] at hj
      by_cases hli : l = i
      · rw [hli, halone j v₁ (hli ▸ hkey) hj]
      · rw [update_of_ne hli] at hl
        exact h.unique j l v₁ v₂ hkey hj hl

theorem Owned.keep (h : Owned view Last key Post c own) {s : σ} {p : Prog σ α}
    (hview : view s = view c.shared) (hp : Owns view Last (key i) (Post i) (own i) p) :
    Owned view Last key Post ⟨s, update c.threads i p⟩ own where
  owns j := by
    by_cases hj : j = i
    · subst hj
      simpa only [update_self] using hp
    · simpa only [update_of_ne hj] using h.owns j
  entry j v hj := by
    rw [hview]
    exact h.entry j v hj
  owner k v hk := h.owner k v (by rw [← hview]; exact hk)
  unique := h.unique

theorem Owned.step (h : Owned view Last key Post c own) (i : ι) :
    ∃ own', Owned view Last key Post (c.step i) own' ∧ (∀ j, own j ≠ none → own' j ≠ none) ∧
      ∀ k, view c.shared k = none → view (c.step i).shared k ≠ none →
        key i = k ∧ own' i ≠ none := by
  rcases hi : c.threads i with a | ⟨update, next⟩
  · rw [Pool.step_of_done hi]
    exact ⟨own, h, fun j hj => hj, fun k hk hk' => absurd hk hk'⟩
  · rw [Pool.step_of_locked hi]
    have howns := h.owns i
    rw [hi] at howns
    obtain ⟨own', hmoves, hown'⟩ := howns.2 c.shared
    rcases hmoves.eq_or with ⟨rfl, hsame⟩ | ⟨v, rfl, hwrite, hcase⟩
    · refine ⟨own, h.keep hsame hown', fun j hj => hj, fun k hk hk' => ?_⟩
      rw [hsame] at hk'
      exact absurd hk hk'
    · have halone : ∀ j u, key j = key i → own j = some u → j = i := by
        intro j u hj hu
        rcases hcase with ⟨-, habsent⟩ | ⟨u', hu'⟩
        · have hentry := h.entry j u hu
          rw [hj, habsent] at hentry
          exact absurd hentry (by simp)
        · exact h.unique j i u u' hj hu hu'
      refine ⟨_, h.replace hwrite hown' halone, fun j hj => ?_, fun k hk hk' => ⟨?_, by simp⟩⟩
      · by_cases hji : j = i
        · rw [hji, update_self]
          exact Option.some_ne_none v
        · rwa [update_of_ne hji]
      · by_contra hne
        rw [hwrite, update_of_ne (Ne.symm hne)] at hk'
        exact hk' hk

theorem Owned.run (h : Owned view Last key Post c own) (schedule : List ι) :
    ∃ own', Owned view Last key Post (c.run schedule) own' ∧ ∀ j, own j ≠ none → own' j ≠ none := by
  induction schedule generalizing c own with
  | nil => exact ⟨own, h, fun j hj => hj⟩
  | cons i schedule ih =>
    obtain ⟨own₁, h₁, hgrow₁, -⟩ := h.step i
    obtain ⟨own₂, h₂, hgrow₂⟩ := ih h₁
    exact ⟨own₂, h₂, fun j hj => hgrow₂ j (hgrow₁ j hj)⟩

/-! ### Who has created an entry -/

def CreatedBy (view : σ → K → Option V) (c : Pool ι σ α) (schedule : List ι) (k : K) (i : ι) :
    Prop :=
  ∃ before after, schedule = before ++ i :: after ∧ view (c.run before).shared k = none ∧
    view ((c.run before).step i).shared k ≠ none

omit [DecidableEq K] in
theorem exists_createdBy (hc : view c.shared k = none) (h : view (c.run schedule).shared k ≠ none) :
    ∃ i, CreatedBy view c schedule k i := by
  induction schedule generalizing c with
  | nil => exact absurd hc h
  | cons i schedule ih =>
    by_cases hi : view (c.step i).shared k = none
    · obtain ⟨j, before, after, rfl, hbefore, hafter⟩ := ih hi h
      exact ⟨j, i :: before, after, rfl, hbefore, hafter⟩
    · exact ⟨i, [], schedule, rfl, hc, hi⟩

structure Starts (view : σ → K → Option V) (Last : V → Prop) (key : ι → K)
    (Post : ι → Option V → α → Prop) (c : Pool ι σ α) : Prop where
  empty : ∀ k, view c.shared k = none
  owns : ∀ i, Owns view Last (key i) (Post i) none (c.threads i)

omit [DecidableEq ι] in
theorem Starts.owned (h : Starts view Last key Post c) :
    Owned view Last key Post c fun _ => none where
  owns := h.owns
  entry _ _ hv := absurd hv (by simp)
  owner k v hk := absurd (h.empty k) (by rw [hk]; simp)
  unique _ _ _ _ _ hv _ := absurd hv (by simp)

/-- An entry is that of the thread that has created it. -/
theorem owns_of_createdBy (h : Starts view Last key Post c)
    (hv : view (c.run schedule).shared k = some v) (hi : CreatedBy view c schedule k i) :
    key i = k ∧ Owns view Last k (Post i) (some v) ((c.run schedule).threads i) := by
  obtain ⟨before, after, rfl, hbefore, hafter⟩ := hi
  obtain ⟨own₁, h₁, -⟩ := h.owned.run before
  obtain ⟨own₂, h₂, -, hnew⟩ := h₁.step i
  obtain ⟨own₃, h₃, hgrow⟩ := h₂.run after
  obtain ⟨rfl, hown⟩ := hnew k hbefore hafter
  have hrun : c.run (before ++ i :: after) = ((c.run before).step i).run after := by
    simp only [Pool.run, List.foldl_append, List.foldl_cons]
  rw [hrun] at hv ⊢
  -- The owner at the end is the thread, since it still owns an entry under this key.
  obtain ⟨v', hv'⟩ := Option.ne_none_iff_exists'.1 (hgrow i hown)
  obtain rfl : v' = v := Option.some.inj ((h₃.entry i v' hv').symm.trans hv)
  exact ⟨rfl, hv' ▸ h₃.owns i⟩

theorem exists_done_of_createdBy (h : Starts view Last key Post c)
    (hv : view (c.run schedule).shared k = some v) (hlast : Last v)
    (hi : CreatedBy view c schedule k i) :
    ∃ a, (c.run schedule).threads i = .done a ∧ Post i (some v) a := by
  obtain ⟨-, howns⟩ := owns_of_createdBy h hv hi
  rcases hthread : (c.run schedule).threads i with a | ⟨update, next⟩
  · rw [hthread] at howns
    exact ⟨a, rfl, howns⟩
  · rw [hthread] at howns
    exact absurd hlast (howns.1 v rfl)

end Threads
