import TlsAttestation.Lib.Fallible
import TlsAttestation.Lib.HashMap
import Mathlib.Combinatorics.Enumerative.DoubleCounting

/-!
# Mail

Every sender hands over a map from names to messages (`Mail.box_deliver`). **If all participants
receive at least as many messages as they send, no message leaves their circle**
(`Mail.sent_subset`).
-/

namespace Mail

open Fallible Finset

section

variable {K V β γ ε : Type} [DecidableEq K] {empty : β} {routed routed' : HashMap K β}
  {pack : K → V → Except ε γ} {add : β → γ → β} {hasher : Hasher K}

def box (empty : β) (routed : HashMap K β) (x : K) : β := (routed.lookup x).getD empty

@[simp] theorem box_empty (x : K) : box empty ∅ x = empty := by simp [box]

@[simp] theorem box_insert (routed : HashMap K β) (x : K) (b : β) :
    box empty (routed.insert x b) x = b := by
  rw [box, AList.lookup_insert, Option.getD_some]

variable {x : K} {outbound : HashMap K V}

theorem box_insert_of_ne {x' : K} (h : x' ≠ x) (routed : HashMap K β) (b : β) :
    box empty (routed.insert x b) x' = box empty routed x' := by
  rw [box, AList.lookup_insert_ne h, box]

theorem box_erase_of_ne {x' : K} (h : x' ≠ x) (routed : HashMap K β) :
    box empty (routed.erase x) x' = box empty routed x' := by
  rw [box, AList.lookup_erase_ne h, box]

def deliverOne (empty : β) (pack : K → V → Except ε γ) (add : β → γ → β) (routed : HashMap K β)
    (e : (_ : K) × V) : Except ε (HashMap K β) := do
  let packed ← pack e.1 e.2
  return routed.insert e.1 (add (box empty routed e.1) packed)

theorem deliverOne_eq_ok {e : (_ : K) × V} :
    deliverOne empty pack add routed e = .ok routed' ↔
      ∃ c, pack e.1 e.2 = .ok c ∧ routed.insert e.1 (add (box empty routed e.1) c) = routed' := by
  rw [deliverOne]
  simp only [do_eq_ok]

def deliver (empty : β) (pack : K → V → Except ε γ) (add : β → γ → β) (hasher : Hasher K)
    (outbound : HashMap K V) (routed : HashMap K β) : Except ε (HashMap K β) :=
  (hasher.iter outbound).foldlM (deliverOne empty pack add) routed

theorem box_of_foldlM {l : List ((_ : K) × V)} (hl : l.NodupKeys)
    (h : l.foldlM (deliverOne empty pack add) routed = .ok routed') (x : K) :
    (∀ v, (⟨x, v⟩ : (_ : K) × V) ∈ l →
      ∃ c, pack x v = .ok c ∧ box empty routed' x = add (box empty routed x) c) ∧
    (x ∉ l.keys → box empty routed' x = box empty routed x) := by
  induction l generalizing routed with
  | nil =>
    obtain rfl := foldlM_nil_eq_ok.1 h
    exact ⟨nofun, fun _ => rfl⟩
  | cons e l ih =>
    obtain ⟨x', v'⟩ := e
    obtain ⟨hx', hl⟩ := List.nodupKeys_cons.1 hl
    simp only [foldlM_cons_eq_ok, deliverOne_eq_ok] at h
    obtain ⟨_, ⟨c, hc, rfl⟩, hrest⟩ := h
    obtain ⟨hmem, hnot⟩ := ih hl hrest
    by_cases hx : x = x'
    · -- The first message is for this recipient, and no other one is.
      subst hx
      have hbox := hnot hx'
      rw [box_insert] at hbox
      refine ⟨fun v hv => ?_, fun hnmem => absurd List.mem_cons_self hnmem⟩
      rcases List.mem_cons.1 hv with heq | hv
      · cases heq
        exact ⟨c, hc, hbox⟩
      · exact absurd (List.mem_keys_of_mem hv) hx'
    · rw [box_insert_of_ne hx] at hmem hnot
      refine ⟨fun v hv => hmem v ?_, fun hnmem => hnot fun hl => hnmem (List.mem_cons_of_mem _ hl)⟩
      rcases List.mem_cons.1 hv with heq | hv
      · cases heq
        exact absurd rfl hx
      · exact hv

/-- A message is added to the box of its recipient. -/
theorem box_deliver (h : deliver empty pack add hasher outbound routed = .ok routed') (x : K) :
    (∀ v, outbound.lookup x = some v →
      ∃ c, pack x v = .ok c ∧ box empty routed' x = add (box empty routed x) c) ∧
    (outbound.lookup x = none → box empty routed' x = box empty routed x) := by
  obtain ⟨hmem, hnot⟩ := box_of_foldlM (hasher.nodupKeys_iter outbound) h x
  refine ⟨fun v hv => hmem v (hasher.mem_iter.2 hv), fun hnone => hnot fun hkeys => ?_⟩
  exact AList.lookup_eq_none.1 hnone ((hasher.mem_keys_iter).1 hkeys)

theorem exists_deliver (hpack : ∀ x v, outbound.lookup x = some v → ∃ c, pack x v = .ok c)
    (routed : HashMap K β) :
    ∃ routed', deliver empty pack add hasher outbound routed = .ok routed' := by
  have hloop : ∀ l : List ((_ : K) × V), (∀ e ∈ l, ∃ c, pack e.1 e.2 = .ok c) →
      ∀ routed : HashMap K β, ∃ routed', l.foldlM (deliverOne empty pack add) routed =
        .ok routed' := by
    intro l
    induction l with
    | nil => exact fun _ routed => ⟨routed, foldlM_nil_eq_ok.2 rfl⟩
    | cons e l ih =>
      intro hl routed
      obtain ⟨c, hc⟩ := hl e List.mem_cons_self
      obtain ⟨routed', hrest⟩ := ih (fun e he => hl e (List.mem_cons_of_mem _ he))
        (routed.insert e.1 (add (box empty routed e.1) c))
      exact ⟨routed', foldlM_cons_eq_ok.2 ⟨_, deliverOne_eq_ok.2 ⟨c, hc, rfl⟩, hrest⟩⟩
  exact hloop _ (fun e he => hpack e.1 e.2 (hasher.mem_iter.1 he)) routed

theorem exists_pack_of_deliver (h : deliver empty pack add hasher outbound routed = .ok routed')
    {v : V} (hv : outbound.lookup x = some v) : ∃ c, pack x v = .ok c := by
  obtain ⟨c, hc, -⟩ := (box_deliver h x).1 v hv
  exact ⟨c, hc⟩

end

/-! ### A circle of participants -/

/-- **No message leaves the circle** if all receive as many as they send. -/
theorem sent_subset {ι K : Type*} [Fintype ι] [DecidableEq K] {name : ι → K}
    (hname : Function.Injective name) (sent : ι → Finset K)
    (hrecv : ∀ j, (sent j).card ≤ (Finset.univ.filter fun i => name j ∈ sent i).card) (i : ι) :
    ∀ x ∈ sent i, ∃ j, name j = x := by
  classical
  -- The names inside the circle that `i` sends to.
  let inside : ι → Finset ι := fun i => Finset.univ.filter fun j => name j ∈ sent i
  have hinside : ∀ i, (inside i).image name ⊆ sent i := by
    intro i x hx
    obtain ⟨j, hj, rfl⟩ := mem_image.1 hx
    exact (mem_filter.1 hj).2
  have hcard : ∀ i, ((inside i).image name).card = (inside i).card := fun i =>
    card_image_of_injective _ hname
  have hle : ∀ i, (inside i).card ≤ (sent i).card := fun i =>
    hcard i ▸ card_le_card (hinside i)
  have hsum : ∑ i, (sent i).card ≤ ∑ i, (inside i).card := by
    calc ∑ j, (sent j).card ≤ ∑ j, (Finset.univ.filter fun i => name j ∈ sent i).card :=
          sum_le_sum fun j _ => hrecv j
      _ = ∑ i, (inside i).card :=
          sum_card_bipartiteAbove_eq_sum_card_bipartiteBelow fun j i => name j ∈ sent i
  have heq : ∀ i, (inside i).card = (sent i).card := by
    intro i
    refine (hle i).antisymm ?_
    by_contra hlt
    exact absurd hsum (not_le.2 (sum_lt_sum (fun i _ => hle i) ⟨i, mem_univ i, not_le.1 hlt⟩))
  intro x hx
  have hall : (inside i).image name = sent i :=
    eq_of_subset_of_card_le (hinside i) (by rw [hcard, heq])
  obtain ⟨j, -, hj⟩ := mem_image.1 (hall ▸ hx)
  exact ⟨j, hj⟩

end Mail
