import Mathlib.Tactic.IntervalCases
import TlsAttestation.Lib.SumRows
import TlsAttestation.Lib.Sha256Gadget

/-!
# How the rows of a hash begin

The rows of fresh bits can be told from all others in the matrices (`Ark.BitRow`). A hash begins
with no such row, or with those of one of its sums, which are 33 to 35 (`Ark.Opens`). So the bits
that were allocated right before a hash can be counted: eight for a byte, and no sum has a number of
bits that would pass for bytes (`Ark.eq_of_opens`).

The rows that a run appends are followed by `Ark.Appends`, step by step.
-/

namespace Ark

open LinComb Sha2.Gadget Synth
open List hiding Vector

variable {F α β : Type} [CommRing F]

/-- A row of the matrices: what the two factors and the product have of each variable. -/
abbrev Row (F : Type) := (Variable → F) × (Variable → F) × (Variable → F)

/-- The row `(1 - v) * v = 0` of a fresh bit: the second factor is a variable, and the right side is
empty. A sum has no second factor, an equality has the constant one there, and the other gadgets
have their result on the right. -/
def BitRow (row : Row F) : Prop := row.2.1 ≠ 0 ∧ row.2.1 .one = 0 ∧ row.2.2 = 0

/-- The rows of `n` fresh bits. -/
def Bits (n : ℕ) (l : List (Row F)) : Prop := l.length = n ∧ ∀ row ∈ l, BitRow row

/-- The first row is not of a bit, or follows the bits of one sum. -/
def Opens (l : List (Row F)) : Prop :=
  l = [] ∨ ∃ k bits row rest, l = bits ++ row :: rest ∧ Bits k bits ∧ ¬ BitRow row ∧
    (k = 0 ∨ 33 ≤ k ∧ k ≤ 35)

theorem Bits.append {n k : ℕ} {l l' : List (Row F)} (h : Bits n l) (h' : Bits k l') :
    Bits (n + k) (l ++ l') :=
  ⟨by rw [length_append, h.1, h'.1], forall_mem_append.2 ⟨h.2, h'.2⟩⟩

theorem opens_cons {row : Row F} (h : ¬ BitRow row) (rest : List (Row F)) : Opens (row :: rest) :=
  .inr ⟨0, [], row, rest, rfl, ⟨rfl, by simp⟩, h, .inl rfl⟩

theorem Opens.append {l l' : List (Row F)} (h : Opens l) (h' : Opens l') : Opens (l ++ l') := by
  rcases h with rfl | ⟨k, bits, row, rest, rfl, hbits⟩
  · exact h'
  · exact .inr ⟨k, bits, row, rest ++ l', by simp, hbits⟩

/-- **The bits of a list of rows** can be counted. -/
theorem Bits.length_unique {n k : ℕ} {bits bits' rest rest' : List (Row F)} {row row' : Row F}
    (h : Bits n bits) (hrow : ¬ BitRow row) (h' : Bits k bits') (hrow' : ¬ BitRow row')
    (heq : bits ++ row :: rest = bits' ++ row' :: rest') : n = k := by
  classical
  have hcount : ∀ {n bits row rest}, Bits n bits → ¬ BitRow row →
      ((bits ++ row :: rest).takeWhile (BitRow (F := F) ·)).length = n := by
    intro n bits row rest hbits hrow
    rw [takeWhile_append_of_pos fun r hr => decide_eq_true (hbits.2 r hr),
      takeWhile_cons_of_neg (by simpa using hrow), append_nil, hbits.1]
  rw [← hcount h hrow, heq, hcount h' hrow']

/-- **The bytes before a hash** can be counted: the numbers of bits of the sums differ by less than
eight, and none of them is a multiple of it. -/
theorem eq_of_opens {n k : ℕ} {bits bits' l l' rest rest' : List (Row F)} {row row' : Row F}
    (h : Bits (n * 8) bits) (hl : Opens l) (hrow : ¬ BitRow row) (h' : Bits (k * 8) bits')
    (hl' : Opens l') (hrow' : ¬ BitRow row')
    (heq : bits ++ l ++ row :: rest = bits' ++ l' ++ row' :: rest') : n = k := by
  obtain h₀ | ⟨i, is, r, t, hlr, his, hr, hi⟩ := hl.append (opens_cons hrow rest)
  · simp at h₀
  obtain h₀ | ⟨j, js, r', t', hlr', hjs, hr', hj⟩ := hl'.append (opens_cons hrow' rest')
  · simp at h₀
  rw [append_assoc, hlr, append_assoc, hlr', ← append_assoc, ← append_assoc] at heq
  have hlen := (h.append his).length_unique hr (h'.append hjs) hr' heq
  omega

/-! ### What a run appends -/

/-- **If the run ends well**, it has appended such rows. -/
def Appends (x : Synth F α) (Q : List (Row F) → Prop) : Prop :=
  ∀ ⦃cs a t⦄, x cs = .ok (a, t) → ∃ l, t.toMatrices.rows = cs.toMatrices.rows ++ l ∧ Q l

namespace Appends

variable {x : Synth F α} {f : α → Synth F β} {P Q T : List (Row F) → Prop}

theorem mono (h : Appends x P) (hPQ : ∀ l, P l → Q l) : Appends x Q := by
  intro cs a t hrun
  obtain ⟨l, hl, hP⟩ := h hrun
  exact ⟨l, hl, hPQ l hP⟩

theorem of_constraints_eq (h : ∀ ⦃cs a t⦄, x cs = .ok (a, t) → t.constraints = cs.constraints)
    (hQ : Q []) : Appends x Q := by
  intro cs a t hrun
  exact ⟨[], by rw [append_nil, ConstraintSystem.toMatrices, h hrun]; rfl, hQ⟩

theorem pure (a : α) (h : Q []) : Appends (pure a : Synth F α) Q :=
  of_constraints_eq (by rintro cs _ _ ⟨⟩; rfl) h

theorem bind (hx : Appends x P) (hf : ∀ a, Appends (f a) Q)
    (h : ∀ l l', P l → Q l' → T (l ++ l')) : Appends (x >>= f) T := by
  intro cs b u hrun
  obtain ⟨a, t, hrun₁, hrun₂⟩ := exists_of_bind_eq_ok hrun
  obtain ⟨l, hl, hP⟩ := hx hrun₁
  obtain ⟨l', hl', hQ⟩ := hf a hrun₂
  exact ⟨l ++ l', by rw [hl', hl, append_assoc], h l l' hP hQ⟩

theorem map (hx : Appends x Q) (g : α → β) : Appends (g <$> x) Q := by
  rw [← bind_pure_comp]
  exact hx.bind (fun a => pure (Q := (· = [])) (g a) rfl) (by rintro l _ hl rfl; rwa [append_nil])

theorem ofFnM {n k : ℕ} {f : Fin n → Synth F α} (h : ∀ i, Appends (f i) (Bits k)) :
    Appends (Vector.ofFnM f) (Bits (n * k)) := by
  induction n with
  | zero =>
    rw [Vector.ofFnM_zero]
    exact pure _ ⟨by simp, by simp⟩
  | succ n ih =>
    rw [Vector.ofFnM_succ, Nat.succ_mul]
    simp only [bind_pure_comp]
    exact (ih fun i => h i.castSucc).bind (fun v => (h (Fin.last n)).map _) fun _ _ => Bits.append

theorem mapM {k : ℕ} {f : β → Synth F α} (h : ∀ b, Appends (f b) (Bits k)) (bs : List β) :
    Appends (bs.mapM f) (Bits (bs.length * k)) := by
  induction bs with
  | nil =>
    rw [mapM_nil]
    exact pure _ ⟨by simp, by simp⟩
  | cons b bs ih =>
    rw [mapM_cons, length_cons, Nat.succ_mul, Nat.add_comm]
    simp only [bind_pure_comp]
    exact (h b).bind (fun a => ih.map _) fun _ _ => Bits.append

end Appends

/-! ### The gadgets -/

theorem appends_enforceConstraint (a b c : LinComb F) :
    Appends (enforceConstraint a b c) (· = [(a.coeff, b.coeff, c.coeff)]) := by
  rintro cs _ _ ⟨⟩
  exact ⟨_, by simp [ConstraintSystem.toMatrices, ConstraintSystem.pushRow, Constraint.coeffs], rfl⟩

theorem run_newWitnessWithoutBooleanityCheck {v : Option Bool} {cs t : ConstraintSystem F}
    {a : AllocatedBit} (hrun : newWitnessWithoutBooleanityCheck v cs = .ok (a, t)) :
    a.var = .witness cs.numWitness ∧ t.constraints = cs.constraints := by
  obtain ⟨var, s, hvar, hrun⟩ := exists_of_bind_eq_ok hrun
  obtain rfl : s = t := (Prod.mk.inj (Except.ok.inj hrun)).2
  obtain rfl : _ = a := (Prod.mk.inj (Except.ok.inj hrun)).1
  cases v with
  | some b =>
    obtain ⟨rfl, rfl⟩ := Prod.mk.inj (Except.ok.inj hvar)
    exact ⟨rfl, rfl⟩
  | none =>
    simp only [Option.map_none, newWitnessVariable] at hvar
    split at hvar
    · obtain ⟨rfl, rfl⟩ := Prod.mk.inj (Except.ok.inj hvar)
      exact ⟨rfl, rfl⟩
    · cases hvar

/-- A fresh bit with a row: the row is what is appended. -/
theorem appends_row {v : Option Bool} {a b c : AllocatedBit → LinComb F}
    {g : AllocatedBit → α} {Q : List (Row F) → Prop}
    (h : ∀ d : AllocatedBit, d.var ≠ .one → Q [((a d).coeff, (b d).coeff, (c d).coeff)]) :
    Appends (do
      let d ← newWitnessWithoutBooleanityCheck v
      enforceConstraint (a d) (b d) (c d)
      return g d) Q := by
  intro cs x t hrun
  obtain ⟨d, s, hd, hrun⟩ := exists_of_bind_eq_ok hrun
  obtain ⟨hvar, hs⟩ := run_newWitnessWithoutBooleanityCheck hd
  obtain ⟨_, u, hrow, hrun⟩ := exists_of_bind_eq_ok hrun
  obtain rfl : u = t := (Prod.mk.inj (Except.ok.inj hrun)).2
  obtain ⟨_, hrows, rfl⟩ := appends_enforceConstraint _ _ _ hrow
  refine ⟨_, ?_, h d (by rw [hvar]; exact Variable.noConfusion)⟩
  rw [hrows, ConstraintSystem.toMatrices, hs]
  rfl

variable [Nontrivial F]

theorem appends_newWitness (v : Option Bool) : Appends (newWitness v : Synth F _) (Bits 1) := by
  refine appends_row fun d hd => ⟨rfl, ?_⟩
  simp only [mem_singleton, forall_eq]
  exact ⟨coeff_single_ne_zero _, by simp [hd], rfl⟩

theorem appends_product (x y : LinComb F) (v : Option Bool) :
    Appends (product x y v) Opens :=
  appends_row fun d _ => opens_cons (fun h => coeff_single_ne_zero d.var h.2.2) []

theorem appends_xorVariables (a b : AllocatedBit) :
    Appends (xorVariables a b : Synth F _) Opens := by
  refine appends_row fun d _ => opens_cons (fun h => ?_) []
  -- the two operands cannot both be the result
  have hcoeff (v : Variable) := congrFun h.2.2 v
  have hd := hcoeff d.var
  have ha := hcoeff a.var
  have hb := hcoeff b.var
  simp only [coeff_cons, coeff_nil, Pi.zero_apply] at ha hb hd
  by_cases hda : d.var = a.var
  · by_cases hab : a.var = b.var <;> simp [hda, hab] at hb
  · by_cases hdb : d.var = b.var
    · by_cases hab : b.var = a.var <;> simp [hdb, hab] at ha
    · simp [Ne.symm hda, Ne.symm hdb] at hd

theorem appends_and (b c : Boolean) : Appends (and b c : Synth F _) Opens :=
  and_cases (P := (Appends · Opens)) b c (fun _ => .pure _ (.inl rfl)) (fun _ => .pure _ (.inl rfl))
    (fun _ => .pure _ (.inl rfl)) fun _ _ _ _ _ => appends_product _ _ _

theorem appends_xor (b c : Boolean) : Appends (xor b c : Synth F _) Opens :=
  xor_cases (P := (Appends · Opens)) b c (fun _ _ => .pure _ (.inl rfl))
    (fun _ _ => .pure _ (.inl rfl)) fun _ _ _ _ _ => (appends_xorVariables _ _).map _

/-- **A sum of two to five words** has 33 to 35 bits. -/
theorem appends_sumBits {ws : List (Vector Boolean 32)} (h₂ : 2 ≤ ws.length) (h₅ : ws.length ≤ 5)
    (v : Option ℕ) : Appends (sumBits ws v : Synth F _) Opens := by
  have hcarries : 1 ≤ numCarries ws.length ∧ numCarries ws.length ≤ 3 := by
    generalize ws.length = n at h₂ h₅
    interval_cases n <;> decide
  refine (Appends.ofFnM fun _ => appends_newWitness _).bind (Q := fun l => ∃ bits row,
    l = bits ++ [row] ∧ Bits (numCarries ws.length) bits ∧ ¬ BitRow row) (fun low => ?_) ?_
  · refine (Appends.mapM (fun _ => appends_newWitness _) _).bind (fun high =>
      (appends_enforceConstraint _ _ _).bind (T := fun l => ∃ row, l = [row] ∧ ¬ BitRow row)
        (fun _ => .pure (Q := (· = [])) _ rfl) ?_) ?_
    · rintro _ _ rfl rfl
      exact ⟨_, rfl, fun h => h.1 rfl⟩
    · rintro bits _ hbits ⟨row, rfl, hrow⟩
      exact ⟨bits, row, rfl, by simpa using hbits, hrow⟩
  · rintro low _ hlow ⟨high, row, rfl, hhigh, hrow⟩
    refine .inr ⟨_, low ++ high, row, [], by simp, hlow.append hhigh, hrow, .inr ?_⟩
    omega

theorem appends_addmany {ws : List (Vector Boolean 32)} (h₅ : ws.length ≤ 5) :
    Appends (addmany ws : Synth F _) Opens := by
  unfold addmany
  split
  · exact .pure _ (.inl rfl)
  · rename_i hone
    dsimp only
    split
    · exact .pure _ (.inl rfl)
    · rename_i hconst
      refine appends_sumBits ?_ h₅ _
      rcases ws with _ | ⟨x, _ | _⟩
      · exact absurd rfl (hconst 0 rfl)
      · exact absurd rfl (hone x)
      · simp

/-- **The rows of a hash open**, whatever has been hashed. -/
theorem composes_opens : Composes (m := Keeping F) fun x => Appends x.1 Opens where
  pure a := .pure a (.inl rfl)
  bind hx hf := hx.bind hf fun _ _ => Opens.append
  and := appends_and
  xor := appends_xor
  addmany := appends_addmany

theorem appends_fpEnforceEqual (x y : LinComb F) :
    Appends (Gadgets.fpEnforceEqual x y : Keeping F _).1 fun l => ∃ row, l = [row] ∧ ¬ BitRow row :=
  (appends_enforceConstraint _ _ _).mono fun _ hl => ⟨_, hl, fun h => by simpa using h.2.1⟩

theorem appends_newWitnessBytes (bs : ByteEncoding.Bytes) :
    Appends (newWitnessBytes bs : Keeping F _).1 (Bits (bs.length * 8)) := by
  rw [newWitnessBytes, Keeping.val_mapM]
  refine .mapM (fun b => ?_) bs
  rw [newWitnessBits, Keeping.val_ofFnM]
  exact .ofFnM (k := 1) fun i => (appends_newWitness _).map _

end Ark
