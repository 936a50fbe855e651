import Mathlib.Algebra.BigOperators.Group.Finset.Basic
import Mathlib.Data.Fintype.OfMap
import TlsAttestation.Contracts.Payouts

/-!
# Runs of the options contract

Whoever receives ether may call the contract again before the payout is over, so a transaction is a
tree (`BinaryOptionsAttestation.Txn`). In all reachable states, also in the middle of a payout, the
contract is solvent and pays every option once (`BinaryOptionsAttestation.solvent_and_paid_once`).
-/

namespace TlsAttestation

open ByteEncoding Evm Function Transaction TLSAttestation FrostVerifier

namespace BinaryOptionsAttestation

/-! ### Transactions inside transactions -/

inductive OptionEvent where
  | created (optionId : Word) (opt : OptionRecord)
  | paid (optionId : Word) (receiver : Address) (amount : Word)

structure Chain where
  contract : BinaryOptionsAttestation
  history : List OptionEvent

/-- A transaction. A payout has those of the receiver's code in it, and whether that code goes
through. -/
inductive Txn where
  | createOption (ctx : TxContext) (optionId : Word) (counterparty : Address)
      (conditionCommit ttlSeconds : Word)
  | settle (ctx : TxContext) (optionId : Word) (att : Attestation) (winner : Address)
      (reaction : List Txn) (ok : Bool)
  | authorizeGroupKey (ctx : TxContext) (keyX keyY : Word)
  | revokeGroupKey (ctx : TxContext) (keyX keyY : Word)
  | verifyAttestation (att : Attestation)
  | verifyRaw (raw : Bytes)

/-- Ether has left for the winner, whose code is going to run. -/
def Chain.sent (c : Chain) (s : BinaryOptionsAttestation) (optionId : Word) (winner : Address)
    (amount : Word) : Chain where
  contract := { s with balance := s.balance - amount.toNat }
  history := .paid optionId winner amount :: c.history

def Chain.inherit {α : Type} (c : Chain) (x : Tx TLSAttestation α) : Except String Chain := do
  let (_, s) ← (inherited x).run c.contract
  return { c with contract := s }

mutual

/-- One transaction, with what the winner's code does in reaction to its payment. -/
def Txn.exec : Txn → Chain → Except String Chain
  | .createOption ctx optionId counterparty conditionCommit ttlSeconds, c => do
    let (_, s) ← (createOption ctx optionId counterparty conditionCommit ttlSeconds).run c.contract
    return ⟨s, .created optionId (s.options optionId) :: c.history⟩
  | .settle ctx optionId att winner reaction ok, c => do
    let amount := (c.contract.options optionId).payoutAmount
    let after (s : BinaryOptionsAttestation) : Chain :=
      execAll reaction (c.sent s optionId winner amount)
    -- A transfer the contract cannot afford fails, and so does one whose receiver fails.
    let call : Call := fun _ amount s =>
      if amount.toNat ≤ s.balance then (ok, (after s).contract) else (false, s)
    let (_, s) ← (settle ctx call optionId att winner).run c.contract
    return ⟨s, (after (c.contract.settled optionId att)).history⟩
  | .authorizeGroupKey ctx keyX keyY, c =>
      c.inherit (TLSAttestation.authorizeGroupKey ctx keyX keyY)
  | .revokeGroupKey ctx keyX keyY, c => c.inherit (TLSAttestation.revokeGroupKey ctx keyX keyY)
  | .verifyAttestation att, c => c.inherit (TLSAttestation.verifyAttestation att)
  | .verifyRaw raw, c => c.inherit (TLSAttestation.verifyRaw raw)

def execAll : List Txn → Chain → Chain
  | [], c => c
  | tx :: txs, c =>
    match tx.exec c with
    | .ok c' => execAll txs c'
    | .error _ => execAll txs c

end

def Chain.deploy (ctx : TxContext) (balance : ℕ) : Chain where
  contract := { TLSAttestation.new ctx with options := fun _ => .empty, balance }
  history := []

def Chain.Pays (c : Chain) (ctx : TxContext) (optionId : Word) (att : Attestation)
    (winner : Address) : Prop :=
  c.contract.Open ctx optionId winner ∧ c.contract.Accepts att ∧
    att.statementDigest = settleDigest optionId winner ∧
    (c.contract.options optionId).payoutAmount.toNat ≤ c.contract.balance

def Chain.paying (c : Chain) (optionId : Word) (att : Attestation) (winner : Address) : Chain :=
  c.sent (c.contract.settled optionId att) optionId winner
    (c.contract.options optionId).payoutAmount

/-- **The states that are ever seen**, also while a receiver's code runs. Ether may arrive without a
transaction. -/
inductive Reachable : Chain → Prop
  | deploy (ctx : TxContext) (balance : ℕ) : Reachable (.deploy ctx balance)
  | exec {c c' : Chain} {tx : Txn} (hc : Reachable c) (h : tx.exec c = .ok c') : Reachable c'
  | callback {c : Chain} {ctx : TxContext} {optionId : Word} {att : Attestation} {winner : Address}
      (hc : Reachable c) (h : c.Pays ctx optionId att winner) :
      Reachable (c.paying optionId att winner)
  | endowed {c : Chain} (hc : Reachable c) (amount : ℕ) :
      Reachable { c with contract := { c.contract with balance := c.contract.balance + amount } }

/-! ### What a transaction does -/

variable {ctx : TxContext} {optionId : Word} {c c' : Chain} {att : Attestation}

theorem exec_settle {winner : Address} {reaction : List Txn} {ok : Bool}
    (h : (Txn.settle ctx optionId att winner reaction ok).exec c = .ok c') :
    c.Pays ctx optionId att winner ∧ execAll reaction (c.paying optionId att winner) = c' := by
  simp only [Txn.exec, Fallible.do_eq_ok, Prod.exists] at h
  obtain ⟨_, s, hrun, rfl⟩ := h
  obtain ⟨hopen, haccepts, hdig, hcall⟩ := settle_eq_ok.1 hrun
  by_cases hafford : (c.contract.options optionId).payoutAmount.toNat ≤
      (c.contract.settled optionId att).balance
  · rw [if_pos hafford, Prod.mk.injEq] at hcall
    obtain ⟨-, rfl⟩ := hcall
    exact ⟨⟨hopen, haccepts, hdig, hafford⟩, rfl⟩
  · rw [if_neg hafford] at hcall
    cases hcall

theorem exec_createOption {counterparty : Address} {conditionCommit ttlSeconds : Word}
    (h : (Txn.createOption ctx optionId counterparty conditionCommit ttlSeconds).exec c = .ok c') :
    ∃ opt : OptionRecord, opt.payoutAmount = ctx.value ∧ opt.settled = false ∧
      c' = ⟨{ c.contract.setOption optionId opt with
        balance := c.contract.balance + ctx.value.toNat }, .created optionId opt :: c.history⟩ := by
  simp only [Txn.exec, createOption, Fallible.do_eq_ok, Prod.exists,
    run_get_bind, run_require_bind, run_modify] at h
  obtain ⟨_, s, ⟨-, -, rfl⟩, rfl⟩ := h
  refine ⟨⟨ctx.sender, counterparty, conditionCommit, ctx.value,
    if ttlSeconds = 0 then 0 else ctx.timestamp + ttlSeconds, false⟩, rfl, rfl, ?_⟩
  simp only [setOption, update_self]

theorem inherit_eq_ok {α : Type} {x : Tx TLSAttestation α} (h : c.inherit x = .ok c') :
    ∃ t, c' = { c with contract := { c.contract with toTLSAttestation := t } } := by
  simp only [Chain.inherit, inherited, Fallible.do_eq_ok, Prod.exists, run_within] at h
  obtain ⟨_, _, ⟨t, -, rfl⟩, rfl⟩ := h
  exact ⟨t, rfl⟩

/-! ### Debts -/

instance : Fintype Word := .ofEquiv (Fin (2 ^ 256)) ⟨BitVec.ofFin, BitVec.toFin, fun _ => rfl,
  fun _ => rfl⟩

variable (s : BinaryOptionsAttestation)

/-- **What the contract owes** for options that are not settled. -/
def liabilities : ℕ :=
  ∑ optionId : Word, if (s.options optionId).alice ≠ 0 ∧ (s.options optionId).settled = false then
    (s.options optionId).payoutAmount.toNat else 0

def OptionRecord.owed (opt : OptionRecord) : ℕ := if opt.settled then 0 else opt.payoutAmount.toNat

def owed : ℕ :=
  ∑ optionId : Word, OptionRecord.owed (s.options optionId)

theorem liabilities_le_owed : s.liabilities ≤ s.owed := by
  refine Finset.sum_le_sum fun optionId _ => ?_
  unfold OptionRecord.owed
  cases (s.options optionId).settled <;> simp
  split <;> omega

/-- **One option changes**, the others stay. -/
theorem owed_setOption (optionId : Word) (opt : OptionRecord) :
    (s.setOption optionId opt).owed + OptionRecord.owed (s.options optionId) =
      s.owed + OptionRecord.owed opt := by
  have hupdate : (fun id => OptionRecord.owed (update s.options optionId opt id)) =
      update (fun id => OptionRecord.owed (s.options id)) optionId (OptionRecord.owed opt) := by
    funext id
    rw [Function.apply_update (fun _ => OptionRecord.owed)]
  have hself := Finset.add_sum_erase Finset.univ (fun id => OptionRecord.owed (s.options id))
    (Finset.mem_univ optionId)
  rw [owed, setOption, hupdate, Finset.sum_update_of_mem (Finset.mem_univ optionId), owed, ← hself,
    Finset.sdiff_singleton_eq_erase]
  omega

/-! ### The history of an option -/

def lastCreated (optionId : Word) : List OptionEvent → Option OptionRecord
  | [] => none
  | .created id opt :: past => if id = optionId then some opt else lastCreated optionId past
  | .paid _ _ _ :: past => lastCreated optionId past

def payouts (optionId : Word) : List OptionEvent → List (Address × Word)
  | [] => []
  | .created id _ :: past => if id = optionId then [] else payouts optionId past
  | .paid id receiver amount :: past =>
    if id = optionId then (receiver, amount) :: payouts optionId past else payouts optionId past

/-- **An option is paid at most once**, to a party, and the right amount. -/
def PaidOnce (optionId : Word) (past : List OptionEvent) : Prop :=
  ∀ opt, lastCreated optionId past = some opt →
    payouts optionId past = [] ∨ ∃ receiver, (receiver = opt.alice ∨ receiver = opt.bob) ∧
      payouts optionId past = [(receiver, opt.payoutAmount)]

def Recorded (c : Chain) (optionId : Word) : Prop :=
  ∀ opt, lastCreated optionId c.history = some opt →
    if payouts optionId c.history = [] then c.contract.options optionId = opt
    else (c.contract.options optionId).settled = true

/-- The contract can pay what it owes, and has paid every option once at most. -/
structure Inv (c : Chain) : Prop where
  solvent : c.contract.owed ≤ c.contract.balance
  recorded : ∀ optionId, Recorded c optionId
  paidOnce : ∀ past, past <:+ c.history → ∀ optionId, PaidOnce optionId past

theorem inv_deploy (ctx : TxContext) (balance : ℕ) : Inv (.deploy ctx balance) where
  solvent := by
    have hzero : (Chain.deploy ctx balance).contract.owed = 0 :=
      Finset.sum_eq_zero fun _ _ => rfl
    rw [hzero]
    exact Nat.zero_le _
  recorded _ _ h := nomatch h
  paidOnce past hpast _ opt h := by
    rw [List.suffix_nil.1 hpast] at h
    exact nomatch h

theorem Inv.created (hc : Inv c) {opt : OptionRecord} (hopt : opt.settled = false)
    (optionId : Word) :
    Inv ⟨{ c.contract.setOption optionId opt with
      balance := c.contract.balance + opt.payoutAmount.toNat },
      .created optionId opt :: c.history⟩ where
  solvent := by
    have hsum := owed_setOption c.contract optionId opt
    have hsolvent := hc.solvent
    simp only [OptionRecord.owed, hopt] at hsum
    change (c.contract.setOption optionId opt).owed ≤ _
    simp at hsum ⊢
    omega
  recorded id opt' h := by
    rcases eq_or_ne optionId id with rfl | hne
    · simp_all [lastCreated, payouts, setOption]
    · have hold := hc.recorded id opt'
      simp_all [lastCreated, payouts, setOption, update_of_ne hne.symm]
  paidOnce past hpast id := by
    rcases List.suffix_cons_iff.1 hpast with rfl | hpast
    · intro opt' h
      rcases eq_or_ne optionId id with rfl | hne
      · exact .inl (by simp [payouts])
      · have hold := hc.paidOnce _ List.suffix_rfl id opt'
        simp_all [lastCreated, payouts]
    · exact hc.paidOnce past hpast id

theorem Inv.paying (hc : Inv c) {winner : Address} (h : c.Pays ctx optionId att winner) :
    Inv (c.paying optionId att winner) := by
  obtain ⟨⟨hsettled, hparty, -⟩, -, -, hafford⟩ := h
  -- an option that is not settled has not been paid since it was created
  have hunpaid (opt) (hopt : lastCreated optionId c.history = some opt) :
      payouts optionId c.history = [] ∧ c.contract.options optionId = opt := by
    have hrec := hc.recorded optionId opt hopt
    by_cases hnil : payouts optionId c.history = []
    · rw [if_pos hnil] at hrec
      exact ⟨hnil, hrec⟩
    · rw [if_neg hnil, hsettled] at hrec
      exact nomatch hrec
  refine ⟨?_, ?_, ?_⟩
  · have hsum := owed_setOption c.contract optionId
      { c.contract.options optionId with settled := true }
    have hsolvent := hc.solvent
    simp only [OptionRecord.owed, hsettled] at hsum
    change (c.contract.setOption optionId _).owed ≤ c.contract.balance - _
    simp at hsum ⊢
    omega
  · intro id opt h
    rcases eq_or_ne optionId id with rfl | hne
    · simp [Chain.paying, Chain.sent, payouts, settled, setOption]
    · have hold := hc.recorded id opt
      simp_all [Chain.paying, Chain.sent, lastCreated, payouts, settled, setOption,
        update_of_ne hne.symm]
  · intro past hpast id
    rcases List.suffix_cons_iff.1 hpast with rfl | hpast
    · intro opt h
      rcases eq_or_ne optionId id with rfl | hne
      · obtain ⟨hnil, rfl⟩ := hunpaid opt h
        exact .inr ⟨winner, hparty, by simp [payouts, hnil]⟩
      · have hold := hc.paidOnce _ List.suffix_rfl id opt
        simp_all [lastCreated, payouts]
    · exact hc.paidOnce past hpast id

/-! ### Whole runs -/

theorem Inv.inherit {α : Type} {x : Tx TLSAttestation α} (hc : Inv c) (h : c.inherit x = .ok c') :
    Inv c' := by
  obtain ⟨t, rfl⟩ := inherit_eq_ok h
  exact ⟨hc.solvent, hc.recorded, hc.paidOnce⟩

mutual

/-- **One transaction keeps the invariant**, by induction on the tree of transactions. -/
theorem Inv.exec : ∀ {tx : Txn} {c c' : Chain}, Inv c → tx.exec c = .ok c' → Inv c'
  | .createOption .., c, c', hc, h => by
    obtain ⟨opt, hvalue, hopt, rfl⟩ := exec_createOption h
    rw [← hvalue]
    exact hc.created hopt _
  | .settle _ _ _ _ reaction _, c, c', hc, h => by
    obtain ⟨hpays, rfl⟩ := exec_settle h
    exact Inv.execAll (hc.paying hpays)
  | .authorizeGroupKey .., _, _, hc, h => hc.inherit (by simpa only [Txn.exec] using h)
  | .revokeGroupKey .., _, _, hc, h => hc.inherit (by simpa only [Txn.exec] using h)
  | .verifyAttestation .., _, _, hc, h => hc.inherit (by simpa only [Txn.exec] using h)
  | .verifyRaw .., _, _, hc, h => hc.inherit (by simpa only [Txn.exec] using h)

theorem Inv.execAll : ∀ {txs : List Txn} {c : Chain}, Inv c → Inv (execAll txs c)
  | [], c, hc => by rwa [BinaryOptionsAttestation.execAll]
  | tx :: txs, c, hc => by
    rw [BinaryOptionsAttestation.execAll]
    split
    · next c' h => exact Inv.execAll (Inv.exec hc h)
    · exact Inv.execAll hc

end

theorem Reachable.inv {c : Chain} (h : Reachable c) : Inv c := by
  induction h with
  | deploy ctx balance => exact inv_deploy ctx balance
  | exec _ h hc => exact hc.exec h
  | callback _ h hc => exact hc.paying h
  | endowed _ amount hc => exact ⟨hc.solvent.trans (Nat.le_add_right _ _), hc.recorded, hc.paidOnce⟩

/-- The contract is solvent and pays every option once. -/
theorem solvent_and_paid_once {c : Chain} (h : Reachable c) :
    c.contract.liabilities ≤ c.contract.balance ∧
      ∀ past, past <:+ c.history → ∀ optionId, PaidOnce optionId past :=
  ⟨(liabilities_le_owed c.contract).trans h.inv.solvent, h.inv.paidOnce⟩

/-! ### A payout -/

def fundedOption : Chain where
  contract :=
    { owner := 9
      authorizedGroupKeys := update (fun _ => false) (keyHash baseX baseY) true
      events := [.groupKeyAuthorized baseX baseY]
      options := update (fun _ => .empty) 5 ⟨1, 2, 0, 100, 0, false⟩
      balance := 100 }
  history := [.created 5 ⟨1, 2, 0, 100, 0, false⟩]

theorem reachable_fundedOption : Reachable fundedOption := by
  have hauthorize : (Txn.authorizeGroupKey ⟨9, 0, 40⟩ baseX baseY).exec
      (.deploy ⟨9, 0, 30⟩ 0) = .ok ⟨{ fundedOption.contract with
        options := fun _ => .empty, balance := 0 }, []⟩ := by
    rw [Txn.exec]
    rfl
  have hcreate : (Txn.createOption ⟨1, 100, 45⟩ 5 2 0 0).exec ⟨{ fundedOption.contract with
      options := fun _ => .empty, balance := 0 }, []⟩ = .ok fundedOption := by
    rw [Txn.exec]
    rfl
  exact .exec (.exec (.deploy ⟨9, 0, 30⟩ 0) hauthorize) hcreate

theorem pays_fundedOption :
    fundedOption.Pays ⟨1, 0, 50⟩ 5 (zeroSigned.attest (settleDigest 5 1) 0) 1 := by
  have hkey : fundedOption.contract.authorizedGroupKeys (keyHash baseX baseY) = true := by
    simp only [fundedOption, update_self]
  have hsigned : fundedOption.contract.SignatureAccepted zeroSigned :=
    ⟨hkey, verify_baseSignature challenge_zero_ne_zero⟩
  exact ⟨⟨rfl, .inl rfl, .inl rfl⟩, accepts_attest hsigned settleDigest_contested.1, rfl, le_rfl⟩

/-- In the middle of a payout. -/
theorem solvent_and_paid_once_paying :
    let c := fundedOption.paying 5 (zeroSigned.attest (settleDigest 5 1) 0) 1
    (c.contract.balance = 0 ∧ payouts 5 c.history = [(1, 100)]) ∧
      c.contract.liabilities ≤ c.contract.balance ∧
      ∀ past, past <:+ c.history → ∀ optionId, PaidOnce optionId past :=
  ⟨⟨rfl, rfl⟩, solvent_and_paid_once (reachable_fundedOption.callback pays_fundedOption)⟩

end BinaryOptionsAttestation

end TlsAttestation
