import TlsAttestation.Contracts.TLSAttestation

/-!
# What attestations are used for on the chain

`BinaryOptionsAttestation` pays an option out to the party that the statement names, and
`IncomeAttestation` records an income. A signature can be put next to any statement, so one is
enough for any outcome (`BinaryOptionsAttestation.settle_attest`).
-/

namespace TlsAttestation

open Evm Function Transaction TLSAttestation

/-! ### Options -/

structure OptionRecord where
  alice : Address
  bob : Address
  conditionCommitment : Word
  payoutAmount : Word
  /-- The time after which it is void, and zero for never. -/
  expiresAt : Word
  settled : Bool
deriving DecidableEq

def OptionRecord.empty : OptionRecord := ⟨0, 0, 0, 0, 0, false⟩

/-- Options, and the ether that backs them. -/
structure BinaryOptionsAttestation extends TLSAttestation where
  options : Word → OptionRecord
  balance : ℕ

namespace BinaryOptionsAttestation

/-- Sending ether: whether it went through, and the contract afterwards. -/
abbrev Call := Address → Word → BinaryOptionsAttestation → Bool × BinaryOptionsAttestation

variable (s : BinaryOptionsAttestation) (optionId : Word)

def setOption (opt : OptionRecord) :
    BinaryOptionsAttestation :=
  { s with options := update s.options optionId opt }

def inherited {α : Type} (x : Tx TLSAttestation α) : Tx BinaryOptionsAttestation α :=
  within toTLSAttestation (fun s t => { s with toTLSAttestation := t }) x

def send (call : Call) (receiver : Address) (amount : Word) : Tx BinaryOptionsAttestation Bool :=
  fun s => .ok (call receiver amount s)

def createOption (ctx : TxContext) (optionId : Word) (counterparty : Address)
    (conditionCommit ttlSeconds : Word) : Tx BinaryOptionsAttestation Unit := do
  require (((← get).options optionId).alice = 0) "Option already exists"
  -- Checked arithmetic reverts when the sum does not fit.
  require (ttlSeconds = 0 ∨ ctx.timestamp.toNat + ttlSeconds.toNat < 2 ^ 256) "Panic(0x11)"
  let expiry := if ttlSeconds = 0 then 0 else ctx.timestamp + ttlSeconds
  modify fun s =>
    { s.setOption optionId
        ⟨ctx.sender, counterparty, conditionCommit, ctx.value, expiry, false⟩ with
      balance := s.balance + ctx.value.toNat }

def settleDigest (winner : Address) : Word :=
  keccak (strBytes "tls-attestation/binary-options/v1\x00" ++ optionId.bytes ++ winner.bytes)

/-- An option is marked as settled before its payout leaves for the winner. -/
def settle (ctx : TxContext) (call : Call) (optionId : Word) (att : Attestation)
    (winner : Address) : Tx BinaryOptionsAttestation Unit := do
  let opt := (← get).options optionId
  require (opt.settled = false) "Already settled"
  require (winner = opt.alice ∨ winner = opt.bob) "Winner must be a party"
  require (opt.expiresAt = 0 ∨ ctx.timestamp ≤ opt.expiresAt) "Option expired"
  let accepted ← inherited (verifyAttestation att)
  require (accepted = true) "Invalid attestation"
  require (att.statementDigest = settleDigest optionId winner) "Statement mismatch"
  modify fun s => s.setOption optionId { opt with settled := true }
  let ok ← send call winner opt.payoutAmount
  require (ok = true) "Transfer failed"

def Open (ctx : TxContext) (optionId : Word) (winner : Address) :
    Prop :=
  (s.options optionId).settled = false ∧
    (winner = (s.options optionId).alice ∨ winner = (s.options optionId).bob) ∧
    ((s.options optionId).expiresAt = 0 ∨ ctx.timestamp ≤ (s.options optionId).expiresAt)

def settled (att : Attestation) :
    BinaryOptionsAttestation :=
  setOption { s with toTLSAttestation := s.accept att } optionId
    { s.options optionId with settled := true }

theorem settle_eq_ok {ctx : TxContext} {call : Call} {optionId : Word} {att : Attestation}
    {winner : Address} {s s' : BinaryOptionsAttestation} :
    (settle ctx call optionId att winner).run s = .ok ((), s') ↔
      s.Open ctx optionId winner ∧ s.Accepts att ∧
        att.statementDigest = settleDigest optionId winner ∧
        call winner (s.options optionId).payoutAmount (s.settled optionId att) = (true, s') := by
  simp only [settle, inherited, run_get_bind, run_require_bind, run_modify_bind, run_within_bind]
  simp only [run_bind, run_require]
  constructor
  · rintro ⟨hsettled, hparty, hexpiry, _, t, hver, rfl, hstmt, _, _, hcall, rfl, rfl⟩
    obtain ⟨-, -, rfl⟩ := verifyAttestation_eq_true.1 hver
    exact ⟨⟨hsettled, hparty, hexpiry⟩, ⟨_, hver⟩, hstmt, Except.ok.inj hcall⟩
  · rintro ⟨⟨hsettled, hparty, hexpiry⟩, ⟨t, hver⟩, hstmt, hcall⟩
    obtain ⟨-, -, rfl⟩ := verifyAttestation_eq_true.1 hver
    exact ⟨hsettled, hparty, hexpiry, true, _, hver, rfl, hstmt, true, s',
      congrArg Except.ok hcall, rfl, rfl⟩

/-- One signature for any option and either party. -/
theorem settle_attest {ctx : TxContext} {call : Call} {optionId : Word} {winner : Address}
    {s s' : BinaryOptionsAttestation} {g : Signed} {dvrfValue : Word}
    (hg : s.SignatureAccepted g) (hopen : s.Open ctx optionId winner)
    (hdig : settleDigest optionId winner ≠ 0)
    (hcall : call winner (s.options optionId).payoutAmount
      (s.settled optionId (g.attest (settleDigest optionId winner) dvrfValue)) = (true, s')) :
    (settle ctx call optionId (g.attest (settleDigest optionId winner) dvrfValue) winner).run s =
      .ok ((), s') :=
  settle_eq_ok.2 ⟨hopen, accepts_attest hg hdig, rfl, hcall⟩

end BinaryOptionsAttestation

/-! ### Incomes -/

structure IncomeAttestation extends TLSAttestation where
  verifiedIncome : Address → Word
  incomeTimestamp : Address → Word
  processedAttestations : Word → Bool

namespace IncomeAttestation

def incomeValiditySeconds : Word := 30 * 24 * 60 * 60

def inherited {α : Type} (x : Tx TLSAttestation α) : Tx IncomeAttestation α :=
  within toTLSAttestation (fun s t => { s with toTLSAttestation := t }) x

def incomeDigest (user : Address) (income timestamp : Word) : Word :=
  keccak (strBytes "tls-attestation/income/v1\x00" ++ user.bytes ++ income.bytes ++ timestamp.bytes)

/-- The income of the sender is replaced, whatever time the one on record has. -/
def submitIncome (ctx : TxContext) (att : Attestation) (income timestamp : Word) :
    Tx IncomeAttestation Unit := do
  require ((← get).processedAttestations att.envelopeDigest = false) "Attestation already processed"
  modify fun s => { s with
    processedAttestations := update s.processedAttestations att.envelopeDigest true }
  let accepted ← inherited (verifyAttestation att)
  require (accepted = true) "Invalid attestation"
  require (att.statementDigest = incomeDigest ctx.sender income timestamp) "Statement mismatch"
  require (timestamp ≤ ctx.timestamp) "Future timestamp"
  require (ctx.timestamp - timestamp ≤ incomeValiditySeconds) "Attestation expired"
  modify fun s => { s with
    verifiedIncome := update s.verifiedIncome ctx.sender income
    incomeTimestamp := update s.incomeTimestamp ctx.sender timestamp }

def hasVerifiedIncome (ctx : TxContext) (user : Address) (minIncome : Word) :
    Tx IncomeAttestation Bool := do
  let s ← get
  if s.verifiedIncome user < minIncome then return false
  -- Checked arithmetic reverts when the difference is negative.
  require (s.incomeTimestamp user ≤ ctx.timestamp) "Panic(0x11)"
  return ¬ ctx.timestamp - s.incomeTimestamp user > incomeValiditySeconds

def recorded (s : IncomeAttestation) (att : Attestation) (user : Address)
    (income timestamp : Word) : IncomeAttestation where
  toTLSAttestation := s.accept att
  verifiedIncome := update s.verifiedIncome user income
  incomeTimestamp := update s.incomeTimestamp user timestamp
  processedAttestations := update s.processedAttestations att.envelopeDigest true

theorem submitIncome_eq_ok {ctx : TxContext} {att : Attestation} {income timestamp : Word}
    {s s' : IncomeAttestation} :
    (submitIncome ctx att income timestamp).run s = .ok ((), s') ↔
      s.processedAttestations att.envelopeDigest = false ∧ s.Accepts att ∧
        att.statementDigest = incomeDigest ctx.sender income timestamp ∧
        (timestamp ≤ ctx.timestamp ∧ ctx.timestamp - timestamp ≤ incomeValiditySeconds) ∧
        s.recorded att ctx.sender income timestamp = s' := by
  simp only [submitIncome, inherited, run_get_bind, run_require_bind, run_modify_bind,
    run_within_bind, run_modify]
  constructor
  · rintro ⟨hfresh, _, t, hver, rfl, hstmt, hpast, hrecent, rfl⟩
    obtain ⟨-, -, rfl⟩ := verifyAttestation_eq_true.1 hver
    exact ⟨hfresh, ⟨_, hver⟩, hstmt, ⟨hpast, hrecent⟩, rfl⟩
  · rintro ⟨hfresh, ⟨t, hver⟩, hstmt, ⟨hpast, hrecent⟩, rfl⟩
    obtain ⟨-, -, rfl⟩ := verifyAttestation_eq_true.1 hver
    exact ⟨hfresh, true, _, hver, rfl, hstmt, hpast, hrecent, rfl⟩

end IncomeAttestation

/-! ### One signature, two winners -/

open BinaryOptionsAttestation

def zeroSigned : Signed :=
  ⟨0, FrostVerifier.baseX, FrostVerifier.baseY, FrostVerifier.baseX, FrostVerifier.baseSignature 0⟩

def contested : BinaryOptionsAttestation where
  owner := 9
  authorizedGroupKeys := fun _ => true
  events := []
  options := update (fun _ => .empty) 5 ⟨1, 2, 0, 100, 0, false⟩
  balance := 100

def plainCall : Call := fun _ amount s =>
  if amount.toNat ≤ s.balance then (true, { s with balance := s.balance - amount.toNat })
  else (false, s)

theorem signatureAccepted_contested : contested.SignatureAccepted zeroSigned :=
  ⟨rfl, FrostVerifier.verify_baseSignature FrostVerifier.challenge_zero_ne_zero⟩

theorem exists_settle_contested {sender winner : Address} (hparty : winner = 1 ∨ winner = 2)
    (hdig : settleDigest 5 winner ≠ 0) :
    ∃ s', (settle ⟨sender, 0, 50⟩ plainCall 5
      (zeroSigned.attest (settleDigest 5 winner) 0) winner).run contested = .ok ((), s') :=
  ⟨_, settle_attest signatureAccepted_contested ⟨rfl, hparty, Or.inl rfl⟩ hdig rfl⟩

theorem settleDigest_contested : settleDigest 5 1 ≠ 0 ∧ settleDigest 5 2 ≠ 0 ∧
      settleDigest 5 1 ≠ settleDigest 5 2 := by
  decide +kernel

/-- **Both parties win**, with the same signature. -/
theorem contested_settles_for_both :
    ∃ att₁ att₂ : Attestation, att₁.signed = att₂.signed ∧
      (contested.Accepts att₁ ∧ contested.Accepts att₂) ∧
      att₁.statementDigest ≠ att₂.statementDigest ∧
      (∃ s', (settle ⟨1, 0, 50⟩ plainCall 5 att₁ 1).run contested = .ok ((), s')) ∧
      ∃ s', (settle ⟨2, 0, 50⟩ plainCall 5 att₂ 2).run contested = .ok ((), s') := by
  obtain ⟨halice, hbob, hne⟩ := settleDigest_contested
  exact ⟨zeroSigned.attest (settleDigest 5 1) 0, zeroSigned.attest (settleDigest 5 2) 0, rfl,
    ⟨accepts_attest signatureAccepted_contested halice,
      accepts_attest signatureAccepted_contested hbob⟩, hne,
    exists_settle_contested (Or.inl rfl) halice, exists_settle_contested (Or.inr rfl) hbob⟩

end TlsAttestation
