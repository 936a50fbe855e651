import TlsAttestation.Contracts.Payouts

/-!
# Runs of the income contract

No envelope is accepted twice (`IncomeAttestation.nodup_acceptedEnvelopes`). But of two attestations
the one submitted last stays, however old it is (`IncomeAttestation.fresh_of_inOrder`).
-/

namespace TlsAttestation

open ByteEncoding Evm Function Transaction TLSAttestation FrostVerifier

namespace IncomeAttestation

/-! ### Transactions -/

inductive Txn where
  | submitIncome (ctx : TxContext) (att : Attestation) (income timestamp : Word)
  | authorizeGroupKey (ctx : TxContext) (keyX keyY : Word)
  | revokeGroupKey (ctx : TxContext) (keyX keyY : Word)
  | verifyAttestation (att : Attestation)
  | verifyRaw (raw : Bytes)

def Txn.exec : Txn → Tx IncomeAttestation Unit
  | .submitIncome ctx att income timestamp =>
      IncomeAttestation.submitIncome ctx att income timestamp
  | .authorizeGroupKey ctx keyX keyY => inherited (TLSAttestation.authorizeGroupKey ctx keyX keyY)
  | .revokeGroupKey ctx keyX keyY => inherited (TLSAttestation.revokeGroupKey ctx keyX keyY)
  | .verifyAttestation att => do let _ ← inherited (TLSAttestation.verifyAttestation att)
  | .verifyRaw raw => do let _ ← inherited (TLSAttestation.verifyRaw raw)

def Txn.submission : Txn → Option (Address × Word)
  | .submitIncome ctx _ _ timestamp => some (ctx.sender, timestamp)
  | _ => none

variable (s : IncomeAttestation)

def step (tx : Txn) : IncomeAttestation :=
  match tx.exec.run s with
  | .ok (_, s') => s'
  | .error _ => s

def run (txs : List Txn) : IncomeAttestation := txs.foldl step s

theorem run_nil : s.run [] = s :=
  rfl

theorem run_cons (tx : Txn) (txs : List Txn) :
    s.run (tx :: txs) = (s.step tx).run txs :=
  rfl

def acceptedEnvelope : Txn → Option Word
  | .submitIncome ctx att income timestamp =>
    match (IncomeAttestation.submitIncome ctx att income timestamp).run s with
    | .ok _ => some att.envelopeDigest
    | .error _ => none
  | _ => none

def acceptedEnvelopes : IncomeAttestation → List Txn → List Word
  | _, [] => []
  | s, tx :: txs => (s.acceptedEnvelope tx).toList ++ acceptedEnvelopes (s.step tx) txs

def deploy (ctx : TxContext) : IncomeAttestation :=
  { TLSAttestation.new ctx with
    verifiedIncome := fun _ => 0
    incomeTimestamp := fun _ => 0
    processedAttestations := fun _ => false }

/-- No envelope is accepted twice, and no user's time goes back. -/
def Fresh (txs : List Txn) : Prop :=
  (s.acceptedEnvelopes txs).Nodup ∧ ∀ before after, txs = before ++ after → ∀ user,
      (s.run before).incomeTimestamp user ≤ (s.run txs).incomeTimestamp user

/-- Every user submits in order. -/
def InOrder (txs : List Txn) : Prop :=
  txs.Pairwise fun tx tx' => ∀ user t t',
    tx.submission = some (user, t) → tx'.submission = some (user, t') → t ≤ t'

/-! ### What a transaction does -/

theorem run_inherited {α : Type} {x : Tx TLSAttestation α} {s s' : IncomeAttestation} {a : α}
    (h : (inherited x).run s = .ok (a, s')) : ∃ t, s' = { s with toTLSAttestation := t } := by
  obtain ⟨t, -, heq⟩ := run_within.1 h
  exact ⟨t, heq.symm⟩

theorem run_exec_of_submission {tx : Txn} {s s' : IncomeAttestation} {u : Unit}
    (hrun : tx.exec.run s = .ok (u, s')) (h : tx.submission = none) :
    ∃ t, s' = { s with toTLSAttestation := t } := by
  cases tx with
  | submitIncome => exact nomatch h
  | authorizeGroupKey => exact run_inherited (by simpa only [Txn.exec] using hrun)
  | revokeGroupKey => exact run_inherited (by simpa only [Txn.exec] using hrun)
  | verifyAttestation =>
    obtain ⟨_, _, hinh, hpure⟩ := run_bind.1 (by simpa only [Txn.exec] using hrun)
    obtain ⟨-, rfl⟩ := run_pure.1 hpure
    exact run_inherited hinh
  | verifyRaw =>
    obtain ⟨_, _, hinh, hpure⟩ := run_bind.1 (by simpa only [Txn.exec] using hrun)
    obtain ⟨-, rfl⟩ := run_pure.1 hpure
    exact run_inherited hinh

/-- A transaction records one income at most. -/
theorem step_cases (tx : Txn) :
    (∃ t, s.step tx = { s with toTLSAttestation := t } ∧ s.acceptedEnvelope tx = none) ∨
      ∃ ctx att income timestamp, tx = .submitIncome ctx att income timestamp ∧
        s.processedAttestations att.envelopeDigest = false ∧
        s.acceptedEnvelope tx = some att.envelopeDigest ∧
        s.step tx = s.recorded att ctx.sender income timestamp := by
  cases hsub : tx.submission with
  | none =>
    have hnone : s.acceptedEnvelope tx = none := by
      cases tx with
      | submitIncome => exact nomatch hsub
      | _ => rfl
    cases hrun : tx.exec.run s with
    | error e => exact .inl ⟨s.toTLSAttestation, by rw [step, hrun], hnone⟩
    | ok r =>
      obtain ⟨t, ht⟩ := run_exec_of_submission hrun hsub
      exact .inl ⟨t, by rw [step, hrun]; exact ht, hnone⟩
  | some p =>
    cases tx with
    | submitIncome ctx att income timestamp =>
      rw [step, acceptedEnvelope, Txn.exec]
      cases hrun : (submitIncome ctx att income timestamp).run s with
      | error e => exact .inl ⟨s.toTLSAttestation, rfl, rfl⟩
      | ok r =>
        obtain ⟨hfresh, -, -, -, heq⟩ := submitIncome_eq_ok.1 hrun
        exact .inr ⟨ctx, att, income, timestamp, rfl, hfresh, rfl, heq.symm⟩
    | _ => exact nomatch hsub

section

variable (s : IncomeAttestation) (att : Attestation) (user : Address) (income timestamp : Word)

theorem processedAttestations_recorded :
    (s.recorded att user income timestamp).processedAttestations =
      update s.processedAttestations att.envelopeDigest true :=
  rfl

theorem incomeTimestamp_recorded :
    (s.recorded att user income timestamp).incomeTimestamp =
      update s.incomeTimestamp user timestamp :=
  rfl

end

/-! ### Envelopes -/

theorem processedAttestations_of_mem {s : IncomeAttestation} {txs : List Txn} {d : Word}
    (h : d ∈ s.acceptedEnvelopes txs) : s.processedAttestations d = false := by
  induction txs generalizing s with
  | nil => exact nomatch h
  | cons tx txs ih =>
    rw [acceptedEnvelopes, List.mem_append] at h
    rcases s.step_cases tx with ⟨t, hstep, hnone⟩ | ⟨ctx, att, income, timestamp, -, hfresh, hsome,
      hstep⟩
    · rw [hnone, hstep] at h
      have hlater := ih (h.resolve_left (by simp))
      exact hlater
    · rw [hsome, hstep] at h
      rcases h with h | h
      · rwa [Option.mem_toList.1 h |> Option.some.inj] at hfresh
      · have hlater := ih h
        rw [processedAttestations_recorded] at hlater
        by_cases hd : d = att.envelopeDigest
        · rwa [hd]
        · rwa [update_of_ne hd] at hlater

/-- **No envelope is accepted twice**, in any run. -/
theorem nodup_acceptedEnvelopes (txs : List Txn) :
    (s.acceptedEnvelopes txs).Nodup := by
  induction txs generalizing s with
  | nil => exact List.nodup_nil
  | cons tx txs ih =>
    rw [acceptedEnvelopes]
    rcases s.step_cases tx with ⟨t, -, hnone⟩ | ⟨ctx, att, income, timestamp, -, -, hsome, hstep⟩
    · rw [hnone]
      exact ih _
    · rw [hsome]
      refine List.nodup_cons.2 ⟨fun hmem => ?_, ih _⟩
      have hlater := processedAttestations_of_mem hmem
      rw [hstep, processedAttestations_recorded, update_self] at hlater
      exact nomatch hlater

/-! ### Timestamps -/

def NotBefore (txs : List Txn) : Prop :=
  ∀ tx ∈ txs, ∀ user t, tx.submission = some (user, t) → s.incomeTimestamp user ≤ t

theorem incomeTimestamp_step (tx : Txn) (user : Address) :
    (s.step tx).incomeTimestamp user = s.incomeTimestamp user ∨
      tx.submission = some (user, (s.step tx).incomeTimestamp user) := by
  rcases s.step_cases tx with ⟨t, hstep, -⟩ | ⟨ctx, att, income, timestamp, rfl, -, -, hstep⟩
  · rw [hstep]
    exact .inl rfl
  · rw [hstep, incomeTimestamp_recorded]
    by_cases huser : user = ctx.sender
    · subst huser
      rw [update_self]
      exact .inr rfl
    · rw [update_of_ne huser]
      exact .inl rfl

section

variable {s : IncomeAttestation} {tx : Txn} {txs : List Txn}

theorem NotBefore.step (hs : s.NotBefore (tx :: txs)) (h : InOrder (tx :: txs)) :
    (s.step tx).NotBefore txs := by
  intro tx' htx' user t' ht'
  rcases s.incomeTimestamp_step tx user with heq | hsub
  · rw [heq]
    exact hs tx' (List.mem_cons_of_mem tx htx') user t' ht'
  · exact List.rel_of_pairwise_cons h htx' user _ t' hsub ht'

theorem NotBefore.le_step (hs : s.NotBefore (tx :: txs)) (user : Address) :
    s.incomeTimestamp user ≤ (s.step tx).incomeTimestamp user := by
  rcases s.incomeTimestamp_step tx user with heq | hsub
  · rw [heq]
    exact BitVec.le_refl _
  · exact hs tx List.mem_cons_self user _ hsub

/-- **A run in order**, from any state that is not ahead of it. -/
theorem NotBefore.le_run (hs : s.NotBefore txs) (h : InOrder txs) (user : Address) :
    s.incomeTimestamp user ≤ (s.run txs).incomeTimestamp user := by
  induction txs generalizing s with
  | nil => exact BitVec.le_refl _
  | cons tx txs ih =>
    exact BitVec.le_trans (hs.le_step user) (ih (hs.step h) (List.Pairwise.of_cons h))

theorem NotBefore.run {before after : List Txn} (hs : s.NotBefore (before ++ after))
    (h : InOrder (before ++ after)) : (s.run before).NotBefore after := by
  induction before generalizing s with
  | nil => exact hs
  | cons tx before ih => exact ih (hs.step h) (List.Pairwise.of_cons h)

end

/-- Incomes are fresh if every user submits in order. -/
theorem fresh_of_inOrder (ctx : TxContext) {txs : List Txn} (h : InOrder txs) :
    (deploy ctx).Fresh txs := by
  refine ⟨nodup_acceptedEnvelopes _ txs, ?_⟩
  rintro before after rfl user
  have hdeployed : (deploy ctx).NotBefore (before ++ after) := by
    intro tx _ user t _
    rw [BitVec.le_def]
    exact Nat.zero_le _
  have hafter : InOrder after := (List.pairwise_append.1 h).2.1
  have hsplit : (deploy ctx).run (before ++ after) = ((deploy ctx).run before).run after :=
    List.foldl_append
  rw [hsplit]
  exact (hdeployed.run h).le_run hafter user

/-! ### What a lender is told -/

/-- The income that a transaction records for a user, if it does. -/
def recordedIncome (user : Address) : Txn → Option (Word × Word)
  | .submitIncome ctx att income timestamp =>
    if (s.acceptedEnvelope (.submitIncome ctx att income timestamp)).isSome ∧ ctx.sender = user then
      some (income, timestamp)
    else none
  | _ => none

/-- **The last income that was recorded** for a user in a run. -/
def lastIncome (user : Address) : IncomeAttestation → List Txn → Option (Word × Word)
  | _, [] => none
  | s, tx :: txs => (lastIncome user (s.step tx) txs).or (s.recordedIncome user tx)

theorem income_step (tx : Txn) (user : Address) :
    ((s.step tx).verifiedIncome user, (s.step tx).incomeTimestamp user) =
      (s.recordedIncome user tx).getD (s.verifiedIncome user, s.incomeTimestamp user) := by
  rcases s.step_cases tx with ⟨t, hstep, hnone⟩ |
    ⟨ctx, att, income, timestamp, rfl, -, hsome, hstep⟩
  · have hrec : s.recordedIncome user tx = none := by
      cases tx with
      | submitIncome => simp [recordedIncome, hnone]
      | _ => rfl
    rw [hstep, hrec]
    rfl
  · rw [hstep, recordedIncome, hsome]
    by_cases huser : ctx.sender = user
    · simp [huser, recorded]
    · simp [huser, recorded, update_of_ne (Ne.symm huser)]

theorem income_run (txs : List Txn) (user : Address) :
    ((s.run txs).verifiedIncome user, (s.run txs).incomeTimestamp user) =
      (lastIncome user s txs).getD (s.verifiedIncome user, s.incomeTimestamp user) := by
  induction txs generalizing s with
  | nil => rfl
  | cons tx txs ih =>
    rw [run_cons, ih, income_step, lastIncome]
    cases lastIncome user (s.step tx) txs <;> rfl

/-- **A lender is told of the last income** that was recorded, while it is valid. -/
theorem hasVerifiedIncome_run_iff (ctx ctx' : TxContext) (txs : List Txn) (user : Address)
    (minIncome : Word) :
    (hasVerifiedIncome ctx' user minIncome).run ((deploy ctx).run txs) =
        .ok (true, (deploy ctx).run txs) ↔
      let (income, timestamp) := (lastIncome user (deploy ctx) txs).getD (0, 0)
      minIncome ≤ income ∧ timestamp ≤ ctx'.timestamp ∧
        ctx'.timestamp - timestamp ≤ incomeValiditySeconds := by
  have hrun : _ = (lastIncome user (deploy ctx) txs).getD (0, 0) :=
    income_run (deploy ctx) txs user
  rw [← hrun, hasVerifiedIncome, run_get_bind]
  split
  · next hlow => simp [BitVec.not_le.2 hlow]
  · next henough =>
    simp only [run_require_bind, run_pure, BitVec.not_lt.1 henough, true_and, and_true]
    simp

/-! ### Two incomes of one user -/

def signedEnvelope (envelopeDigest : Word) : Signed :=
  ⟨envelopeDigest, baseX, baseY, baseX, baseSignature envelopeDigest⟩

def submitSigned (envelopeDigest income timestamp : Word) : Txn :=
  .submitIncome ⟨1, 0, 100⟩
    ((signedEnvelope envelopeDigest).attest (incomeDigest 1 income timestamp) 0) income timestamp

def outdated : List Txn :=
  [.authorizeGroupKey ⟨9, 0, 40⟩ baseX baseY, submitSigned 0 500 100, submitSigned 1 300 50]

def updated : List Txn :=
  [.authorizeGroupKey ⟨9, 0, 40⟩ baseX baseY, submitSigned 1 300 50, submitSigned 0 500 100]

theorem fresh_updated : InOrder updated ∧ (deploy ⟨9, 0, 30⟩).Fresh updated := by
  have h : InOrder updated := by
    simp only [InOrder, updated, submitSigned, Txn.submission, List.pairwise_cons]
    simp
    rintro _ _ _ rfl rfl - rfl
    decide
  exact ⟨h, fresh_of_inOrder ⟨9, 0, 30⟩ h⟩

theorem step_submitSigned {s : IncomeAttestation} {envelopeDigest income timestamp : Word}
    (hkey : s.isGroupKeyAuthorized baseX baseY = true)
    (hfresh : s.processedAttestations envelopeDigest = false)
    (hchal : challenge envelopeDigest baseX baseX ≠ 0) (hdig : incomeDigest 1 income timestamp ≠ 0)
    (hpast : timestamp ≤ 100) (hrecent : 100 - timestamp ≤ incomeValiditySeconds) :
    s.step (submitSigned envelopeDigest income timestamp) =
      s.recorded ((signedEnvelope envelopeDigest).attest
        (incomeDigest 1 income timestamp) 0) 1 income
        timestamp := by
  have hsigned : s.SignatureAccepted (signedEnvelope envelopeDigest) :=
    ⟨hkey, verify_baseSignature hchal⟩
  have haccepts : s.Accepts
      ((signedEnvelope envelopeDigest).attest (incomeDigest 1 income timestamp) 0) :=
    accepts_attest hsigned hdig
  have hrun : (submitIncome ⟨1, 0, 100⟩
      ((signedEnvelope envelopeDigest).attest (incomeDigest 1 income timestamp) 0) income
      timestamp).run s = .ok ((), s.recorded
        ((signedEnvelope envelopeDigest).attest (incomeDigest 1 income timestamp) 0) 1 income
        timestamp) :=
    submitIncome_eq_ok.2 ⟨hfresh, haccepts, rfl, ⟨hpast, hrecent⟩, rfl⟩
  rw [step, submitSigned, Txn.exec, hrun]

theorem challenge_one_ne_zero : challenge 1 baseX baseX ≠ 0 := by
  decide +kernel

theorem incomeDigest_ne_zero : incomeDigest 1 500 100 ≠ 0 ∧ incomeDigest 1 300 50 ≠ 0 := by
  decide +kernel

def registered : IncomeAttestation :=
  (deploy ⟨9, 0, 30⟩).step (.authorizeGroupKey ⟨9, 0, 40⟩ baseX baseY)

theorem processedAttestations_registered (d : Word) :
    registered.processedAttestations d = false :=
  rfl

theorem isGroupKeyAuthorized_registered : registered.isGroupKeyAuthorized baseX baseY = true := by
  have hkeys : registered.authorizedGroupKeys = update (fun _ => false)
      (keyHash baseX baseY) true :=
    rfl
  rw [isGroupKeyAuthorized, hkeys, update_self]

theorem step_registered :
    registered.step (submitSigned 0 500 100) =
      registered.recorded ((signedEnvelope 0).attest (incomeDigest 1 500 100) 0) 1 500 100 :=
  step_submitSigned isGroupKeyAuthorized_registered (processedAttestations_registered 0)
    challenge_zero_ne_zero incomeDigest_ne_zero.1 (by decide) (by decide)

theorem step_step_registered :
    (registered.step (submitSigned 0 500 100)).step (submitSigned 1 300 50) =
      (registered.step (submitSigned 0 500 100)).recorded
        ((signedEnvelope 1).attest (incomeDigest 1 300 50) 0) 1 300 50 := by
  refine step_submitSigned ?_ ?_ challenge_one_ne_zero incomeDigest_ne_zero.2 (by decide)
    (by decide)
  · rw [step_registered]
    exact isGroupKeyAuthorized_registered
  · rw [step_registered, processedAttestations_recorded]
    exact (update_of_ne (by decide) _ _).trans (processedAttestations_registered 1)

/-- An old income replaces a newer one. -/
theorem not_fresh_outdated :
    ((deploy ⟨9, 0, 30⟩).run (outdated.take 2)).incomeTimestamp 1 = 100 ∧
      ((deploy ⟨9, 0, 30⟩).run outdated).incomeTimestamp 1 = 50 ∧
      ¬ (deploy ⟨9, 0, 30⟩).Fresh outdated := by
  have hbefore : ((deploy ⟨9, 0, 30⟩).run (outdated.take 2)).incomeTimestamp 1 = 100 := by
    have htake : outdated.take 2 = [.authorizeGroupKey ⟨9, 0, 40⟩ baseX baseY,
          submitSigned 0 500 100] :=
      rfl
    rw [htake, run_cons, run_cons, run_nil, ← registered, step_registered, incomeTimestamp_recorded,
      update_self]
  have hafter : ((deploy ⟨9, 0, 30⟩).run outdated).incomeTimestamp 1 = 50 := by
    rw [outdated, run_cons, run_cons, run_cons, run_nil, ← registered, step_step_registered,
      incomeTimestamp_recorded, update_self]
  refine ⟨hbefore, hafter, fun hfresh => ?_⟩
  have hle := hfresh.2 (outdated.take 2) (outdated.drop 2) (List.take_append_drop 2 outdated).symm 1
  rw [hbefore, hafter] at hle
  exact absurd hle (by decide)

end IncomeAttestation

end TlsAttestation
