import AveroWallet.Dispatch

set_option autoImplicit false

/- The balance checks of `sendCoins` (lines 236, 244-259 and 422-429). `total` and `nBalance`
are `qint64`/`int64_t` sums and the comparisons are made on the wrapped values. -/
namespace AveroWallet

/-- Two recipients of 2^62 each against a balance of 10: the exact total 2^63 exceeds the
balance, but the `qint64` total wraps to -2^63, so neither pre-check fires and the request
reaches `CreateTransaction`; when that fails, the re-check `total + nFeeRequired > nBalance`
wraps the same way and the result is `TransactionCreationFailed`. -/
theorem sendCoins_total_wraps :
    let recipients : List SendCoinsRecipient :=
      [⟨"A", "", "", 1, 4611686018427387904⟩, ⟨"B", "", "", 1, 4611686018427387904⟩]
    (recipients.map (·.amount.val)).sum = 2 ^ 63 ∧
      availableBalance (sampleEnv.wallet.availableCoins emptyWallet none) = 10 ∧
      sendCoins sampleEnv recipients none emptyWallet =
        ⟨StatusCode.transactionCreationFailed, emptyWallet,
          [.availableCoins, .createTransaction
            [(setDestination (.keyID [1]), 4611686018427387904),
              (setDestination (.keyID [2]), 4611686018427387904)] false 0]⟩ :=
  ⟨by decide, by decide, rfl⟩

/-- The exact sum of the amounts of the recipients. -/
def exactTotal (recipients : List SendCoinsRecipient) : Int :=
  (recipients.map (·.amount.val)).sum

/-- The exact sum of the values of the available coins. -/
def exactBalance (vCoins : List { out : COutput // out.InRange }) : Int :=
  (vCoins.map fun out => (out.1.tx.vout.get ⟨out.1.i, out.2⟩).nValue.val).sum

theorem availableBalance_val {vCoins : List { out : COutput // out.InRange }}
    (nonneg : ∀ out ∈ vCoins, 0 ≤ (out.1.tx.vout.get ⟨out.1.i, out.2⟩).nValue.val)
    (fits : exactBalance vCoins < 2 ^ 63) :
    (availableBalance vCoins).val = exactBalance vCoins := by
  have sum := Int64.foldl_add_val (vCoins.map fun out => (out.1.tx.vout.get ⟨out.1.i, out.2⟩).nValue)
    0 (fun value mem => by obtain ⟨out, coin, rfl⟩ := List.mem_map.mp mem; exact nonneg out coin)
    (by simpa [exactBalance, List.map_map] using fits)
  simpa [exactBalance, List.map_map] using sum

theorem total_val_of_checkRecipients {codec : AddressCodec} {recipients : List SendCoinsRecipient}
    {total : Int64} (passes : checkRecipients codec recipients = .ok total)
    (fits : exactTotal recipients < 2 ^ 63) : total.val = exactTotal recipients := by
  have positive := amount_pos_of_checkRecipients passes
  rw [checkRecipients_eq] at passes
  split at passes
  · cases passes
  · cases passes
    have sum := Int64.foldl_add_val (recipients.map (·.amount)) 0
      (fun amount mem => by obtain ⟨rcp, listed, rfl⟩ := List.mem_map.mp mem; exact (positive rcp listed).le)
      (by simpa [exactTotal, List.map_map] using fits)
    simpa [exactTotal, List.map_map] using sum

/-- How the locked block ends: the output loop fails before any call, `CreateTransaction`
fails and the re-check of lines 422-427 decides, or the block goes on past a created
transaction and can only fail as `Aborted` or `TransactionCommitFailed`. -/
theorem sendLocked_cases (env : SendEnv) (recipients : List SendCoinsRecipient)
    (coinControl : Option CCoinControl) (total nBalance : Int64) (wallet : CWallet) :
    (∃ result, buildVecSend env recipients ⟨[], [], 0⟩ = .error result ∧
      sendLocked env recipients coinControl total nBalance wallet = (.error result, wallet, [])) ∨
    (∃ vecSend fee, (sendLocked env recipients coinControl total nBalance wallet).2.2 =
        [.createTransaction vecSend false fee] ∧
      (sendLocked env recipients coinControl total nBalance wallet).1 =
        .error (if total + fee > nBalance then ⟨.amountWithFeeExceedsBalance, fee, ""⟩
          else StatusCode.transactionCreationFailed)) ∨
    ((∀ vecSend fee, .createTransaction vecSend false fee ∉
        (sendLocked env recipients coinControl total nBalance wallet).2.2) ∧
      ∀ result, (sendLocked env recipients coinControl total nBalance wallet).1 = .error result →
        result.status = .aborted ∨ result.status = .transactionCommitFailed) := by
  unfold sendLocked
  split
  · exact .inl ⟨_, ‹_›, rfl⟩
  · rename_i loop _
    generalize env.wallet.createTransaction wallet loop.vecSend coinControl = created
    cases fCreated : created.fCreated
    · exact .inr (.inl ⟨loop.vecSend, created.nFeeRequired, by simp [fCreated], by simp [fCreated]⟩)
    · refine .inr (.inr ?_)
      cases approved : env.wallet.threadSafeAskFee created.nFeeRequired
      · simp [fCreated, approved]
      · simp only [fCreated, approved, Bool.not_true, Bool.false_eq_true, ↓reduceIte]
        generalize env.wallet.commitTransaction _ _ = commit
        cases commit.committed <;> simp

/-- When the amounts, the coins' values and the fees keep every sum a 64-bit value, the
three balance checks of `sendCoins` decide as exact arithmetic does: `AmountExceedsBalance`
exactly when the amounts exceed the balance, then `AmountWithFeeExceedsBalance` with
`nTransactionFee` exactly when the amounts and that fee do, and after a failed
`CreateTransaction` exactly when the amounts and the fee it asked for do. -/
theorem sendCoins_balance_checks_exact (env : SendEnv) (recipients : List SendCoinsRecipient)
    (coinControl : Option CCoinControl) (wallet : CWallet)
    (passes : validationOutcome env.codec recipients = none)
    (totalFits : exactTotal recipients < 2 ^ 63)
    (nonneg : ∀ out ∈ env.wallet.availableCoins wallet coinControl,
      0 ≤ (out.1.tx.vout.get ⟨out.1.i, out.2⟩).nValue.val)
    (balanceFits : exactBalance (env.wallet.availableCoins wallet coinControl) < 2 ^ 63)
    (feeFits : exactTotal recipients + env.nTransactionFee.val < 2 ^ 63) :
    let run := sendCoins env recipients coinControl wallet
    let balance := exactBalance (env.wallet.availableCoins wallet coinControl)
    (run.result.status = .amountExceedsBalance ↔ balance < exactTotal recipients) ∧
      (exactTotal recipients ≤ balance →
        (run = ⟨⟨.amountWithFeeExceedsBalance, env.nTransactionFee, ""⟩, wallet, [.availableCoins]⟩ ↔
          balance < exactTotal recipients + env.nTransactionFee.val)) ∧
      ∀ vecSend fee, .createTransaction vecSend false fee ∈ run.calls →
        exactTotal recipients + fee.val < 2 ^ 63 →
        (run.result.status = .amountWithFeeExceedsBalance ↔
          balance < exactTotal recipients + fee.val) := by
  have checked := checkRecipients_eq env.codec recipients
  rw [passes] at checked
  have totalVal := total_val_of_checkRecipients checked totalFits
  have totalNonneg : 0 ≤ exactTotal recipients :=
    List.sum_nonneg fun amount mem => by
      obtain ⟨rcp, listed, rfl⟩ := List.mem_map.mp mem
      exact (amount_pos_of_checkRecipients checked rcp listed).le
  have balanceVal := availableBalance_val nonneg balanceFits
  dsimp only
  simp only [sendCoins, checked]
  generalize (recipients.map (·.amount)).foldl (· + ·) 0 = total at totalVal ⊢
  generalize availableBalance (env.wallet.availableCoins wallet coinControl) = nBalance at balanceVal ⊢
  generalize exactBalance (env.wallet.availableCoins wallet coinControl) = balance at balanceVal ⊢
  have sumVal (fee : Int64) (fits : exactTotal recipients + fee.val < 2 ^ 63) :
      (total + fee).val = exactTotal recipients + fee.val := by
    rw [Int64.val_add_of_fits _ _ (by have := fee.lower; omega) (by omega), totalVal]
  have withFeeVal := sumVal _ feeFits
  split_ifs with exceeds withFee
  · simp only [Int64.lt_iff, gt_iff_lt] at exceeds
    exact ⟨by simp; omega, fun within => by omega, by simp⟩
  · simp only [Int64.lt_iff, gt_iff_lt] at exceeds withFee
    exact ⟨by simp; omega, fun _ => by simp; omega, by simp⟩
  · simp only [Int64.lt_iff, gt_iff_lt] at exceeds withFee
    have cases := sendLocked_cases env recipients coinControl total nBalance wallet
    generalize sendLocked env recipients coinControl total nBalance wallet = locked at cases ⊢
    obtain ⟨outcome, after, calls⟩ := locked
    rcases cases with ⟨result, built, same⟩ | ⟨vecSend, fee, rfl, ended⟩ | ⟨noFailedCreate, statuses⟩
    · cases same
      have ⟨notExceeds, notFee⟩ : result.status ≠ .amountExceedsBalance ∧
          result.status ≠ .amountWithFeeExceedsBalance := by
        rcases buildVecSend_error built with status | status <;> simp [status]
      refine ⟨by simp [notExceeds]; omega, fun _ => ⟨fun same => ?_, by omega⟩, by simp⟩
      cases same
      exact absurd rfl notFee
    · cases ended
      refine ⟨?_, fun _ => ⟨by simp, by omega⟩, ?_⟩
      · split_ifs <;> simp <;> omega
      · intro vecSend' fee' created fits
        simp only [List.mem_cons, WalletCall.createTransaction.injEq, true_and, List.not_mem_nil,
          or_false, reduceCtorEq, false_or] at created
        obtain ⟨-, rfl⟩ := created
        have := sumVal fee' fits
        split_ifs with over <;> simp only [Int64.lt_iff, gt_iff_lt] at over <;> simp <;> omega
    · cases outcome with
      | error result =>
        have ⟨notExceeds, notFee⟩ : result.status ≠ .amountExceedsBalance ∧
            result.status ≠ .amountWithFeeExceedsBalance := by
          rcases statuses result rfl with status | status <;> simp [status]
        refine ⟨by simp [notExceeds]; omega, fun _ => ⟨fun same => ?_, by omega⟩,
          fun vecSend fee created => ?_⟩
        · cases same
          exact absurd rfl notFee
        · simp only [List.mem_cons, reduceCtorEq, false_or] at created
          exact absurd created (noFailedCreate _ _)
      | ok hex =>
        refine ⟨by simp; omega, fun _ => ⟨fun same => by simp at same, by omega⟩, ?_⟩
        intro vecSend fee created
        simp only [List.cons_append, List.mem_cons, reduceCtorEq, false_or, List.mem_append] at created
        rcases created with created | created
        · exact absurd created (noFailedCreate _ _)
        · cases labelSentAddresses_calls env recipients after _ created

/-- The checks at their boundaries against the balance 10: amounts of 11 exceed it, and
amounts of 10 with `nTransactionFee` 1 exceed it only with the fee. -/
theorem sendCoins_balance_checks_exact_sample :
    let over : List SendCoinsRecipient := [⟨"A", "", "", 1, 11⟩]
    let full : List SendCoinsRecipient := [⟨"A", "", "", 1, 10⟩]
    let feeEnv : SendEnv := { sampleEnv with nTransactionFee := 1 }
    let balance := exactBalance (sampleEnv.wallet.availableCoins emptyWallet none)
    (sendCoins sampleEnv over none emptyWallet).result.status = .amountExceedsBalance ∧
      ((sendCoins sampleEnv over none emptyWallet).result.status = .amountExceedsBalance ↔
        balance < exactTotal over) ∧
      exactTotal full ≤ balance ∧
      sendCoins feeEnv full none emptyWallet =
        ⟨⟨.amountWithFeeExceedsBalance, 1, ""⟩, emptyWallet, [.availableCoins]⟩ ∧
      (sendCoins feeEnv full none emptyWallet =
          ⟨⟨.amountWithFeeExceedsBalance, feeEnv.nTransactionFee, ""⟩, emptyWallet,
            [.availableCoins]⟩ ↔
        balance < exactTotal full + feeEnv.nTransactionFee.val) := by
  intro over full feeEnv balance
  have overPasses : validationOutcome sampleEnv.codec over = none := by decide
  have fullPasses : validationOutcome feeEnv.codec full = none := by decide
  have within : exactTotal full ≤ balance := by decide
  exact ⟨by decide, (sendCoins_balance_checks_exact sampleEnv over none emptyWallet overPasses
      (by decide) (by decide) (by decide) (by decide)).1, within, rfl,
    (sendCoins_balance_checks_exact feeEnv full none emptyWallet fullPasses (by decide)
      (by decide) (by decide) (by decide)).2.1 within⟩

end AveroWallet
