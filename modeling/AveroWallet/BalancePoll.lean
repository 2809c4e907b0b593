import AveroWallet.Int64

set_option autoImplicit false

/- The balance cache of `WalletModel` (lines 19-196): the constructor, the polling timer
`pollBalanceChanged`, the wallet notifications `updateTransaction`, `updateWatchOnlyFlag`
and `updateStatus`, and `checkBalanceChanged`, which compares the wallet's balances with the
cached ones and emits `balanceChanged`. A run interleaves these with changes of the wallet. -/
namespace AveroWallet

/-- `WalletModel::EncryptionStatus`. -/
inductive EncryptionStatus
  | unencrypted
  | locked
  | unlocked
deriving DecidableEq, Repr

/-- What the `CWallet` getters return at one moment. -/
structure WalletView where
  unlockedBalance : Int64
  lockedBalance : Int64
  stakeAmount : Int64
  unconfirmedBalance : Int64
  immatureBalance : Int64
  watchOnlyBalance : Int64
  unconfirmedWatchOnlyBalance : Int64
  immatureWatchOnlyBalance : Int64
  numTransactions : Int
  isCrypted : Bool
  isLocked : Bool
deriving DecidableEq

/-- The fields of `WalletModel` the polling reads and writes. -/
structure WalletModel where
  cachedBalance : Int64
  cachedLockedBalance : Int64
  cachedStake : Int64
  cachedUnconfirmedBalance : Int64
  cachedImmatureBalance : Int64
  cachedNumTransactions : Int
  cachedEncryptionStatus : EncryptionStatus
  cachedNumBlocks : Int
  fHaveWatchOnly : Bool
deriving DecidableEq

/-- The arguments of `balanceChanged`, in the order of the signal. -/
structure BalanceReport where
  balance : Int64
  lockedBalance : Int64
  stake : Int64
  unconfirmedBalance : Int64
  immatureBalance : Int64
  watchOnlyBalance : Int64
  watchUnconfBalance : Int64
  watchImmatureBalance : Int64
deriving DecidableEq

/-- The signals `WalletModel` emits. -/
inductive Signal
  | balanceChanged (report : BalanceReport)
  | numTransactionsChanged (count : Int)
  | encryptionStatusChanged (status : EncryptionStatus)
  | notifyWatchonlyChanged (fHaveWatchonly : Bool)
deriving DecidableEq

namespace WalletModel

/-- The constructor (lines 19-28). It does not set `cachedLockedBalance`, whose first value
is whatever the object starts with. -/
def init (haveWatchOnly : Bool) (lockedBalanceAtStart : Int64) : WalletModel where
  cachedBalance := 0
  cachedLockedBalance := lockedBalanceAtStart
  cachedStake := 0
  cachedUnconfirmedBalance := 0
  cachedImmatureBalance := 0
  cachedNumTransactions := 0
  cachedEncryptionStatus := .unencrypted
  cachedNumBlocks := 0
  fHaveWatchOnly := haveWatchOnly

/-- `WalletModel::getEncryptionStatus`. -/
def getEncryptionStatus (wallet : WalletView) : EncryptionStatus :=
  if !wallet.isCrypted then .unencrypted
  else if wallet.isLocked then .locked
  else .unlocked

/-- The balances `checkBalanceChanged` reports: the watch-only ones are 0 unless the model
has watch-only addresses. -/
def report (model : WalletModel) (wallet : WalletView) : BalanceReport :=
  if model.fHaveWatchOnly then
    ⟨wallet.unlockedBalance, wallet.lockedBalance, wallet.stakeAmount, wallet.unconfirmedBalance,
      wallet.immatureBalance, wallet.watchOnlyBalance, wallet.unconfirmedWatchOnlyBalance,
      wallet.immatureWatchOnlyBalance⟩
  else
    ⟨wallet.unlockedBalance, wallet.lockedBalance, wallet.stakeAmount, wallet.unconfirmedBalance,
      wallet.immatureBalance, 0, 0, 0⟩

/-- `WalletModel::checkBalanceChanged` (lines 141-168). -/
def checkBalanceChanged (model : WalletModel) (wallet : WalletView) :
    WalletModel × List Signal :=
  let newReport := model.report wallet
  if model.cachedBalance ≠ newReport.balance ∨ model.cachedLockedBalance ≠ newReport.lockedBalance ∨
      model.cachedStake ≠ newReport.stake ∨
      model.cachedUnconfirmedBalance ≠ newReport.unconfirmedBalance ∨
      model.cachedImmatureBalance ≠ newReport.immatureBalance then
    ({ model with
        cachedBalance := newReport.balance
        cachedStake := newReport.stake
        cachedUnconfirmedBalance := newReport.unconfirmedBalance
        cachedImmatureBalance := newReport.immatureBalance },
      [.balanceChanged newReport])
  else (model, [])

/-- `WalletModel::pollBalanceChanged` (lines 118-139): skipped when either lock is busy. -/
def pollBalanceChanged (model : WalletModel) (wallet : WalletView) (lockMain lockWallet : Bool)
    (nBestHeight : Int) : WalletModel × List Signal :=
  if !lockMain then (model, [])
  else if !lockWallet then (model, [])
  else if nBestHeight ≠ model.cachedNumBlocks then
    checkBalanceChanged { model with cachedNumBlocks := nBestHeight } wallet
  else (model, [])

/-- `WalletModel::updateTransaction` (lines 170-184). -/
def updateTransaction (model : WalletModel) (wallet : WalletView) : WalletModel × List Signal :=
  let (model, signals) := model.checkBalanceChanged wallet
  let newNumTransactions := wallet.numTransactions
  if model.cachedNumTransactions ≠ newNumTransactions then
    ({ model with cachedNumTransactions := newNumTransactions },
      signals ++ [.numTransactionsChanged newNumTransactions])
  else (model, signals)

/-- `WalletModel::updateWatchOnlyFlag` (lines 192-196). -/
def updateWatchOnlyFlag (model : WalletModel) (fHaveWatchonly : Bool) :
    WalletModel × List Signal :=
  ({ model with fHaveWatchOnly := fHaveWatchonly }, [.notifyWatchonlyChanged fHaveWatchonly])

/-- `WalletModel::updateStatus` (lines 110-116). -/
def updateStatus (model : WalletModel) (wallet : WalletView) : WalletModel × List Signal :=
  let newEncryptionStatus := getEncryptionStatus wallet
  if model.cachedEncryptionStatus ≠ newEncryptionStatus then
    (model, [.encryptionStatusChanged newEncryptionStatus])
  else (model, [])

end WalletModel

/-- What can happen to a `WalletModel`: a timer tick (with the outcome of each `TRY_LOCK` and
the chain height), a wallet notification, or a change of the wallet itself. -/
inductive ModelEvent
  | pollBalanceChanged (lockMain lockWallet : Bool) (nBestHeight : Int)
  | updateTransaction
  | updateWatchOnlyFlag (fHaveWatchonly : Bool)
  | updateStatus
  | walletChanged (wallet : WalletView)

/-- One event applied to the model and the wallet it watches. -/
def modelStep (state : WalletModel × WalletView) : ModelEvent → (WalletModel × WalletView) × List Signal
  | .pollBalanceChanged lockMain lockWallet nBestHeight =>
    let (model, signals) := state.1.pollBalanceChanged state.2 lockMain lockWallet nBestHeight
    ((model, state.2), signals)
  | .updateTransaction =>
    let (model, signals) := state.1.updateTransaction state.2
    ((model, state.2), signals)
  | .updateWatchOnlyFlag fHaveWatchonly =>
    let (model, signals) := state.1.updateWatchOnlyFlag fHaveWatchonly
    ((model, state.2), signals)
  | .updateStatus =>
    let (model, signals) := state.1.updateStatus state.2
    ((model, state.2), signals)
  | .walletChanged wallet => ((state.1, wallet), [])

/-- A run: the events in order, and every signal emitted along the way. -/
def modelRun (state : WalletModel × WalletView) :
    List ModelEvent → (WalletModel × WalletView) × List Signal
  | [] => (state, [])
  | event :: rest =>
    let (next, signals) := modelStep state event
    let (final, more) := modelRun next rest
    (final, signals ++ more)

namespace WalletModel

/-- `checkBalanceChanged` emits exactly when one of the five compared balances differs from
its cached value; the watch-only balances it reports are never compared. -/
theorem checkBalanceChanged_signals (model : WalletModel) (wallet : WalletView) :
    (model.checkBalanceChanged wallet).2 =
      if model.cachedBalance ≠ wallet.unlockedBalance ∨
          model.cachedLockedBalance ≠ wallet.lockedBalance ∨
          model.cachedStake ≠ wallet.stakeAmount ∨
          model.cachedUnconfirmedBalance ≠ wallet.unconfirmedBalance ∨
          model.cachedImmatureBalance ≠ wallet.immatureBalance
      then [.balanceChanged (model.report wallet)] else [] := by
  unfold checkBalanceChanged report
  split_ifs <;> simp_all

@[simp] theorem checkBalanceChanged_cachedLockedBalance (model : WalletModel)
    (wallet : WalletView) :
    (model.checkBalanceChanged wallet).1.cachedLockedBalance = model.cachedLockedBalance := by
  simp only [checkBalanceChanged]
  split_ifs <;> rfl

@[simp] theorem checkBalanceChanged_fHaveWatchOnly (model : WalletModel) (wallet : WalletView) :
    (model.checkBalanceChanged wallet).1.fHaveWatchOnly = model.fHaveWatchOnly := by
  simp only [checkBalanceChanged]
  split_ifs <;> rfl

@[simp] theorem checkBalanceChanged_cachedNumTransactions (model : WalletModel)
    (wallet : WalletView) :
    (model.checkBalanceChanged wallet).1.cachedNumTransactions = model.cachedNumTransactions := by
  simp only [checkBalanceChanged]
  split_ifs <;> rfl

/-- A notification that finds the transaction count unchanged only checks the balances. -/
theorem updateTransaction_of_counted (model : WalletModel) (wallet : WalletView)
    (counted : model.cachedNumTransactions = wallet.numTransactions) :
    model.updateTransaction wallet = model.checkBalanceChanged wallet := by
  simp [updateTransaction, counted]

/-- Once the wallet's locked balance differs from `cachedLockedBalance`, which nothing
assigns, every call of `checkBalanceChanged` emits, so two calls on an unchanged wallet
emit the same report twice. -/
theorem checkBalanceChanged_twice_of_locked (model : WalletModel) (wallet : WalletView)
    (differs : model.cachedLockedBalance ≠ wallet.lockedBalance) :
    (model.checkBalanceChanged wallet).2 = [.balanceChanged (model.report wallet)] ∧
      ((model.checkBalanceChanged wallet).1.checkBalanceChanged wallet).2 =
        [.balanceChanged (model.report wallet)] := by
  have again : ((model.checkBalanceChanged wallet).1.report wallet) = model.report wallet := by
    simp [report]
  rw [checkBalanceChanged_signals, checkBalanceChanged_signals, again,
    checkBalanceChanged_cachedLockedBalance]
  simp [differs]

end WalletModel

/-- The value of the last signal among `signals` that `pick` selects. -/
def lastSome {α : Type} (pick : Signal → Option α) (signals : List Signal) : Option α :=
  signals.reverse.findSome? pick

@[simp] theorem lastSome_nil {α : Type} (pick : Signal → Option α) : lastSome pick [] = none := rfl

@[simp] theorem lastSome_append {α : Type} (pick : Signal → Option α) (first second : List Signal) :
    lastSome pick (first ++ second) = (lastSome pick second).or (lastSome pick first) := by
  simp [lastSome, List.findSome?_append]

/-- The report of a `balanceChanged` signal. -/
def Signal.report? : Signal → Option BalanceReport
  | .balanceChanged report => some report
  | _ => none

/-- The count of a `numTransactionsChanged` signal. -/
def Signal.count? : Signal → Option Int
  | .numTransactionsChanged count => some count
  | _ => none

/-- The balances of a report that `checkBalanceChanged` writes back into the cache. -/
def BalanceReport.cached (report : BalanceReport) : Int64 × Int64 × Int64 × Int64 :=
  (report.balance, report.stake, report.unconfirmedBalance, report.immatureBalance)

/-- The cached balances `checkBalanceChanged` writes. -/
def WalletModel.cachedBalances (model : WalletModel) : Int64 × Int64 × Int64 × Int64 :=
  (model.cachedBalance, model.cachedStake, model.cachedUnconfirmedBalance,
    model.cachedImmatureBalance)

/-- What the cache keeps through a step or a run from `model` that emits `signals` and ends
in `next`: the balances written back are those of the last report emitted, the transaction
count is the last count emitted, and the locked balance and the encryption status are never
written. -/
structure CacheTracks (model : WalletModel) (signals : List Signal) (next : WalletModel) : Prop where
  balances :
    next.cachedBalances = ((lastSome Signal.report? signals).map BalanceReport.cached).getD
      model.cachedBalances
  numTransactions :
    next.cachedNumTransactions = (lastSome Signal.count? signals).getD model.cachedNumTransactions
  lockedBalance : next.cachedLockedBalance = model.cachedLockedBalance
  encryptionStatus : next.cachedEncryptionStatus = model.cachedEncryptionStatus

theorem CacheTracks.trans {model middle final : WalletModel} {first second : List Signal}
    (step : CacheTracks model first middle) (rest : CacheTracks middle second final) :
    CacheTracks model (first ++ second) final where
  balances := by
    rw [rest.balances, step.balances, lastSome_append]
    cases lastSome Signal.report? second <;> rfl
  numTransactions := by
    rw [rest.numTransactions, step.numTransactions, lastSome_append]
    cases lastSome Signal.count? second <;> rfl
  lockedBalance := rest.lockedBalance.trans step.lockedBalance
  encryptionStatus := rest.encryptionStatus.trans step.encryptionStatus

namespace WalletModel

theorem checkBalanceChanged_tracks (model : WalletModel) (wallet : WalletView) :
    CacheTracks model (model.checkBalanceChanged wallet).2 (model.checkBalanceChanged wallet).1 := by
  simp only [checkBalanceChanged]
  split_ifs <;> exact ⟨rfl, rfl, rfl, rfl⟩

end WalletModel

theorem modelStep_tracks (state : WalletModel × WalletView) (event : ModelEvent) :
    CacheTracks state.1 (modelStep state event).2 (modelStep state event).1.1 := by
  cases event with
  | pollBalanceChanged lockMain lockWallet nBestHeight =>
    simp only [modelStep, WalletModel.pollBalanceChanged]
    split_ifs
    · exact ⟨rfl, rfl, rfl, rfl⟩
    · exact ⟨rfl, rfl, rfl, rfl⟩
    · have checked := WalletModel.checkBalanceChanged_tracks
        { state.1 with cachedNumBlocks := nBestHeight } state.2
      exact ⟨checked.1, checked.2, checked.3, checked.4⟩
    · exact ⟨rfl, rfl, rfl, rfl⟩
  | updateTransaction =>
    simp only [modelStep, WalletModel.updateTransaction]
    have checked := WalletModel.checkBalanceChanged_tracks state.1 state.2
    split_ifs
    · exact checked.trans ⟨rfl, rfl, rfl, rfl⟩
    · exact checked
  | updateWatchOnlyFlag => exact ⟨rfl, rfl, rfl, rfl⟩
  | updateStatus =>
    simp only [modelStep, WalletModel.updateStatus]
    split_ifs <;> exact ⟨rfl, rfl, rfl, rfl⟩
  | walletChanged => exact ⟨rfl, rfl, rfl, rfl⟩

theorem modelRun_tracks (state : WalletModel × WalletView) (events : List ModelEvent) :
    CacheTracks state.1 (modelRun state events).2 (modelRun state events).1.1 := by
  induction events generalizing state with
  | nil => exact ⟨rfl, rfl, rfl, rfl⟩
  | cons event rest ih => exact (modelStep_tracks state event).trans (ih _)

/-- Along every run from the constructor, the balances `checkBalanceChanged` writes back are
those of the last `balanceChanged` emitted and the transaction count is the last
`numTransactionsChanged` emitted, 0 before the first; `cachedLockedBalance` keeps whatever
the object started with and `cachedEncryptionStatus` stays `Unencrypted`. -/
theorem modelRun_cache_tracks_signals (haveWatchOnly : Bool) (lockedBalanceAtStart : Int64)
    (wallet : WalletView) (events : List ModelEvent) :
    let run := modelRun (WalletModel.init haveWatchOnly lockedBalanceAtStart, wallet) events
    run.1.1.cachedBalances =
        ((lastSome Signal.report? run.2).map BalanceReport.cached).getD (0, 0, 0, 0) ∧
      run.1.1.cachedNumTransactions = (lastSome Signal.count? run.2).getD 0 ∧
      run.1.1.cachedLockedBalance = lockedBalanceAtStart ∧
      run.1.1.cachedEncryptionStatus = .unencrypted :=
  let tracks := modelRun_tracks (WalletModel.init haveWatchOnly lockedBalanceAtStart, wallet) events
  ⟨tracks.balances, tracks.numTransactions, tracks.lockedBalance, tracks.encryptionStatus⟩

/-- Since nothing writes `cachedEncryptionStatus`, at any point of any run from the
constructor `updateStatus` emits `encryptionStatusChanged` exactly when the wallet is
encrypted, however often it has done so before. -/
theorem updateStatus_emits_while_encrypted (haveWatchOnly : Bool) (lockedBalanceAtStart : Int64)
    (wallet : WalletView) (events : List ModelEvent) (now : WalletView) :
    ((modelRun (WalletModel.init haveWatchOnly lockedBalanceAtStart, wallet) events).1.1.updateStatus
        now).2 =
      if now.isCrypted then [.encryptionStatusChanged (WalletModel.getEncryptionStatus now)]
      else [] := by
  have unencrypted :=
    (modelRun_tracks (WalletModel.init haveWatchOnly lockedBalanceAtStart, wallet) events).encryptionStatus
  simp only [WalletModel.updateStatus]
  rw [unencrypted]
  unfold WalletModel.getEncryptionStatus
  cases now.isCrypted <;> cases now.isLocked <;> rfl

/-- A model whose `cachedLockedBalance` starts at 0, on a wallet holding a locked balance of 1
and nothing else: two `updateTransaction` calls with no change in between both emit the same
report. With watch-only addresses, a wallet whose only change is a watch-only balance of 5
emits nothing. -/
theorem balance_cache_repeats_and_misses :
    let quiet : WalletView := ⟨0, 0, 0, 0, 0, 0, 0, 0, 0, false, false⟩
    let locked : WalletView := { quiet with lockedBalance := 1 }
    (modelRun (WalletModel.init false 0, locked) [.updateTransaction, .updateTransaction]).2 =
        [.balanceChanged ⟨0, 1, 0, 0, 0, 0, 0, 0⟩, .balanceChanged ⟨0, 1, 0, 0, 0, 0, 0, 0⟩] ∧
      (modelRun (WalletModel.init true 0, quiet)
        [.walletChanged { quiet with watchOnlyBalance := 5 }, .updateTransaction]).2 = [] := by
  intro quiet locked
  obtain ⟨first, second⟩ :=
    WalletModel.checkBalanceChanged_twice_of_locked (.init false 0) locked (by decide)
  have unchanged : ((WalletModel.init false 0).checkBalanceChanged locked).1.cachedNumTransactions =
      locked.numTransactions := by
    rw [WalletModel.checkBalanceChanged_cachedNumTransactions]
    rfl
  simp only [modelRun, modelStep, WalletModel.updateTransaction_of_counted _ _ unchanged,
    WalletModel.updateTransaction_of_counted (.init false 0) locked rfl,
    WalletModel.updateTransaction_of_counted (.init true 0) { quiet with watchOnlyBalance := 5 } rfl,
    first, second, WalletModel.checkBalanceChanged_signals]
  exact ⟨rfl, by decide⟩

/-! ## The timer and the transaction count over whole runs -/

/-- The chain height a timer tick records: that of a tick that takes both locks. -/
def ModelEvent.polledHeight? : ModelEvent → Option Int
  | .pollBalanceChanged true true nBestHeight => some nBestHeight
  | _ => none

/-- The chain height recorded by the last tick of `events` that took both locks. -/
def lastPolledHeight (events : List ModelEvent) : Option Int :=
  events.reverse.findSome? ModelEvent.polledHeight?

namespace WalletModel

@[simp] theorem checkBalanceChanged_cachedNumBlocks (model : WalletModel) (wallet : WalletView) :
    (model.checkBalanceChanged wallet).1.cachedNumBlocks = model.cachedNumBlocks := by
  simp only [checkBalanceChanged]
  split_ifs <;> rfl

/-- `checkBalanceChanged` does not read `cachedNumBlocks`. -/
theorem checkBalanceChanged_numBlocks (model : WalletModel) (wallet : WalletView)
    (height : Int) :
    ({ model with cachedNumBlocks := height }.checkBalanceChanged wallet).2 =
      (model.checkBalanceChanged wallet).2 := by
  rw [checkBalanceChanged_signals, checkBalanceChanged_signals]
  rfl

theorem checkBalanceChanged_counts (model : WalletModel) (wallet : WalletView) :
    (model.checkBalanceChanged wallet).2.filterMap Signal.count? = [] := by
  rw [checkBalanceChanged_signals]
  split_ifs <;> rfl

end WalletModel

/-- A step records the height of a tick that takes both locks and keeps the recorded height
otherwise. -/
theorem modelStep_cachedNumBlocks (state : WalletModel × WalletView) (event : ModelEvent) :
    (modelStep state event).1.1.cachedNumBlocks =
      event.polledHeight?.getD state.1.cachedNumBlocks := by
  cases event with
  | pollBalanceChanged lockMain lockWallet nBestHeight =>
    cases lockMain <;> cases lockWallet <;>
      simp only [modelStep, WalletModel.pollBalanceChanged, ModelEvent.polledHeight?] <;>
      split_ifs with moved <;> simp_all
  | updateTransaction =>
    simp only [modelStep, WalletModel.updateTransaction]
    split_ifs <;> simp [ModelEvent.polledHeight?]
  | updateWatchOnlyFlag => rfl
  | updateStatus =>
    simp only [modelStep, WalletModel.updateStatus]
    split_ifs <;> rfl
  | walletChanged => rfl

theorem modelRun_cachedNumBlocks (state : WalletModel × WalletView) (events : List ModelEvent) :
    (modelRun state events).1.1.cachedNumBlocks =
      (lastPolledHeight events).getD state.1.cachedNumBlocks := by
  induction events generalizing state with
  | nil => rfl
  | cons event rest ih =>
    simp only [modelRun, ih, modelStep_cachedNumBlocks, lastPolledHeight, List.reverse_cons,
      List.findSome?_append, List.findSome?_cons, List.findSome?_nil]
    cases rest.reverse.findSome? ModelEvent.polledHeight? <;> cases event.polledHeight? <;> rfl

/-- After any run from the constructor, a timer tick checks the balances only when it takes
both locks at a chain height other than the one the last such tick recorded (0 before the
first); it then emits what `checkBalanceChanged` emits, and otherwise nothing, however
the wallet changed in between. -/
theorem pollBalanceChanged_checks_new_height (haveWatchOnly : Bool)
    (lockedBalanceAtStart : Int64) (wallet : WalletView) (events : List ModelEvent)
    (lockMain lockWallet : Bool) (nBestHeight : Int) :
    let run := modelRun (WalletModel.init haveWatchOnly lockedBalanceAtStart, wallet) events
    (modelStep run.1 (.pollBalanceChanged lockMain lockWallet nBestHeight)).2 =
      if lockMain ∧ lockWallet ∧ nBestHeight ≠ (lastPolledHeight events).getD 0 then
        (run.1.1.checkBalanceChanged run.1.2).2
      else [] := by
  have recorded : (modelRun (WalletModel.init haveWatchOnly lockedBalanceAtStart, wallet)
      events).1.1.cachedNumBlocks = (lastPolledHeight events).getD 0 :=
    modelRun_cachedNumBlocks _ events
  simp only [modelStep, WalletModel.pollBalanceChanged, recorded]
  cases lockMain <;> cases lockWallet <;> simp only [Bool.not_false, Bool.not_true] <;> simp
  split_ifs <;> simp [WalletModel.checkBalanceChanged_numBlocks]

/-- A balance that changes between two blocks is not reported by a tick at the old height. -/
example :
    let quiet : WalletView := ⟨0, 0, 0, 0, 0, 0, 0, 0, 0, false, false⟩
    (modelRun (WalletModel.init false 0, quiet)
      [.walletChanged { quiet with unlockedBalance := 5 }, .pollBalanceChanged true true 0]).2 = [] := by
  decide

/-- A step emits at most one `numTransactionsChanged`, only with a count other than the
cached one, and caches the count it emits. -/
theorem modelStep_counts (state : WalletModel × WalletView) (event : ModelEvent) :
    ((modelStep state event).2.filterMap Signal.count? = [] ∧
        (modelStep state event).1.1.cachedNumTransactions = state.1.cachedNumTransactions) ∨
      ∃ count, count ≠ state.1.cachedNumTransactions ∧
        (modelStep state event).2.filterMap Signal.count? = [count] ∧
        (modelStep state event).1.1.cachedNumTransactions = count := by
  cases event with
  | pollBalanceChanged lockMain lockWallet nBestHeight =>
    simp only [modelStep, WalletModel.pollBalanceChanged]
    split_ifs <;> simp [WalletModel.checkBalanceChanged_counts]
  | updateTransaction =>
    simp only [modelStep, WalletModel.updateTransaction]
    split_ifs with differs
    · exact .inr ⟨_, by simpa using Ne.symm differs, by
        simp [List.filterMap_append, WalletModel.checkBalanceChanged_counts, Signal.count?], rfl⟩
    · exact .inl ⟨WalletModel.checkBalanceChanged_counts _ _, by simp⟩
  | updateWatchOnlyFlag => exact .inl ⟨rfl, rfl⟩
  | updateStatus =>
    simp only [modelStep, WalletModel.updateStatus]
    split_ifs
    · exact .inl ⟨rfl, rfl⟩
    · exact .inl ⟨rfl, rfl⟩
  | walletChanged => exact .inl ⟨rfl, rfl⟩

theorem modelRun_counts_chain (state : WalletModel × WalletView) (events : List ModelEvent) :
    List.Chain (· ≠ ·) state.1.cachedNumTransactions
      ((modelRun state events).2.filterMap Signal.count?) := by
  induction events generalizing state with
  | nil => exact .nil
  | cons event rest ih =>
    simp only [modelRun, List.filterMap_append]
    rcases modelStep_counts state event with ⟨none, same⟩ | ⟨count, differs, one, recorded⟩
    · rw [none, List.nil_append, ← same]
      exact ih _
    · rw [one, List.singleton_append]
      exact .cons (Ne.symm differs) (recorded ▸ ih _)

/-- Unlike `balanceChanged`, `numTransactionsChanged` never repeats itself: along any run
from the constructor each one carries a count other than the one before it, and the first
a count other than 0. -/
theorem modelRun_numTransactions_never_repeats (haveWatchOnly : Bool)
    (lockedBalanceAtStart : Int64) (wallet : WalletView) (events : List ModelEvent) :
    List.Chain (· ≠ ·) 0
      ((modelRun (WalletModel.init haveWatchOnly lockedBalanceAtStart, wallet) events).2.filterMap
        Signal.count?) :=
  modelRun_counts_chain (WalletModel.init haveWatchOnly lockedBalanceAtStart, wallet) events

end AveroWallet
