import AveroWallet.Narration

set_option autoImplicit false

/- `WalletModel::sendCoins` as a whole: validation, the balance pre-checks, the locked block
that builds, creates, confirms and commits the transaction, and the address-book updates.
A run records the calls it makes to the wallet and to the fee prompt, with what each
returned, so that statements can speak of their order. -/
namespace AveroWallet

/-- The external calls of `sendCoins` that read or change the wallet or ask the user. -/
inductive WalletCall
  | availableCoins
  | createTransaction (vecSend : List (CScript × Int64)) (fCreated : Bool) (nFeeRequired : Int64)
  | threadSafeAskFee (fee : Int64) (approved : Bool)
  | commitTransaction (wtx : CWalletTx) (committed : Bool)
  | updateStealthAddress (address label : String)
  | setAddressBookName (dest : CTxDestination) (label : String)
deriving DecidableEq

def WalletCall.isCommit : WalletCall → Bool
  | .commitTransaction .. => true
  | _ => false

def WalletCall.isAddressBook : WalletCall → Bool
  | .updateStealthAddress .. | .setAddressBookName .. => true
  | _ => false

/-- A run of `sendCoins`: the value it returns, the wallet after it, and its calls in order. -/
structure SendRun where
  result : SendCoinsReturn
  wallet : CWallet
  calls : List WalletCall

/-- Lines 244-249: `nBalance`, the `int64_t` sum of the values of the available coins. -/
def availableBalance (vCoins : List { out : COutput // out.InRange }) : Int64 :=
  (vCoins.map fun out => (out.1.tx.vout.get ⟨out.1.i, out.2⟩).nValue).foldl (· + ·) 0

/-- The body of the address-book loop (lines 446-464) for one recipient. -/
def labelSentAddress (env : SendEnv) (rcp : SendCoinsRecipient) (wallet : CWallet) :
    CWallet × List WalletCall :=
  let strAddress := rcp.address
  let dest := (env.codec.bitcoinAddress strAddress).Get
  let strLabel := rcp.label
  if rcp.typeInd = env.atStealth then
    (env.wallet.updateStealthAddress wallet strAddress strLabel,
      [.updateStealthAddress strAddress strLabel])
  else
    match wallet.mapAddressBook.lookup dest with
    | some label =>
      if label ≠ strLabel then
        (env.wallet.setAddressBookName wallet dest strLabel, [.setAddressBookName dest strLabel])
      else (wallet, [])
    | none =>
      (env.wallet.setAddressBookName wallet dest strLabel, [.setAddressBookName dest strLabel])

/-- Lines 443-466: add or relabel the address of every recipient. -/
def labelSentAddresses (env : SendEnv) :
    List SendCoinsRecipient → CWallet → CWallet × List WalletCall
  | [], wallet => (wallet, [])
  | rcp :: rest, wallet =>
    let (wallet, calls) := labelSentAddress env rcp wallet
    let (wallet, more) := labelSentAddresses env rest wallet
    (wallet, calls ++ more)

/-- Lines 263-441, under `LOCK2(cs_main, wallet->cs_wallet)`: build `vecSend`, create the
transaction with a change key reserved for it, write the narration keys, ask for the fee and
commit. The key still held when the block is left is returned to the pool. The result is the
transaction id, or `.error r` for an early `return r`. -/
def sendLocked (env : SendEnv) (recipients : List SendCoinsRecipient)
    (coinControl : Option CCoinControl) (total nBalance : Int64) (wallet : CWallet) :
    Except SendCoinsReturn String × CWallet × List WalletCall :=
  match buildVecSend env recipients ⟨[], [], 0⟩ with
  | .error status => (.error status, wallet, [])
  | .ok loop =>
    let created := env.wallet.createTransaction wallet loop.vecSend coinControl
    let reserved : CReserveKey × CWallet :=
      if created.reservesKey then CReserveKey.GetReservedKey ⟨none⟩ wallet else (⟨none⟩, wallet)
    let keyChange := reserved.1
    let wallet := reserved.2
    let createCall := WalletCall.createTransaction loop.vecSend created.fCreated created.nFeeRequired
    let wtx := { created.wtx with
      mapValue := (narrationWrites loop.mapStealthNarr created.nChangePos).foldl
        (fun mapValue entry => mapAssign mapValue entry.1 entry.2) created.wtx.mapValue }
    if !created.fCreated then
      let status : SendCoinsReturn :=
        if total + created.nFeeRequired > nBalance then
          ⟨.amountWithFeeExceedsBalance, created.nFeeRequired, ""⟩
        else StatusCode.transactionCreationFailed
      (.error status, keyChange.ReturnKey wallet, [createCall])
    else
      let approved := env.wallet.threadSafeAskFee created.nFeeRequired
      let askCall := WalletCall.threadSafeAskFee created.nFeeRequired approved
      if !approved then
        (.error StatusCode.aborted, keyChange.ReturnKey wallet, [createCall, askCall])
      else
        let commit := env.wallet.commitTransaction wallet wtx
        let keyChange := if commit.keepsKey then keyChange.KeepKey else keyChange
        let calls := [createCall, askCall, .commitTransaction wtx commit.committed]
        if !commit.committed then
          (.error StatusCode.transactionCommitFailed, keyChange.ReturnKey commit.wallet, calls)
        else (.ok (env.wallet.getHashHex wtx), keyChange.ReturnKey commit.wallet, calls)

/-- `WalletModel::sendCoins`. -/
def sendCoins (env : SendEnv) (recipients : List SendCoinsRecipient)
    (coinControl : Option CCoinControl) (wallet : CWallet) : SendRun :=
  match checkRecipients env.codec recipients with
  | .error status => ⟨status, wallet, []⟩
  | .ok total =>
    let nBalance := availableBalance (env.wallet.availableCoins wallet coinControl)
    if total > nBalance then ⟨StatusCode.amountExceedsBalance, wallet, [.availableCoins]⟩
    else if total + env.nTransactionFee > nBalance then
      ⟨⟨.amountWithFeeExceedsBalance, env.nTransactionFee, ""⟩, wallet, [.availableCoins]⟩
    else
      match sendLocked env recipients coinControl total nBalance wallet with
      | (.error status, wallet, calls) => ⟨status, wallet, .availableCoins :: calls⟩
      | (.ok hex, wallet, calls) =>
        let (wallet, bookCalls) := labelSentAddresses env recipients wallet
        ⟨⟨.ok, 0, hex⟩, wallet, .availableCoins :: calls ++ bookCalls⟩

/-- `sendCoins` gets as far as `CreateTransaction` with `vecSend`: the request passed the
validation phase and the output loop built `vecSend`. -/
def ReachesCreate (env : SendEnv) (recipients : List SendCoinsRecipient)
    (vecSend : List (CScript × Int64)) : Prop :=
  (∃ total, checkRecipients env.codec recipients = .ok total) ∧
    ∃ loop, buildVecSend env recipients ⟨[], [], 0⟩ = .ok loop ∧ loop.vecSend = vecSend

/-- The ways a run of `sendCoins` can end: the calls it made, in order, and the wallet it
leaves. -/
inductive SendPath (env : SendEnv) (recipients : List SendCoinsRecipient) (wallet : CWallet) :
    SendRun → Prop
  | validation (result : SendCoinsReturn)
      (notCommitFailed : result.status ≠ .transactionCommitFailed)
      (okOnlyEmpty : result.status = .ok → recipients = []) :
      SendPath env recipients wallet ⟨result, wallet, []⟩
  | beforeCreate (result : SendCoinsReturn) (notOk : result.status ≠ .ok)
      (notCommitFailed : result.status ≠ .transactionCommitFailed) :
      SendPath env recipients wallet ⟨result, wallet, [.availableCoins]⟩
  | notCreated (vecSend : List (CScript × Int64)) (fee : Int64) (result : SendCoinsReturn)
      (reaches : ReachesCreate env recipients vecSend)
      (notOk : result.status ≠ .ok) (notCommitFailed : result.status ≠ .transactionCommitFailed) :
      SendPath env recipients wallet
        ⟨result, wallet, [.availableCoins, .createTransaction vecSend false fee]⟩
  | declined (vecSend : List (CScript × Int64)) (fee : Int64)
      (reaches : ReachesCreate env recipients vecSend) :
      SendPath env recipients wallet ⟨StatusCode.aborted, wallet,
        [.availableCoins, .createTransaction vecSend true fee, .threadSafeAskFee fee false]⟩
  | commitFailed (vecSend : List (CScript × Int64)) (fee : Int64) (wtx : CWalletTx)
      (after : CWallet) (reaches : ReachesCreate env recipients vecSend) :
      SendPath env recipients wallet ⟨StatusCode.transactionCommitFailed, after,
        [.availableCoins, .createTransaction vecSend true fee, .threadSafeAskFee fee true,
          .commitTransaction wtx false]⟩
  | committed (vecSend : List (CScript × Int64)) (fee : Int64) (wtx : CWalletTx) (hex : String)
      (after : CWallet) (bookCalls : List WalletCall)
      (reaches : ReachesCreate env recipients vecSend)
      (book : ∀ call ∈ bookCalls, call.isAddressBook = true) :
      SendPath env recipients wallet ⟨⟨.ok, 0, hex⟩, after,
        [.availableCoins, .createTransaction vecSend true fee, .threadSafeAskFee fee true,
          .commitTransaction wtx true] ++ bookCalls⟩

theorem rejection_some {codec : AddressCodec} {rcp : SendCoinsRecipient} {status : StatusCode}
    (stops : rejection codec rcp = some status) :
    status = .invalidAddress ∨ status = .invalidAmount := by
  unfold rejection at stops
  split_ifs at stops <;> cases stops <;> simp

/-- The statuses the validation phase ends a request with. -/
theorem validationOutcome_some {codec : AddressCodec} {recipients : List SendCoinsRecipient}
    {status : StatusCode} (rejected : validationOutcome codec recipients = some status) :
    (status = .ok ∧ recipients = []) ∨ status = .invalidAddress ∨ status = .invalidAmount ∨
      status = .duplicateAddress := by
  unfold validationOutcome at rejected
  by_cases empty : recipients = []
  · simp only [empty, ↓reduceIte, Option.some.injEq] at rejected
    exact .inl ⟨rejected.symm, empty⟩
  · simp only [empty, ↓reduceIte] at rejected
    split at rejected
    · obtain ⟨rcp, -, stops⟩ := List.exists_of_findSome?_eq_some ‹_›
      cases rejected
      exact .inr ((rejection_some stops).imp_right .inl)
    · split_ifs at rejected
      cases rejected
      exact .inr (.inr (.inr rfl))

/-- The results the validation phase ends a request with. -/
theorem checkRecipients_error {codec : AddressCodec} {recipients : List SendCoinsRecipient}
    {result : SendCoinsReturn} (rejected : checkRecipients codec recipients = .error result) :
    (result.status = .ok ∧ recipients = []) ∨ result.status = .invalidAddress ∨
      result.status = .invalidAmount ∨ result.status = .duplicateAddress := by
  rw [checkRecipients_eq] at rejected
  split at rejected
  · cases rejected; exact validationOutcome_some ‹_›
  · cases rejected

theorem standardOutputs_error {codec : AddressCodec} {rcp : SendCoinsRecipient} {loop : SendLoop}
    {result : SendCoinsReturn} (failed : standardOutputs codec rcp loop = .error result) :
    result.status = .narrationTooLong := by
  simp only [standardOutputs] at failed
  split_ifs at failed
  cases failed
  rfl

theorem stealthOutputs_error {ops : StealthOps} {rcp : SendCoinsRecipient}
    {sxAddr : CStealthAddress} {loop : SendLoop} {result : SendCoinsReturn}
    (failed : stealthOutputs ops rcp sxAddr loop = .error result) :
    result.status = .aborted ∨ result.status = .narrationTooLong := by
  simp only [stealthOutputs] at failed
  split at failed
  · cases failed; exact .inl rfl
  · split_ifs at failed
    · cases failed; exact .inr rfl
    · split at failed
      · cases failed; exact .inl rfl
      · split_ifs at failed
        cases failed; exact .inl rfl

theorem addRecipientOutputs_error {env : SendEnv} {rcp : SendCoinsRecipient} {loop : SendLoop}
    {result : SendCoinsReturn} (failed : addRecipientOutputs env rcp loop = .error result) :
    result.status = .aborted ∨ result.status = .narrationTooLong := by
  unfold addRecipientOutputs at failed
  split_ifs at failed
  · split at failed
    · exact stealthOutputs_error failed
    · exact .inr (standardOutputs_error failed)
  · exact .inr (standardOutputs_error failed)

theorem buildVecSend_error {env : SendEnv} {recipients : List SendCoinsRecipient}
    {loop : SendLoop} {result : SendCoinsReturn}
    (failed : buildVecSend env recipients loop = .error result) :
    result.status = .aborted ∨ result.status = .narrationTooLong := by
  induction recipients generalizing loop with
  | nil => cases failed
  | cons rcp rest ih =>
    unfold buildVecSend at failed
    split at failed
    · cases failed; exact addRecipientOutputs_error ‹_›
    · exact ih failed

/-- `NarrationTooLong` is reported only for a narration longer than 24 bytes. -/
theorem stealthOutputs_tooLong {ops : StealthOps} {rcp : SendCoinsRecipient}
    {sxAddr : CStealthAddress} {loop : SendLoop} {result : SendCoinsReturn}
    (failed : stealthOutputs ops rcp sxAddr loop = .error result)
    (tooLong : result.status = .narrationTooLong) : 24 < rcp.narration.utf8ByteSize := by
  simp only [stealthOutputs] at failed
  split at failed
  · cases failed; cases tooLong
  · split_ifs at failed with narrated long
    · exact long
    · split at failed
      · cases failed; cases tooLong
      · split_ifs at failed
        cases failed; cases tooLong

theorem addRecipientOutputs_tooLong {env : SendEnv} {rcp : SendCoinsRecipient} {loop : SendLoop}
    {result : SendCoinsReturn} (failed : addRecipientOutputs env rcp loop = .error result)
    (tooLong : result.status = .narrationTooLong) : 24 < rcp.narration.utf8ByteSize := by
  have standard {loop : SendLoop} (failed : standardOutputs env.codec rcp loop = .error result) :
      24 < rcp.narration.utf8ByteSize := by
    simp only [standardOutputs] at failed
    split_ifs at failed with narrated long
    exact long
  unfold addRecipientOutputs at failed
  split_ifs at failed
  · split at failed
    · exact stealthOutputs_tooLong failed tooLong
    · exact standard failed
  · exact standard failed

theorem buildVecSend_tooLong {env : SendEnv} {recipients : List SendCoinsRecipient}
    {loop : SendLoop} {result : SendCoinsReturn}
    (failed : buildVecSend env recipients loop = .error result)
    (tooLong : result.status = .narrationTooLong) :
    ∃ rcp ∈ recipients, 24 < rcp.narration.utf8ByteSize := by
  induction recipients generalizing loop with
  | nil => cases failed
  | cons rcp rest ih =>
    unfold buildVecSend at failed
    split at failed
    · cases failed
      exact ⟨rcp, List.mem_cons_self _ _, addRecipientOutputs_tooLong ‹_› tooLong⟩
    · obtain ⟨other, mem, long⟩ := ih failed
      exact ⟨other, List.mem_cons_of_mem _ mem, long⟩

theorem labelSentAddress_calls (env : SendEnv) (rcp : SendCoinsRecipient) (wallet : CWallet) :
    ∀ call ∈ (labelSentAddress env rcp wallet).2, call.isAddressBook = true := by
  simp only [labelSentAddress]
  split_ifs
  · simp [WalletCall.isAddressBook]
  · split
    · split_ifs <;> simp [WalletCall.isAddressBook]
    · simp [WalletCall.isAddressBook]

theorem labelSentAddresses_calls (env : SendEnv) (recipients : List SendCoinsRecipient)
    (wallet : CWallet) : ∀ call ∈ (labelSentAddresses env recipients wallet).2,
      call.isAddressBook = true := by
  induction recipients generalizing wallet with
  | nil => simp [labelSentAddresses]
  | cons rcp rest ih =>
    intro call mem
    simp only [labelSentAddresses, List.mem_append] at mem
    rcases mem with mem | mem
    · exact labelSentAddress_calls env rcp wallet call mem
    · exact ih _ call mem

theorem ReturnKey_reserved (reserves : Bool) (wallet : CWallet) :
    (if reserves then CReserveKey.GetReservedKey ⟨none⟩ wallet else (⟨none⟩, wallet)).1.ReturnKey
      (if reserves then CReserveKey.GetReservedKey ⟨none⟩ wallet else (⟨none⟩, wallet)).2 =
        wallet := by
  cases reserves
  · rfl
  · exact CReserveKey.ReturnKey_GetReservedKey wallet

theorem ReachesCreate.short {env : SendEnv} {recipients : List SendCoinsRecipient}
    {vecSend : List (CScript × Int64)} (reaches : ReachesCreate env recipients vecSend) :
    ∀ rcp ∈ recipients, rcp.narration.utf8ByteSize ≤ 24 := by
  obtain ⟨-, loop, built, -⟩ := reaches
  obtain ⟨-, -, -, -, short⟩ := buildVecSend_ok (by simp) built
  exact short

theorem ne_nil_of_checkRecipients {codec : AddressCodec} {recipients : List SendCoinsRecipient}
    {total : Int64} (passes : checkRecipients codec recipients = .ok total) : recipients ≠ [] := by
  rintro rfl
  cases passes

/-- Every run of `sendCoins` ends in one of the ways `SendPath` lists. -/
theorem sendCoins_path (env : SendEnv) (recipients : List SendCoinsRecipient)
    (coinControl : Option CCoinControl) (wallet : CWallet) :
    SendPath env recipients wallet (sendCoins env recipients coinControl wallet) := by
  unfold sendCoins
  split
  · rename_i result rejected
    rcases checkRecipients_error rejected with ⟨ok, empty⟩ | status | status | status
    · exact .validation _ (by simp [ok]) fun _ => empty
    all_goals exact .validation _ (by simp [status]) fun ok => by simp [status] at ok
  · rename_i total passes
    dsimp only
    split_ifs
    · exact .beforeCreate _ (by simp) (by simp)
    · exact .beforeCreate _ (by simp) (by simp)
    · cases built : buildVecSend env recipients ⟨[], [], 0⟩ with
      | error result =>
        have failed := buildVecSend_error built
        simp only [sendLocked, built]
        exact .beforeCreate _ (by rcases failed with h | h <;> simp [h])
          (by rcases failed with h | h <;> simp [h])
      | ok loop =>
        have reaches : ReachesCreate env recipients loop.vecSend := ⟨⟨total, passes⟩, loop, built, rfl⟩
        simp only [sendLocked, built]
        generalize env.wallet.createTransaction wallet loop.vecSend coinControl = created
        cases fCreated : created.fCreated
        · simp only [Bool.not_false, ↓reduceIte, ReturnKey_reserved]
          exact .notCreated _ _ _ reaches (by split_ifs <;> simp) (by split_ifs <;> simp)
        · cases approved : env.wallet.threadSafeAskFee created.nFeeRequired
          · simp only [Bool.not_true, Bool.false_eq_true, ↓reduceIte, Bool.not_false,
              ReturnKey_reserved]
            exact .declined _ _ reaches
          · simp only [Bool.not_true, Bool.false_eq_true, ↓reduceIte]
            generalize env.wallet.commitTransaction _ _ = commit
            cases committed : commit.committed
            · exact .commitFailed _ _ _ _ reaches
            · exact .committed _ _ _ _ _ _ reaches (labelSentAddresses_calls env recipients _)

theorem not_isCommit_of_isAddressBook {call : WalletCall} (book : call.isAddressBook = true) :
    call.isCommit = false := by
  cases call <;> simp_all [WalletCall.isAddressBook, WalletCall.isCommit]

/-- `CommitTransaction` is called at most once, and only as the fourth call, right after a
successful `CreateTransaction` and an approval of its fee, with every narration within 24
bytes; the address book is touched only after a successful commit; and every result but
`TransactionCommitFailed` and `OK` with a transaction id leaves the wallet as it was. -/
theorem sendCoins_commit_discipline (env : SendEnv) (recipients : List SendCoinsRecipient)
    (coinControl : Option CCoinControl) (wallet : CWallet) :
    let run := sendCoins env recipients coinControl wallet
    run.calls.countP WalletCall.isCommit ≤ 1 ∧
    (∀ wtx committed, WalletCall.commitTransaction wtx committed ∈ run.calls →
      (∃ vecSend fee post, run.calls = [.availableCoins, .createTransaction vecSend true fee,
        .threadSafeAskFee fee true, .commitTransaction wtx committed] ++ post) ∧
      ∀ rcp ∈ recipients, rcp.narration.utf8ByteSize ≤ 24) ∧
    (∀ call ∈ run.calls, call.isAddressBook = true →
      ∃ wtx pre post, run.calls = pre ++ .commitTransaction wtx true :: post ∧ call ∈ post) ∧
    (run.result.status ≠ .transactionCommitFailed → (run.result.status = .ok → recipients = []) →
      run.wallet = wallet) := by
  have path := sendCoins_path env recipients coinControl wallet
  dsimp only
  generalize sendCoins env recipients coinControl wallet = run at path ⊢
  cases path with
  | validation result notCommitFailed okOnlyEmpty =>
    exact ⟨Nat.zero_le _, fun _ _ mem => absurd mem (List.not_mem_nil _),
      fun _ mem => absurd mem (List.not_mem_nil _), fun _ _ => rfl⟩
  | beforeCreate result notOk notCommitFailed =>
    refine ⟨Nat.zero_le _, fun _ _ mem => ?_, fun _ mem book => ?_, fun _ _ => rfl⟩
    · simp at mem
    · simp only [List.mem_singleton] at mem
      subst mem
      cases book
  | notCreated vecSend fee result notOk notCommitFailed =>
    refine ⟨Nat.zero_le _, fun _ _ mem => ?_, fun _ mem book => ?_, fun _ _ => rfl⟩
    · simp at mem
    · simp only [List.mem_cons, List.mem_singleton, List.not_mem_nil, or_false] at mem
      rcases mem with rfl | rfl <;> cases book
  | declined vecSend fee =>
    refine ⟨Nat.zero_le _, fun _ _ mem => ?_, fun _ mem book => ?_, fun _ _ => rfl⟩
    · simp at mem
    · simp only [List.mem_cons, List.mem_singleton, List.not_mem_nil, or_false] at mem
      rcases mem with rfl | rfl | rfl <;> cases book
  | commitFailed vecSend fee wtx after reaches =>
    refine ⟨le_refl _, fun wtx' committed mem => ⟨?_, reaches.short⟩, fun _ mem book => ?_,
      fun notFailed => absurd rfl notFailed⟩
    · simp only [List.mem_cons, List.mem_singleton, reduceCtorEq, false_or, List.not_mem_nil,
        or_false, WalletCall.commitTransaction.injEq] at mem
      obtain ⟨rfl, rfl⟩ := mem
      exact ⟨vecSend, fee, [], rfl⟩
    · simp only [List.mem_cons, List.mem_singleton, List.not_mem_nil, or_false] at mem
      rcases mem with rfl | rfl | rfl | rfl <;> cases book
  | committed vecSend fee wtx hex after bookCalls reaches book =>
    obtain ⟨total, passes⟩ := reaches.1
    have noCommit : bookCalls.countP WalletCall.isCommit = 0 :=
      List.countP_eq_zero.mpr fun call mem => by simp [not_isCommit_of_isAddressBook (book call mem)]
    refine ⟨by simp [List.countP_append, noCommit, WalletCall.isCommit], fun wtx' committed mem =>
      ⟨?_, reaches.short⟩, fun call mem isBook => ?_,
      fun _ okOnlyEmpty => absurd (okOnlyEmpty rfl) (ne_nil_of_checkRecipients passes)⟩
    · have single : wtx' = wtx ∧ committed = true := by
        simp only [List.cons_append, List.mem_cons, reduceCtorEq, false_or,
          WalletCall.commitTransaction.injEq] at mem
        rcases mem with same | mem
        · exact same
        · exact absurd (not_isCommit_of_isAddressBook (book _ mem)) (by simp [WalletCall.isCommit])
      obtain ⟨rfl, rfl⟩ := single
      exact ⟨vecSend, fee, bookCalls, rfl⟩
    · refine ⟨wtx, [.availableCoins, .createTransaction vecSend true fee, .threadSafeAskFee fee true],
        bookCalls, rfl, ?_⟩
      simp only [List.cons_append, List.mem_cons, List.singleton_append] at mem
      rcases mem with rfl | rfl | rfl | rfl | mem
      all_goals first | exact mem | cases isBook

theorem amount_pos_of_checkRecipients {codec : AddressCodec} {recipients : List SendCoinsRecipient}
    {total : Int64} (passes : checkRecipients codec recipients = .ok total) :
    ∀ rcp ∈ recipients, 0 < rcp.amount.val := by
  rw [checkRecipients_eq] at passes
  split at passes
  · cases passes
  · rename_i outcome
    have found : recipients.findSome? (rejection codec) = none := by
      unfold validationOutcome at outcome
      revert outcome
      split_ifs <;> cases recipients.findSome? (rejection codec) <;> simp
    intro rcp mem
    have kept := List.findSome?_eq_none_iff.mp found rcp mem
    unfold rejection at kept
    split_ifs at kept with address amount
    simp only [Int64.le_iff, Int64.val_zero, not_le] at amount
    exact amount

/-- The values of a sequence of recipient blocks: the positive ones are the amounts, in
recipient order, every other one is 0, and they add up to the exact sum of the amounts. -/
theorem flatten_values {env : SendEnv} {recipients : List SendCoinsRecipient}
    {blocks : List (List (CScript × Int64))}
    (layout : List.Forall₂ (RecipientBlock env) recipients blocks)
    (positive : ∀ rcp ∈ recipients, 0 < rcp.amount.val) :
    (blocks.flatten.map (·.2)).filter (fun value => 0 < value.val) = recipients.map (·.amount) ∧
      (∀ value ∈ blocks.flatten.map (·.2), 0 < value.val ∨ value.val = 0) ∧
      (blocks.flatten.map (·.2.val)).sum = (recipients.map (·.amount.val)).sum := by
  induction layout with
  | nil => simp
  | @cons rcp block rest blocks shape _ ih =>
    obtain ⟨filtered, signs, sums⟩ := ih fun other mem => positive other (List.mem_cons_of_mem _ mem)
    have head := positive rcp (List.mem_cons_self _ _)
    obtain ⟨zeros, values⟩ := shape.values_eq
    have blockVals : block.map (·.2.val) = rcp.amount.val :: List.replicate zeros 0 := by
      simpa using congrArg (List.map Int64.val) values
    refine ⟨?_, ?_, ?_⟩
    · simp only [List.flatten_cons, List.map_append, List.filter_append, values, filtered,
        List.map_cons]
      simp [List.filter_cons, head, List.filter_replicate]
    · simp only [List.flatten_cons, List.map_append, List.mem_append, values]
      rintro value (mem | mem)
      · simp only [List.mem_cons, List.mem_replicate] at mem
        rcases mem with rfl | ⟨-, rfl⟩
        · exact .inl head
        · exact .inr (by simp)
      · exact signs value mem
    · rw [List.flatten_cons, List.map_append, List.sum_append, blockVals, sums]
      simp

/-- Every `vecSend` that `sendCoins` hands to `CreateTransaction` is the recipients' blocks
in order; its positive values are the amounts, one per recipient in order, every other value
is 0, and the values add up to the exact sum of the amounts. -/
theorem sendCoins_vecSend_layout (env : SendEnv) (recipients : List SendCoinsRecipient)
    (coinControl : Option CCoinControl) (wallet : CWallet) (vecSend : List (CScript × Int64))
    (fCreated : Bool) (fee : Int64)
    (reaches : WalletCall.createTransaction vecSend fCreated fee ∈
      (sendCoins env recipients coinControl wallet).calls) :
    (∃ blocks, List.Forall₂ (RecipientBlock env) recipients blocks ∧ vecSend = blocks.flatten) ∧
      (vecSend.map (·.2)).filter (fun value => 0 < value.val) = recipients.map (·.amount) ∧
      (∀ value ∈ vecSend.map (·.2), 0 < value.val ∨ value.val = 0) ∧
      (vecSend.map (·.2.val)).sum = (recipients.map (·.amount.val)).sum := by
  have path := sendCoins_path env recipients coinControl wallet
  generalize sendCoins env recipients coinControl wallet = run at path reaches
  have created : ReachesCreate env recipients vecSend := by
    cases path with
    | validation => cases reaches
    | beforeCreate => simp at reaches
    | notCreated _ _ _ reached | declined _ _ reached | commitFailed _ _ _ _ reached =>
      simp only [List.mem_cons, WalletCall.createTransaction.injEq, reduceCtorEq,
        List.not_mem_nil, or_false, false_or] at reaches
      obtain ⟨rfl, -⟩ := reaches
      exact reached
    | committed _ _ _ _ _ bookCalls reached book =>
      simp only [List.cons_append, List.mem_cons, WalletCall.createTransaction.injEq,
        reduceCtorEq, false_or, List.singleton_append] at reaches
      rcases reaches with ⟨rfl, -⟩ | mem
      · exact reached
      · simpa [WalletCall.isAddressBook] using book _ mem
  obtain ⟨⟨total, passes⟩, loop, built, rfl⟩ := created
  obtain ⟨blocks, layout, vecSend, -, -⟩ := buildVecSend_ok (by simp) built
  simp only [List.nil_append] at vecSend
  rw [vecSend]
  exact ⟨⟨blocks, layout, rfl⟩, flatten_values layout (amount_pos_of_checkRecipients passes)⟩

/-- A narrated stealth recipient of 2 and a narrated standard recipient of 3 against the
balance 10: the request reaches `CreateTransaction` with the stealth block (the payment to
the one-time key, then the data carrier with the ephemeral key and the ciphertext) followed
by the standard block (the payment to the decoded address, then the narration output). -/
theorem sendCoins_vecSend_layout_sample :
    let recipients : List SendCoinsRecipient :=
      [⟨sampleStealthAddress, "", "hi", 2, 2⟩, ⟨"A", "", "hi", 1, 3⟩]
    let vecSend := [(setDestination (.keyID [4]), 2), (stealthDataScript [5] [6], 0)] ++
      (setDestination (.keyID [1]), 3) :: narrationOutputs "hi"
    WalletCall.createTransaction vecSend false 0 ∈
        (sendCoins sampleEnv recipients none emptyWallet).calls ∧
      (∃ blocks, List.Forall₂ (RecipientBlock sampleEnv) recipients blocks ∧
        vecSend = blocks.flatten) ∧
      (vecSend.map (·.2)).filter (fun value => 0 < value.val) = recipients.map (·.amount) ∧
      (∀ value ∈ vecSend.map (·.2), 0 < value.val ∨ value.val = 0) ∧
      (vecSend.map (·.2.val)).sum = (recipients.map (·.amount.val)).sum :=
  have reaches : WalletCall.createTransaction
      ([(setDestination (.keyID [4]), 2), (stealthDataScript [5] [6], 0)] ++
        (setDestination (.keyID [1]), 3) :: narrationOutputs "hi") false 0 ∈
      (sendCoins sampleEnv [⟨sampleStealthAddress, "", "hi", 2, 2⟩, ⟨"A", "", "hi", 1, 3⟩] none
        emptyWallet).calls := by decide
  ⟨reaches, sendCoins_vecSend_layout sampleEnv _ none emptyWallet _ false 0 reaches⟩

/-- The validation phase decides the request exactly as `validationOutcome` says, before
`AvailableCoins` is called and without touching the wallet; a request it lets through has
pairwise distinct addresses and goes on to `AvailableCoins`. -/
theorem sendCoins_validation (env : SendEnv) (recipients : List SendCoinsRecipient)
    (coinControl : Option CCoinControl) (wallet : CWallet) :
    (∀ status, validationOutcome env.codec recipients = some status →
      sendCoins env recipients coinControl wallet = ⟨↑status, wallet, []⟩) ∧
    (validationOutcome env.codec recipients = none →
      (recipients.map (·.address)).Nodup ∧
      (sendCoins env recipients coinControl wallet).calls.head? = some .availableCoins) := by
  refine ⟨fun status rejected => by simp only [sendCoins, checkRecipients_eq, rejected],
    fun passes => ⟨nodup_of_validationOutcome passes, ?_⟩⟩
  simp only [sendCoins, checkRecipients_eq, passes]
  split_ifs
  · rfl
  · rfl
  · split <;> rfl

end AveroWallet
