import AveroWallet.Balance

set_option autoImplicit false

/- How a run of `sendCoins` ends. The transaction it hands to `CommitTransaction` is the one
`CreateTransaction` returned, with the narration of every narrated stealth payment written
into its `mapValue` (lines 402-419) under the key of the payment's final output position; and
it gives up with `NarrationTooLong` only over a narration longer than 24 bytes. After a commit,
the address-book loop (lines 443-466) leaves each destination it writes with the label of the
last recipient written under it. -/
namespace AveroWallet

/-- Writing entries with distinct keys one after another: each written key maps to its
value, every other key keeps its old value. -/
theorem lookup_foldl_mapAssign {κ ν : Type} [LT κ] [DecidableRel (@LT.lt κ _)] [DecidableEq κ]
    (writes : List (κ × ν)) (distinct : (writes.map Prod.fst).Nodup) (entries : List (κ × ν))
    (key : κ) :
    (writes.foldl (fun entries entry => mapAssign entries entry.1 entry.2) entries).lookup key =
      (writes.lookup key).or (entries.lookup key) := by
  induction writes generalizing entries with
  | nil => rfl
  | cons entry rest ih =>
    obtain ⟨written, value⟩ := entry
    simp only [List.map_cons, List.nodup_cons] at distinct
    rw [List.foldl_cons, ih distinct.2, lookup_mapAssign, List.lookup_cons]
    by_cases same : key = written
    · subst same
      have fresh : rest.lookup key = none :=
        List.lookup_eq_none_iff.mpr fun entry mem => bne_iff_ne.mpr fun same =>
          distinct.1 (by rw [same]; exact List.mem_map_of_mem Prod.fst mem)
      simp [fresh]
    · simp [same, beq_false_of_ne same]

/-- In a list with distinct keys, the key of an entry looks up its value. -/
theorem lookup_of_mem {κ ν : Type} [DecidableEq κ] {entries : List (κ × ν)}
    (distinct : (entries.map Prod.fst).Nodup) {entry : κ × ν} (mem : entry ∈ entries) :
    entries.lookup entry.1 = some entry.2 := by
  induction entries with
  | nil => cases mem
  | cons first rest ih =>
    simp only [List.map_cons, List.nodup_cons] at distinct
    rw [List.lookup_cons]
    rcases List.mem_cons.mp mem with rfl | mem
    · simp
    · have other : entry.1 ≠ first.1 := fun same =>
        distinct.1 (same ▸ List.mem_map_of_mem Prod.fst mem)
      simp [beq_false_of_ne other, ih distinct.2 mem]

/-- The locked block commits the transaction `CreateTransaction` returned, with the
narrations written into its `mapValue`. -/
theorem sendLocked_commit {env : SendEnv} {recipients : List SendCoinsRecipient}
    {coinControl : Option CCoinControl} {total nBalance : Int64} {wallet : CWallet}
    {wtx : CWalletTx} {committed : Bool}
    (called : .commitTransaction wtx committed ∈
      (sendLocked env recipients coinControl total nBalance wallet).2.2) :
    ∃ loop, buildVecSend env recipients ⟨[], [], 0⟩ = .ok loop ∧
      let created := env.wallet.createTransaction wallet loop.vecSend coinControl
      wtx = { created.wtx with
        mapValue := (narrationWrites loop.mapStealthNarr created.nChangePos).foldl
          (fun mapValue entry => mapAssign mapValue entry.1 entry.2) created.wtx.mapValue } := by
  unfold sendLocked at called
  split at called
  · cases called
  · rename_i loop built
    refine ⟨loop, built, ?_⟩
    generalize env.wallet.createTransaction wallet loop.vecSend coinControl = created at called ⊢
    cases fCreated : created.fCreated <;>
      simp only [fCreated, Bool.not_false, Bool.not_true, Bool.false_eq_true, ↓reduceIte] at called
    · simp at called
    · cases approved : env.wallet.threadSafeAskFee created.nFeeRequired <;>
        simp only [approved, Bool.not_false, Bool.not_true, Bool.false_eq_true, ↓reduceIte] at called
      · simp at called
      · generalize env.wallet.commitTransaction _ _ = commit at called
        cases committedNow : commit.committed <;> simp [committedNow] at called <;> exact called.1

theorem sendCoins_commit {env : SendEnv} {recipients : List SendCoinsRecipient}
    {coinControl : Option CCoinControl} {wallet : CWallet} {wtx : CWalletTx} {committed : Bool}
    (called : .commitTransaction wtx committed ∈ (sendCoins env recipients coinControl wallet).calls) :
    ∃ loop, buildVecSend env recipients ⟨[], [], 0⟩ = .ok loop ∧
      let created := env.wallet.createTransaction wallet loop.vecSend coinControl
      wtx = { created.wtx with
        mapValue := (narrationWrites loop.mapStealthNarr created.nChangePos).foldl
          (fun mapValue entry => mapAssign mapValue entry.1 entry.2) created.wtx.mapValue } := by
  unfold sendCoins at called
  split at called
  · cases called
  · rename_i total passes
    dsimp only at called
    split_ifs at called
    · simp at called
    · simp at called
    · generalize locked : sendLocked env recipients coinControl total _ wallet = run at called
      obtain ⟨outcome, after, calls⟩ := run
      have inLocked : .commitTransaction wtx committed ∈ calls := by
        cases outcome with
        | error result => simpa using called
        | ok hex =>
          simp only [List.cons_append, List.mem_cons, reduceCtorEq, false_or,
            List.mem_append] at called
          rcases called with called | called
          · exact called
          · cases labelSentAddresses_calls env recipients after _ called
      exact sendLocked_commit (by rw [locked]; exact inLocked)

/-- The transaction `sendCoins` commits is the one `CreateTransaction` returned, with the
same inputs and outputs. In its `mapValue` the key of the final position of every narrated
stealth payment maps to that payment's narration, and every other key keeps the value
`CreateTransaction` gave it. -/
theorem sendCoins_commits_narrations (env : SendEnv) (recipients : List SendCoinsRecipient)
    (coinControl : Option CCoinControl) (wallet : CWallet) {wtx : CWalletTx} {committed : Bool}
    (called : .commitTransaction wtx committed ∈ (sendCoins env recipients coinControl wallet).calls) :
    ∃ loop, buildVecSend env recipients ⟨[], [], 0⟩ = .ok loop ∧
      let created := env.wallet.createTransaction wallet loop.vecSend coinControl
      wtx.vin = created.wtx.vin ∧ wtx.vout = created.wtx.vout ∧
      (∀ p ∈ paymentPositions env recipients 0, NarratedStealth env p.1 →
        wtx.mapValue.lookup (narrationKey (shiftForChange created.nChangePos p.2)) =
          some p.1.narration) ∧
      ∀ key, (∀ p ∈ paymentPositions env recipients 0, NarratedStealth env p.1 →
          key ≠ narrationKey (shiftForChange created.nChangePos p.2)) →
        wtx.mapValue.lookup key = created.wtx.mapValue.lookup key := by
  obtain ⟨loop, built, rfl⟩ := sendCoins_commit called
  refine ⟨loop, built, ?_⟩
  dsimp only
  generalize env.wallet.createTransaction wallet loop.vecSend coinControl = created
  have distinct := narrationKeys_nodup env recipients created.nChangePos
  rw [← narrationWrites_of_built built] at distinct
  refine ⟨rfl, rfl, fun p mem narrated => ?_, fun key other => ?_⟩
  · rw [lookup_foldl_mapAssign _ distinct]
    rw [narrationWrites_of_built built] at distinct ⊢
    rw [lookup_of_mem distinct
      (List.mem_map_of_mem _ (List.mem_filter.mpr ⟨mem, by simpa using narrated⟩))]
    rfl
  · rw [lookup_foldl_mapAssign _ distinct, narrationWrites_of_built built]
    have absent : (((paymentPositions env recipients 0).filter (fun p => NarratedStealth env p.1)).map
        (fun p => (narrationKey (shiftForChange created.nChangePos p.2), p.1.narration))).lookup key =
          none := by
      refine List.lookup_eq_none_iff.mpr fun entry mem => bne_iff_ne.mpr ?_
      obtain ⟨p, kept, rfl⟩ := List.mem_map.mp mem
      obtain ⟨listed, narrated⟩ := List.mem_filter.mp kept
      exact other p listed (by simpa using narrated)
    rw [absent]
    rfl

/-- `sampleEnv` with a `CreateTransaction` that succeeds with no fee, puts the change output
at index 1 and returns a transaction with no metadata. -/
def creatingEnv : SendEnv :=
  { sampleEnv with
    wallet := { sampleEnv.wallet with
      createTransaction := fun _ _ _ => ⟨true, ⟨[], [], []⟩, 0, 1, false⟩ } }

/-- A narrated stealth payment of 5 is output 0, before the change output at 1: the committed
transaction carries its narration under `n_0`. -/
theorem sendCoins_commits_narrations_sample :
    ∃ wtx, WalletCall.commitTransaction wtx true ∈
        (sendCoins creatingEnv [⟨sampleStealthAddress, "", "hi", 2, 5⟩] none emptyWallet).calls ∧
      wtx.mapValue.lookup (narrationKey 0) = some "hi" := by
  have called : WalletCall.commitTransaction ⟨[], [], [("n_0", "hi")]⟩ true ∈
      (sendCoins creatingEnv [⟨sampleStealthAddress, "", "hi", 2, 5⟩] none emptyWallet).calls := by
    decide
  obtain ⟨loop, -, -, -, named, -⟩ :=
    sendCoins_commits_narrations creatingEnv _ none emptyWallet called
  exact ⟨_, called, named (⟨sampleStealthAddress, "", "hi", 2, 5⟩, 0) (by decide) (by decide)⟩

/-- `sendCoins` ends with `NarrationTooLong` only when some recipient's narration is longer
than 24 bytes. -/
theorem sendCoins_narrationTooLong (env : SendEnv) (recipients : List SendCoinsRecipient)
    (coinControl : Option CCoinControl) (wallet : CWallet)
    (tooLong : (sendCoins env recipients coinControl wallet).result.status = .narrationTooLong) :
    ∃ rcp ∈ recipients, 24 < rcp.narration.utf8ByteSize := by
  unfold sendCoins at tooLong
  split at tooLong
  · rcases checkRecipients_error ‹_› with ⟨status, -⟩ | status | status | status <;>
      simp [status] at tooLong
  · rename_i total passes
    dsimp only at tooLong
    split_ifs at tooLong
    have cases := sendLocked_cases env recipients coinControl total
      (availableBalance (env.wallet.availableCoins wallet coinControl)) wallet
    generalize sendLocked env recipients coinControl total _ wallet = locked at cases tooLong
    obtain ⟨outcome, after, calls⟩ := locked
    rcases cases with ⟨result, built, same⟩ | ⟨vecSend, fee, -, ended⟩ | ⟨-, statuses⟩
    · cases same
      exact buildVecSend_tooLong built tooLong
    · cases ended
      split_ifs at tooLong
    · cases outcome with
      | error result => rcases statuses result rfl with status | status <;> simp [status] at tooLong
      | ok hex => cases tooLong

theorem sendCoins_narrationTooLong_sample :
    (sendCoins sampleEnv [⟨"A", "", "aaaaaaaaaaaaaaaaaaaaaaaaa", 1, 5⟩] none emptyWallet).result.status =
        .narrationTooLong ∧
      ∃ rcp ∈ [(⟨"A", "", "aaaaaaaaaaaaaaaaaaaaaaaaa", 1, 5⟩ : SendCoinsRecipient)],
        24 < rcp.narration.utf8ByteSize :=
  have tooLong : (sendCoins sampleEnv [⟨"A", "", "aaaaaaaaaaaaaaaaaaaaaaaaa", 1, 5⟩] none
      emptyWallet).result.status = .narrationTooLong := by decide
  ⟨tooLong, sendCoins_narrationTooLong sampleEnv _ none emptyWallet tooLong⟩

/-! ## The address book after a send -/

/-- The laws of the wallet's address-book writes that the loop of lines 443-466 relies on:
`SetAddressBookName` maps the destination to the label and leaves every other
destination's label, and `UpdateStealthAddress` leaves `mapAddressBook` as it is. -/
structure AddressBookLaws (ops : WalletOps) : Prop where
  setAddressBookName_lookup : ∀ wallet dest label key,
    (ops.setAddressBookName wallet dest label).mapAddressBook.lookup key =
      if key = dest then some label else wallet.mapAddressBook.lookup key
  updateStealthAddress_book : ∀ wallet address label,
    (ops.updateStealthAddress wallet address label).mapAddressBook = wallet.mapAddressBook

/-- The loop writes the recipient's label under `dest`: the recipient is not typed as a
stealth address, and its address parses to `dest`. -/
def LabelsDestination (env : SendEnv) (dest : CTxDestination) (rcp : SendCoinsRecipient) :
    Prop :=
  rcp.typeInd ≠ env.atStealth ∧ dest = (env.codec.bitcoinAddress rcp.address).Get

instance (env : SendEnv) (dest : CTxDestination) (rcp : SendCoinsRecipient) :
    Decidable (LabelsDestination env dest rcp) :=
  inferInstanceAs (Decidable (_ ∧ _))

/-- The label of the last recipient whose label the loop writes under `dest`. -/
def lastLabel (env : SendEnv) (recipients : List SendCoinsRecipient) (dest : CTxDestination) :
    Option String :=
  ((recipients.filter fun rcp => decide (LabelsDestination env dest rcp)).getLast?).map (·.label)

theorem lastLabel_cons (env : SendEnv) (rcp : SendCoinsRecipient)
    (rest : List SendCoinsRecipient) (dest : CTxDestination) :
    lastLabel env (rcp :: rest) dest =
      (lastLabel env rest dest).or
        (if LabelsDestination env dest rcp then some rcp.label else none) := by
  unfold lastLabel
  by_cases labels : LabelsDestination env dest rcp
  · rw [List.filter_cons, if_pos (decide_eq_true labels), List.getLast?_cons, if_pos labels]
    cases (rest.filter fun rcp => decide (LabelsDestination env dest rcp)).getLast? <;> rfl
  · simp [List.filter_cons, labels, Option.or_none]

/-- One pass of the loop leaves the recipient's label under the destination it writes, and
every other label as it was, whether or not it skips the write. -/
theorem labelSentAddress_lookup {env : SendEnv} (laws : AddressBookLaws env.wallet)
    (rcp : SendCoinsRecipient) (wallet : CWallet) (dest : CTxDestination) :
    (labelSentAddress env rcp wallet).1.mapAddressBook.lookup dest =
      (if LabelsDestination env dest rcp then some rcp.label else none).or
        (wallet.mapAddressBook.lookup dest) := by
  unfold labelSentAddress LabelsDestination
  by_cases stealth : rcp.typeInd = env.atStealth
  · simp [stealth, laws.updateStealthAddress_book]
  · simp only [stealth, ↓reduceIte, ne_eq, not_false_eq_true, true_and]
    split
    · rename_i label found
      split_ifs with differs written <;>
        simp_all [laws.setAddressBookName_lookup]
    · rw [laws.setAddressBookName_lookup]
      split_ifs <;> rfl

theorem labelSentAddresses_lookup {env : SendEnv} (laws : AddressBookLaws env.wallet)
    (recipients : List SendCoinsRecipient) (wallet : CWallet) (dest : CTxDestination) :
    (labelSentAddresses env recipients wallet).1.mapAddressBook.lookup dest =
      (lastLabel env recipients dest).or (wallet.mapAddressBook.lookup dest) := by
  induction recipients generalizing wallet with
  | nil => rfl
  | cons rcp rest ih =>
    simp only [labelSentAddresses]
    rw [ih, labelSentAddress_lookup laws, lastLabel_cons, Option.or_assoc]

/-- After a send that commits, the address book holds, for every destination, the label of
the last recipient not typed as a stealth address whose address parses to it, and every
other destination keeps the label it had once the transaction was committed: the test
`mi->second != strLabel` of line 459 only saves a write and never leaves a stale label. -/
theorem sendCoins_labels_recipients (env : SendEnv) (laws : AddressBookLaws env.wallet)
    (recipients : List SendCoinsRecipient) (coinControl : Option CCoinControl) (wallet : CWallet)
    (sent : (sendCoins env recipients coinControl wallet).result.status = .ok)
    (nonempty : recipients ≠ []) :
    ∃ total nBalance hex committed calls,
      sendLocked env recipients coinControl total nBalance wallet = (.ok hex, committed, calls) ∧
      ∀ dest, (sendCoins env recipients coinControl wallet).wallet.mapAddressBook.lookup dest =
        (lastLabel env recipients dest).or (committed.mapAddressBook.lookup dest) := by
  unfold sendCoins at sent ⊢
  rcases checked : checkRecipients env.codec recipients with status | total
  · simp only [checked] at sent
    rcases checkRecipients_error checked with ⟨-, empty⟩ | status | status | status
    · exact absurd empty nonempty
    all_goals cases sent.symm.trans status
  · simp only [checked] at sent ⊢
    split_ifs at sent ⊢
    have cases := sendLocked_cases env recipients coinControl total
      (availableBalance (env.wallet.availableCoins wallet coinControl)) wallet
    generalize locked : sendLocked env recipients coinControl total
      (availableBalance (env.wallet.availableCoins wallet coinControl)) wallet = run at cases sent ⊢
    obtain ⟨outcome, committed, calls⟩ := run
    cases outcome with
    | error result =>
      rcases cases with ⟨_, built, same⟩ | ⟨vecSend, fee, -, ended⟩ | ⟨-, statuses⟩
      · cases same
        rcases buildVecSend_error built with status | status <;> simp [status] at sent
      · cases ended
        split_ifs at sent
      · rcases statuses result rfl with status | status <;> simp [status] at sent
    | ok hex =>
      exact ⟨total, _, hex, committed, calls, locked,
        labelSentAddresses_lookup laws recipients committed⟩

/-- `creatingEnv` with a `SetAddressBookName` that records the label in front of the
address book. -/
def bookEnv : SendEnv :=
  { creatingEnv with
    wallet := { creatingEnv.wallet with
      setAddressBookName := fun wallet dest label =>
        { wallet with mapAddressBook := (dest, label) :: wallet.mapAddressBook } } }

theorem bookEnv_laws : AddressBookLaws bookEnv.wallet where
  setAddressBookName_lookup wallet dest label key := by
    by_cases same : key = dest <;> simp [bookEnv, List.lookup_cons, same, beq_false_of_ne]
  updateStealthAddress_book _ _ _ := rfl

/-- A send of 2 to `A`, whose label `alice` is already stored, and of 3 to `B` labelled
`bob`: the label of `A` is not written again, that of `B` is, and the book holds both. -/
theorem sendCoins_labels_recipients_sample :
    let labelled : CWallet := { emptyWallet with mapAddressBook := [(.keyID [1], "alice")] }
    let recipients : List SendCoinsRecipient := [⟨"A", "alice", "", 1, 2⟩, ⟨"B", "bob", "", 1, 3⟩]
    (sendCoins bookEnv recipients none labelled).calls.filter WalletCall.isAddressBook =
        [.setAddressBookName (.keyID [2]) "bob"] ∧
      (sendCoins bookEnv recipients none labelled).result.status = .ok ∧
      ∃ total nBalance hex committed calls,
        sendLocked bookEnv recipients none total nBalance labelled = (.ok hex, committed, calls) ∧
        ∀ dest, (sendCoins bookEnv recipients none labelled).wallet.mapAddressBook.lookup dest =
          (lastLabel bookEnv recipients dest).or (committed.mapAddressBook.lookup dest) :=
  have written : (sendCoins bookEnv [⟨"A", "alice", "", 1, 2⟩, ⟨"B", "bob", "", 1, 3⟩] none
      { emptyWallet with mapAddressBook := [(.keyID [1], "alice")] }).calls.filter
        WalletCall.isAddressBook = [.setAddressBookName (.keyID [2]) "bob"] := by decide
  have sent : (sendCoins bookEnv [⟨"A", "alice", "", 1, 2⟩, ⟨"B", "bob", "", 1, 3⟩] none
      { emptyWallet with mapAddressBook := [(.keyID [1], "alice")] }).result.status = .ok := by
    decide
  ⟨written, sent, sendCoins_labels_recipients bookEnv bookEnv_laws _ none _ sent
    (List.cons_ne_nil _ _)⟩

/-! ## Why a send is aborted -/

/-- The `GenerateRandomSecret` calls the output loop makes before it reaches recipient
`i`: one for each stealth recipient before it. -/
def drawsBefore (env : SendEnv) (recipients : List SendCoinsRecipient) (i : Nat) : Nat :=
  ((recipients.take i).filter fun rcp => decide (StealthBranch env rcp)).length

theorem drawsBefore_succ (env : SendEnv) (rcp : SendCoinsRecipient)
    (rest : List SendCoinsRecipient) (i : Nat) :
    drawsBefore env (rcp :: rest) (i + 1) =
      (if StealthBranch env rcp then 1 else 0) + drawsBefore env rest i := by
  by_cases branch : StealthBranch env rcp <;>
    simp [drawsBefore, List.filter_cons, branch, Nat.add_comm]

/-- How the output loop gives up on a stealth recipient whose address decoded to `sxAddr`,
at random draw `draw`: no ephemeral or one-time key can be derived, or its narration does
not encrypt into at most 48 bytes. -/
def StealthAborts (ops : StealthOps) (rcp : SendCoinsRecipient) (sxAddr : CStealthAddress)
    (draw : Nat) : Prop :=
  stealthKeys ops sxAddr draw = none ∨
    ∃ keys, stealthKeys ops sxAddr draw = some keys ∧ rcp.narration ≠ "" ∧
      rcp.narration.utf8ByteSize ≤ 24 ∧
      ∀ cipher, ops.encrypt keys.secretShared keys.ephemPubkey rcp.narration = some cipher →
        48 < cipher.length

theorem stealthOutputs_randomDraws {ops : StealthOps} {rcp : SendCoinsRecipient}
    {sxAddr : CStealthAddress} {loop loop' : SendLoop}
    (ok : stealthOutputs ops rcp sxAddr loop = .ok loop') :
    loop'.randomDraws = loop.randomDraws + 1 := by
  simp only [stealthOutputs] at ok
  split at ok
  · cases ok
  · split_ifs at ok
    · split at ok
      · cases ok
      · split_ifs at ok <;> cases ok <;> rfl
    · cases ok
      rfl

theorem stealthOutputs_aborted {ops : StealthOps} {rcp : SendCoinsRecipient}
    {sxAddr : CStealthAddress} {loop : SendLoop} {result : SendCoinsReturn}
    (failed : stealthOutputs ops rcp sxAddr loop = .error result)
    (aborted : result.status = .aborted) :
    StealthAborts ops rcp sxAddr loop.randomDraws := by
  simp only [stealthOutputs] at failed
  split at failed
  · exact .inl ‹_›
  · rename_i keys derived
    split_ifs at failed with narrated long
    · cases failed
      cases aborted
    · refine .inr ⟨keys, derived, (length_pos_iff_ne_empty _).mp narrated, by omega, ?_⟩
      intro cipher encrypted
      rw [encrypted] at failed
      dsimp only at failed
      split_ifs at failed with tooLong
      exact tooLong

/-- One pass of the loop draws once for a stealth recipient and never for another. -/
theorem addRecipientOutputs_randomDraws {env : SendEnv} {rcp : SendCoinsRecipient}
    {loop loop' : SendLoop} (ok : addRecipientOutputs env rcp loop = .ok loop') :
    loop'.randomDraws = loop.randomDraws + if StealthBranch env rcp then 1 else 0 := by
  have standard (fallsThrough : ¬ StealthBranch env rcp)
      (ok : standardOutputs env.codec rcp loop = .ok loop') :
      loop'.randomDraws = loop.randomDraws + if StealthBranch env rcp then 1 else 0 := by
    rw [if_neg fallsThrough, (standardOutputs_ok ok).1]
    rfl
  unfold addRecipientOutputs at ok
  split_ifs at ok with typed
  · split at ok
    · rename_i sxAddr decoded
      rw [if_pos ⟨typed, by simp [decoded]⟩]
      exact stealthOutputs_randomDraws ok
    · exact standard (fun branch => by simp_all [StealthBranch]) ok
  · exact standard (fun branch => typed branch.1) ok

theorem addRecipientOutputs_aborted {env : SendEnv} {rcp : SendCoinsRecipient} {loop : SendLoop}
    {result : SendCoinsReturn} (failed : addRecipientOutputs env rcp loop = .error result)
    (aborted : result.status = .aborted) :
    ∃ sxAddr, rcp.typeInd = env.atStealth ∧ env.codec.setEncoded rcp.address = some sxAddr ∧
      StealthAborts env.stealth rcp sxAddr loop.randomDraws := by
  unfold addRecipientOutputs at failed
  split_ifs at failed with typed
  · split at failed
    · exact ⟨_, typed, ‹_›, stealthOutputs_aborted failed aborted⟩
    · cases aborted.symm.trans (standardOutputs_error failed)
  · cases aborted.symm.trans (standardOutputs_error failed)

/-- The output loop aborts at a stealth recipient, at the draw it reached that recipient with. -/
theorem buildVecSend_aborted {env : SendEnv} {recipients : List SendCoinsRecipient}
    {loop : SendLoop} {result : SendCoinsReturn}
    (failed : buildVecSend env recipients loop = .error result)
    (aborted : result.status = .aborted) :
    ∃ i rcp sxAddr, recipients[i]? = some rcp ∧ rcp.typeInd = env.atStealth ∧
      env.codec.setEncoded rcp.address = some sxAddr ∧
      StealthAborts env.stealth rcp sxAddr (loop.randomDraws + drawsBefore env recipients i) := by
  induction recipients generalizing loop with
  | nil => cases failed
  | cons rcp rest ih =>
    unfold buildVecSend at failed
    split at failed
    · cases failed
      obtain ⟨sxAddr, typed, decoded, aborts⟩ := addRecipientOutputs_aborted ‹_› aborted
      exact ⟨0, rcp, sxAddr, by simp, typed, decoded, by simpa [drawsBefore] using aborts⟩
    · rename_i loop₁ step
      obtain ⟨i, other, sxAddr, found, typed, decoded, aborts⟩ := ih failed
      have draws : loop.randomDraws + drawsBefore env (rcp :: rest) (i + 1) =
          loop₁.randomDraws + drawsBefore env rest i := by
        rw [addRecipientOutputs_randomDraws step, drawsBefore_succ]
        omega
      exact ⟨i + 1, other, sxAddr, by simpa using found, typed, decoded, draws ▸ aborts⟩

/-- The locked block ends with `Aborted` only when the output loop aborts, before any call,
or when the user declines the fee of a created transaction. -/
theorem sendLocked_aborted {env : SendEnv} {recipients : List SendCoinsRecipient}
    {coinControl : Option CCoinControl} {total nBalance : Int64} {wallet after : CWallet}
    {result : SendCoinsReturn} {calls : List WalletCall}
    (ended : sendLocked env recipients coinControl total nBalance wallet =
      (.error result, after, calls))
    (aborted : result.status = .aborted) :
    (buildVecSend env recipients ⟨[], [], 0⟩ = .error result ∧ calls = []) ∨
      ∃ vecSend fee, calls = [.createTransaction vecSend true fee, .threadSafeAskFee fee false] := by
  unfold sendLocked at ended
  split at ended
  · cases ended
    exact .inl ⟨‹_›, rfl⟩
  · rename_i loop _
    generalize env.wallet.createTransaction wallet loop.vecSend coinControl = created at ended
    cases fCreated : created.fCreated
    · simp only [fCreated, Bool.not_false, ↓reduceIte, Prod.mk.injEq, Except.error.injEq] at ended
      obtain ⟨rfl, -, -⟩ := ended
      split_ifs at aborted
    · cases approved : env.wallet.threadSafeAskFee created.nFeeRequired
      · simp only [fCreated, approved, Bool.not_true, Bool.false_eq_true, ↓reduceIte, Bool.not_false,
          Prod.mk.injEq] at ended
        exact .inr ⟨_, _, ended.2.2.symm⟩
      · simp only [fCreated, approved, Bool.not_true, Bool.false_eq_true, ↓reduceIte] at ended
        generalize env.wallet.commitTransaction _ _ = commit at ended
        cases committed : commit.committed <;> simp [committed] at ended
        obtain ⟨rfl, -, -⟩ := ended
        cases aborted

/-- `sendCoins` returns `Aborted` only in two ways: the user declines the fee of a created
transaction, or the output loop gives up, before any call to the wallet but
`AvailableCoins`, on a stealth recipient whose keys cannot be derived from the random
draw it was reached with (one per stealth recipient before it) or whose narration does not
encrypt into at most 48 bytes. -/
theorem sendCoins_aborted (env : SendEnv) (recipients : List SendCoinsRecipient)
    (coinControl : Option CCoinControl) (wallet : CWallet)
    (aborted : (sendCoins env recipients coinControl wallet).result.status = .aborted) :
    (∃ vecSend fee, (sendCoins env recipients coinControl wallet).calls =
      [.availableCoins, .createTransaction vecSend true fee, .threadSafeAskFee fee false]) ∨
    ((sendCoins env recipients coinControl wallet).calls = [.availableCoins] ∧
      ∃ i rcp sxAddr, recipients[i]? = some rcp ∧ rcp.typeInd = env.atStealth ∧
        env.codec.setEncoded rcp.address = some sxAddr ∧
        StealthAborts env.stealth rcp sxAddr (drawsBefore env recipients i)) := by
  unfold sendCoins at aborted ⊢
  rcases checked : checkRecipients env.codec recipients with status | total
  · simp only [checked] at aborted
    rcases checkRecipients_error checked with ⟨status, -⟩ | status | status | status <;>
      cases aborted.symm.trans status
  · simp only [checked] at aborted ⊢
    split_ifs at aborted ⊢
    generalize locked : sendLocked env recipients coinControl total
      (availableBalance (env.wallet.availableCoins wallet coinControl)) wallet = run at aborted ⊢
    obtain ⟨outcome, after, calls⟩ := run
    cases outcome with
    | error result =>
      rcases sendLocked_aborted locked aborted with ⟨built, rfl⟩ | ⟨vecSend, fee, rfl⟩
      · exact .inr ⟨rfl, by simpa using buildVecSend_aborted built aborted⟩
      · exact .inl ⟨vecSend, fee, rfl⟩
    | ok hex => cases aborted

/-- With a generator that fails, the one stealth recipient is given up on at draw 0. -/
theorem sendCoins_aborted_sample :
    let env : SendEnv :=
      { sampleEnv with stealth := { sampleEnv.stealth with generateRandomSecret := fun _ => none } }
    let recipients : List SendCoinsRecipient := [⟨sampleStealthAddress, "", "", 2, 5⟩]
    (sendCoins env recipients none emptyWallet).result.status = .aborted ∧
      ((∃ vecSend fee, (sendCoins env recipients none emptyWallet).calls =
          [.availableCoins, .createTransaction vecSend true fee, .threadSafeAskFee fee false]) ∨
        ((sendCoins env recipients none emptyWallet).calls = [.availableCoins] ∧
          ∃ i rcp sxAddr, recipients[i]? = some rcp ∧ rcp.typeInd = env.atStealth ∧
            env.codec.setEncoded rcp.address = some sxAddr ∧
            StealthAborts env.stealth rcp sxAddr (drawsBefore env recipients i))) := by
  intro env recipients
  have aborted : (sendCoins env recipients none emptyWallet).result.status = .aborted := by
    decide
  exact ⟨aborted, sendCoins_aborted env recipients none emptyWallet aborted⟩

/-! ## One random draw per stealth payment -/

/-- The output loop only appends to `vecSend`. -/
theorem buildVecSend_extends {env : SendEnv} {recipients : List SendCoinsRecipient}
    {loop loop' : SendLoop} (built : buildVecSend env recipients loop = .ok loop') :
    ∃ added, loop'.vecSend = loop.vecSend ++ added := by
  induction recipients generalizing loop with
  | nil =>
    cases built
    exact ⟨[], by simp⟩
  | cons rcp rest ih =>
    unfold buildVecSend at built
    split at built
    · cases built
    · rename_i loop₁ step
      obtain ⟨block, -, grown, -⟩ := addRecipientOutputs_ok step
      obtain ⟨added, more⟩ := ih built
      exact ⟨block ++ added, by rw [more, grown, List.append_assoc]⟩

/-- A stealth recipient's block: the payment to the one-time key of the draw the loop has
reached, then the data carrier publishing that draw's ephemeral key. -/
theorem addRecipientOutputs_stealth {env : SendEnv} {rcp : SendCoinsRecipient}
    {loop loop' : SendLoop} (ok : addRecipientOutputs env rcp loop = .ok loop')
    (branch : StealthBranch env rcp) :
    ∃ sxAddr keys cipher, env.codec.setEncoded rcp.address = some sxAddr ∧
      stealthKeys env.stealth sxAddr loop.randomDraws = some keys ∧
      loop'.vecSend = loop.vecSend ++ [(setDestination (.keyID keys.keyID), rcp.amount),
        (stealthDataScript keys.ephemPubkey cipher, 0)] := by
  obtain ⟨typed, decodes⟩ := branch
  obtain ⟨sxAddr, decoded⟩ := Option.isSome_iff_exists.mp decodes
  unfold addRecipientOutputs at ok
  rw [if_pos typed, decoded] at ok
  obtain ⟨keys, cipher, derived, -, vecSend, -⟩ := stealthOutputs_ok ok
  exact ⟨sxAddr, keys, cipher, decoded, derived, vecSend⟩

theorem buildVecSend_draws {env : SendEnv} {recipients : List SendCoinsRecipient}
    {loop loop' : SendLoop} (built : buildVecSend env recipients loop = .ok loop') :
    ∀ i rcp pos, (paymentPositions env recipients loop.vecSend.length)[i]? = some (rcp, pos) →
      StealthBranch env rcp →
      ∃ sxAddr keys cipher, env.codec.setEncoded rcp.address = some sxAddr ∧
        stealthKeys env.stealth sxAddr (loop.randomDraws + drawsBefore env recipients i) =
          some keys ∧
        loop'.vecSend[pos]? = some (setDestination (.keyID keys.keyID), rcp.amount) ∧
        loop'.vecSend[pos + 1]? = some (stealthDataScript keys.ephemPubkey cipher, 0) := by
  induction recipients generalizing loop with
  | nil => simp [paymentPositions]
  | cons first rest ih =>
    unfold buildVecSend at built
    split at built
    · cases built
    · rename_i loop₁ step
      obtain ⟨block, shape, grown, -⟩ := addRecipientOutputs_ok step
      intro i rcp pos found branch
      cases i with
      | zero =>
        simp only [paymentPositions, List.getElem?_cons_zero, Option.some.injEq,
          Prod.mk.injEq] at found
        obtain ⟨rfl, rfl⟩ := found
        obtain ⟨sxAddr, keys, cipher, decoded, derived, appended⟩ :=
          addRecipientOutputs_stealth step branch
        obtain ⟨added, more⟩ := buildVecSend_extends built
        rw [more, appended, List.append_assoc]
        refine ⟨sxAddr, keys, cipher, decoded, by simpa [drawsBefore] using derived, ?_, ?_⟩
        · rw [List.getElem?_append_right (le_refl _), Nat.sub_self]
          rfl
        · rw [List.getElem?_append_right (Nat.le_add_right _ 1), Nat.add_sub_cancel_left]
          simp
      | succ i =>
        have lengths : loop₁.vecSend.length = loop.vecSend.length + blockLength env first := by
          rw [grown, List.length_append, shape.length_eq]
        simp only [paymentPositions, List.getElem?_cons_succ, ← lengths] at found
        obtain ⟨sxAddr, keys, cipher, decoded, derived, payment, data⟩ :=
          ih built i rcp pos found branch
        have draws : loop.randomDraws + drawsBefore env (first :: rest) (i + 1) =
            loop₁.randomDraws + drawsBefore env rest i := by
          rw [addRecipientOutputs_randomDraws step, drawsBefore_succ]
          omega
        exact ⟨sxAddr, keys, cipher, decoded, draws ▸ derived, payment, data⟩

/-- Past a stealth recipient the loop has made one more draw. -/
theorem drawsBefore_lt {env : SendEnv} {recipients : List SendCoinsRecipient} {i j : Nat}
    (before : i < j) {rcp : SendCoinsRecipient} (found : recipients[i]? = some rcp)
    (branch : StealthBranch env rcp) :
    drawsBefore env recipients i < drawsBefore env recipients j := by
  obtain ⟨k, rfl⟩ : ∃ k, j = i + 1 + k := ⟨j - (i + 1), by omega⟩
  have step : drawsBefore env recipients (i + 1) = drawsBefore env recipients i + 1 := by
    simp [drawsBefore, List.take_succ, found, List.filter_append, branch]
  have more : drawsBefore env recipients (i + 1) ≤ drawsBefore env recipients (i + 1 + k) := by
    simp only [drawsBefore, List.take_add, List.filter_append, List.length_append]
    omega
  omega

/-- Each stealth payment of a send uses its own call of `GenerateRandomSecret`: when the
output loop gets through, the stealth recipient at index `i` is paid to the one-time key
derived from call number `drawsBefore i`, one call per stealth recipient before it, and the
data-carrier output right after its payment publishes the ephemeral key of that call; two
stealth recipients never share a call. -/
theorem buildVecSend_fresh_draws {env : SendEnv} {recipients : List SendCoinsRecipient}
    {loop : SendLoop} (built : buildVecSend env recipients ⟨[], [], 0⟩ = .ok loop) :
    (∀ i rcp pos, (paymentPositions env recipients 0)[i]? = some (rcp, pos) →
      StealthBranch env rcp →
      ∃ sxAddr keys cipher, env.codec.setEncoded rcp.address = some sxAddr ∧
        stealthKeys env.stealth sxAddr (drawsBefore env recipients i) = some keys ∧
        loop.vecSend[pos]? = some (setDestination (.keyID keys.keyID), rcp.amount) ∧
        loop.vecSend[pos + 1]? = some (stealthDataScript keys.ephemPubkey cipher, 0)) ∧
    ∀ i j rcp, i < j → recipients[i]? = some rcp → StealthBranch env rcp →
      drawsBefore env recipients i < drawsBefore env recipients j := by
  refine ⟨fun i rcp pos found branch => ?_, fun i j rcp before found branch =>
    drawsBefore_lt before found branch⟩
  simpa only [List.length_nil, Nat.zero_add] using buildVecSend_draws built i rcp pos found branch

/-- Key agreement whose ephemeral secret is the number of its draw, so that each draw pays
its own one-time key. -/
def drawingEnv : SendEnv :=
  { sampleEnv with
    stealth := { sampleEnv.stealth with
      generateRandomSecret := fun draw => some [draw.toUInt8]
      stealthSecret := fun secret _ _ => some (secret, secret)
      pubKeyGetID := fun point => point ++ [4] } }

/-- Two stealth recipients of one send, to two stealth addresses: the second draws after the
first, and its payment, at position 2 behind the first block, pays the key of that draw. -/
theorem buildVecSend_fresh_draws_sample :
    let second : SendCoinsRecipient := ⟨⟨List.replicate 80 't'⟩, "", "", 2, 6⟩
    let recipients : List SendCoinsRecipient := [⟨sampleStealthAddress, "", "", 2, 5⟩, second]
    ∃ loop, buildVecSend drawingEnv recipients ⟨[], [], 0⟩ = .ok loop ∧
      drawsBefore drawingEnv recipients 0 < drawsBefore drawingEnv recipients 1 ∧
      ∃ sxAddr keys cipher, drawingEnv.codec.setEncoded second.address = some sxAddr ∧
        stealthKeys drawingEnv.stealth sxAddr (drawsBefore drawingEnv recipients 1) = some keys ∧
        loop.vecSend[2]? = some (setDestination (.keyID keys.keyID), 6) ∧
        loop.vecSend[3]? = some (stealthDataScript keys.ephemPubkey cipher, 0) := by
  intro second recipients
  obtain ⟨loop, built⟩ : ∃ loop, buildVecSend drawingEnv recipients ⟨[], [], 0⟩ = .ok loop :=
    ⟨_, rfl⟩
  exact ⟨loop, built, (buildVecSend_fresh_draws built).2 0 1 _ (by decide) rfl (by decide),
    (buildVecSend_fresh_draws built).1 1 second 2 (by decide) (by decide)⟩

end AveroWallet
