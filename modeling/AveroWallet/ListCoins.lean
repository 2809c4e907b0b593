import AveroWallet.Transaction
import Mathlib.Logic.Relation
import Mathlib.Data.Finset.Card
import Mathlib.Data.String.Basic

set_option autoImplicit false

/- `WalletModel::listCoins` (lines 701-736): the available coins, and the locked ones under
`-controllockedcoins`, grouped by the address of the output each one descends from through
change. The `while` loop that follows the change is modelled with a bound on its number of
iterations; out-of-range reads of `vout` are results of their own. -/
namespace AveroWallet

/-- The wallet operations `listCoins` calls, on the wallet it reads. -/
structure CoinEnv where
  availableCoins : List { out : COutput // out.InRange }
  listLockedCoins : List COutPoint
  getDepthInMainChain : CWalletTx → Int
  isMineTxOut : CTxOut → Bool
  isMineTxIn : CTxIn → Bool
  isChange : CTxOut → Bool
  extractDestination : CScript → Option CTxDestination
  addressString : CTxDestination → String
  getBoolArg : String → Bool

/-- The C++ comma operator: both operands are evaluated, the right one is the value. -/
def commaOperator {α β : Type} (_left : α) (right : β) : β := right

/-- `WalletModel::getOutputs` (lines 663-676): appends to `vOutputs` an output for each
outpoint whose transaction is in `mapWallet` at depth at least 0. -/
def getOutputs (env : CoinEnv) (mapWallet : MapWallet) (vOutpoints : List COutPoint)
    (vOutputs : List COutput) : List COutput :=
  vOutputs ++ vOutpoints.filterMap fun outpoint =>
    match mapWallet.find outpoint.hash with
    | none => none
    | some tx =>
      let nDepth := env.getDepthInMainChain tx
      if nDepth < 0 then none else some ⟨tx, outpoint.n, nDepth, true⟩

/-- Lines 707-721: the locked outpoints of transactions in `mapWallet` at depth at least 0
whose output exists and is ours. -/
def lockedCoins (env : CoinEnv) (mapWallet : MapWallet) : List COutput :=
  env.listLockedCoins.filterMap fun outpoint =>
    match mapWallet.find outpoint.hash with
    | none => none
    | some tx =>
      let nDepth := env.getDepthInMainChain tx
      if nDepth < 0 then none
      else
        match tx.vout[outpoint.n]? with
        | some txout => if env.isMineTxOut txout then some ⟨tx, outpoint.n, nDepth, true⟩ else none
        | none => none

/-- One evaluation of the condition and body of the loop of lines 726-729. -/
inductive WalkStep
  | outOfRange
  | done (cout : COutput)
  | next (cout : COutput)

def walkStep (env : CoinEnv) (mapWallet : MapWallet) (cout : COutput) : WalkStep :=
  match cout.tx.vout[cout.i]? with
  | none => .outOfRange
  | some txout =>
    if env.isChange txout then
      match cout.tx.vin with
      | [] => .done cout
      | txin :: _ =>
        if env.isMineTxIn txin then
          match mapWallet.find txin.prevout.hash with
          | none => .done cout
          | some prev => .next ⟨prev, txin.prevout.n, 0, true⟩
        else .done cout
    else .done cout

/-- How the loop ends: at an output, on an out-of-range read of `vout`, or still running after
its iterations ran out. -/
inductive WalkEnd
  | stop (cout : COutput)
  | outOfRange
  | outOfFuel
deriving DecidableEq

/-- The loop of lines 726-729, allowed `fuel` iterations of its body. -/
def changeWalk (env : CoinEnv) (mapWallet : MapWallet) : Nat → COutput → WalkEnd
  | fuel, cout =>
    match walkStep env mapWallet cout, fuel with
    | .outOfRange, _ => .outOfRange
    | .done cout, _ => .stop cout
    | .next _, 0 => .outOfFuel
    | .next cout, fuel + 1 => changeWalk env mapWallet fuel cout

theorem changeWalk_of_done {env : CoinEnv} {mapWallet : MapWallet} {cout c : COutput}
    (step : walkStep env mapWallet cout = .done c) (fuel : Nat) :
    changeWalk env mapWallet fuel cout = .stop c := by
  unfold changeWalk; rw [step]

theorem changeWalk_of_next {env : CoinEnv} {mapWallet : MapWallet} {cout c : COutput}
    (step : walkStep env mapWallet cout = .next c) (fuel : Nat) :
    changeWalk env mapWallet (fuel + 1) cout = changeWalk env mapWallet fuel c := by
  conv_lhs => unfold changeWalk
  rw [step]

/-- `mapCoins[key].push_back(out)`. -/
def pushCoin (mapCoins : List (String × List COutput)) (key : String) (out : COutput) :
    List (String × List COutput) :=
  mapAssign mapCoins key ((mapCoins.lookup key).getD [] ++ [out])

/-- Lines 723-735 for one coin; `none` when the walk does not end normally. -/
def groupCoin (env : CoinEnv) (mapWallet : MapWallet) (mapCoins : List (String × List COutput))
    (out : COutput) : Option (List (String × List COutput)) :=
  match changeWalk env mapWallet mapWallet.size out with
  | .stop cout =>
    if !out.fSpendable then some mapCoins
    else
      match cout.tx.vout[cout.i]? with
      | none => none
      | some txout =>
        match env.extractDestination txout.scriptPubKey with
        | none => some mapCoins
        | some address => some (pushCoin mapCoins (env.addressString address) out)
  | _ => none

/-- `WalletModel::listCoins`, each change walk allowed `mapWallet.size` iterations. -/
def listCoins (env : CoinEnv) (mapWallet : MapWallet) : Option (List (String × List COutput)) :=
  let vCoins := env.availableCoins.map (·.1)
  let vCoins :=
    if commaOperator (env.getBoolArg "-controllockedcoins") false then
      vCoins ++ lockedCoins env mapWallet
    else vCoins
  vCoins.foldlM (groupCoin env mapWallet) []

/-- What one evaluation of the loop does: read out of range, stop at `cout`, or follow the first
input of `cout`'s transaction to the output it spends. -/
theorem walkStep_cases (env : CoinEnv) (mapWallet : MapWallet) (cout : COutput) :
    (¬ cout.InRange ∧ walkStep env mapWallet cout = .outOfRange) ∨
      (cout.InRange ∧ walkStep env mapWallet cout = .done cout) ∨
      (cout.InRange ∧ ∃ txin rest prev, cout.tx.vin = txin :: rest ∧
        mapWallet.find txin.prevout.hash = some prev ∧
        walkStep env mapWallet cout = .next ⟨prev, txin.prevout.n, 0, true⟩) := by
  unfold walkStep
  by_cases inRange : cout.InRange
  · simp only [List.getElem?_eq_getElem inRange, inRange, not_true, false_and, true_and, false_or]
    split_ifs
    · split
      · exact .inl rfl
      · split_ifs
        · split
          · exact .inl rfl
          · exact .inr ⟨_, _, _, ‹_›, ‹_›, rfl⟩
        · exact .inl rfl
    · exact .inl rfl
  · exact .inl ⟨inRange, by rw [List.getElem?_eq_none (Nat.le_of_not_lt inRange)]⟩

theorem mem_keys_of_find {mapWallet : MapWallet} {hash : Nat} {tx : CWalletTx}
    (found : mapWallet.find hash = some tx) : hash ∈ mapWallet.entries.map Prod.fst := by
  obtain ⟨pre, post, split, -⟩ := List.lookup_eq_some_iff.mp found
  simp [split]

/-- The link the loop follows: the first input of `t` spends an output of `u`, a transaction
of `mapWallet`. -/
def SpendsFirst (mapWallet : MapWallet) (t u : CWalletTx) : Prop :=
  ∃ txin rest, t.vin = txin :: rest ∧ mapWallet.find txin.prevout.hash = some u

/-- Wallets whose first-input links form no cycle and name existing outputs. -/
structure ChainedWallet (mapWallet : MapWallet) : Prop where
  acyclic : ∀ t, ¬ Relation.TransGen (SpendsFirst mapWallet) t t
  prevoutInRange : ∀ hash t txin rest u, mapWallet.find hash = some t → t.vin = txin :: rest →
    mapWallet.find txin.prevout.hash = some u → txin.prevout.n < u.vout.length

/-- `hash` names a transaction of `mapWallet` that `t` reaches by one or more links. -/
def Reachable (mapWallet : MapWallet) (t : CWalletTx) (hash : Nat) : Prop :=
  ∃ u, mapWallet.find hash = some u ∧ Relation.TransGen (SpendsFirst mapWallet) t u

/-- Links that lower a rank close no cycle. -/
theorem acyclic_of_rank {mapWallet : MapWallet} (rank : CWalletTx → Nat)
    (lowers : ∀ t u, SpendsFirst mapWallet t u → rank u < rank t) (t : CWalletTx) :
    ¬ Relation.TransGen (SpendsFirst mapWallet) t t := by
  have descends {a b : CWalletTx} (path : Relation.TransGen (SpendsFirst mapWallet) a b) :
      rank b < rank a := by
    induction path with
    | single link => exact lowers _ _ link
    | tail _ link ih => exact (lowers _ _ link).trans ih
  exact fun path => lt_irrefl _ (descends path)

/-- A wallet of three transactions: `fundingTx` pays 5 to the key [1], `changeTx` spends it
and pays 3 to the change key [2], and `lockedTx` pays 7 to the key [3]. -/
def fundingTx : CWalletTx := ⟨[], [⟨5, setDestination (.keyID [1])⟩], []⟩

def changeTx : CWalletTx := ⟨[⟨⟨0, 0⟩⟩], [⟨3, setDestination (.keyID [2])⟩], []⟩

def lockedTx : CWalletTx := ⟨[], [⟨7, setDestination (.keyID [3])⟩], []⟩

def sampleWallet : MapWallet := ⟨[(0, fundingTx), (1, changeTx), (2, lockedTx)], by decide⟩

/-- The destination of a pay-to-key script. -/
def decodeKeyScript : CScript → Option CTxDestination
  | [.op .opDup, .op .opHash160, .push id, .op .opEqualVerify, .op .opCheckSig] => some (.keyID id)
  | _ => none

/-- The wallet operations on `sampleWallet`: the change output of `changeTx` is the available
coin, the output of `lockedTx` is locked, and `-controllockedcoins` is set. -/
def sampleCoinEnv : CoinEnv where
  availableCoins := [⟨⟨changeTx, 0, 1, true⟩, by decide⟩]
  listLockedCoins := [⟨2, 0⟩]
  getDepthInMainChain _ := 1
  isMineTxOut _ := true
  isMineTxIn _ := true
  isChange txout := decide (txout.scriptPubKey = setDestination (.keyID [2]))
  extractDestination := decodeKeyScript
  addressString dest := if dest = .keyID [1] then "A" else if dest = .keyID [3] then "C" else "B"
  getBoolArg _ := true

/-- `getOutputs` keeps an outpoint whose index is past the end of `vout`. -/
example : getOutputs sampleCoinEnv sampleWallet [⟨2, 5⟩] [] = [⟨lockedTx, 5, 1, true⟩] := by decide

theorem sampleWallet_chained : ChainedWallet sampleWallet := by
  have below : ∀ hash u, sampleWallet.find hash = some u →
      (match u.vin with | [] => 0 | txin :: _ => txin.prevout.hash + 1) ≤ hash := by
    intro hash u found
    rcases hash with _ | _ | _ | hash <;> simp [sampleWallet, MapWallet.find, List.lookup_cons] at found <;>
      subst found <;> decide
  refine ⟨acyclic_of_rank (fun t => match t.vin with | [] => 0 | txin :: _ => txin.prevout.hash + 1) ?_, ?_⟩
  · rintro t u ⟨txin, rest, first, found⟩
    simp only [first]
    have := below _ _ found
    omega
  · intro hash t txin rest u found first spent
    rcases hash with _ | _ | _ | hash <;> simp [sampleWallet, MapWallet.find, List.lookup_cons] at found <;>
      subst found <;> simp [fundingTx, changeTx, lockedTx] at first
    obtain ⟨rfl, -⟩ := first
    simp [sampleWallet, MapWallet.find, List.lookup_cons] at spent
    subst spent
    decide

section Walk

variable {env : CoinEnv} {mapWallet : MapWallet}

open Classical in
/-- Following a link loses at least the hash it follows from what is still reachable. -/
theorem card_reachable_lt (chained : ChainedWallet mapWallet) {t u : CWalletTx}
    (link : SpendsFirst mapWallet t u) :
    ((mapWallet.entries.map Prod.fst).toFinset.filter (Reachable mapWallet u)).card <
      ((mapWallet.entries.map Prod.fst).toFinset.filter (Reachable mapWallet t)).card := by
  obtain ⟨txin, rest, first, found⟩ := link
  apply Finset.card_lt_card
  rw [Finset.ssubset_iff_of_subset]
  · refine ⟨txin.prevout.hash, ?_, ?_⟩
    · simp only [Finset.mem_filter, List.mem_toFinset]
      exact ⟨mem_keys_of_find found, u, found, .single ⟨txin, rest, first, found⟩⟩
    · simp only [Finset.mem_filter, not_and]
      rintro - ⟨v, found', path⟩
      rw [found] at found'
      cases found'
      exact chained.acyclic u path
  · intro hash
    simp only [Finset.mem_filter]
    exact fun ⟨mem, v, found', path⟩ => ⟨mem, v, found', .head ⟨txin, rest, first, found⟩ path⟩

open Classical in
theorem card_reachable_le_size (t : CWalletTx) :
    ((mapWallet.entries.map Prod.fst).toFinset.filter (Reachable mapWallet t)).card ≤
      mapWallet.size :=
  calc _ ≤ (mapWallet.entries.map Prod.fst).toFinset.card := Finset.card_filter_le _ _
    _ ≤ (mapWallet.entries.map Prod.fst).length := List.toFinset_card_le _
    _ = mapWallet.size := List.length_map _ _

open Classical in
/-- From a wallet coin, the loop ends normally at an in-range output within as many
iterations as there are wallet transactions reachable from the coin's transaction. -/
theorem changeWalk_stop_of_reachable (chained : ChainedWallet mapWallet) (fuel : Nat)
    {cout : COutput} (inRange : cout.InRange)
    (fromWallet : ∃ hash, mapWallet.find hash = some cout.tx)
    (enough : ((mapWallet.entries.map Prod.fst).toFinset.filter
      (Reachable mapWallet cout.tx)).card ≤ fuel) :
    ∃ c, changeWalk env mapWallet fuel cout = .stop c ∧ c.InRange := by
  induction fuel using Nat.strong_induction_on generalizing cout with
  | _ fuel ih =>
  rcases walkStep_cases env mapWallet cout with
    ⟨out, -⟩ | ⟨-, step⟩ | ⟨-, txin, rest, prev, first, found, step⟩
  · exact absurd inRange out
  · exact ⟨cout, changeWalk_of_done step _, inRange⟩
  · have shrinks := card_reachable_lt chained ⟨txin, rest, first, found⟩
    obtain ⟨less, rfl⟩ : ∃ less, fuel = less + 1 := ⟨fuel - 1, by omega⟩
    obtain ⟨hash, wallet⟩ := fromWallet
    obtain ⟨c, stop, stopInRange⟩ := @ih less (Nat.lt_succ_self _) ⟨prev, txin.prevout.n, 0, true⟩
      (chained.prevoutInRange hash _ txin rest prev wallet first found) ⟨_, found⟩
      (by dsimp only; omega)
    exact ⟨c, (changeWalk_of_next step _).trans stop, stopInRange⟩

/-- The change walk of `listCoins`, from an in-range output of a wallet transaction in a
wallet whose first-input links are acyclic and in range, ends normally within
`mapWallet.size` iterations, and the output it ends at, which the loop condition and line
732 read, is in range. -/
theorem changeWalk_terminates (chained : ChainedWallet mapWallet) {out : COutput}
    (start : out.InRange) (fromWallet : ∃ hash, mapWallet.find hash = some out.tx) :
    ∃ cout, changeWalk env mapWallet mapWallet.size out = .stop cout ∧ cout.InRange := by
  classical
  exact changeWalk_stop_of_reachable chained _ start fromWallet (card_reachable_le_size _)

theorem changeWalk_terminates_sample :
    changeWalk sampleCoinEnv sampleWallet sampleWallet.size ⟨changeTx, 0, 1, true⟩ =
        .stop ⟨fundingTx, 0, 0, true⟩ ∧
      ∃ cout, changeWalk sampleCoinEnv sampleWallet sampleWallet.size ⟨changeTx, 0, 1, true⟩ =
        .stop cout ∧ cout.InRange :=
  ⟨by decide, changeWalk_terminates sampleWallet_chained (by decide) ⟨1, rfl⟩⟩

end Walk

/-- The comma operator makes the condition of line 707 false: `listCoins` files the available
coins only, whatever `-controllockedcoins` and the locked coins are. -/
theorem listCoins_eq_available (env : CoinEnv) (mapWallet : MapWallet) :
    listCoins env mapWallet = (env.availableCoins.map (·.1)).foldlM (groupCoin env mapWallet) [] :=
  rfl

/-- With `-controllockedcoins` set, the locked output of `lockedTx` passes every test of
lines 713-719, yet `listCoins` files only the available change coin, under the address of
the output it descends from. -/
theorem listCoins_drops_locked :
    sampleCoinEnv.getBoolArg "-controllockedcoins" = true ∧
      lockedCoins sampleCoinEnv sampleWallet = [⟨lockedTx, 0, 1, true⟩] ∧
      listCoins sampleCoinEnv sampleWallet = some [("A", [⟨changeTx, 0, 1, true⟩])] :=
  ⟨rfl, by decide, by rw [listCoins_eq_available]; decide⟩

/-- The address of the output a coin descends from through change: the destination of the
output the change walk ends at, when it has one. -/
def ancestorAddress (env : CoinEnv) (mapWallet : MapWallet) (out : COutput) : Option String :=
  match changeWalk env mapWallet mapWallet.size out with
  | .stop cout =>
    (cout.tx.vout[cout.i]?.bind fun txout => env.extractDestination txout.scriptPubKey).map
      env.addressString
  | _ => none

theorem lookup_pushCoin (mapCoins : List (String × List COutput)) (key other : String)
    (out : COutput) :
    ((pushCoin mapCoins key out).lookup other).getD [] =
      (mapCoins.lookup other).getD [] ++ if other = key then [out] else [] := by
  unfold pushCoin
  rw [lookup_mapAssign]
  split_ifs with same
  · subst same; rfl
  · simp

/-- One coin whose walk ends normally at an in-range output is filed under its ancestor's
address when it is spendable and that address exists, and skipped otherwise. -/
theorem groupCoin_of_stop {env : CoinEnv} {mapWallet : MapWallet} {out cout : COutput}
    (stops : changeWalk env mapWallet mapWallet.size out = .stop cout) (inRange : cout.InRange)
    (mapCoins : List (String × List COutput)) :
    groupCoin env mapWallet mapCoins out =
      some ((if out.fSpendable then ancestorAddress env mapWallet out else none).elim mapCoins
        fun key => pushCoin mapCoins key out) := by
  unfold groupCoin ancestorAddress
  rw [stops]
  cases out.fSpendable
  · rfl
  · simp only [Bool.not_true, Bool.false_eq_true, ↓reduceIte, List.getElem?_eq_getElem inRange,
      Option.some_bind]
    cases env.extractDestination cout.tx.vout[cout.i].scriptPubKey <;> rfl

theorem foldlM_groupCoin {env : CoinEnv} {mapWallet : MapWallet}
    (chained : ChainedWallet mapWallet) (coins : List COutput)
    (fromWallet : ∀ out ∈ coins, out.InRange ∧ ∃ hash, mapWallet.find hash = some out.tx)
    (mapCoins : List (String × List COutput)) :
    ∃ final, coins.foldlM (groupCoin env mapWallet) mapCoins = some final ∧
      ∀ key, (final.lookup key).getD [] = (mapCoins.lookup key).getD [] ++
        coins.filter fun out => out.fSpendable && ancestorAddress env mapWallet out == some key := by
  classical
  induction coins generalizing mapCoins with
  | nil => exact ⟨mapCoins, rfl, fun key => by simp⟩
  | cons out rest ih =>
    obtain ⟨start, wallet⟩ := fromWallet out (List.mem_cons_self _ _)
    obtain ⟨cout, stops, inRange⟩ :=
      @changeWalk_stop_of_reachable env mapWallet chained _ out start wallet (card_reachable_le_size _)
    obtain ⟨final, run, filed⟩ := ih (fun other mem => fromWallet other (List.mem_cons_of_mem _ mem))
      ((if out.fSpendable then ancestorAddress env mapWallet out else none).elim mapCoins
        fun key => pushCoin mapCoins key out)
    refine ⟨final, by rw [List.foldlM_cons, groupCoin_of_stop stops inRange]; exact run,
      fun key => ?_⟩
    rw [filed, List.filter_cons]
    cases spendable : out.fSpendable
    · simp
    · cases address : ancestorAddress env mapWallet out with
      | none => simp
      | some filedUnder =>
        by_cases same : key = filedUnder
        · subst same
          simp [lookup_pushCoin]
        · simp [lookup_pushCoin, same, Ne.symm same]

/-- In a wallet whose first-input links are acyclic and in range, `listCoins` returns a map in
which every address holds exactly the spendable available coins that descend from an output
of that address, in the order `AvailableCoins` lists them: each is filed once, and a
spendable coin is left out only when the output it descends from has no destination. -/
theorem listCoins_groups_available (env : CoinEnv) (mapWallet : MapWallet)
    (chained : ChainedWallet mapWallet)
    (fromWallet : ∀ out ∈ env.availableCoins, ∃ hash, mapWallet.find hash = some out.1.tx) :
    ∃ mapCoins, listCoins env mapWallet = some mapCoins ∧
      ∀ key, (mapCoins.lookup key).getD [] =
        (env.availableCoins.map (·.1)).filter fun out =>
          out.fSpendable && ancestorAddress env mapWallet out == some key := by
  have coins : ∀ out ∈ env.availableCoins.map (·.1),
      out.InRange ∧ ∃ hash, mapWallet.find hash = some out.tx := by
    intro out mem
    obtain ⟨coin, listed, rfl⟩ := List.mem_map.mp mem
    exact ⟨coin.2, fromWallet coin listed⟩
  obtain ⟨final, run, filed⟩ := foldlM_groupCoin chained _ coins []
  exact ⟨final, run, fun key => by simpa using filed key⟩

theorem listCoins_groups_available_sample :
    ∃ mapCoins, listCoins sampleCoinEnv sampleWallet = some mapCoins ∧
      (mapCoins.lookup "A").getD [] = [⟨changeTx, 0, 1, true⟩] := by
  obtain ⟨mapCoins, listed, filed⟩ := listCoins_groups_available sampleCoinEnv sampleWallet
    sampleWallet_chained (fun out mem => ⟨1, by simp [sampleCoinEnv] at mem; subst mem; rfl⟩)
  exact ⟨mapCoins, listed, (filed "A").trans (by decide)⟩

end AveroWallet
