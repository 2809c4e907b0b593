import AveroWallet.BalancePoll

set_option autoImplicit false

/- `WalletModel::requestUnlock` and `UnlockContext` (lines 614-655). `requestUnlock` locks a
wallet that is unlocked for staking only, asks the user to unlock a locked wallet, and
returns a context that relocks the wallet when its scope ends.

The copy constructor and the assignment of `UnlockContext` are declared in `walletmodel.h`,
which is not part of the sources modelled here. The model assumes the declarations of the
header this file was written against, the one this code derives from:

    UnlockContext(const UnlockContext& obj) { CopyFrom(obj); }
    UnlockContext& operator=(const UnlockContext& rhs) { CopyFrom(rhs); return *this; }

With them, `*this = rhs` in `CopyFrom` calls that assignment, which calls `CopyFrom(rhs)`
again, so `CopyFrom` never reaches `rhs.relock = false` and never returns. Each call is
modelled with the number of stack frames left: a call with none left overflows the stack
(`none`), and a call that never returns is one that overflows every finite stack. The
context `requestUnlock` returns is built in place, the copy being elided, so it is not
copied. The contexts alive at once are slots; a slot is emptied when its context goes out
of scope. -/
namespace AveroWallet

/-- The calls `requestUnlock` and the contexts make: `setWalletLocked(true)`, which calls
`CWallet::Lock`, and the `requireUnlock` signal, whose handler is the unlock dialog. -/
inductive UnlockCall
  | setWalletLocked
  | requireUnlock
deriving DecidableEq

/-- What `requestUnlock` calls outside this file: `CWallet::Lock`, and the unlock dialog run
by `requireUnlock`, which may unlock the wallet and set `fWalletUnlockStakingOnly`. -/
structure UnlockEnv where
  lock : WalletView → WalletView
  askUnlock : WalletView × Bool → WalletView × Bool

/-- `WalletModel::UnlockContext`. -/
structure UnlockContext where
  valid : Bool
  relock : Bool
deriving DecidableEq

/-- `UnlockContext::~UnlockContext` calls `setWalletLocked(true)`. -/
def UnlockContext.relocksOnExit (ctx : UnlockContext) : Bool := ctx.valid && ctx.relock

/-- `WalletModel::requestUnlock`: the wallet and `fWalletUnlockStakingOnly` after it, the
context it returns, and its calls. -/
def requestUnlock (env : UnlockEnv) (wallet : WalletView) (fWalletUnlockStakingOnly : Bool) :
    (WalletView × Bool) × UnlockContext × List UnlockCall :=
  let wasLocked := decide (WalletModel.getEncryptionStatus wallet = .locked)
  let (wallet, wasLocked, calls) :=
    if !wasLocked && fWalletUnlockStakingOnly then
      let wallet := env.lock wallet
      (wallet, decide (WalletModel.getEncryptionStatus wallet = .locked),
        [UnlockCall.setWalletLocked])
    else (wallet, wasLocked, [])
  let (state, calls) :=
    if wasLocked then (env.askUnlock (wallet, fWalletUnlockStakingOnly), calls ++ [.requireUnlock])
    else ((wallet, fWalletUnlockStakingOnly), calls)
  let valid := decide (WalletModel.getEncryptionStatus state.1 ≠ .locked)
  (state, ⟨valid, wasLocked && !state.2⟩, calls)

mutual

/-- `UnlockContext::operator=` (from `walletmodel.h`) with `this` the context in slot `dst`
and `rhs` the one in slot `src`, given `stack` frames: `CopyFrom(rhs); return *this;`. -/
def operatorAssign : Nat → List (Option UnlockContext) → Nat → Nat →
    Option (List (Option UnlockContext))
  | 0, _, _, _ => none
  | stack + 1, slots, dst, src => copyFrom stack slots dst src

/-- `UnlockContext::CopyFrom`, given `stack` frames: `*this = rhs`, which is `operator=`, then
`rhs.relock = false`. -/
def copyFrom : Nat → List (Option UnlockContext) → Nat → Nat →
    Option (List (Option UnlockContext))
  | 0, _, _, _ => none
  | stack + 1, slots, dst, src =>
    (operatorAssign stack slots dst src).map fun slots =>
      slots.modify (Option.map fun rhs => { rhs with relock := false }) src

end

/-- The copy constructor `UnlockContext(const UnlockContext& obj)` (from `walletmodel.h`),
building a context in a new slot from the one in slot `src`: `CopyFrom(obj)`. -/
def copyConstruct : Nat → List (Option UnlockContext) → Nat →
    Option (List (Option UnlockContext))
  | 0, _, _ => none
  | stack + 1, slots, src => copyFrom stack (slots ++ [none]) slots.length src

/-- `CopyFrom` and `operator=` call each other without end: no stack is deep enough for
either of them to return. -/
theorem copyFrom_never_returns (stack : Nat) (slots : List (Option UnlockContext))
    (dst src : Nat) :
    operatorAssign stack slots dst src = none ∧ copyFrom stack slots dst src = none := by
  induction stack with
  | zero => exact ⟨rfl, rfl⟩
  | succ stack ih => exact ⟨ih.2, by rw [copyFrom, ih.1]; rfl⟩

/-- So the copy constructor never returns either. -/
theorem copyConstruct_never_returns (stack : Nat) (slots : List (Option UnlockContext))
    (src : Nat) : copyConstruct stack slots src = none := by
  cases stack with
  | zero => rfl
  | succ stack => exact (copyFrom_never_returns stack _ _ src).2

/-- What happens to the contexts alive at once: a copy constructed from a live context into
a new slot, an assignment between two slots, or the end of a context's scope. -/
inductive ContextEvent
  | copyConstruct (src : Nat)
  | assign (dst src : Nat)
  | exit (idx : Nat)

/-- Whether an event calls `CopyFrom`: a copy construction or an assignment. -/
def ContextEvent.copies : ContextEvent → Bool
  | .exit _ => false
  | _ => true

/-- One event, given `stack` frames: the slots after it and whether it called
`setWalletLocked(true)`, or `none` when it does not return. -/
def contextStep (stack : Nat) (slots : List (Option UnlockContext)) :
    ContextEvent → Option (List (Option UnlockContext) × Bool)
  | .copyConstruct src => (copyConstruct stack slots src).map fun slots => (slots, false)
  | .assign dst src => (operatorAssign stack slots dst src).map fun slots => (slots, false)
  | .exit idx =>
    match slots[idx]? with
    | some (some ctx) => some (slots.set idx none, ctx.relocksOnExit)
    | _ => some (slots, false)

/-- A run of events: the slots at the end, `none` once an event does not return, and how
many times the wallet was relocked. -/
def contextRun (stack : Nat) (slots : List (Option UnlockContext)) :
    List ContextEvent → Option (List (Option UnlockContext)) × Nat
  | [] => (some slots, 0)
  | event :: rest =>
    match contextStep stack slots event with
    | none => (none, 0)
    | some (next, relocked) =>
      let run := contextRun stack next rest
      (run.1, (if relocked then 1 else 0) + run.2)

/-- The live contexts that would relock the wallet when their scope ends. -/
def pendingRelocks (slots : List (Option UnlockContext)) : Nat :=
  slots.countP fun slot => slot.any UnlockContext.relocksOnExit

theorem contextStep_eq_none_of_copies (stack : Nat) (slots : List (Option UnlockContext))
    {event : ContextEvent} (copies : event.copies) : contextStep stack slots event = none := by
  cases event with
  | copyConstruct src => simp [contextStep, copyConstruct_never_returns]
  | assign dst src => simp [contextStep, (copyFrom_never_returns stack slots dst src).1]
  | exit idx => simp [ContextEvent.copies] at copies

/-- A step that returns relocks the wallet exactly by spending a pending relock. -/
theorem contextStep_conserves {stack : Nat} {slots next : List (Option UnlockContext)}
    {event : ContextEvent} {relocked : Bool}
    (step : contextStep stack slots event = some (next, relocked)) :
    pendingRelocks next + (if relocked then 1 else 0) = pendingRelocks slots := by
  cases event with
  | copyConstruct src => simp [contextStep, copyConstruct_never_returns] at step
  | assign dst src => simp [contextStep, (copyFrom_never_returns stack slots dst src).1] at step
  | exit idx =>
    rcases found : slots[idx]? with _ | _ | ctx <;>
      simp only [contextStep, found, Option.some.injEq, Prod.mk.injEq] at step <;>
      obtain ⟨rfl, rfl⟩ := step
    · rfl
    · rfl
    · have inside : idx < slots.length := (List.getElem?_eq_some_iff.mp found).1
      have bounded := List.boole_getElem_le_countP
        (fun slot => slot.any UnlockContext.relocksOnExit) slots idx inside
      unfold pendingRelocks
      rw [List.countP_set _ _ _ _ inside, List.getElem_eq_iff.mpr found] at *
      simp only [Option.any_some, Option.any_none, Bool.false_eq_true, ↓reduceIte] at bounded ⊢
      split_ifs at bounded ⊢ <;> omega

/-- A run that reaches a copy or an assignment does not return. -/
theorem contextRun_eq_none_of_copies (stack : Nat) (slots : List (Option UnlockContext))
    (events : List ContextEvent) (copying : ∃ event ∈ events, event.copies) :
    (contextRun stack slots events).1 = none := by
  induction events generalizing slots with
  | nil => simp at copying
  | cons event rest ih =>
    obtain ⟨copier, member, copies⟩ := copying
    rcases List.mem_cons.mp member with rfl | later
    · simp [contextRun, contextStep_eq_none_of_copies stack slots copies]
    · rcases step : contextStep stack slots event with _ | ⟨next, relocked⟩
      · simp [contextRun, step]
      · simpa [contextRun, step] using ih next ⟨copier, later, copies⟩

/-- Along a run that returns, the relocks done and those still pending add up to those
pending at the start. -/
theorem contextRun_conserves {stack : Nat} {slots final : List (Option UnlockContext)}
    {events : List ContextEvent} (returned : (contextRun stack slots events).1 = some final) :
    pendingRelocks final + (contextRun stack slots events).2 = pendingRelocks slots := by
  induction events generalizing slots with
  | nil => simp_all [contextRun]
  | cons event rest ih =>
    rcases step : contextStep stack slots event with _ | ⟨next, relocked⟩
    · simp [contextRun, step] at returned
    · have conserved := contextStep_conserves step
      simp only [contextRun, step] at returned ⊢
      have run := ih returned
      omega

/-- Along every run, the wallet is relocked at most once per relock pending at the start. -/
theorem contextRun_budget (stack : Nat) (slots : List (Option UnlockContext))
    (events : List ContextEvent) : (contextRun stack slots events).2 ≤ pendingRelocks slots := by
  induction events generalizing slots with
  | nil => simp [contextRun]
  | cons event rest ih =>
    rcases step : contextStep stack slots event with _ | ⟨next, relocked⟩
    · simp [contextRun, step]
    · have conserved := contextStep_conserves step
      have run := ih next
      simp only [contextRun, step]
      omega

/-- However the context `requestUnlock` returns is copied, assigned and destroyed, alongside
contexts that hold no relock, and however deep the stack: the wallet is relocked at most
once; a copy or an assignment does not return; and once every context has gone out of
scope without one, the wallet has been relocked exactly when the context relocks. -/
theorem requestUnlock_relocks_once_or_crashes (env : UnlockEnv) (wallet : WalletView)
    (fWalletUnlockStakingOnly : Bool) (others : List (Option UnlockContext))
    (idle : pendingRelocks others = 0) (stack : Nat) (events : List ContextEvent) :
    let ctx := (requestUnlock env wallet fWalletUnlockStakingOnly).2.1
    let run := contextRun stack (others ++ [some ctx]) events
    run.2 ≤ 1 ∧ ((∃ event ∈ events, event.copies) → run.1 = none) ∧
      ∀ final, run.1 = some final → (∀ slot ∈ final, slot = none) →
        run.2 = if ctx.relocksOnExit then 1 else 0 := by
  intro ctx run
  have start : pendingRelocks (others ++ [some ctx]) = if ctx.relocksOnExit then 1 else 0 := by
    simp only [pendingRelocks, List.countP_append] at idle ⊢
    rw [idle, List.countP_singleton]
    simp
  refine ⟨?_, contextRun_eq_none_of_copies stack _ events, fun final returned emptied => ?_⟩
  · have budget : run.2 ≤ pendingRelocks (others ++ [some ctx]) :=
      contextRun_budget stack _ events
    split_ifs at start <;> omega
  · have cleared : pendingRelocks final = 0 := by
      simp only [pendingRelocks, List.countP_eq_zero]
      intro slot member
      simp [emptied slot member]
    have conserved : pendingRelocks final + run.2 = pendingRelocks (others ++ [some ctx]) :=
      contextRun_conserves returned
    omega

/-- A wallet lock that locks an encrypted wallet, and a dialog that unlocks the wallet fully. -/
def sampleUnlockEnv : UnlockEnv where
  lock wallet := { wallet with isLocked := wallet.isLocked || wallet.isCrypted }
  askUnlock state := ({ state.1 with isLocked := false }, false)

/-- A locked wallet unlocked through the dialog: the context relocks, and the wallet is
relocked when it goes out of scope; copying it first never returns. -/
theorem requestUnlock_relocks_once_or_crashes_sample :
    let locked : WalletView := ⟨0, 0, 0, 0, 0, 0, 0, 0, 0, true, true⟩
    let ctx := (requestUnlock sampleUnlockEnv locked false).2.1
    let copied := contextRun 16 ([] ++ [some ctx]) [.copyConstruct 0, .exit 0, .exit 1]
    ctx = ⟨true, true⟩ ∧ contextRun 16 [some ctx] [.exit 0] = (some [none], 1) ∧
      (copied.2 ≤ 1 ∧
        ((∃ event ∈ [ContextEvent.copyConstruct 0, .exit 0, .exit 1], event.copies) →
          copied.1 = none) ∧
        ∀ final, copied.1 = some final → (∀ slot ∈ final, slot = none) →
          copied.2 = if ctx.relocksOnExit then 1 else 0) :=
  ⟨by decide, by decide,
    requestUnlock_relocks_once_or_crashes sampleUnlockEnv _ false [] rfl 16 _⟩

end AveroWallet
