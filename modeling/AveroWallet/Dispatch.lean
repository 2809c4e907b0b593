import AveroWallet.SendCoins

set_option autoImplicit false

/- Where `sendCoins` decides that a recipient is a stealth payment. `validateAddress` looks at
the address (longer than 75 bytes and accepted by `IsStealthAddress`); the output loop looks
at `typeInd` and `SetEncoded`; the address-book loop looks at `typeInd` alone. -/
namespace AveroWallet

theorem labelSentAddress_calls_stealth (env : SendEnv) (rcp : SendCoinsRecipient)
    (wallet : CWallet) :
    (labelSentAddress env rcp wallet).2 = [.updateStealthAddress rcp.address rcp.label] ↔
      rcp.typeInd = env.atStealth := by
  simp only [labelSentAddress]
  split_ifs with typed
  · simp [typed]
  · split
    · split_ifs <;> simp [typed]
    · simp [typed]

theorem addRecipientOutputs_payment {env : SendEnv} {rcp : SendCoinsRecipient}
    {loop loop' : SendLoop} (ok : addRecipientOutputs env rcp loop = .ok loop') :
    ∃ dest, loop'.vecSend[loop.vecSend.length]? = some (setDestination dest, rcp.amount) ∧
      (StealthBranch env rcp → ∃ sxAddr draw keys,
        env.codec.setEncoded rcp.address = some sxAddr ∧
        stealthKeys env.stealth sxAddr draw = some keys ∧ dest = .keyID keys.keyID) ∧
      (¬ StealthBranch env rcp → dest = (env.codec.bitcoinAddress rcp.address).Get) := by
  obtain ⟨block, shape, vecSend, -⟩ := addRecipientOutputs_ok ok
  obtain ⟨dest, head, stealth, standard⟩ := shape.head?_eq
  refine ⟨dest, ?_, stealth, standard⟩
  rw [vecSend, List.getElem?_append_right (le_refl _), Nat.sub_self, ← head]
  cases block <;> simp

/-- For an accepted recipient: when `typeInd` is `AT_Stealth` exactly for stealth addresses,
it takes the stealth branch of the output loop, and the `UpdateStealthAddress` branch of the
address-book loop, exactly when its address is a stealth address. When only every stealth
address is sent as `AT_Stealth`, its payment output pays the one-time key of a stealth
payment or the decoded address, never the empty script. -/
theorem stealth_dispatch_agrees (env : SendEnv) (rcp : SendCoinsRecipient)
    (accepted : validateAddress env.codec rcp.address = true) :
    ((rcp.typeInd = env.atStealth ↔ IsStealthFormat env.codec rcp.address) →
      (StealthBranch env rcp ↔ IsStealthFormat env.codec rcp.address) ∧
        ∀ wallet, (labelSentAddress env rcp wallet).2 =
          [.updateStealthAddress rcp.address rcp.label] ↔ IsStealthFormat env.codec rcp.address) ∧
      ((IsStealthFormat env.codec rcp.address → rcp.typeInd = env.atStealth) →
        ∀ loop loop', addRecipientOutputs env rcp loop = .ok loop' →
          ∃ dest, loop'.vecSend[loop.vecSend.length]? = some (setDestination dest, rcp.amount) ∧
            setDestination dest ≠ [] ∧
            (IsStealthFormat env.codec rcp.address → ∃ sxAddr draw keys,
              env.codec.setEncoded rcp.address = some sxAddr ∧
              stealthKeys env.stealth sxAddr draw = some keys ∧ dest = .keyID keys.keyID) ∧
            (¬ StealthBranch env rcp → dest = (env.codec.bitcoinAddress rcp.address).Get)) := by
  have branch_of_format (typed : IsStealthFormat env.codec rcp.address → rcp.typeInd = env.atStealth)
      (format : IsStealthFormat env.codec rcp.address) : StealthBranch env rcp :=
    ⟨typed format, env.codec.setEncoded_of_isStealthAddress _ format.2⟩
  refine ⟨fun typed => ⟨⟨fun stealth => typed.mp stealth.1, branch_of_format typed.mpr⟩,
    fun wallet => (labelSentAddress_calls_stealth env rcp wallet).trans typed⟩,
    fun typed loop loop' ok => ?_⟩
  obtain ⟨dest, paid, stealth, standard⟩ := addRecipientOutputs_payment ok
  refine ⟨dest, paid, ?_, fun format => stealth (branch_of_format typed format), standard⟩
  rw [Ne, setDestination_eq_nil_iff]
  by_cases taken : StealthBranch env rcp
  · obtain ⟨-, -, -, -, -, rfl⟩ := stealth taken
    exact nofun
  · rw [standard taken]
    exact CBitcoinAddress.Get_ne_noDestination
      (valid_of_validateAddress accepted (mt (branch_of_format typed) taken))

/-- The standard address `A` sent as a standard payment and a stealth address sent as
`AT_Stealth`: the decisions agree for both, and the stealth payment pays a one-time key. -/
theorem stealth_dispatch_agrees_samples :
    let standard : SendCoinsRecipient := ⟨"A", "", "", 1, 5⟩
    let stealth : SendCoinsRecipient := ⟨sampleStealthAddress, "", "", 2, 5⟩
    let paid : SendLoop :=
      ⟨[(setDestination (.keyID [4]), 5), ([.op .opReturn, .push [5]], 0)], [], 1⟩
    ((StealthBranch sampleEnv standard ↔ IsStealthFormat sampleEnv.codec "A") ∧
        ∀ wallet, (labelSentAddress sampleEnv standard wallet).2 =
          [.updateStealthAddress "A" ""] ↔ IsStealthFormat sampleEnv.codec "A") ∧
      ((StealthBranch sampleEnv stealth ↔ IsStealthFormat sampleEnv.codec sampleStealthAddress) ∧
        ∀ wallet, (labelSentAddress sampleEnv stealth wallet).2 =
          [.updateStealthAddress sampleStealthAddress ""] ↔
            IsStealthFormat sampleEnv.codec sampleStealthAddress) ∧
      addRecipientOutputs sampleEnv stealth ⟨[], [], 0⟩ = .ok paid ∧
      ∃ dest, paid.vecSend[0]? = some (setDestination dest, 5) ∧ setDestination dest ≠ [] ∧
        (IsStealthFormat sampleEnv.codec sampleStealthAddress → ∃ sxAddr draw keys,
          sampleEnv.codec.setEncoded sampleStealthAddress = some sxAddr ∧
          stealthKeys sampleEnv.stealth sxAddr draw = some keys ∧ dest = .keyID keys.keyID) ∧
        (¬ StealthBranch sampleEnv stealth →
          dest = (sampleEnv.codec.bitcoinAddress sampleStealthAddress).Get) :=
  have standardAccepted : validateAddress sampleEnv.codec "A" = true := by decide
  have stealthAccepted : validateAddress sampleEnv.codec sampleStealthAddress = true := by decide
  have outputs : addRecipientOutputs sampleEnv ⟨sampleStealthAddress, "", "", 2, 5⟩ ⟨[], [], 0⟩ =
      .ok ⟨[(setDestination (.keyID [4]), 5), ([.op .opReturn, .push [5]], 0)], [], 1⟩ := rfl
  ⟨(stealth_dispatch_agrees sampleEnv ⟨"A", "", "", 1, 5⟩ standardAccepted).1 (by decide),
    (stealth_dispatch_agrees sampleEnv _ stealthAccepted).1 (by decide), outputs,
    (stealth_dispatch_agrees sampleEnv _ stealthAccepted).2 (fun _ => rfl) _ _ outputs⟩

/-- A stealth address sent with a `typeInd` other than `AT_Stealth` passes `validateAddress`,
yet the output loop drops through to the standard branch and pays the empty script that
`SetDestination` writes for `CNoDestination`, and the address book is updated under
`CNoDestination` rather than through `UpdateStealthAddress`. -/
theorem stealth_address_untyped_pays_nothing :
    let rcp : SendCoinsRecipient := ⟨sampleStealthAddress, "", "", 1, 5⟩
    validateAddress sampleEnv.codec rcp.address = true ∧
      IsStealthFormat sampleEnv.codec rcp.address ∧ ¬ StealthBranch sampleEnv rcp ∧
      addRecipientOutputs sampleEnv rcp ⟨[], [], 0⟩ = .ok ⟨[([], 5)], [], 0⟩ ∧
      (labelSentAddress sampleEnv rcp emptyWallet).2 = [.setAddressBookName .noDestination ""] :=
  ⟨by decide, by decide, by decide, rfl, by decide⟩

end AveroWallet
