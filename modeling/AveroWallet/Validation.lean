import AveroWallet.SendEnv
import Mathlib.Data.Finset.Card

set_option autoImplicit false

/- The validation phase of `WalletModel::sendCoins` (lines 214-242): the empty-list exit,
the per-recipient pre-check loop and the duplicate-address check. None of it reads or writes
the wallet. An early `return r` is `.error r`. -/
namespace AveroWallet

/-- The pre-check loop (lines 224-237): the address of each recipient, then its amount;
`setAddress` collects the addresses and `total` sums the amounts in `qint64`. -/
def validateRecipients (codec : AddressCodec) :
    List SendCoinsRecipient → Finset String → Int64 →
      Except SendCoinsReturn (Finset String × Int64)
  | [], setAddress, total => .ok (setAddress, total)
  | rcp :: rest, setAddress, total =>
    if !validateAddress codec rcp.address then .error StatusCode.invalidAddress
    else
      let setAddress := insert rcp.address setAddress
      if rcp.amount ≤ 0 then .error StatusCode.invalidAmount
      else validateRecipients codec rest setAddress (total + rcp.amount)

/-- Lines 214-242: `.error r` returns `r`, `.ok total` goes on to the balance checks. -/
def checkRecipients (codec : AddressCodec) (recipients : List SendCoinsRecipient) :
    Except SendCoinsReturn Int64 :=
  if recipients.isEmpty then .error StatusCode.ok
  else
    match validateRecipients codec recipients ∅ 0 with
    | .error status => .error status
    | .ok (setAddress, total) =>
      if recipients.length > setAddress.card then .error StatusCode.duplicateAddress
      else .ok total

/-- The status the loop stops with at one recipient, if it stops there: the address is
checked before the amount. -/
def rejection (codec : AddressCodec) (rcp : SendCoinsRecipient) : Option StatusCode :=
  if !validateAddress codec rcp.address then some .invalidAddress
  else if rcp.amount ≤ 0 then some .invalidAmount
  else none

/-- What the validation phase decides, stated over the whole list: `OK` for an empty list,
else the rejection of the first rejected recipient, else `DuplicateAddress` when two
addresses are equal; `none` lets the request through. -/
def validationOutcome (codec : AddressCodec) (recipients : List SendCoinsRecipient) :
    Option StatusCode :=
  if recipients = [] then some .ok
  else
    match recipients.findSome? (rejection codec) with
    | some status => some status
    | none =>
      if (recipients.map (·.address)).Nodup then none else some .duplicateAddress

/-- The loop either stops at the first rejected recipient, or has collected every address
and summed every amount. -/
theorem validateRecipients_eq (codec : AddressCodec) (recipients : List SendCoinsRecipient)
    (setAddress : Finset String) (total : Int64) :
    validateRecipients codec recipients setAddress total =
      match recipients.findSome? (rejection codec) with
      | some status => .error status
      | none => .ok (setAddress ∪ (recipients.map (·.address)).toFinset,
          (recipients.map (·.amount)).foldl (· + ·) total) := by
  induction recipients generalizing setAddress total with
  | nil => simp [validateRecipients]
  | cons rcp rest ih =>
    by_cases address : validateAddress codec rcp.address = true
    · by_cases amount : rcp.amount ≤ 0
      · simp [validateRecipients, rejection, address, amount]
      · have passes : rejection codec rcp = none := by simp [rejection, address, amount]
        simp only [validateRecipients, address, amount, Bool.not_true, Bool.false_eq_true,
          ↓reduceIte, ih, List.findSome?_cons, passes, List.map_cons, List.toFinset_cons,
          List.foldl_cons, Finset.insert_union, Finset.union_insert]
    · simp [validateRecipients, rejection, address]

theorem card_toFinset_lt_iff {addresses : List String} :
    addresses.toFinset.card < addresses.length ↔ ¬ addresses.Nodup := by
  have le := List.toFinset_card_le addresses
  have same : addresses.toFinset.card = addresses.length ↔ addresses.Nodup :=
    Multiset.toFinset_card_eq_card_iff_nodup (m := (addresses : Multiset String))
  rw [← same]
  omega

/-- The validation phase is `validationOutcome`; a request it lets through goes on with the
`qint64` sum of its amounts. -/
theorem checkRecipients_eq (codec : AddressCodec) (recipients : List SendCoinsRecipient) :
    checkRecipients codec recipients =
      match validationOutcome codec recipients with
      | some status => .error status
      | none => .ok ((recipients.map (·.amount)).foldl (· + ·) 0) := by
  unfold checkRecipients validationOutcome
  by_cases empty : recipients = []
  · subst empty; rfl
  · simp only [List.isEmpty_iff, empty, ↓reduceIte, validateRecipients_eq, Finset.empty_union]
    cases recipients.findSome? (rejection codec) with
    | some status => rfl
    | none =>
      have lt := @card_toFinset_lt_iff (recipients.map (·.address))
      rw [List.length_map] at lt
      by_cases nodup : (recipients.map (·.address)).Nodup <;> simp [lt, nodup]

theorem nodup_of_validationOutcome {codec : AddressCodec} {recipients : List SendCoinsRecipient}
    (passes : validationOutcome codec recipients = none) : (recipients.map (·.address)).Nodup := by
  unfold validationOutcome at passes
  split_ifs at passes with empty nodup
  · exact nodup
  · split at passes <;> cases passes

end AveroWallet
