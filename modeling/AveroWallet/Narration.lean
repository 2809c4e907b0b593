import AveroWallet.Outputs
import Mathlib.Data.List.InsertIdx
import Mathlib.Data.Nat.Digits
import Mathlib.Tactic.Ring

set_option autoImplicit false

/- The narration keys of stealth payments (lines 405-419). `mapStealthNarr` records each
narration under the position of its payment output in `vecSend`; once `CreateTransaction`
has inserted the change output at `nChangePos`, every position at or after it moves up by
one, and the narration is written to `wtx.mapValue` under `n_<position>`. -/
namespace AveroWallet

/-- The value of a string of decimal digits, most significant digit first. -/
def decimalValue : List Char → Nat
  | [] => 0
  | c :: cs => (c.toNat - 48) * 10 ^ cs.length + decimalValue cs

theorem digitChar_value (digit : Nat) (small : digit < 10) :
    (Nat.digitChar digit).toNat - 48 = digit := by
  have table : ∀ d < 10, (Nat.digitChar d).toNat - 48 = d := by decide
  exact table digit small

theorem decimalValue_toDigitsCore (fuel n : Nat) (acc : List Char) (enough : n < fuel) :
    decimalValue (Nat.toDigitsCore 10 fuel n acc) = n * 10 ^ acc.length + decimalValue acc := by
  induction fuel generalizing n acc with
  | zero => omega
  | succ fuel ih =>
    have digit := digitChar_value (n % 10) (Nat.mod_lt n (by omega))
    have split := Nat.div_add_mod n 10
    simp only [Nat.toDigitsCore]
    split_ifs with last
    · have single : n % 10 = n := Nat.mod_eq_of_lt (by omega)
      simp only [decimalValue, digit]
      rw [single]
    · rw [ih (n / 10) _ (by omega)]
      simp only [decimalValue, digit, List.length_cons, pow_succ]
      calc n / 10 * (10 ^ acc.length * 10) + (n % 10 * 10 ^ acc.length + decimalValue acc)
          = (10 * (n / 10) + n % 10) * 10 ^ acc.length + decimalValue acc := by ring
        _ = n * 10 ^ acc.length + decimalValue acc := by rw [split]

/-- Decimal printing is injective: it is read back by `decimalValue`. -/
theorem toString_injective : Function.Injective (toString : Nat → String) := by
  intro a b same
  have digits : Nat.toDigits 10 a = Nat.toDigits 10 b := congrArg String.data same
  have readBack (n : Nat) : decimalValue (Nat.toDigits 10 n) = n := by
    simpa [decimalValue] using decimalValue_toDigitsCore (n + 1) n [] (by omega)
  rw [← readBack a, ← readBack b, digits]

/-- The `mapValue` key of the narration of output `pos`: `snprintf(key, .., "n_%u", pos)`. -/
def narrationKey (pos : Nat) : String := "n_" ++ toString pos

theorem narrationKey_injective : Function.Injective narrationKey := by
  intro a b same
  apply toString_injective
  have data := congrArg String.data same
  simp only [narrationKey, String.data_append] at data
  exact String.ext (List.append_cancel_left data)

/-- Lines 408-410: an output position once the change output is inserted at `nChangePos`. -/
def shiftForChange (nChangePos : Int) (pos : Nat) : Nat :=
  if nChangePos > -1 ∧ (pos : Int) ≥ nChangePos then pos + 1 else pos

/-- Lines 405-419: the entries written into `wtx.mapValue`, one per entry of
`mapStealthNarr` in key order. -/
def narrationWrites (mapStealthNarr : List (Nat × String)) (nChangePos : Int) :
    List (String × String) :=
  mapStealthNarr.filterMap fun entry =>
    let pos := shiftForChange nChangePos entry.1
    let key := "n_" ++ toString pos
    if key.length < 1 then none else some (key, entry.2)

theorem narrationWrites_eq_map (mapStealthNarr : List (Nat × String)) (nChangePos : Int) :
    narrationWrites mapStealthNarr nChangePos =
      mapStealthNarr.map fun entry => (narrationKey (shiftForChange nChangePos entry.1), entry.2) := by
  unfold narrationWrites
  rw [← List.filterMap_eq_map]
  rfl

/-- The outputs of the created transaction as `CreateTransaction` reports them: `vecSend`
with the change output inserted at index `nChangePos`, or `vecSend` itself for -1. -/
def insertChange (nChangePos : Int) (change : CScript × Int64)
    (vecSend : List (CScript × Int64)) : List (CScript × Int64) :=
  if nChangePos = -1 then vecSend else vecSend.insertIdx nChangePos.toNat change

/-- A `vecSend` position moved past the change output still names the same output. -/
theorem getElem?_insertChange {nChangePos : Int} {vecSend : List (CScript × Int64)}
    (inRange : nChangePos = -1 ∨ 0 ≤ nChangePos ∧ nChangePos ≤ vecSend.length)
    (change : CScript × Int64) {pos : Nat} (inside : pos < vecSend.length) :
    (insertChange nChangePos change vecSend)[shiftForChange nChangePos pos]? = vecSend[pos]? := by
  rcases inRange with rfl | ⟨lower, upper⟩
  · simp [insertChange, shiftForChange]
  · have fits : nChangePos.toNat ≤ vecSend.length := by omega
    have longer := List.length_insertIdx (a := change) nChangePos.toNat vecSend fits
    simp only [insertChange, shiftForChange, show nChangePos ≠ -1 by omega, ↓reduceIte]
    by_cases after : (pos : Int) ≥ nChangePos
    · obtain ⟨k, rfl⟩ : ∃ k, pos = nChangePos.toNat + k := ⟨pos - nChangePos.toNat, by omega⟩
      have moved : nChangePos.toNat + k + 1 < (vecSend.insertIdx nChangePos.toNat change).length := by
        omega
      simp only [show nChangePos > -1 ∧ ((nChangePos.toNat + k : Nat) : Int) ≥ nChangePos by omega,
        and_self, ↓reduceIte, List.getElem?_eq_getElem inside, List.getElem?_eq_getElem moved]
      exact congrArg some (List.getElem_insertIdx_add_succ _ _ _ _ inside)
    · have kept : pos < (vecSend.insertIdx nChangePos.toNat change).length := by omega
      simp only [show ¬ (nChangePos > -1 ∧ (pos : Int) ≥ nChangePos) by omega, ↓reduceIte,
        List.getElem?_eq_getElem inside, List.getElem?_eq_getElem kept,
        List.getElem_insertIdx_of_lt _ _ _ _ (show pos < nChangePos.toNat by omega) inside]

theorem shiftForChange_ne (nChangePos : Int) (pos : Nat) :
    (shiftForChange nChangePos pos : Int) ≠ nChangePos := by
  unfold shiftForChange
  split_ifs <;> omega

theorem shiftForChange_strictMono (nChangePos : Int) : StrictMono (shiftForChange nChangePos) := by
  intro a b lt
  unfold shiftForChange
  split_ifs <;> omega

/-- Once the output loop has run, the writes are one per narrated stealth payment, in
recipient order, under the key of its final position. -/
theorem narrationWrites_of_built {env : SendEnv} {recipients : List SendCoinsRecipient}
    {loop : SendLoop} (built : buildVecSend env recipients ⟨[], [], 0⟩ = .ok loop)
    (nChangePos : Int) :
    narrationWrites loop.mapStealthNarr nChangePos =
      ((paymentPositions env recipients 0).filter (fun p => NarratedStealth env p.1)).map
        (fun p => (narrationKey (shiftForChange nChangePos p.2), p.1.narration)) := by
  obtain ⟨-, -, -, narr, -⟩ := buildVecSend_ok (by simp) built
  simp only [List.nil_append, List.length_nil] at narr
  rw [narrationWrites_eq_map, narr, List.map_map]
  rfl

/-- Distinct payments get distinct keys. -/
theorem narrationKeys_nodup (env : SendEnv) (recipients : List SendCoinsRecipient)
    (nChangePos : Int) :
    ((((paymentPositions env recipients 0).filter (fun p => NarratedStealth env p.1)).map
      (fun p => (narrationKey (shiftForChange nChangePos p.2), p.1.narration))).map Prod.fst).Nodup := by
  rw [List.map_map]
  apply List.pairwise_map.mpr
  refine ((paymentPositions_pairwise env recipients 0).filter _).imp fun lt same => ?_
  have := (shiftForChange_strictMono nChangePos).injective (narrationKey_injective same)
  exact absurd this (ne_of_lt lt)

/-- The narration keys `sendCoins` writes into `wtx.mapValue`, for every recipient list that
gets through the output loop and every change position `CreateTransaction` can report: one
key per narrated stealth recipient, in recipient order, naming the final index of its payment
output and mapping to its narration; the keys are distinct, and each names the output paying
the recipient's one-time key, never the change output. -/
theorem narrationWrites_name_payments {env : SendEnv} {recipients : List SendCoinsRecipient}
    {loop : SendLoop} (built : buildVecSend env recipients ⟨[], [], 0⟩ = .ok loop)
    (nChangePos : Int)
    (inRange : nChangePos = -1 ∨ 0 ≤ nChangePos ∧ nChangePos ≤ loop.vecSend.length)
    (change : CScript × Int64) :
    narrationWrites loop.mapStealthNarr nChangePos =
        ((paymentPositions env recipients 0).filter (fun p => NarratedStealth env p.1)).map
          (fun p => (narrationKey (shiftForChange nChangePos p.2), p.1.narration)) ∧
      ((narrationWrites loop.mapStealthNarr nChangePos).map Prod.fst).Nodup ∧
      ∀ p ∈ paymentPositions env recipients 0, NarratedStealth env p.1 →
        (shiftForChange nChangePos p.2 : Int) ≠ nChangePos ∧
        ∃ sxAddr draw keys, env.codec.setEncoded p.1.address = some sxAddr ∧
          stealthKeys env.stealth sxAddr draw = some keys ∧
          (insertChange nChangePos change loop.vecSend)[shiftForChange nChangePos p.2]? =
            some (setDestination (.keyID keys.keyID), p.1.amount) := by
  obtain ⟨blocks, layout, vecSend, -⟩ := buildVecSend_ok (by simp) built
  simp only [List.nil_append] at vecSend
  have writes := narrationWrites_of_built built nChangePos
  refine ⟨writes, writes ▸ narrationKeys_nodup env recipients nChangePos,
    fun p mem narrated => ⟨shiftForChange_ne _ _, ?_⟩⟩
  · obtain ⟨block, shape, found⟩ := getElem?_paymentPositions layout [] p mem
    obtain ⟨dest, head, stealth, -⟩ := shape.head?_eq
    obtain ⟨sxAddr, draw, keys, decoded, derived, rfl⟩ := stealth narrated.1
    have payment : loop.vecSend[p.2]? = some (setDestination (.keyID keys.keyID), p.1.amount) := by
      rw [vecSend, ← head]; simpa using found
    have inside : p.2 < loop.vecSend.length := by
      by_contra outside
      rw [List.getElem?_eq_none (by omega)] at payment
      cases payment
    exact ⟨sxAddr, draw, keys, decoded, derived, by
      rw [getElem?_insertChange inRange change inside, payment]⟩

/-- A narrated stealth payment is output 0; with the change output inserted before it, its
narration is written under `n_1`. -/
theorem narrationWrites_name_payments_sample :
    ∃ loop, buildVecSend sampleEnv [⟨sampleStealthAddress, "", "hi", 2, 5⟩] ⟨[], [], 0⟩ = .ok loop ∧
      narrationWrites loop.mapStealthNarr 0 = [("n_1", "hi")] := by
  obtain ⟨loop, built⟩ : ∃ loop,
      buildVecSend sampleEnv [⟨sampleStealthAddress, "", "hi", 2, 5⟩] ⟨[], [], 0⟩ = .ok loop :=
    ⟨_, rfl⟩
  refine ⟨loop, built, ?_⟩
  rw [(narrationWrites_name_payments built 0 (.inr ⟨le_refl 0, Int.natCast_nonneg _⟩)
    ([], 0)).1]
  decide

end AveroWallet
