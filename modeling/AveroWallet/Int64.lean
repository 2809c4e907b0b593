import Mathlib.Data.Int.Defs
import Mathlib.Algebra.Order.BigOperators.Group.List
import Mathlib.Algebra.Ring.Int.Defs

set_option autoImplicit false

/- Signed 64-bit amounts. `walletmodel.cpp` keeps every amount and balance in `qint64` or
`int64_t` and adds them with the machine's wrapping addition; exact sums are kept in `Int`
beside them, so that a statement can say when the two agree. -/
namespace AveroWallet

/-- Two's-complement reduction of an exact integer into the `int64_t` range: what a
compiled `+` or `+=` on two `int64_t` values stores. -/
def wrap64 (x : Int) : Int := (x + 2 ^ 63) % 2 ^ 64 - 2 ^ 63

theorem wrap64_lower (x : Int) : -2 ^ 63 ≤ wrap64 x := by unfold wrap64; omega

theorem wrap64_upper (x : Int) : wrap64 x < 2 ^ 63 := by unfold wrap64; omega

theorem wrap64_of_fits {x : Int} (lower : -2 ^ 63 ≤ x) (upper : x < 2 ^ 63) :
    wrap64 x = x := by
  unfold wrap64; omega

/-- A value of C++ `int64_t` (Qt's `qint64`). -/
structure Int64 where
  val : Int
  lower : -2 ^ 63 ≤ val
  upper : val < 2 ^ 63
deriving DecidableEq

namespace Int64

/-- The conversion of an exact integer to `int64_t`. -/
def ofInt (x : Int) : Int64 := ⟨wrap64 x, wrap64_lower x, wrap64_upper x⟩

instance (n : Nat) : OfNat Int64 n := ⟨ofInt n⟩

instance : Add Int64 := ⟨fun a b => ofInt (a.val + b.val)⟩

instance : LT Int64 := ⟨fun a b => a.val < b.val⟩

instance : LE Int64 := ⟨fun a b => a.val ≤ b.val⟩

instance (a b : Int64) : Decidable (a < b) := inferInstanceAs (Decidable (a.val < b.val))

instance (a b : Int64) : Decidable (a ≤ b) := inferInstanceAs (Decidable (a.val ≤ b.val))

@[simp] theorem val_add (a b : Int64) : (a + b).val = wrap64 (a.val + b.val) := rfl

@[simp] theorem lt_iff (a b : Int64) : a < b ↔ a.val < b.val := Iff.rfl

@[simp] theorem le_iff (a b : Int64) : a ≤ b ↔ a.val ≤ b.val := Iff.rfl

@[simp] theorem val_zero : (0 : Int64).val = 0 := by decide

theorem ext_val {a b : Int64} (same : a.val = b.val) : a = b := by
  cases a; cases b; cases same; rfl

/-- The machine sum is the exact sum whenever the exact sum is a 64-bit value. -/
theorem val_add_of_fits (a b : Int64) (lower : -2 ^ 63 ≤ a.val + b.val)
    (upper : a.val + b.val < 2 ^ 63) : (a + b).val = a.val + b.val := by
  rw [val_add, wrap64_of_fits lower upper]

/-- Accumulating non-negative values, as the `total +=` and `nBalance +=` loops do, is exact
as long as the exact final sum is a 64-bit value: no partial sum can wrap before it. -/
theorem foldl_add_val (xs : List Int64) (acc : Int64) (nonneg : ∀ x ∈ xs, 0 ≤ x.val)
    (fits : acc.val + (xs.map val).sum < 2 ^ 63) :
    (xs.foldl (· + ·) acc).val = acc.val + (xs.map val).sum := by
  induction xs generalizing acc with
  | nil => simp
  | cons x rest ih =>
    have head : 0 ≤ x.val := nonneg x (List.mem_cons_self x rest)
    have restNonneg : 0 ≤ (rest.map val).sum :=
      List.sum_nonneg fun y hy => by
        obtain ⟨z, hz, rfl⟩ := List.mem_map.mp hy
        exact nonneg z (List.mem_cons_of_mem x hz)
    simp only [List.map_cons, List.sum_cons, List.foldl_cons] at fits ⊢
    have step := val_add_of_fits acc x (by have := acc.lower; omega) (by omega)
    rw [ih (acc + x) (fun y hy => nonneg y (List.mem_cons_of_mem x hy)) (by omega), step]
    omega

end Int64

end AveroWallet
