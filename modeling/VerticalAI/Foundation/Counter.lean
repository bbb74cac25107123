import Mathlib.Data.Nat.Basic
import Mathlib.Order.Defs.LinearOrder

/-! Counters of 64 bits: what counting on means for the number in them, as long as it does not wrap.
-/

namespace VerticalAI.Foundation.Counter

/-- The counter can be counted on once more without wrapping. -/
def HasNext (counter : UInt64) : Prop := counter.toNat + 1 < UInt64.size

instance (counter : UInt64) : Decidable (HasNext counter) :=
  inferInstanceAs (Decidable (counter.toNat + 1 < UInt64.size))

/-- Where so many more numbers are left, counting on by them adds them. -/
theorem toNat_add {counter count : UInt64} (room : counter.toNat + count.toNat < UInt64.size)
    : (counter + count).toNat = counter.toNat + count.toNat := by
  rw [UInt64.toNat_add]
  exact Nat.mod_eq_of_lt room

/-- Below the last number, the next one is one more. -/
theorem toNat_succ {counter : UInt64} (room : HasNext counter)
    : (counter + 1).toNat = counter.toNat + 1 :=
  toNat_add room

/-- Whether it wraps or not, it is counted on by one at most. -/
theorem toNat_succ_le (counter : UInt64) : (counter + 1).toNat ≤ counter.toNat + 1 := by
  rw [UInt64.toNat_add]
  exact Nat.mod_le _ _

/-- Below the last number, counting on goes up. -/
theorem lt_succ {counter : UInt64} (room : HasNext counter) : counter < counter + 1 := by
  rw [UInt64.lt_iff_toNat_lt, toNat_succ room]
  exact Nat.lt_succ_self _

/-- What is not above a counter is not above the next number. -/
theorem le_succ_of_le {counter number : UInt64} (room : HasNext counter) (below : number ≤ counter)
    : number ≤ counter + 1 := by
  rw [UInt64.le_iff_toNat_le] at below ⊢
  rw [toNat_succ room]
  exact Nat.le_succ_of_le below

/-- The difference that counting on once makes, wrapped or not. -/
theorem succ_sub_self (counter : UInt64) : counter + 1 - counter = 1 := by
  rw [UInt64.add_comm, UInt64.add_sub_cancel]

/-- The higher of two numbers. -/
theorem toNat_max (first second : UInt64)
    : (max first second).toNat = max first.toNat second.toNat := by
  change (if first ≤ second then second else first).toNat = _
  split
  · next above => exact (Nat.max_eq_right (UInt64.le_iff_toNat_le.mp above)).symm
  · next below =>
      rw [UInt64.not_le, UInt64.lt_iff_toNat_lt] at below
      exact (Nat.max_eq_left (Nat.le_of_lt below)).symm

theorem le_max_left (first second : UInt64) : first ≤ max first second := by
  rw [UInt64.le_iff_toNat_le, toNat_max]
  exact Nat.le_max_left _ _

theorem le_max_right (first second : UInt64) : second ≤ max first second := by
  rw [UInt64.le_iff_toNat_le, toNat_max]
  exact Nat.le_max_right _ _

end VerticalAI.Foundation.Counter
