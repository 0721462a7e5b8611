import Mathlib.Algebra.Order.Ring.Nat

/-!
# Batches of 64-bit numbers

An interval of numbers is cut into batches of one size, from its lower end on; the last batch may be
shorter.

* `overflowingAdd`, `overflowingSub` — wrapping arithmetic that reports whether it left the range;
* `roundedEnd` — where the last batch would end if it were not shorter, which is all that 64-bit
  arithmetic has to hold;
* `roundedEnd_next`, `roundedEnd_last` — what becomes of it from one batch to the next.
-/

set_option autoImplicit false

namespace XLayerReth.Lib

/-! ## Arithmetic that reports overflow -/

/-- `overflowing_add`. -/
def overflowingAdd (a b : UInt64) : UInt64 × Bool := (a + b, decide (2 ^ 64 ≤ a.toNat + b.toNat))

/-- `overflowing_sub`. -/
def overflowingSub (a b : UInt64) : UInt64 × Bool := (a - b, decide (a < b))

variable {a b : UInt64}

theorem overflowingAdd_fits : (overflowingAdd a b).2 = false ↔ a.toNat + b.toNat < 2 ^ 64 := by
  unfold overflowingAdd
  rw [decide_eq_false_iff_not, Nat.not_le]

theorem overflowingSub_fits : (overflowingSub a b).2 = false ↔ b.toNat ≤ a.toNat := by
  unfold overflowingSub
  rw [decide_eq_false_iff_not, UInt64.lt_iff_toNat_lt, Nat.not_lt]

theorem toNat_overflowingAdd (h : a.toNat + b.toNat < 2 ^ 64) :
    (overflowingAdd a b).1.toNat = a.toNat + b.toNat := by
  show (a + b).toNat = _
  rw [UInt64.toNat_add, Nat.mod_eq_of_lt h]

theorem toNat_overflowingSub (h : b.toNat ≤ a.toNat) :
    (overflowingSub a b).1.toNat = a.toNat - b.toNat :=
  UInt64.toNat_sub_of_le a b (UInt64.le_iff_toNat_le.mpr h)

theorem toNat_min (a b : UInt64) : (min a b).toNat = min a.toNat b.toNat := by
  show (if a ≤ b then a else b).toNat = _
  by_cases h : a ≤ b
  · rw [if_pos h, Nat.min_eq_left (UInt64.le_iff_toNat_le.mp h)]
  · rw [if_neg h, Nat.min_eq_right (by rw [UInt64.le_iff_toNat_le] at h; omega)]

/-! ## Batches -/

/-- The end of the last batch of the interval from `lo` to `hi`, rounded up to a whole batch. -/
def roundedEnd (size lo hi : Nat) : Nat := lo + ((hi - lo) / size + 1) * size

variable {size lo hi : Nat}

/-- A batch before the last one leaves it. -/
theorem roundedEnd_next (hsize : 0 < size) (h : lo + size ≤ hi) :
    roundedEnd size (lo + size) hi = roundedEnd size lo hi := by
  unfold roundedEnd
  have hsplit : hi - lo = hi - (lo + size) + size := by omega
  rw [hsplit, Nat.add_div_right _ hsize, Nat.succ_mul, Nat.succ_mul, Nat.succ_mul]
  omega

/-- The last batch ends there. -/
theorem roundedEnd_last (hsize : hi < lo + size) (h : lo ≤ hi) :
    roundedEnd size lo hi = lo + size := by
  unfold roundedEnd
  rw [Nat.div_eq_of_lt (by omega), Nat.zero_add, Nat.one_mul]

/-- No batch ends after it. -/
theorem add_le_roundedEnd (size lo hi : Nat) : lo + size ≤ roundedEnd size lo hi := by
  unfold roundedEnd
  rw [Nat.succ_mul]
  omega

theorem lt_roundedEnd (hsize : 0 < size) (lo hi : Nat) : hi < roundedEnd size lo hi := by
  have h : hi - lo < size * ((hi - lo) / size + 1) := Nat.lt_mul_div_succ (hi - lo) hsize
  unfold roundedEnd
  rw [Nat.mul_comm]
  omega

end XLayerReth.Lib
