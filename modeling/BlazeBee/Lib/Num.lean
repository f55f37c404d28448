import Mathlib.Algebra.Order.Floor.Div
import Mathlib.Tactic.Ring

/-!
Integer operations of the Rust standard library whose result depends on a range
check, over `Nat`.
-/

namespace BlazeBee.Lib.Num

/-- `usize::checked_sub`. -/
def checkedSub (a b : Nat) : Option Nat := if b ≤ a then some (a - b) else none

/-- A subtraction succeeds exactly if it does not go below zero. -/
@[simp] theorem checkedSub_eq_some_iff {a b n : Nat} :
    checkedSub a b = some n ↔ b ≤ a ∧ a - b = n := by
  simp [checkedSub]

/-- And it fails exactly if it does. -/
@[simp] theorem checkedSub_eq_none_iff {a b : Nat} : checkedSub a b = none ↔ a < b := by
  simp [checkedSub]

/-- `u32::MAX`. -/
def u32Max : Nat := 4294967295

/-- `u32::try_from`. -/
def u32TryFrom (n : Nat) : Option UInt32 := if n ≤ u32Max then some (UInt32.ofNat n) else none

/-- A number is refused exactly if it is above the maximum. -/
@[simp] theorem u32TryFrom_eq_none_iff {n : Nat} : u32TryFrom n = none ↔ u32Max < n := by
  simp [u32TryFrom]

/-- Below the bound a cast to `u32` keeps the number. -/
theorem toNat_ofNat_of_le {n : Nat} (le : n ≤ u32Max) : (UInt32.ofNat n).toNat = n := by
  unfold u32Max at le
  simp only [UInt32.toNat_ofNat']
  omega

/-! ### Saturating operations -/

/-- `u64::saturating_sub`. -/
def u64SaturatingSub (a b : UInt64) : UInt64 := if b ≤ a then a - b else 0

/-- `u32::saturating_sub`. -/
def u32SaturatingSub (a b : UInt32) : UInt32 := if b ≤ a then a - b else 0

/-- `u64::saturating_mul`. -/
def u64SaturatingMul (a b : UInt64) : UInt64 :=
  if a.toNat * b.toNat < 18446744073709551616 then a * b else 18446744073709551615

/-! ### Rounded-up division -/

/-- `usize::div_ceil`: the quotient `a / b`, rounded up. -/
def divCeil (a b : Nat) : Nat := if a % b = 0 then a / b else a / b + 1

/-- `divCeil a b` is the least number of pieces of size `b` that cover `a`. -/
theorem divCeil_le_iff {a b k : Nat} (pos : 0 < b) : divCeil a b ≤ k ↔ a ≤ k * b := by
  have quotient := Nat.div_add_mod' a b
  unfold divCeil
  split_ifs with whole
  · rw [whole, Nat.add_zero] at quotient
    rw [← Nat.mul_le_mul_right_iff pos, quotient]
  · rw [Nat.succ_le_iff, Nat.div_lt_iff_lt_mul pos]
    constructor
    · exact Nat.le_of_lt
    · intro le
      refine Nat.lt_of_le_of_ne le fun eq => whole ?_
      rw [eq, Nat.mul_mod_left]

/-- An index is below the rounded quotient exactly if its multiple is below the dividend: the
quotient counts the pieces that begin in it. -/
theorem lt_divCeil_iff {a b k : Nat} (pos : 0 < b) : k < divCeil a b ↔ k * b < a := by
  rw [← Nat.not_le, divCeil_le_iff pos, Nat.not_le]

/-- The rounded quotient is the one of the library. -/
theorem divCeil_eq_ceilDiv {a b : Nat} (pos : 0 < b) : divCeil a b = a ⌈/⌉ b := by
  refine eq_of_forall_ge_iff fun k => ?_
  rw [divCeil_le_iff pos, ceilDiv_le_iff_le_mul pos, Nat.mul_comm]

/-- So many pieces cover the whole. -/
theorem le_divCeil_mul {b : Nat} (pos : 0 < b) (a : Nat) : a ≤ divCeil a b * b :=
  (divCeil_le_iff pos).mp (Nat.le_refl _)

/-- Something needs a piece at least. -/
theorem divCeil_pos {a b : Nat} (posA : 0 < a) (posB : 0 < b) : 0 < divCeil a b := by
  by_contra zero
  have le : a ≤ 0 * b := (divCeil_le_iff posB).mp (Nat.le_of_not_lt zero)
  omega

/-- The call itself: a divisor of zero is a panic. -/
def divCeilOrPanic (a b : Nat) : Option Nat := if b = 0 then none else some (divCeil a b)

/-- A divisor that is not zero does not panic. -/
theorem divCeilOrPanic_of_pos {a b : Nat} (pos : 0 < b) :
    divCeilOrPanic a b = some (divCeil a b) := by
  rw [divCeilOrPanic, if_neg (Nat.ne_of_gt pos)]

end BlazeBee.Lib.Num
