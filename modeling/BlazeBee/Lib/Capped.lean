import Mathlib.Algebra.Order.Field.Basic
import Mathlib.Tactic.Ring

/-!
Geometric growth up to a cap.

`capped_succ`: capping at each step is capping at the end.
-/

namespace BlazeBee.Lib

variable {α : Type} [Field α] [LinearOrder α]

/-- The `n`-th value, from `a` on by the factor `r`, and never above `m`. -/
def capped (a r m : α) (n : Nat) : α := min (a * r ^ n) m

variable {a r m : α}

theorem capped_le (n : Nat) : capped a r m n ≤ m := min_le_right _ _

/-- The first delay is the initial one, as long as that is not above the maximum. -/
theorem capped_zero (below : a ≤ m) : capped a r m 0 = a := by
  rw [capped, pow_zero, mul_one, min_eq_left below]

variable [IsStrictOrderedRing α] (growing : 1 ≤ r)
include growing

/-- A delay is never shorter than the one before, since the ratio is at least one. -/
theorem capped_mono (start : 0 ≤ a) (n : Nat) : capped a r m n ≤ capped a r m (n + 1) := by
  refine min_le_min_right m ?_
  exact mul_le_mul_of_nonneg_left (pow_le_pow_right₀ growing (Nat.le_succ n)) start

/-- No delay is shorter than the initial one. -/
theorem le_capped (start : 0 ≤ a) (below : a ≤ m) (n : Nat) : a ≤ capped a r m n := by
  refine le_min ?_ below
  exact le_mul_of_one_le_right start (one_le_pow₀ growing)

/-- Capping after every step gives what capping at the end gives: a loop may keep the capped
delay alone. -/
theorem capped_succ (cap : 0 ≤ m) (n : Nat) :
    capped a r m (n + 1) = min (capped a r m n * r) m := by
  have grown : a * r ^ (n + 1) = a * r ^ n * r := by
    rw [pow_succ]
    ring
  have past : m ≤ m * r := le_mul_of_one_le_right cap growing
  simp only [capped, grown]
  rcases le_total (a * r ^ n) m with below | above
  · rw [min_eq_left below]
  · have beyond : m ≤ a * r ^ n * r :=
      past.trans (mul_le_mul_of_nonneg_right above (zero_le_one.trans growing))
    rw [min_eq_right above, min_eq_right past, min_eq_right beyond]

end BlazeBee.Lib
