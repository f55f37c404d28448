import BlazeBee.Transport.Reconnect
import Mathlib.Algebra.Order.Ring.Unbundled.Rat
import Mathlib.Data.NNRat.Defs

/-!
The delays of a backoff, over any calls of `next_delay` and `reset`.

The base delay is advanced before the jitter is applied, so the jitter of one delay is not
in the next. `delay_bounds`: what a call returns, after any calls before it.
-/

namespace BlazeBee.Transport

open BlazeBee.Lib

namespace Backoff

/-- The two calls that the driver makes on its backoff. -/
inductive Call where
  | nextDelay
  | reset
deriving DecidableEq, Repr

def call (self : Backoff) : Call → Backoff
  | .nextDelay => self.nextDelay.2
  | .reset => self.reset

/-- The backoff after a sequence of calls. -/
def after (self : Backoff) (calls : List Call) : Backoff := calls.foldl call self

/-- The calls of `next_delay` since the last `reset`, after one more call. -/
def countCall (n : Nat) : Call → Nat
  | .nextDelay => n + 1
  | .reset => 0

/-- How often a delay was drawn since the last reset. -/
def delaysSinceReset (calls : List Call) : Nat := calls.foldl countCall 0

theorem after_concat (self : Backoff) (calls : List Call) (call : Call) :
    self.after (calls ++ [call]) = (self.after calls).call call := by
  simp [after]

theorem delaysSinceReset_concat (calls : List Call) (call : Call) :
    delaysSinceReset (calls ++ [call]) = countCall (delaysSinceReset calls) call := by
  simp [delaysSinceReset]

/-- The factor, if it is a number from 1 on, and else 1. -/
def growth : F64 → ℚ
  | .finite value => if 1 ≤ value then value else 1
  | .notFinite => 1

/-- The fraction, clamped to `0..=1/2`; 0 if it is no number. -/
def swing : F64 → ℚ
  | .finite value => Max.max 0 (Min.min value (1 / 2))
  | .notFinite => 0

/-- The delay before jitter, after `n` delays. -/
def baseDelay (initial max : ℚ) (factor : F64) (n : Nat) : ℚ :=
  Min.min (initial * growth factor ^ n) (Max.max max initial)

/-- The base delay never shrinks. -/
theorem one_le_growth (factor : F64) : 1 ≤ growth factor := by
  cases factor with
  | notFinite => exact le_rfl
  | finite value =>
      rw [growth]
      split_ifs with large
      · exact large
      · exact le_rfl

/-- The jitter is at most a half, so no delay becomes negative. -/
theorem swing_bounds (fraction : F64) : 0 ≤ swing fraction ∧ swing fraction ≤ 1 / 2 := by
  cases fraction with
  | notFinite => exact ⟨le_rfl, by norm_num [swing]⟩
  | finite value => exact ⟨le_max_left _ _, max_le (by norm_num) (min_le_right _ _)⟩

/-- A backoff with these parameters, after `n` delays. -/
structure AfterDelays (initial max : ℚ) (factor fraction : F64) (n : Nat) (backoff : Backoff) :
    Prop where
  initial_eq : backoff.initial = initial
  max_eq : backoff.max = Max.max max initial
  factor_eq : backoff.factor = growth factor
  jitter_eq : backoff.jitter = swing fraction
  next_eq : backoff.next = baseDelay initial max factor n

section Run

variable {initial max : ℚ} {factor fraction : F64} {n : Nat} {backoff : Backoff}

theorem baseDelay_zero : baseDelay initial max factor 0 = initial := capped_zero (le_max_right _ _)

/-- A new backoff has drawn no delay. -/
theorem afterDelays_new (seed : UInt64) :
    AfterDelays initial max factor fraction 0
      ((new initial max factor seed).withJitter fraction) where
  initial_eq := rfl
  max_eq := rfl
  factor_eq := rfl
  jitter_eq := rfl
  next_eq := baseDelay_zero.symm

/-- A reset starts over with the same parameters. -/
theorem AfterDelays.reset (state : AfterDelays initial max factor fraction n backoff) :
    AfterDelays initial max factor fraction 0 backoff.reset where
  initial_eq := state.initial_eq
  max_eq := state.max_eq
  factor_eq := state.factor_eq
  jitter_eq := state.jitter_eq
  next_eq := state.initial_eq.trans baseDelay_zero.symm

/-- A delay moves the base one factor on, up to the cap. -/
theorem AfterDelays.nextDelay (state : AfterDelays initial max factor fraction n backoff)
    (start : 0 ≤ initial) :
    AfterDelays initial max factor fraction (n + 1) backoff.nextDelay.2 := by
  obtain ⟨rng, after⟩ := nextDelay_frame backoff
  have cap : 0 ≤ Max.max max initial := start.trans (le_max_right _ _)
  have advanced : baseDelay initial max factor (n + 1) =
      Min.min (baseDelay initial max factor n * growth factor) (Max.max max initial) :=
    capped_succ (one_le_growth factor) cap n
  rw [after]
  refine ⟨state.initial_eq, state.max_eq, state.factor_eq, state.jitter_eq, ?_⟩
  rw [advanced, state.next_eq, state.factor_eq, state.max_eq]

/-- A call of either kind keeps the backoff where the number of delays says. -/
theorem AfterDelays.call (state : AfterDelays initial max factor fraction n backoff)
    (start : 0 ≤ initial) (call : Call) :
    AfterDelays initial max factor fraction (countCall n call) (backoff.call call) := by
  cases call with
  | nextDelay => exact state.nextDelay start
  | reset => exact state.reset

/-- So does any sequence of calls, from a new backoff on. -/
theorem afterDelays (start : 0 ≤ initial) (seed : UInt64) (calls : List Call) :
    AfterDelays initial max factor fraction (delaysSinceReset calls)
      (((new initial max factor seed).withJitter fraction).after calls) := by
  induction calls using List.reverseRecOn with
  | nil => exact afterDelays_new seed
  | append_singleton calls call ih =>
      rw [after_concat, delaysSinceReset_concat]
      exact ih.call start call

end Run

/-- The delay after any calls, by the number of delays since the last reset. -/
theorem delay_bounds (initial max : NNRat) (factor fraction : F64) (seed : UInt64)
    (calls : List Call) :
    let backoff := ((new initial max factor seed).withJitter fraction).after calls
    let delay := backoff.nextDelay.1
    let n := delaysSinceReset calls
    let base := baseDelay initial max factor
    let cap : ℚ := Max.max max initial
    (base n * (1 - swing fraction) ≤ delay ∧ delay ≤ base n * (1 + swing fraction)) ∧
      backoff.next = base n ∧ base n ≤ base (n + 1) ∧ (initial ≤ base n ∧ base n ≤ cap) ∧
      0 ≤ delay ∧ delay ≤ 3 / 2 * cap := by
  intro backoff delay n base cap
  have start : (0 : ℚ) ≤ initial := initial.coe_nonneg
  have below : (initial : ℚ) ≤ cap := le_max_right _ _
  have growing := one_le_growth factor
  have state := @afterDelays _ max factor fraction start seed calls
  have low : (initial : ℚ) ≤ base n := le_capped growing start below n
  have high : base n ≤ cap := capped_le n
  have mono : base n ≤ base (n + 1) := capped_mono growing start n
  obtain ⟨no_swing, half⟩ := swing_bounds fraction
  have next : backoff.next = base n := state.next_eq
  have jitter : backoff.jitter = swing fraction := state.jitter_eq
  obtain ⟨least, most⟩ := nextDelay_bounds backoff (by rw [next]; exact start.trans low)
    (by rw [jitter]; exact no_swing)
  rw [next, jitter] at least most
  have positive : 0 ≤ base n := start.trans low
  refine ⟨⟨least, most⟩, next, mono, ⟨low, high⟩, ?_, ?_⟩
  · exact (mul_nonneg positive (by linarith)).trans least
  · calc delay ≤ base n * (1 + swing fraction) := most
      _ ≤ base n * (3 / 2) := mul_le_mul_of_nonneg_left (by linarith) positive
      _ ≤ 3 / 2 * cap := by linarith

end Backoff

end BlazeBee.Transport
