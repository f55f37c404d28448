import Mathlib.Algebra.Order.Field.Rat
import Mathlib.Tactic.Common

/-!
Capped exponential backoff with jitter (`backoff.rs`). Seconds held in an `f64`
are read as exact rationals; the parameters may also be infinite or NaN.
-/

namespace BlazeBee.Transport

/-- An `f64` parameter. -/
inductive F64 where
  | finite (value : ℚ)
  | notFinite
deriving DecidableEq

/-- The parameters, the next delay before jitter, and the state of the generator. -/
structure Backoff where
  initial : ℚ
  max : ℚ
  factor : ℚ
  jitter : ℚ
  next : ℚ
  rng : UInt64
deriving DecidableEq

namespace Backoff

/-- `factor` below 1 is treated as 1; `max` below `initial` is raised to
`initial`. -/
def new (initial max : ℚ) (factor : F64) (seed : UInt64) : Backoff where
  initial := initial
  max := Max.max max initial
  factor := match factor with
    | .finite value => if 1 ≤ value then value else 1
    | .notFinite => 1
  jitter := 0
  next := initial
  rng := seed

/-- `fraction` is clamped to `0..=1/2`. -/
def withJitter (self : Backoff) (fraction : F64) : Backoff :=
  { self with jitter := match fraction with
    | .finite value => Max.max 0 (Min.min value (1 / 2))
    | .notFinite => 0 }

/-- One second doubling to sixty, with 20 % jitter. -/
def default (seed : UInt64) : Backoff := (new 1 60 (.finite 2) seed).withJitter (.finite (1 / 5))

/-- Restarts the sequence from the initial delay. -/
def reset (self : Backoff) : Backoff := { self with next := self.initial }

/-- xorshift64*. -/
def randomUnit (self : Backoff) : ℚ × Backoff :=
  let x := self.rng
  let x := x ^^^ (x >>> 12)
  let x := x ^^^ (x <<< 25)
  let x := x ^^^ (x >>> 27)
  let v := x * 0x2545F4914F6CDD1D
  (((v >>> 11).toNat : ℚ) / 2 ^ 53, { self with rng := x })

/-- The delay to wait before the next attempt. -/
def nextDelay (self : Backoff) : ℚ × Backoff :=
  let base := self.next
  let self := { self with next := Min.min (base * self.factor) self.max }
  if self.jitter = 0 then (base, self)
  else
    let (unit, self) := self.randomUnit
    (base * (1 + self.jitter * (2 * unit - 1)), self)

end Backoff

end BlazeBee.Transport
