import BlazeBee.Lib.Gf2
import BlazeBee.Transport.Delays
import Mathlib.Data.List.Prime
import Mathlib.Tactic.NormNum.Prime

/-!
The random numbers of the jitter.

The generator is xorshift64*: three shifts on the state, and a product for the output. The
shifts commute with `^^^`, and every state but zero comes back after 2^64 - 1 calls and not
before.

* `minimalPeriod_xorshift`: the period.
* `jitter_generator`: the state is never zero, and the unit never stays the same.
-/

namespace BlazeBee.Transport

open BlazeBee.Lib.Gf2

namespace Backoff

/-- The seed, from what the keyed hasher gives. -/
def seed (hash : UInt64) : UInt64 := if hash = 0 then 0x9E3779B97F4A7C15 else hash

/-- The update of the state in `random_unit`. -/
def xorshift (x : UInt64) : UInt64 :=
  let x := x ^^^ (x >>> 12)
  let x := x ^^^ (x <<< 25)
  x ^^^ (x >>> 27)

/-- `v >> 11` in `random_unit`. -/
def numerator (self : Backoff) : UInt64 := (xorshift self.rng * 0x2545F4914F6CDD1D) >>> 11

/-- A draw, by the parts that the lemmas below speak of. -/
theorem randomUnit_eq (self : Backoff) :
    self.randomUnit =
      ((self.numerator.toNat : ℚ) / 2 ^ 53, { self with rng := xorshift self.rng }) :=
  rfl

/-! ### The period -/

/-- The update, on bit vectors. -/
def shifts (x : BitVec 64) : BitVec 64 :=
  let x := x ^^^ (x >>> 12)
  let x := x ^^^ (x <<< 25)
  x ^^^ (x >>> 27)

/-- The update does to the bits of a word what its formula says. -/
theorem toBitVec_xorshift (x : UInt64) : (xorshift x).toBitVec = shifts x.toBitVec := rfl

/-- Shifts and exclusive or are linear over the field of two elements, and so is the
update. -/
theorem linear_shifts : Linear shifts :=
  ((linear_xor_ushiftRight 27).comp (linear_xor_shiftLeft 25)).comp (linear_xor_ushiftRight 12)

/-- The characteristic polynomial of the update. -/
def characteristic : Nat := 18453700935701797745

/-- The polynomial vanishes at the update on the 64 words with a single bit set, which is a
matter of computing. -/
theorem root_basis : ∀ i < 64, act shifts 65 characteristic (BitVec.twoPow 64 i) = 0#64 := by
  decide +kernel

/-- So it vanishes everywhere, since it is linear. -/
theorem annihilates : Annihilates shifts characteristic where
  lt := by decide +kernel
  top := by decide +kernel
  root := eq_zero_of_basis (act_xor linear_shifts 65 characteristic) root_basis

/-- The order of the group of words other than zero. -/
def order : Nat := 18446744073709551615

/-- The root of the polynomial has an order that divides 2^64 - 1. -/
theorem power_order : power characteristic 64 64 2 order = 1 := by decide +kernel

/-- The prime factors of the order, with the inverse of the power that belongs to each, less
one. -/
def tests : List (Nat × Nat) :=
  [(3, 6982573358161762488), (5, 3313899723189181131), (17, 1016330942154151095),
    (257, 1816094620514011043), (641, 5969494788886631151), (65537, 7936406919433075362),
    (6700417, 8628105096296427465)]

/-- No power of it that belongs to a prime factor is 1: each, less one, has an inverse. -/
theorem tests_inverse : ∀ test ∈ tests,
    mul characteristic 64 64 test.2 (power characteristic 64 64 2 (order / test.1) ^^^ 1) = 1 := by
  decide +kernel

/-- The table has all the prime factors of the order. -/
theorem tests_complete {q : Nat} (prime : q.Prime) (divides : q ∣ order) :
    ∃ c, (q, c) ∈ tests := by
  have product : order = (tests.map Prod.fst).prod := by decide +kernel
  have primes : ∀ test ∈ tests, test.1.Prime := by
    simp only [tests, List.forall_mem_cons]
    norm_num
  rw [product] at divides
  obtain ⟨p, mem, divides⟩ := (Prime.dvd_prod_iff prime.prime).mp divides
  obtain ⟨test, inside, rfl⟩ := List.mem_map.mp mem
  obtain rfl := (Nat.prime_dvd_prime_iff_eq prime (primes test inside)).mp divides
  exact ⟨test.2, inside⟩

/-- Every word but zero runs through all of them before it comes back. -/
theorem minimalPeriod_shifts {x : BitVec 64} (nonzero : x ≠ 0#64) :
    Function.minimalPeriod shifts x = order := by
  refine minimalPeriod_eq linear_shifts annihilates (by decide) (k := 64) (by decide) power_order
    (fun q prime divides => ?_) nonzero
  obtain ⟨c, mem⟩ := tests_complete prime divides
  exact ⟨c, tests_inverse _ mem⟩

/-- A map with a power that is the identity can be undone. -/
theorem injective_shifts : Function.Injective shifts :=
  injective_of_iterate linear_shifts annihilates (by decide) (k := 64) (by decide) power_order
    (by decide)

/-! ### The update on `u64` -/

/-- Two states with the same successor are the same. -/
theorem xorshift_injective : Function.Injective xorshift := by
  intro x y same
  have bits := congrArg UInt64.toBitVec same
  rw [toBitVec_xorshift, toBitVec_xorshift] at bits
  exact UInt64.toBitVec_inj.mp (injective_shifts bits)

/-- Zero stays zero, and nothing else becomes zero. -/
theorem xorshift_eq_zero_iff (x : UInt64) : xorshift x = 0 ↔ x = 0 := by
  have zero : xorshift 0 = 0 := rfl
  constructor
  · intro vanishes
    exact xorshift_injective (vanishes.trans zero.symm)
  · rintro rfl
    exact zero

/-- Any number of updates does to the bits what the formula says so many times. -/
theorem toBitVec_iterate (n : Nat) (x : UInt64) :
    (xorshift^[n] x).toBitVec = shifts^[n] x.toBitVec := by
  induction n generalizing x with
  | zero => rfl
  | succ n ih =>
      rw [Function.iterate_succ_apply, Function.iterate_succ_apply, ih, toBitVec_xorshift]

/-- Every state but zero comes back after 2^64 - 1 calls, and not before. -/
theorem minimalPeriod_xorshift {x : UInt64} (nonzero : x ≠ 0) :
    Function.minimalPeriod xorshift x = order := by
  have nonzero : x.toBitVec ≠ 0#64 := fun zero => nonzero (UInt64.toBitVec_inj.mp zero)
  rw [← minimalPeriod_shifts nonzero, Function.minimalPeriod_eq_minimalPeriod_iff]
  intro n
  rw [Function.IsPeriodicPt, Function.IsPeriodicPt, Function.IsFixedPt, Function.IsFixedPt,
    ← toBitVec_iterate]
  exact UInt64.toBitVec_inj.symm

/-- From a state other than zero, zero is never reached. -/
theorem iterate_ne_zero {x : UInt64} (nonzero : x ≠ 0) (n : Nat) : xorshift^[n] x ≠ 0 := by
  induction n with
  | zero => exact nonzero
  | succ n ih =>
      rw [Function.iterate_succ_apply']
      exact mt (xorshift_eq_zero_iff _).mp ih

/-! ### The output -/

/-- The multiplier is odd, so the product can be undone. -/
theorem product_injective : Function.Injective fun x : UInt64 => x * 0x2545F4914F6CDD1D := by
  have inverse : (0x2545F4914F6CDD1D : UInt64) * 6415128727920758069 = 1 := by decide
  intro x y same
  have undo : ∀ x : UInt64, x * 0x2545F4914F6CDD1D * 6415128727920758069 = x := fun x => by
    rw [UInt64.mul_assoc, inverse, UInt64.mul_one]
  have again := congrArg (· * 6415128727920758069) same
  beta_reduce at again
  rwa [undo, undo] at again

/-- The bits that the shift drops. -/
def dropped (v : UInt64) : Fin 2048 := ⟨v.toNat % 2048, Nat.mod_lt _ (by decide)⟩

/-- A word is what the shift leaves and what it drops. -/
theorem eq_of_shift_of_dropped {v v' : UInt64} (shift : v >>> 11 = v' >>> 11)
    (low : dropped v = dropped v') : v = v' := by
  have high := congrArg UInt64.toNat shift
  have low := Fin.val_eq_of_eq low
  have eleven : (11 : UInt64).toNat % 64 = 11 := rfl
  simp only [UInt64.toNat_shiftRight, eleven, Nat.shiftRight_eq_div_pow] at high
  simp only [dropped] at low
  apply UInt64.toNat_inj.mp
  omega

/-- The numerator has 53 bits, as many as an `f64` holds exactly. -/
theorem numerator_lt (self : Backoff) : self.numerator.toNat < 2 ^ 53 := by
  have size := (xorshift self.rng * 0x2545F4914F6CDD1D).toNat_lt
  have eleven : (11 : UInt64).toNat % 64 = 11 := rfl
  rw [numerator, UInt64.toNat_shiftRight, eleven, Nat.shiftRight_eq_div_pow]
  omega

/-- The unit is in `[0, 1)`. -/
theorem unit_bounds (self : Backoff) : 0 ≤ self.randomUnit.1 ∧ self.randomUnit.1 < 1 := by
  rw [randomUnit_eq]
  constructor
  · exact div_nonneg (Nat.cast_nonneg _) (by norm_num)
  · rw [div_lt_one (by norm_num)]
    exact_mod_cast numerator_lt self

/-- The same unit is the same numerator. -/
theorem numerator_eq_of_unit {self other : Backoff}
    (same : self.randomUnit.1 = other.randomUnit.1) : self.numerator = other.numerator := by
  rw [randomUnit_eq, randomUnit_eq, div_left_inj' (by norm_num)] at same
  exact UInt64.toNat_inj.mp (by exact_mod_cast same)

/-! ### Calls -/

/-- After so many calls of `random_unit`. -/
def drawn (self : Backoff) (n : Nat) : Backoff := (fun self => self.randomUnit.2)^[n] self

/-- Every draw updates the state once. -/
theorem rng_drawn (self : Backoff) (n : Nat) : (self.drawn n).rng = xorshift^[n] self.rng := by
  induction n with
  | zero => rfl
  | succ n ih =>
      have next : self.drawn (n + 1) = (self.drawn n).randomUnit.2 :=
        Function.iterate_succ_apply' _ _ _
      rw [next, Function.iterate_succ_apply', ← ih]
      rfl

/-- Every call draws once or not at all. -/
theorem rng_call (self : Backoff) (call : Call) :
    (self.call call).rng = self.rng ∨ (self.call call).rng = xorshift self.rng := by
  cases call with
  | reset => exact Or.inl rfl
  | nextDelay =>
      simp only [Backoff.call, nextDelay]
      split_ifs
      · exact Or.inl rfl
      · exact Or.inr rfl

/-- No sequence of calls brings the state to zero. -/
theorem rng_after_ne_zero {self : Backoff} (nonzero : self.rng ≠ 0) (calls : List Call) :
    (self.after calls).rng ≠ 0 := by
  induction calls using List.reverseRecOn with
  | nil => exact nonzero
  | append_singleton calls call ih =>
      rw [after_concat]
      rcases rng_call (self.after calls) call with kept | drawn
      · rwa [kept]
      · rw [drawn]
        exact mt (xorshift_eq_zero_iff _).mp ih

/-- A seed of zero is replaced, since the generator would stay there. -/
theorem seed_ne_zero (hash : UInt64) : seed hash ≠ 0 := by
  rw [seed]
  split_ifs with zero
  · decide
  · exact zero

/-- Within 2048 calls the unit is not the same any more. -/
theorem exists_unit_ne {self : Backoff} (nonzero : self.rng ≠ 0) (n : Nat) :
    ∃ m, n < m ∧ m ≤ n + 2048 ∧ (self.drawn m).randomUnit.1 ≠ (self.drawn n).randomUnit.1 := by
  have determined : ∀ x y : UInt64,
      (xorshift x * 0x2545F4914F6CDD1D) >>> 11 = (xorshift y * 0x2545F4914F6CDD1D) >>> 11 →
      dropped (xorshift x * 0x2545F4914F6CDD1D) = dropped (xorshift y * 0x2545F4914F6CDD1D) →
      x = y := fun x y shift low =>
    xorshift_injective (product_injective (eq_of_shift_of_dropped shift low))
  have long : 2048 < Function.minimalPeriod xorshift (xorshift^[n] self.rng) := by
    rw [minimalPeriod_xorshift (iterate_ne_zero nonzero n)]
    decide
  obtain ⟨i, bound, different⟩ := exists_ne_within determined long
  have later : 0 < i := by
    refine Nat.pos_of_ne_zero fun none => different ?_
    rw [none, Function.iterate_zero_apply]
  refine ⟨n + i, by omega, by omega, fun same => different ?_⟩
  have numerators := numerator_eq_of_unit same
  rwa [numerator, numerator, rng_drawn, rng_drawn, Nat.add_comm, Function.iterate_add_apply]
    at numerators

/-- The generator, from any seed: the update can be undone and keeps zero apart, so the state
is never zero; the unit is in `[0, 1)`, and never stays the same. -/
theorem jitter_generator :
    (Function.Injective xorshift ∧ ∀ x, xorshift x = 0 ↔ x = 0) ∧
      ∀ (initial max : ℚ) (factor fraction : F64) (hash : UInt64),
        let start := (new initial max factor (seed hash)).withJitter fraction
        (∀ calls, (start.after calls).rng ≠ 0) ∧
          ∀ n,
            (start.drawn n).rng ≠ 0 ∧
              (start.drawn n).numerator.toNat < 2 ^ 53 ∧
              (0 ≤ (start.drawn n).randomUnit.1 ∧ (start.drawn n).randomUnit.1 < 1) ∧
              ∃ m, n < m ∧ m ≤ n + 2048 ∧
                (start.drawn m).randomUnit.1 ≠ (start.drawn n).randomUnit.1 := by
  refine ⟨⟨xorshift_injective, xorshift_eq_zero_iff⟩, ?_⟩
  intro initial max factor fraction hash start
  have nonzero : start.rng ≠ 0 := seed_ne_zero hash
  refine ⟨rng_after_ne_zero nonzero, fun n => ⟨?_, ?_, ?_, ?_⟩⟩
  · rw [rng_drawn]
    exact iterate_ne_zero nonzero n
  · exact numerator_lt _
  · exact unit_bounds _
  · exact exists_unit_ne nonzero n

end Backoff

end BlazeBee.Transport
