import Mathlib.Data.Fintype.Pigeonhole
import Mathlib.Data.Nat.Prime.Basic
import Mathlib.Dynamics.PeriodicPts.Lemmas

/-!
Words as vectors of bits: maps that commute with `^^^`, and how long they take to return.

A polynomial over the two-element field is coded by the number with its coefficients as bits,
and acts on words by Horner's rule. If a polynomial of the width of the words annihilates the
map, the powers of the map are those of the variable, modulo that polynomial, and these are
computed by `power`.

* `iterate_eq_act`: an iterate is the action of the power.
* `minimalPeriod_eq`: tests by which every word other than zero has the same period.
* `exists_ne_within`: what is observed of a long orbit does not stay the same.
-/

namespace BlazeBee.Lib.Gf2

variable {w : Nat} {T : BitVec w → BitVec w}

/-- The map commutes with `^^^`. -/
def Linear (T : BitVec w → BitVec w) : Prop := ∀ x y, T (x ^^^ y) = T x ^^^ T y

/-- Maps that commute with `^^^` compose to one that does. -/
theorem Linear.comp {S T : BitVec w → BitVec w} (outer : Linear S) (inner : Linear T) :
    Linear (S ∘ T) := by
  intro x y
  rw [Function.comp_apply, inner, outer]
  rfl

/-- A right shift added to the word. -/
theorem linear_xor_ushiftRight (n : Nat) : Linear fun x : BitVec w => x ^^^ (x >>> n) := by
  intro x y
  beta_reduce
  rw [BitVec.ushiftRight_xor_distrib]
  ac_rfl

/-- A left shift added to the word. -/
theorem linear_xor_shiftLeft (n : Nat) : Linear fun x : BitVec w => x ^^^ (x <<< n) := by
  intro x y
  beta_reduce
  rw [BitVec.shiftLeft_xor_distrib]
  ac_rfl

/-! ### Polynomials -/

/-- The polynomial with the `k` lowest bits of `a` as coefficients, at the map. -/
def act (T : BitVec w → BitVec w) : Nat → Nat → BitVec w → BitVec w
  | 0, _, _ => 0#w
  | k + 1, a, x => (if a.testBit 0 then x else 0#w) ^^^ T (act T k (a >>> 1) x)

/-- The variable times `c`, modulo `m` of degree `w`. -/
def times (m w c : Nat) : Nat :=
  let d := c <<< 1
  if d.testBit w then d ^^^ m else d

/-- The product with the `k` lowest coefficients of `a`, modulo `m`. -/
def mul (m w : Nat) : Nat → Nat → Nat → Nat
  | 0, _, _ => 0
  | k + 1, a, b => (if a.testBit 0 then b else 0) ^^^ times m w (mul m w k (a >>> 1) b)

/-- The power of `a` by the `k` lowest bits of `n`, modulo `m`. -/
def power (m w : Nat) : Nat → Nat → Nat → Nat
  | 0, _, _ => 1
  | k + 1, a, n =>
      let rest := power m w k (mul m w w a a) (n >>> 1)
      if n.testBit 0 then mul m w w a rest else rest

/-- Horner's rule, for the other end. -/
theorem act_shift (k a : Nat) (x : BitVec w) : act T (k + 1) (a <<< 1) x = T (act T k a x) := by
  have low : (a <<< 1).testBit 0 = false := by simp
  rw [act, low, if_neg Bool.false_ne_true, BitVec.zero_xor, Nat.shiftLeft_shiftRight]

section Linear

variable (linear : Linear T)
include linear

/-- Zero is mapped to zero, as it is the sum of any word with itself. -/
theorem Linear.zero : T 0#w = 0#w := by
  have same := linear 0#w 0#w
  rwa [BitVec.xor_self, BitVec.xor_self] at same

/-- A polynomial at such a map commutes with `^^^` as well. -/
theorem act_xor (k a : Nat) (x y : BitVec w) :
    act T k a (x ^^^ y) = act T k a x ^^^ act T k a y := by
  induction k generalizing a with
  | zero => exact (BitVec.xor_zero).symm
  | succ k ih =>
      rw [act, act, act, ih, linear]
      split_ifs
      · ac_rfl
      · simp only [BitVec.zero_xor]

/-- Every polynomial maps zero to zero. -/
theorem act_zero (k a : Nat) : act T k a 0#w = 0#w := by
  have same := act_xor linear k a 0#w 0#w
  rwa [BitVec.xor_self, BitVec.xor_self] at same

/-- The sum of two polynomials acts as the sum of their actions. -/
theorem xor_act (k a b : Nat) (x : BitVec w) :
    act T k (a ^^^ b) x = act T k a x ^^^ act T k b x := by
  induction k generalizing a b with
  | zero => exact (BitVec.xor_zero).symm
  | succ k ih =>
      have bit : (if (a ^^^ b).testBit 0 then x else 0#w) =
          (if a.testBit 0 then x else 0#w) ^^^ if b.testBit 0 then x else 0#w := by
        rw [Nat.testBit_xor]
        cases a.testBit 0 <;> cases b.testBit 0 <;> simp
      rw [act, act, act, Nat.shiftRight_xor_distrib, ih, linear, bit]
      ac_rfl

/-- Coefficients that are not there change nothing. -/
theorem act_succ {k a : Nat} (small : a < 2 ^ k) (x : BitVec w) :
    act T (k + 1) a x = act T k a x := by
  induction k generalizing a with
  | zero =>
      obtain rfl : a = 0 := by omega
      rw [act, act, Nat.zero_testBit, if_neg Bool.false_ne_true, act, linear.zero, BitVec.xor_zero]
  | succ k ih =>
      have smaller : a >>> 1 < 2 ^ k := by
        rw [Nat.shiftRight_eq_div_pow]
        omega
      rw [act, ih smaller, act]

/-- The polynomial zero acts as zero. -/
theorem zero_act (k : Nat) (x : BitVec w) : act T k 0 x = 0#w := by
  have same := xor_act linear k 0 0 x
  rwa [Nat.xor_self, BitVec.xor_self] at same

/-- The polynomial one acts as the identity. -/
theorem one_act (k : Nat) (x : BitVec w) : act T (k + 1) 1 x = x := by
  have high : 1 >>> 1 = 0 := rfl
  rw [act, Nat.testBit_one_zero, if_pos rfl, high, zero_act linear, linear.zero, BitVec.xor_zero]

/-- The variable, which is coded by 2, acts as the map itself. -/
theorem two_act (k : Nat) (x : BitVec w) : act T (k + 2) 2 x = T x := by
  have shift := act_shift (T := T) (k + 1) 1 x
  rwa [one_act linear] at shift

end Linear

/-! ### Reduction -/

/-- A number without its top bit is a bit shorter. -/
theorem lt_of_testBit_eq_false {n : Nat} (lt : n < 2 ^ (w + 1)) (top : n.testBit w = false) :
    n < 2 ^ w := by
  by_contra large
  have set := Nat.testBit_of_two_pow_le_and_two_pow_add_one_gt (Nat.le_of_not_lt large) lt
  cases set.symm.trans top

/-- Doubling adds a bit at most. -/
theorem shiftLeft_lt {c : Nat} (small : c < 2 ^ w) : c <<< 1 < 2 ^ (w + 1) := by
  rw [Nat.shiftLeft_eq, pow_succ]
  omega

/-- The variable is reduced already, from two bits on. -/
theorem two_lt_two_pow (wide : 2 ≤ w) : 2 < 2 ^ w := by
  have four : 2 ^ 2 ≤ 2 ^ w := Nat.pow_le_pow_right Nat.zero_lt_two wide
  omega

/-- A product with the variable is reduced: where the top bit comes up, the modulus takes it
away. -/
theorem times_lt {m c : Nat} (lt : m < 2 ^ (w + 1)) (top : m.testBit w = true)
    (small : c < 2 ^ w) : times m w c < 2 ^ w := by
  have double := shiftLeft_lt small
  rw [times]
  cases set : (c <<< 1).testBit w with
  | false =>
      rw [if_neg Bool.false_ne_true]
      exact lt_of_testBit_eq_false double set
  | true =>
      rw [if_pos rfl]
      refine lt_of_testBit_eq_false (Nat.xor_lt_two_pow double lt) ?_
      rw [Nat.testBit_xor, set, top]
      rfl

/-- A product is reduced, if its second factor is. -/
theorem mul_lt {m b : Nat} (lt : m < 2 ^ (w + 1)) (top : m.testBit w = true) (small : b < 2 ^ w)
    (k a : Nat) : mul m w k a b < 2 ^ w := by
  induction k generalizing a with
  | zero => exact Nat.two_pow_pos w
  | succ k ih =>
      rw [mul]
      refine Nat.xor_lt_two_pow ?_ (times_lt lt top (ih _))
      split_ifs
      · exact small
      · exact Nat.two_pow_pos w

/-- A polynomial of degree `w` that has the map as a root. -/
structure Annihilates (T : BitVec w → BitVec w) (m : Nat) : Prop where
  lt : m < 2 ^ (w + 1)
  top : m.testBit w = true
  root : ∀ x, act T (w + 1) m x = 0#w

section Annihilates

variable {m : Nat} (linear : Linear T) (annihilates : Annihilates T m)
include linear annihilates

/-- The variable acts as the map. -/
theorem act_times {c : Nat} (small : c < 2 ^ w) (x : BitVec w) :
    act T w (times m w c) x = T (act T w c x) := by
  have shift := act_shift (T := T) w c x
  rw [← act_succ linear (times_lt annihilates.lt annihilates.top small), ← shift, times]
  cases (c <<< 1).testBit w with
  | false => rw [if_neg Bool.false_ne_true]
  | true => rw [if_pos rfl, xor_act linear, annihilates.root, BitVec.xor_zero]

/-- Products act one after the other. -/
theorem act_mul {b : Nat} (small : b < 2 ^ w) (k a : Nat) (x : BitVec w) :
    act T w (mul m w k a b) x = act T k a (act T w b x) := by
  induction k generalizing a with
  | zero => exact zero_act linear w x
  | succ k ih =>
      have reduced := mul_lt annihilates.lt annihilates.top small k (a >>> 1)
      have bit : act T w (if a.testBit 0 then b else 0) x =
          if a.testBit 0 then act T w b x else 0#w := by
        split_ifs
        · rfl
        · exact zero_act linear w x
      rw [mul, xor_act linear, act_times linear annihilates reduced, ih, bit, act]

variable (wide : 2 ≤ w)
include wide

omit linear in
/-- A power is reduced, if its base is. -/
theorem power_lt {a : Nat} (small : a < 2 ^ w) (k n : Nat) : power m w k a n < 2 ^ w := by
  induction k generalizing a n with
  | zero => exact Nat.one_lt_two_pow (by omega)
  | succ k ih =>
      have square := mul_lt annihilates.lt annihilates.top small w a
      rw [power]
      split_ifs
      · exact mul_lt annihilates.lt annihilates.top (ih square _) w a
      · exact ih square _

/-- Powers act as iterates. -/
theorem act_power {k a n : Nat} (small : a < 2 ^ w) (fuel : n < 2 ^ k) (x : BitVec w) :
    act T w (power m w k a n) x = (act T w a)^[n] x := by
  induction k generalizing a n with
  | zero =>
      obtain rfl : n = 0 := by omega
      obtain ⟨v, rfl⟩ : ∃ v, w = v + 1 := ⟨w - 1, by omega⟩
      exact one_act linear v x
  | succ k ih =>
      have square := mul_lt annihilates.lt annihilates.top small w a
      have half : n >>> 1 = n / 2 := Nat.shiftRight_one n
      have squared : act T w (mul m w w a a) = (act T w a)^[2] :=
        funext (act_mul linear annihilates small w a)
      have rest : act T w (power m w k (mul m w w a a) (n >>> 1)) x =
          (act T w a)^[2 * (n / 2)] x := by
        rw [ih square (by omega), squared, ← Function.iterate_mul, half]
      have low := Nat.testBit_zero n
      rw [power]
      cases bit : n.testBit 0 with
      | false =>
          have even : 2 * (n / 2) = n := by
            have zero : ¬ n % 2 = 1 := of_decide_eq_false (low.symm.trans bit)
            omega
          rw [if_neg Bool.false_ne_true, rest, even]
      | true =>
          have odd : 2 * (n / 2) + 1 = n := by
            have one : n % 2 = 1 := of_decide_eq_true (low.symm.trans bit)
            omega
          have small' := power_lt annihilates wide square k (n >>> 1)
          have once := Function.iterate_succ_apply' (act T w a) (2 * (n / 2)) x
          rw [if_pos rfl, act_mul linear annihilates small', rest, ← once, Nat.succ_eq_add_one, odd]

/-- An iterate of the map is the action of a power of the variable. -/
theorem iterate_eq_act {k n : Nat} (fuel : n < 2 ^ k) (x : BitVec w) :
    T^[n] x = act T w (power m w k 2 n) x := by
  obtain ⟨v, rfl⟩ : ∃ v, w = v + 2 := ⟨w - 2, by omega⟩
  have variable_acts : act T (v + 2) 2 = T := funext (two_act linear v)
  rw [act_power linear annihilates wide (two_lt_two_pow wide) fuel, variable_acts]

/-! ### Periods -/

variable {k : Nat}

/-- If the power less one has an inverse, no word but zero returns. -/
theorem eq_zero_of_iterate {n c : Nat} (fuel : n < 2 ^ k)
    (inverse : mul m w w c (power m w k 2 n ^^^ 1) = 1) {x : BitVec w} (returns : T^[n] x = x) :
    x = 0#w := by
  obtain ⟨v, rfl⟩ : ∃ v, w = v + 2 := ⟨w - 2, by omega⟩
  have difference : act T (v + 2) (power m (v + 2) k 2 n ^^^ 1) x = 0#(v + 2) := by
    rw [xor_act linear, ← iterate_eq_act linear annihilates wide fuel, returns, one_act linear,
      BitVec.xor_self]
  have base : 2 < 2 ^ (v + 2) := two_lt_two_pow wide
  have small := Nat.xor_lt_two_pow (power_lt annihilates wide base k n)
    (Nat.one_lt_two_pow (Nat.succ_ne_zero (v + 1)))
  have undone := act_mul linear annihilates small (v + 2) c x
  rwa [inverse, one_act linear, difference, act_zero linear] at undone

variable {N : Nat} (fuel : N < 2 ^ k) (full : power m w k 2 N = 1)
include fuel full

/-- If the power is one, every word has returned after so many steps. -/
theorem iterate_full (x : BitVec w) : T^[N] x = x := by
  obtain ⟨v, rfl⟩ : ∃ v, w = v + 2 := ⟨w - 2, by omega⟩
  rw [iterate_eq_act linear annihilates wide fuel, full, one_act linear]

/-- A map under which every word returns is injective, since going on is a way back. -/
theorem injective_of_iterate (positive : 0 < N) : Function.Injective T := by
  intro x y same
  have back : ∀ x, T^[N - 1] (T x) = x := by
    intro x
    rw [← Function.iterate_succ_apply, Nat.succ_eq_add_one, Nat.sub_add_cancel positive,
      iterate_full linear annihilates wide fuel full]
  rw [← back x, same, back]

/-- Every word but zero has the period `N`, if no word but zero returns after a quotient of `N`
by one of its prime factors. -/
theorem minimalPeriod_eq
    (tests : ∀ q, q.Prime → q ∣ N → ∃ c, mul m w w c (power m w k 2 (N / q) ^^^ 1) = 1)
    {x : BitVec w} (nonzero : x ≠ 0#w) : Function.minimalPeriod T x = N := by
  have returns : Function.IsPeriodicPt T N x := iterate_full linear annihilates wide fuel full x
  obtain ⟨d, split⟩ := returns.minimalPeriod_dvd
  by_cases trivial : d = 1
  · rw [split, trivial, mul_one]
  · obtain ⟨q, prime, e, rfl⟩ := Nat.exists_prime_and_dvd trivial
    have product := split.trans (Nat.mul_left_comm _ q e)
    have divides : q ∣ N := ⟨_, product⟩
    have quotient : N / q = Function.minimalPeriod T x * e :=
      Nat.div_eq_of_eq_mul_right prime.pos product
    obtain ⟨c, inverse⟩ := tests q prime divides
    have early : T^[N / q] x = x := by
      rw [quotient]
      exact (Function.isPeriodicPt_minimalPeriod T x).mul_const e
    have bound : N / q < 2 ^ k := (Nat.div_le_self N q).trans_lt fuel
    exact absurd (eq_zero_of_iterate linear annihilates wide bound inverse early) nonzero

end Annihilates

/-- Two words that differ in few lower bits only are far apart in a long orbit, so what is left
of the words without these bits does not stay the same. -/
theorem exists_ne_within {α β : Type} {f : α → α} {x : α} {observe : α → β} {K : Nat}
    {rest : α → Fin K} (determined : ∀ a b, observe a = observe b → rest a = rest b → a = b)
    (long : K < Function.minimalPeriod f x) :
    ∃ i ≤ K, observe (f^[i] x) ≠ observe x := by
  by_contra same
  push Not at same
  obtain ⟨i, j, different, collide⟩ :=
    Fintype.exists_ne_map_eq_of_card_lt (fun i : Fin (K + 1) => rest (f^[i.val] x)) (by simp)
  have observed : observe (f^[i.val] x) = observe (f^[j.val] x) :=
    (same i (Nat.le_of_lt_succ i.isLt)).trans (same j (Nat.le_of_lt_succ j.isLt)).symm
  have equal := determined _ _ observed collide
  have below : ∀ i : Fin (K + 1), i.val ∈ Set.Iio (Function.minimalPeriod f x) := fun i =>
    (Nat.le_of_lt_succ i.isLt).trans_lt long
  have distinct := Function.iterate_injOn_Iio_minimalPeriod (below i) (below j) equal
  exact different (Fin.ext distinct)

/-! ### Roots -/

/-- A map that commutes with `^^^` is zero, if it is on the words with one bit. -/
theorem eq_zero_of_basis {L : BitVec w → BitVec w} (linear : Linear L)
    (basis : ∀ i < w, L (BitVec.twoPow w i) = 0#w) (x : BitVec w) : L x = 0#w := by
  suffices cleared : ∀ n ≤ w, ∀ x : BitVec w, (∀ i, n ≤ i → x.getLsbD i = false) → L x = 0#w by
    exact cleared w le_rfl x fun i high => BitVec.getLsbD_of_ge x i high
  intro n
  induction n with
  | zero =>
      intro _ x none
      have zero : x = 0#w :=
        BitVec.eq_of_getLsbD_eq fun i _ => by simpa using none i (Nat.zero_le i)
      rw [zero, linear.zero]
  | succ n ih =>
      intro bound x high
      cases bit : x.getLsbD n with
      | false =>
          refine ih (Nat.le_of_succ_le bound) x fun i reach => ?_
          rcases Nat.eq_or_lt_of_le reach with rfl | above
          · exact bit
          · exact high i above
      | true =>
          have split : x = (x ^^^ BitVec.twoPow w n) ^^^ BitVec.twoPow w n := by
            rw [BitVec.xor_assoc, BitVec.xor_self, BitVec.xor_zero]
          rw [split, linear, basis n bound, BitVec.xor_zero]
          refine ih (Nat.le_of_succ_le bound) _ fun i reach => ?_
          rw [BitVec.getLsbD_xor, BitVec.getLsbD_twoPow]
          rcases Nat.eq_or_lt_of_le reach with rfl | above
          · simp [bit]
            omega
          · simp [high i above]
            omega

end BlazeBee.Lib.Gf2
