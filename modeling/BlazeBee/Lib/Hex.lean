import Mathlib.Tactic.Common

/-!
Hexadecimal numbers, as `from_str_radix` of the unsigned integer types reads them.

`parseHex_padded`: a number that was padded with zeros is read back, if it is below the limit
of the type.
-/

namespace BlazeBee.Lib.Hex

/-- `char::to_digit`, to the base 16. -/
def hexDigit (c : Char) : Option Nat :=
  if '0' ≤ c ∧ c ≤ '9' then some (c.toNat - '0'.toNat)
  else if 'a' ≤ c ∧ c ≤ 'f' then some (c.toNat - 'a'.toNat + 10)
  else if 'A' ≤ c ∧ c ≤ 'F' then some (c.toNat - 'A'.toNat + 10)
  else none

/-- The value of digits, behind those that are read. -/
def ofHexDigits : Nat → List Char → Option Nat
  | n, [] => some n
  | n, c :: cs => (hexDigit c).bind fun d => ofHexDigits (16 * n + d) cs

/-- `from_str_radix(_, 16)`, for an unsigned type with `limit` values: digits, after a `+`
or not. -/
def parseHex (limit : Nat) (s : List Char) : Option Nat :=
  let digits := match s with
    | '+' :: rest => rest
    | _ => s
  if digits.isEmpty then none
  else (ofHexDigits 0 digits).filter fun n => decide (n < limit)

/-- `u64::from_str_radix(_, 16)`. -/
def parseHexU64 (s : List Char) : Option UInt64 :=
  (parseHex 18446744073709551616 s).map UInt64.ofNat

/-- At least so many digits, as `%0*x` prints them. -/
def padded (width n : Nat) : List Char := (Nat.toDigits 16 n).leftpad width '0'

/-- A digit below 16 is read back. -/
theorem hexDigit_digitChar {d : Nat} (small : d < 16) : hexDigit d.digitChar = some d := by
  have all : ∀ d : Fin 16, hexDigit (d : Nat).digitChar = some (d : Nat) := by decide
  exact all ⟨d, small⟩

/-- Digits are read from the left, with what has been read so far as the beginning. -/
theorem ofHexDigits_append (n : Nat) (s t : List Char) :
    ofHexDigits n (s ++ t) = (ofHexDigits n s).bind fun m => ofHexDigits m t := by
  induction s generalizing n with
  | nil => rfl
  | cons c s ih =>
      rw [List.cons_append, ofHexDigits, ofHexDigits, Option.bind_assoc]
      exact congrArg _ (funext fun d => ih _)

/-- A number in hexadecimal is read back. -/
theorem ofHexDigits_toDigits (n : Nat) : ofHexDigits 0 (Nat.toDigits 16 n) = some n := by
  induction n using Nat.strongRecOn with
  | ind n ih =>
      by_cases small : n < 16
      · rw [Nat.toDigits_of_lt_base small, ofHexDigits, hexDigit_digitChar small]
        simp [ofHexDigits]
      · have last := hexDigit_digitChar (Nat.mod_lt n (Nat.zero_lt_succ 15))
        rw [Nat.toDigits_of_base_le (by omega) (by omega), ofHexDigits_append, ih _ (by omega),
          Option.bind_some, ofHexDigits, last, Option.bind_some, ofHexDigits]
        congr 1
        omega

/-- Leading zeros change nothing. -/
theorem ofHexDigits_zeros (k : Nat) (s : List Char) :
    ofHexDigits 0 (List.replicate k '0' ++ s) = ofHexDigits 0 s := by
  induction k with
  | zero => rfl
  | succ k ih => exact ih

/-- Every digit of a number is one below 16. -/
theorem mem_toDigits {n : Nat} {c : Char} (mem : c ∈ Nat.toDigits 16 n) :
    ∃ d < 16, c = d.digitChar := by
  induction n using Nat.strongRecOn with
  | ind n ih =>
      by_cases small : n < 16
      · rw [Nat.toDigits_of_lt_base small] at mem
        exact ⟨n, small, List.mem_singleton.mp mem⟩
      · rw [Nat.toDigits_of_base_le (by omega) (by omega)] at mem
        rcases List.mem_append.mp mem with before | last
        · exact ih _ (by omega) before
        · exact ⟨n % 16, by omega, List.mem_singleton.mp last⟩

/-- So is every digit of a padded number. -/
theorem mem_padded {width n : Nat} {c : Char} (mem : c ∈ padded width n) :
    ∃ d < 16, c = d.digitChar := by
  rcases List.mem_append.mp mem with zero | digit
  · exact ⟨0, by omega, List.eq_of_mem_replicate zero⟩
  · exact mem_toDigits digit

/-- A padded number has a digit, even at width zero. -/
theorem padded_ne_nil (width n : Nat) : padded width n ≠ [] :=
  List.append_ne_nil_of_right_ne_nil _ Nat.toDigits_ne_nil

/-- A padded number below the limit of a type is read back at that type. -/
theorem parseHex_padded {limit n : Nat} (small : n < limit) (width : Nat) :
    parseHex limit (padded width n) = some n := by
  have value : ofHexDigits 0 (padded width n) = some n := by
    rw [padded, List.leftpad, ofHexDigits_zeros, ofHexDigits_toDigits]
  have unsigned : ∀ rest, padded width n ≠ '+' :: rest := by
    intro rest signed
    obtain ⟨d, lt, plus⟩ := mem_padded (signed ▸ List.mem_cons_self : '+' ∈ padded width n)
    have digit := hexDigit_digitChar lt
    rw [← plus] at digit
    cases digit
  unfold parseHex
  split
  · rename_i rest signed
    exact absurd signed (unsigned rest)
  · simp only [List.isEmpty_eq_false_iff.mpr (padded_ne_nil width n), Bool.false_eq_true, if_false,
      value, Option.filter_some, decide_eq_true small, if_true]

@[simp] theorem parseHexU64_padded (width : Nat) (n : UInt64) :
    parseHexU64 (padded width n.toNat) = some n := by
  rw [parseHexU64, parseHex_padded n.toNat_lt, Option.map_some, UInt64.ofNat_toNat]

end BlazeBee.Lib.Hex
