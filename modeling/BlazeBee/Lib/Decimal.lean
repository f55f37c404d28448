import Mathlib.Tactic.Common

/-!
Decimal numbers, as `FromStr` of the integer types reads them.

`parseUnsigned_decimal`: what is below the limit of the type is read back.
-/

namespace BlazeBee.Lib.Decimal

/-- The digits of a number. -/
def decimal (n : Nat) : List Char := Nat.toDigits 10 n

/-- `str::parse`, for an unsigned type with `limit` values: digits, after a `+` or not. -/
def parseUnsigned (limit : Nat) (s : List Char) : Option Nat :=
  let digits := match s with
    | '+' :: rest => rest
    | _ => s
  if digits.isEmpty || !digits.all Char.isDigit then none
  else
    let n := Nat.ofDigitChars 10 digits 0
    if n < limit then some n else none

/-- `str::parse::<u64>`. -/
def parseU64 (s : List Char) : Option UInt64 :=
  (parseUnsigned 18446744073709551616 s).map UInt64.ofNat

/-- `str::parse::<u8>`. -/
def parseU8 (s : List Char) : Option UInt8 := (parseUnsigned 256 s).map UInt8.ofNat

/-- `str::parse::<u32>`. -/
def parseU32 (s : List Char) : Option UInt32 :=
  (parseUnsigned 4294967296 s).map UInt32.ofNat

/-- `str::parse::<i64>`: digits, after a sign or not. -/
def parseI64 (s : List Char) : Option Int64 :=
  match s with
  | '-' :: digits =>
      if digits.isEmpty || !digits.all Char.isDigit then none
      else
        let n := Nat.ofDigitChars 10 digits 0
        if n ≤ 9223372036854775808 then some (Int64.ofInt (-n)) else none
  | _ => (parseUnsigned 9223372036854775808 s).map fun n => Int64.ofInt n

/-- A number has a digit at least. -/
theorem decimal_ne_nil (n : Nat) : decimal n ≠ [] := Nat.toDigits_ne_nil

/-- A number in decimal consists of digits. -/
theorem isDigit_of_mem_decimal {n : Nat} {c : Char} (mem : c ∈ decimal n) : c.isDigit = true :=
  Nat.isDigit_of_mem_toDigits (Nat.zero_lt_succ 9) (Nat.le_refl 10) mem

/-- A number in decimal begins with a digit. -/
theorem exists_decimal_eq_cons (n : Nat) :
    ∃ d digits, decimal n = d :: digits ∧ d.isDigit = true := by
  obtain ⟨d, digits, split⟩ := List.exists_cons_of_ne_nil (decimal_ne_nil n)
  exact ⟨d, digits, split, isDigit_of_mem_decimal (split ▸ List.mem_cons_self)⟩

/-- Different numbers are written differently. -/
theorem decimal_injective : Function.Injective decimal := by
  intro m n same
  have value : ∀ n, Nat.ofDigitChars 10 (decimal n) 0 = n := fun n =>
    Nat.ofDigitChars_ten_toDigits
  rw [← value m, same, value]

/-- A number below the limit of a type is read back at that type. -/
theorem parseUnsigned_decimal {limit n : Nat} (small : n < limit) :
    parseUnsigned limit (decimal n) = some n := by
  have unsigned : ∀ rest, decimal n ≠ '+' :: rest := by
    intro rest signed
    have digit := isDigit_of_mem_decimal (signed ▸ List.mem_cons_self : '+' ∈ decimal n)
    cases digit
  have accepted : ((decimal n).isEmpty || !(decimal n).all Char.isDigit) = false := by
    have all : (decimal n).all Char.isDigit = true :=
      List.all_eq_true.mpr fun c mem => isDigit_of_mem_decimal mem
    rw [all, List.isEmpty_eq_false_iff.mpr (decimal_ne_nil n)]
    rfl
  have value : Nat.ofDigitChars 10 (decimal n) 0 = n := Nat.ofDigitChars_ten_toDigits
  unfold parseUnsigned
  split
  · rename_i rest signed
    exact absurd signed (unsigned rest)
  · simp only [accepted, Bool.false_eq_true, if_false, value, if_pos small]

@[simp] theorem parseU64_decimal (n : UInt64) : parseU64 (decimal n.toNat) = some n := by
  rw [parseU64, parseUnsigned_decimal n.toNat_lt, Option.map_some, UInt64.ofNat_toNat]

@[simp] theorem parseU32_decimal (n : UInt32) : parseU32 (decimal n.toNat) = some n := by
  rw [parseU32, parseUnsigned_decimal n.toNat_lt, Option.map_some, UInt32.ofNat_toNat]

end BlazeBee.Lib.Decimal
