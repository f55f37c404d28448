import Mathlib.Tactic.Common

/-!
The grammar of JSON texts, on bytes.

A relation `R s rest` says that `s` begins with what the relation is for, and goes on with
`rest`. That strings are UTF-8 is not asked.

`starts_of_wellFormed`: the first byte of a text.
-/

namespace BlazeBee.Lib.JsonText

/-- A blank, a tab, a newline or a carriage return. -/
def isBlank (b : UInt8) : Bool := b == 0x20 || b == 0x09 || b == 0x0A || b == 0x0D

/-- An ASCII digit. -/
def isDigit (b : UInt8) : Bool := 0x30 ≤ b && b ≤ 0x39

/-- A hexadecimal digit, in either case. -/
def isHex (b : UInt8) : Bool := isDigit b || 0x41 ≤ b && b ≤ 0x46 || 0x61 ≤ b && b ≤ 0x66

/-- Bytes that satisfy `p`, or none. -/
inductive Many (p : UInt8 → Bool) : List UInt8 → List UInt8 → Prop where
  | nil {s : List UInt8} : Many p s s
  | cons {b : UInt8} {s rest : List UInt8} : p b = true → Many p s rest → Many p (b :: s) rest

/-! ### Numbers -/

/-- One digit or more. -/
inductive Digits : List UInt8 → List UInt8 → Prop where
  | intro {b : UInt8} {s rest : List UInt8} :
      isDigit b = true → Many isDigit s rest → Digits (b :: s) rest

/-- No zero stands in front of other digits. -/
inductive Integer : List UInt8 → List UInt8 → Prop where
  | zero {rest : List UInt8} : Integer (0x30 :: rest) rest
  | nonzero {b : UInt8} {s rest : List UInt8} :
      isDigit b = true → b ≠ 0x30 → Many isDigit s rest → Integer (b :: s) rest

/-- A dot and digits, or nothing. -/
inductive Fraction : List UInt8 → List UInt8 → Prop where
  | none {rest : List UInt8} : Fraction rest rest
  | some {s rest : List UInt8} : Digits s rest → Fraction (0x2E :: s) rest

/-- An `e` in either case, with or without a sign, and digits; or nothing. -/
inductive Exponent : List UInt8 → List UInt8 → Prop where
  | none {rest : List UInt8} : Exponent rest rest
  | unsigned {e : UInt8} {s rest : List UInt8} :
      e ∈ [0x45, 0x65] → Digits s rest → Exponent (e :: s) rest
  | signed {e sign : UInt8} {s rest : List UInt8} :
      e ∈ [0x45, 0x65] → sign ∈ [0x2B, 0x2D] → Digits s rest → Exponent (e :: sign :: s) rest

/-- A number, which may have a minus in front but no plus. -/
inductive Number : List UInt8 → List UInt8 → Prop where
  | plain {s t u rest : List UInt8} :
      Integer s t → Fraction t u → Exponent u rest → Number s rest
  | negative {s t u rest : List UInt8} :
      Integer s t → Fraction t u → Exponent u rest → Number (0x2D :: s) rest

/-! ### Strings -/

/-- What follows the first quotation mark, up to the last. -/
inductive Chars : List UInt8 → List UInt8 → Prop where
  | close {rest : List UInt8} : Chars (0x22 :: rest) rest
  | plain {b : UInt8} {s rest : List UInt8} :
      0x20 ≤ b → b ≠ 0x22 → b ≠ 0x5C → Chars s rest → Chars (b :: s) rest
  | escape {c : UInt8} {s rest : List UInt8} :
      c ∈ [0x22, 0x5C, 0x2F, 0x62, 0x66, 0x6E, 0x72, 0x74] → Chars s rest →
      Chars (0x5C :: c :: s) rest
  | unicode {x y z w : UInt8} {s rest : List UInt8} :
      [x, y, z, w].all isHex = true → Chars s rest →
      Chars (0x5C :: 0x75 :: x :: y :: z :: w :: s) rest

/-! ### Values -/

/-- `null`, `true` and `false`. -/
def literals : List (List UInt8) :=
  [[0x6E, 0x75, 0x6C, 0x6C], [0x74, 0x72, 0x75, 0x65], [0x66, 0x61, 0x6C, 0x73, 0x65]]

mutual

/-- A value, up to its last character. -/
inductive Value : List UInt8 → List UInt8 → Prop where
  | literal {word rest : List UInt8} : word ∈ literals → Value (word ++ rest) rest
  | number {s rest : List UInt8} : Number s rest → Value s rest
  | string {s rest : List UInt8} : Chars s rest → Value (0x22 :: s) rest
  | emptyArray {s rest : List UInt8} : Many isBlank s (0x5D :: rest) → Value (0x5B :: s) rest
  | array {s rest : List UInt8} : Elements s (0x5D :: rest) → Value (0x5B :: s) rest
  | emptyObject {s rest : List UInt8} : Many isBlank s (0x7D :: rest) → Value (0x7B :: s) rest
  | object {s rest : List UInt8} : Members s (0x7D :: rest) → Value (0x7B :: s) rest

/-- A value, with blanks on both sides. -/
inductive Element : List UInt8 → List UInt8 → Prop where
  | intro {s t u rest : List UInt8} :
      Many isBlank s t → Value t u → Many isBlank u rest → Element s rest

/-- Elements with commas between them, one at least. -/
inductive Elements : List UInt8 → List UInt8 → Prop where
  | last {s rest : List UInt8} : Element s rest → Elements s rest
  | cons {s t rest : List UInt8} :
      Element s (0x2C :: t) → Elements t rest → Elements s rest

/-- A name in quotation marks, a colon and an element. -/
inductive Member : List UInt8 → List UInt8 → Prop where
  | intro {s t u v rest : List UInt8} :
      Many isBlank s (0x22 :: t) → Chars t u → Many isBlank u (0x3A :: v) → Element v rest →
      Member s rest

/-- Members with commas between them, one at least. -/
inductive Members : List UInt8 → List UInt8 → Prop where
  | last {s rest : List UInt8} : Member s rest → Members s rest
  | cons {s t rest : List UInt8} :
      Member s (0x2C :: t) → Members t rest → Members s rest

end

/-- Exactly one value. -/
def WellFormed (s : List UInt8) : Prop := Element s []

/-! ### The first byte -/

/-- What a value begins with: a letter of a literal, a digit or a minus, a quotation mark, or
a bracket. -/
def starts (b : UInt8) : Bool :=
  isDigit b || [0x6E, 0x74, 0x66, 0x2D, 0x22, 0x5B, 0x7B].contains b

/-- A digit begins a value. -/
theorem starts_of_digit {b : UInt8} (digit : isDigit b = true) : starts b = true := by
  rw [starts, digit, Bool.true_or]

/-- An integer begins with a digit. -/
theorem starts_of_integer {s rest : List UInt8} (integer : Integer s rest) :
    ∃ b t, s = b :: t ∧ starts b = true := by
  cases integer with
  | zero => exact ⟨_, _, rfl, rfl⟩
  | nonzero digit _ _ => exact ⟨_, _, rfl, starts_of_digit digit⟩

/-- No value is empty, and its first byte tells which kind it is of. -/
theorem starts_of_value {s rest : List UInt8} (value : Value s rest) :
    ∃ b t, s = b :: t ∧ starts b = true := by
  cases value with
  | literal word =>
      simp only [literals, List.mem_cons, List.not_mem_nil, or_false] at word
      rcases word with rfl | rfl | rfl
      · exact ⟨_, _, rfl, rfl⟩
      · exact ⟨_, _, rfl, rfl⟩
      · exact ⟨_, _, rfl, rfl⟩
  | number number =>
      cases number with
      | plain integer _ _ => exact starts_of_integer integer
      | negative _ _ _ => exact ⟨_, _, rfl, rfl⟩
  | string _ => exact ⟨_, _, rfl, rfl⟩
  | emptyArray _ => exact ⟨_, _, rfl, rfl⟩
  | array _ => exact ⟨_, _, rfl, rfl⟩
  | emptyObject _ => exact ⟨_, _, rfl, rfl⟩
  | object _ => exact ⟨_, _, rfl, rfl⟩

/-- A text begins with a blank or with what a value begins with. -/
theorem starts_of_wellFormed {b : UInt8} {s : List UInt8} (wellFormed : WellFormed (b :: s)) :
    isBlank b = true ∨ starts b = true := by
  obtain ⟨before, value, -⟩ := wellFormed
  cases before with
  | nil =>
      obtain ⟨b', t, split, first⟩ := starts_of_value value
      obtain ⟨rfl, -⟩ := List.cons.inj split
      exact Or.inr first
  | cons blank _ => exact Or.inl blank

end BlazeBee.Lib.JsonText
