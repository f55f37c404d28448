import BlazeBee.Collectors.Procfs
import BlazeBee.Lib.Checks

/-!
`unescape_mount_field` by its indices, in a debug and in a release build.

What differs is the arithmetic on `u8`, which panics in one build and wraps in the other.

* `loop_eq`: the loop reads the bytes from the front, and no index is out of range.
* `unescape_octalEscape`: in both builds, strings written in octal escapes are read back.
* `unescape_exact_iff`: the builds agree unless some escape is of no byte.
-/

namespace BlazeBee.Collectors

open BlazeBee.Lib

/-- Why the function may panic: an index, or an arithmetic result that is no `u8`. -/
inductive Panic where
  | outOfRange
  | overflow
deriving DecidableEq, Repr

/-- The two profiles, which differ in their overflow checks. -/
inductive Build where
  | debug
  | release
deriving DecidableEq, Repr

/-- A sum or a product on `u8`, with the number that it stands for. -/
def Build.u8 (build : Build) (wrapped : UInt8) (number : Nat) : Except Panic UInt8 :=
  match build with
  | .debug => if number < 256 then .ok wrapped else .error .overflow
  | .release => .ok wrapped

/-- `a * b` on `u8`. -/
def Build.mul (build : Build) (a b : UInt8) : Except Panic UInt8 :=
  build.u8 (a * b) (a.toNat * b.toNat)

/-- `a + b` on `u8`. -/
def Build.add (build : Build) (a b : UInt8) : Except Panic UInt8 :=
  build.u8 (a + b) (a.toNat + b.toNat)

/-- `a - b` on `u8`. -/
def Build.sub (build : Build) (a b : UInt8) : Except Panic UInt8 :=
  match build with
  | .debug => if b ≤ a then .ok (a - b) else .error .overflow
  | .release => .ok (a - b)

/-- `bytes[i]`. -/
def byteAt (bytes : List UInt8) (i : Nat) : Except Panic UInt8 :=
  match bytes[i]? with
  | some b => .ok b
  | none => .error .outOfRange

/-- `bytes[start..stop]`. -/
def slice (bytes : List UInt8) (start stop : Nat) : Except Panic (List UInt8) :=
  if start ≤ stop ∧ stop ≤ bytes.length then .ok ((bytes.drop start).take (stop - start))
  else .error .outOfRange

/-- The value of the escape at `i`. -/
def valueAt (build : Build) (bytes : List UInt8) (i : Nat) : Except Panic UInt8 := do
  let x ← build.sub (← byteAt bytes (i + 1)) 0x30
  let x ← build.mul x 64
  let y ← build.sub (← byteAt bytes (i + 2)) 0x30
  let y ← build.mul y 8
  let sum ← build.add x y
  let z ← build.sub (← byteAt bytes (i + 3)) 0x30
  build.add sum z

/-- The condition of the loop: a backslash, and three octal digits behind it. -/
def escapeAt (bytes : List UInt8) (i : Nat) : Except Panic Bool := do
  let b ← byteAt bytes i
  if b == 0x5C && decide (i + 3 < bytes.length) then do
    let digits ← slice bytes (i + 1) (i + 4)
    return digits.all isOctal
  else return false

/-- The loop of `unescape_mount_field`, from the index on, with what has been pushed so
far. -/
def unescapeLoop (build : Build) (bytes : List UInt8) (i : Nat) (out : List UInt8) :
    Except Panic (List UInt8) :=
  if i < bytes.length then do
    if ← escapeAt bytes i then
      let value ← valueAt build bytes i
      unescapeLoop build bytes (i + 4) (out ++ [value])
    else
      let b ← byteAt bytes i
      unescapeLoop build bytes (i + 1) (out ++ [b])
  else .ok out
termination_by bytes.length - i

/-- `unescape_mount_field`. -/
def unescape (build : Build) (s : String) : Except Panic String :=
  if !Text.contains s '\\' then .ok s
  else do
    let out ← unescapeLoop build (Utf8.utf8 s.toList) 0 []
    return String.ofList (Utf8.lossy out)

/-! ### The loop, from the front -/

/-- The bytes begin with an escape. -/
def isEscape : List UInt8 → Bool
  | b :: x :: y :: z :: _ => b == 0x5C && [x, y, z].all isOctal
  | _ => false

/-- An escape at the front is read as the value of its digits, modulo 256. -/
theorem unescapeBytes_escape {x y z : UInt8} {rest : List UInt8}
    (octal : [x, y, z].all isOctal = true) :
    unescapeBytes (0x5C :: x :: y :: z :: rest) =
      ((x - 0x30) * 64 + (y - 0x30) * 8 + (z - 0x30)) :: unescapeBytes rest := by
  have escape : ((0x5C : UInt8) == 0x5C && [x, y, z].all isOctal) = true := octal
  rw [unescapeBytes, if_pos escape]

/-- Without an escape at the front the first byte is copied, a backslash too. -/
theorem unescapeBytes_other {b : UInt8} {rest : List UInt8}
    (other : isEscape (b :: rest) = false) :
    unescapeBytes (b :: rest) = b :: unescapeBytes rest := by
  match rest with
  | [] => rfl
  | [_] => rfl
  | [_, _] => rfl
  | x :: y :: z :: rest =>
      rw [isEscape] at other
      rw [unescapeBytes, other, if_neg Bool.false_ne_true]

section Bytes

variable {bytes rest : List UInt8} {b x y z : UInt8} {i : Nat} {build : Build}

/-- Where bytes are left from an index on, the index is in range. -/
theorem byteAt_of_drop (split : bytes.drop i = b :: rest) : byteAt bytes i = .ok b := by
  have found : bytes[i]? = some b := by
    rw [← List.head?_drop, split, List.head?_cons]
  rw [byteAt, found]

/-- The next index is one byte further. -/
theorem drop_succ (split : bytes.drop i = b :: rest) : bytes.drop (i + 1) = rest := by
  rw [← List.drop_drop, split, List.drop_succ_cons, List.drop_zero]

/-- Fewer than three bytes behind a backslash are no escape. -/
theorem isEscape_short (short : rest.length < 3) : isEscape (b :: rest) = false := by
  match rest with
  | [] => rfl
  | [_] => rfl
  | [_, _] => rfl
  | _ :: _ :: _ :: _ =>
      rw [List.length_cons, List.length_cons, List.length_cons] at short
      omega

/-- The condition of the loop looks at no byte behind the end. -/
theorem escapeAt_eq (split : bytes.drop i = b :: rest) :
    escapeAt bytes i = .ok (isEscape (b :: rest)) := by
  have length := congrArg List.length split
  rw [List.length_drop, List.length_cons] at length
  rw [escapeAt, byteAt_of_drop split, ok_bind]
  by_cases long : i + 3 < bytes.length
  · match rest with
    | [] => simp only [List.length_nil] at length; omega
    | [_] => simp only [List.length_cons, List.length_nil] at length; omega
    | [_, _] => simp only [List.length_cons, List.length_nil] at length; omega
    | x :: y :: z :: rest =>
        have digits : slice bytes (i + 1) (i + 4) = .ok [x, y, z] := by
          rw [slice, if_pos ⟨by omega, by omega⟩, drop_succ split]
          simp
        rw [digits, isEscape]
        cases b == 0x5C with
        | true => simp only [long, decide_true, Bool.and_true, if_true]; rfl
        | false => rfl
  · rw [isEscape_short (by omega), decide_eq_false long, Bool.and_false,
      if_neg Bool.false_ne_true]
    rfl

/-! ### The value of an escape -/

/-- The escape is of no byte: its first digit is 4 or more. -/
def TooBig (bytes : List UInt8) : Prop :=
  ∃ before x y z after, bytes = before ++ 0x5C :: x :: y :: z :: after ∧
    [x, y, z].all isOctal = true ∧ 0x34 ≤ x

/-- An octal digit is not below `0`, so subtracting that does not wrap. -/
theorem digit_ge {d : UInt8} (octal : isOctal d = true) : 0x30 ≤ d := by
  simp only [isOctal, Bool.and_eq_true, decide_eq_true_eq] at octal
  exact octal.1

/-- The number that a digit is for, as a byte that does not wrap. -/
theorem toNat_digit {d : UInt8} (octal : isOctal d = true) :
    (d - 0x30).toNat = d.toNat - 48 := by
  rw [UInt8.toNat_sub_of_le _ _ (digit_ge octal)]
  rfl

/-- An octal digit stands for 7 at most. -/
theorem digit_le {d : UInt8} (octal : isOctal d = true) : (d - 0x30).toNat ≤ 7 := by
  rw [toNat_digit octal]
  simp only [isOctal, Bool.and_eq_true, decide_eq_true_eq] at octal
  have high : d.toNat ≤ 55 := UInt8.le_iff_toNat_le.mp octal.2
  omega

/-- A digit below 4 has a value of 3 at most, which leaves room for two more digits in a
byte. -/
theorem digit_small {d : UInt8} (octal : isOctal d = true) (small : ¬ 0x34 ≤ d) :
    (d - 0x30).toNat ≤ 3 := by
  have low : ¬ 52 ≤ d.toNat := fun large => small (UInt8.le_iff_toNat_le.mpr large)
  rw [toNat_digit octal]
  omega

/-- From 4 on a first digit takes the value beyond a byte, whatever follows. -/
theorem digit_big {d : UInt8} (octal : isOctal d = true) (big : 0x34 ≤ d) :
    4 ≤ (d - 0x30).toNat := by
  have high : 52 ≤ d.toNat := UInt8.le_iff_toNat_le.mp big
  rw [toNat_digit octal]
  omega

/-- The subtraction of a digit goes well in both builds. -/
theorem sub_ok {d : UInt8} (octal : isOctal d = true) : build.sub d 0x30 = .ok (d - 0x30) := by
  cases build with
  | debug => rw [Build.sub, if_pos (digit_ge octal)]
  | release => rfl

/-- A product that fits is the same in both builds. -/
theorem mul_ok {a c : UInt8} (small : build = .release ∨ a.toNat * c.toNat < 256) :
    build.mul a c = .ok (a * c) := by
  cases build with
  | debug =>
      have small : a.toNat * c.toNat < 256 := by simpa using small
      rw [Build.mul, Build.u8, if_pos small]
  | release => rfl

/-- A sum that fits is the same in both builds. -/
theorem add_ok {a c : UInt8} (small : build = .release ∨ a.toNat + c.toNat < 256) :
    build.add a c = .ok (a + c) := by
  cases build with
  | debug =>
      have small : a.toNat + c.toNat < 256 := by simpa using small
      rw [Build.add, Build.u8, if_pos small]
  | release => rfl

/-- The digits of an escape, where the loop finds them. -/
theorem byteAt_digits (split : bytes.drop i = b :: x :: y :: z :: rest) :
    byteAt bytes (i + 1) = .ok x ∧ byteAt bytes (i + 2) = .ok y ∧ byteAt bytes (i + 3) = .ok z := by
  have first := drop_succ split
  have second := drop_succ first
  exact ⟨byteAt_of_drop first, byteAt_of_drop second, byteAt_of_drop (drop_succ second)⟩

/-- Each of the three digits is octal. -/
theorem all_octal (octal : [x, y, z].all isOctal = true) :
    isOctal x = true ∧ isOctal y = true ∧ isOctal z = true := by
  simpa only [List.all_cons, List.all_nil, Bool.and_true, Bool.and_eq_true] using octal

/-- Every intermediate result of a small escape is a byte. -/
theorem valueAt_ok (split : bytes.drop i = b :: x :: y :: z :: rest)
    (octal : [x, y, z].all isOctal = true) (small : build = .release ∨ ¬ 0x34 ≤ x) :
    valueAt build bytes i = .ok ((x - 0x30) * 64 + (y - 0x30) * 8 + (z - 0x30)) := by
  obtain ⟨at_x, at_y, at_z⟩ := byteAt_digits split
  obtain ⟨octal_x, octal_y, octal_z⟩ := all_octal octal
  have bound_y := digit_le octal_y
  have bound_z := digit_le octal_z
  have times_x : build.mul (x - 0x30) 64 = .ok ((x - 0x30) * 64) := by
    refine mul_ok (small.imp_right fun small => ?_)
    have bound := digit_small octal_x small
    simp
    omega
  have times_y : build.mul (y - 0x30) 8 = .ok ((y - 0x30) * 8) := by
    refine mul_ok (Or.inr ?_)
    simp
    omega
  have sum : build.add ((x - 0x30) * 64) ((y - 0x30) * 8) =
      .ok ((x - 0x30) * 64 + (y - 0x30) * 8) := by
    refine add_ok (small.imp_right fun small => ?_)
    have bound := digit_small octal_x small
    rw [UInt8.toNat_mul, UInt8.toNat_mul]
    simp only [UInt8.reduceToNat]
    omega
  have total : build.add ((x - 0x30) * 64 + (y - 0x30) * 8) (z - 0x30) =
      .ok ((x - 0x30) * 64 + (y - 0x30) * 8 + (z - 0x30)) := by
    refine add_ok (small.imp_right fun small => ?_)
    have bound := digit_small octal_x small
    rw [UInt8.toNat_add, UInt8.toNat_mul, UInt8.toNat_mul]
    simp only [UInt8.reduceToNat]
    omega
  simp only [valueAt, at_x, at_y, at_z, sub_ok octal_x, sub_ok octal_y, sub_ok octal_z, times_x,
    times_y, sum, total, ok_bind]

/-- From a first digit of 4 on, the first product is 256 at least, and a debug build panics
there. -/
theorem valueAt_error (split : bytes.drop i = b :: x :: y :: z :: rest)
    (octal : [x, y, z].all isOctal = true) (big : 0x34 ≤ x) :
    valueAt .debug bytes i = .error .overflow := by
  obtain ⟨octal_x, -, -⟩ := all_octal octal
  have bound := digit_big octal_x big
  have overflow : Build.debug.mul (x - 0x30) 64 = .error .overflow := by
    rw [Build.mul, Build.u8, if_neg]
    simp
    omega
  simp only [valueAt, (byteAt_digits split).1, sub_ok octal_x, overflow, ok_bind, error_bind]

/-! ### The whole loop -/

/-- What stands before an escape does not make it smaller. -/
theorem TooBig.append_left {rest : List UInt8} (big : TooBig rest) (read : List UInt8) :
    TooBig (read ++ rest) := by
  obtain ⟨before, x, y, z, after, rfl, octal, large⟩ := big
  exact ⟨read ++ before, x, y, z, after, (List.append_assoc _ _ _).symm, octal, large⟩

/-- An escape that is found from an index on is one of the whole. -/
theorem TooBig.of_drop {n : Nat} (big : TooBig (bytes.drop n)) : TooBig bytes := by
  have whole := big.append_left (bytes.take n)
  rwa [List.take_append_drop] at whole

/-- What goes well from an index goes well from a later one. -/
theorem fits_behind (fits : build = .release ∨ ¬ TooBig (bytes.drop i)) (n : Nat) :
    build = .release ∨ ¬ TooBig (bytes.drop (i + n)) := by
  refine fits.imp_right fun fits big => fits ?_
  rw [← List.drop_drop] at big
  exact big.of_drop

/-- The escape is the first one, or behind the first byte. -/
theorem tooBig_cons (big : TooBig (b :: rest)) :
    (b = 0x5C ∧ ∃ x y z after, rest = x :: y :: z :: after ∧
      [x, y, z].all isOctal = true ∧ 0x34 ≤ x) ∨ TooBig rest := by
  obtain ⟨before, x, y, z, after, split, octal, large⟩ := big
  cases before with
  | nil =>
      obtain ⟨rfl, rfl⟩ := List.cons.inj split
      exact Or.inl ⟨rfl, x, y, z, after, rfl, octal, large⟩
  | cons c before =>
      obtain ⟨rfl, rfl⟩ := List.cons.inj split
      exact Or.inr ⟨before, x, y, z, after, rfl, octal, large⟩

/-- An escape does not begin with a byte that is no backslash. -/
theorem tooBig_other (plain : b ≠ 0x5C) (big : TooBig (b :: rest)) : TooBig rest :=
  (tooBig_cons big).resolve_left fun first => plain first.1

/-- A digit is no backslash. -/
theorem plain_of_octal {d : UInt8} (octal : isOctal d = true) : d ≠ 0x5C := by
  rintro rfl
  cases octal

/-- Digits are no backslash, so behind an escape that is not too big the search goes on. -/
theorem tooBig_behind (octal : [x, y, z].all isOctal = true) (small : ¬ 0x34 ≤ x)
    (big : TooBig (b :: x :: y :: z :: rest)) : TooBig rest := by
  obtain ⟨octal_x, octal_y, octal_z⟩ := all_octal octal
  rcases tooBig_cons big with ⟨-, x', y', z', after, split, -, large⟩ | later
  · obtain ⟨rfl, -⟩ := List.cons.inj split
    exact absurd large small
  · exact tooBig_other (plain_of_octal octal_z) <| tooBig_other (plain_of_octal octal_y) <|
      tooBig_other (plain_of_octal octal_x) later

/-- What the loop finds at an index: an escape, or a byte to copy. -/
theorem escape_or_copy (inside : i < bytes.length) :
    (∃ x y z rest, bytes.drop i = 0x5C :: x :: y :: z :: rest ∧
      [x, y, z].all isOctal = true ∧ escapeAt bytes i = .ok true) ∨
    ∃ b rest, bytes.drop i = b :: rest ∧ isEscape (b :: rest) = false ∧
      escapeAt bytes i = .ok false := by
  have nonempty : bytes.drop i ≠ [] := fun empty => by
    have behind := List.drop_eq_nil_iff.mp empty
    omega
  obtain ⟨b, rest, split⟩ := List.exists_cons_of_ne_nil nonempty
  have found := escapeAt_eq split
  cases escape : isEscape (b :: rest) with
  | false => exact Or.inr ⟨b, rest, split, escape, by rw [found, escape]⟩
  | true =>
      match rest with
      | x :: y :: z :: rest =>
          rw [escape] at found
          obtain ⟨backslash, octal⟩ := Bool.and_eq_true_iff.mp escape
          exact Or.inl ⟨x, y, z, rest, by rw [split, eq_of_beq backslash], octal, found⟩

/-- Behind an escape the index is four bytes further. -/
theorem drop_add_four (split : bytes.drop i = b :: x :: y :: z :: rest) :
    bytes.drop (i + 4) = rest :=
  drop_succ (drop_succ (drop_succ (drop_succ split)))

/-- In a release build the loop gives the bytes that `unescapeBytes` gives; in a debug build
too, if all escapes are of a byte. -/
theorem loop_ok (fits : build = .release ∨ ¬ TooBig (bytes.drop i)) (out : List UInt8) :
    unescapeLoop build bytes i out = .ok (out ++ unescapeBytes (bytes.drop i)) := by
  fun_induction unescapeLoop build bytes i out with
  | case1 i out inside ih₁ ih₂ =>
      rcases escape_or_copy inside with
        ⟨x, y, z, rest, split, octal, found⟩ | ⟨b, rest, split, other, found⟩
      · have later := drop_add_four split
        have small : build = .release ∨ ¬ 0x34 ≤ x := by
          refine fits.imp_right fun fits large => fits ?_
          exact ⟨[], x, y, z, rest, split, octal, large⟩
        rw [found, ok_bind, if_pos rfl, valueAt_ok split octal small, ok_bind,
          ih₁ _ (fits_behind fits 4), later, split, unescapeBytes_escape octal, List.append_assoc,
          List.singleton_append]
      · have later := drop_succ split
        rw [found, ok_bind, if_neg Bool.false_ne_true, byteAt_of_drop split, ok_bind,
          ih₂ _ (fits_behind fits 1), later, split, unescapeBytes_other other, List.append_assoc,
          List.singleton_append]
  | case2 i out outside =>
      rw [List.drop_eq_nil_of_le (Nat.le_of_not_lt outside), unescapeBytes, List.append_nil]

/-- A debug build panics at an escape that is of no byte. -/
theorem loop_error (big : TooBig (bytes.drop i)) (out : List UInt8) :
    unescapeLoop .debug bytes i out = .error .overflow := by
  generalize debug : Build.debug = build
  fun_induction unescapeLoop build bytes i out with
  | case1 i out inside ih₁ ih₂ =>
      obtain rfl := debug
      rcases escape_or_copy inside with
        ⟨x, y, z, rest, split, octal, found⟩ | ⟨b, rest, split, other, found⟩
      · rw [found, ok_bind, if_pos rfl]
        by_cases large : 0x34 ≤ x
        · rw [valueAt_error split octal large, error_bind]
        · have later : TooBig (bytes.drop (i + 4)) := by
            rw [drop_add_four split]
            exact tooBig_behind octal large (split ▸ big)
          rw [valueAt_ok split octal (Or.inr large), ok_bind, ih₁ _ later]
      · have later : TooBig (bytes.drop (i + 1)) := by
          rw [drop_succ split]
          rcases tooBig_cons (split ▸ big) with ⟨rfl, x, y, z, after, rfl, octal, -⟩ | later
          · rw [isEscape, octal] at other
            cases other
          · exact later
        rw [found, ok_bind, if_neg Bool.false_ne_true, byteAt_of_drop split, ok_bind, ih₂ _ later]
  | case2 i out outside =>
      rw [List.drop_eq_nil_of_le (Nat.le_of_not_lt outside)] at big
      obtain ⟨before, x, y, z, after, split, -⟩ := big
      simp at split

end Bytes

/-! ### Strings -/

/-- A string without an escape of no byte gives the same in both builds, and in a release
build every string does. -/
theorem unescape_eq (build : Build) (s : String)
    (fits : build = .release ∨ ¬ TooBig (Utf8.utf8 s.toList)) :
    unescape build s = .ok (unescapeMountField s) := by
  rw [unescape, unescapeMountField]
  split_ifs
  · rfl
  · have run : unescapeLoop build (Utf8.utf8 s.toList) 0 [] = _ := loop_ok (i := 0) fits []
    rw [run]
    rfl

/-- The release build never panics, and is the function on the bytes. -/
theorem unescape_release (s : String) : unescape .release s = .ok (unescapeMountField s) :=
  unescape_eq .release s (Or.inl rfl)

/-- A debug build panics at the first escape that is of no byte. -/
theorem unescape_overflow {s : String} (big : TooBig (Utf8.utf8 s.toList)) :
    unescape .debug s = .error .overflow := by
  have backslash : '\\' ∈ s.toList := by
    obtain ⟨before, x, y, z, after, split, -⟩ := big
    exact backslash_of_mem_utf8 (by simp [split])
  have contained : Text.contains s '\\' = true := List.contains_iff_mem.mpr backslash
  have run : unescapeLoop .debug (Utf8.utf8 s.toList) 0 [] = _ := loop_error (i := 0) big []
  rw [unescape, contained, run]
  rfl

/-! ### Octal escaping -/

/-- The digits of a byte are octal, and the first of them is 3 at most. -/
theorem digits_octal (b : UInt8) :
    [0x30 + b / 64, 0x30 + b / 8 % 8, 0x30 + b % 8].all isOctal = true ∧
      ¬ 0x34 ≤ 0x30 + b / 64 := by
  have bound := b.toNat_lt
  constructor
  · simp [isOctal, UInt8.le_iff_toNat_le]
    omega
  · rw [UInt8.le_iff_toNat_le]
    simp
    omega

/-- Escapes of bytes are not too big. -/
theorem not_tooBig_octalEscape {chosen : UInt8 → Bool} (backslash : chosen 0x5C = true)
    (bytes : List UInt8) : ¬ TooBig (octalEscape chosen bytes) := by
  induction bytes with
  | nil =>
      rintro ⟨before, x, y, z, after, split, -⟩
      simp [octalEscape] at split
  | cons b bytes ih =>
      intro big
      rw [octalEscape, List.flatMap_cons] at big
      cases escaped : chosen b with
      | true =>
          rw [escaped, if_pos rfl] at big
          obtain ⟨octal, small⟩ := digits_octal b
          exact ih (tooBig_behind octal small big)
      | false =>
          have plain : b ≠ 0x5C := by
            rintro rfl
            cases escaped.symm.trans backslash
          rw [escaped, if_neg Bool.false_ne_true] at big
          exact ih (tooBig_other plain big)

/-- Octal escaping that escapes the backslash is undone in both builds, and a string without
backslash is left as it is. -/
theorem unescape_octalEscape (build : Build) :
    (∀ chosen : UInt8 → Bool, chosen 0x5C = true → ∀ s t : String,
      Utf8.utf8 t.toList = octalEscape chosen (Utf8.utf8 s.toList) →
      unescape build t = .ok s) ∧
    ∀ s : String, '\\' ∉ s.toList → unescape build s = .ok s := by
  constructor
  · intro chosen backslash s t written
    have fits : ¬ TooBig (Utf8.utf8 t.toList) := by
      rw [written]
      exact not_tooBig_octalEscape backslash _
    rw [unescape_eq build t (Or.inr fits), unescapeMountField_of_octal backslash written]
  · intro s free
    have absent : Text.contains s '\\' = false := by simpa using free
    rw [unescape, absent]
    rfl

/-- A blank and a backslash in a mount point, both escaped. -/
theorem unescape_octalEscape_mount :
    unescape .debug "/mnt/my\\040disk\\134" = .ok "/mnt/my disk\\" ∧
      unescape .debug "/plain" = .ok "/plain" := by
  obtain ⟨escaped, plain⟩ := unescape_octalEscape .debug
  constructor
  · exact escaped (fun b => b == 0x20 || b == 0x5C) rfl _ _ (by decide)
  · exact plain _ (by decide)

/-- What a string gives in both builds, if in neither the arithmetic goes wrong. -/
def Exact (s : String) : Prop :=
  ∃ t, unescape .debug s = .ok t ∧ unescape .release s = .ok t

/-- Only an escape that is of no byte goes wrong: a debug build panics there, by an overflow. -/
theorem unescape_exact_iff (s : String) :
    (Exact s ↔ ¬ TooBig (Utf8.utf8 s.toList)) ∧
      (TooBig (Utf8.utf8 s.toList) → unescape .debug s = .error .overflow) ∧
      ∃ t, unescape .release s = .ok t := by
  refine ⟨⟨?_, fun fits => ?_⟩, unescape_overflow, _, unescape_release s⟩
  · rintro ⟨t, debug, -⟩ big
    cases debug.symm.trans (unescape_overflow big)
  · exact ⟨_, unescape_eq .debug s (Or.inr fits), unescape_release s⟩

/-- No byte has the number 777 to the base 8. -/
theorem not_exact : ¬ ∀ s, Exact s := by
  intro claim
  obtain ⟨t, debug, -⟩ := claim "\\777"
  have big : TooBig (Utf8.utf8 "\\777".toList) := ⟨[], 0x37, 0x37, 0x37, [], rfl, rfl, by decide⟩
  cases debug.symm.trans (unescape_overflow big)

end BlazeBee.Collectors
