import BlazeBee.Lib.Text
import BlazeBee.Lib.Utf8

/-!
Tokenizing the files under `/proc`.

`unescape_mount_field` works on bytes. `unescapeMountField_of_octal`: it undoes every
octal escaping that escapes the backslash, whatever other bytes that escapes.
-/

namespace BlazeBee.Collectors

open BlazeBee.Lib

/-- `fields`: a line of a `/proc` file by its ASCII whitespace. -/
def fields (line : List Char) : List (List Char) := Text.splitAsciiWhitespace line

/-- `b'0'..=b'7'`. -/
def isOctal (b : UInt8) : Bool := 0x30 ≤ b && b ≤ 0x37

/-- The loop of `unescape_mount_field`; the arithmetic wraps, as in a release build. -/
def unescapeBytes : List UInt8 → List UInt8
  | b :: x :: y :: z :: rest =>
      if b == 0x5C && [x, y, z].all isOctal then
        ((x - 0x30) * 64 + (y - 0x30) * 8 + (z - 0x30)) :: unescapeBytes rest
      else b :: unescapeBytes (x :: y :: z :: rest)
  | b :: rest => b :: unescapeBytes rest
  | [] => []

/-- `unescape_mount_field`. -/
def unescapeMountField (s : String) : String :=
  if !Text.contains s '\\' then s
  else String.ofList (Utf8.lossy (unescapeBytes (Utf8.utf8 s.toList)))

/-! ### Octal escaping -/

/-- A byte as a backslash and its three octal digits. -/
def octal (b : UInt8) : List UInt8 := [0x5C, 0x30 + b / 64, 0x30 + b / 8 % 8, 0x30 + b % 8]

/-- The chosen bytes in octal, the others as they are. -/
def octalEscape (chosen : UInt8 → Bool) (bytes : List UInt8) : List UInt8 :=
  bytes.flatMap fun b => if chosen b then octal b else [b]

/-- An octal escape of a byte is read back as the byte, whatever follows. -/
theorem unescapeBytes_octal (b : UInt8) (rest : List UInt8) :
    unescapeBytes (octal b ++ rest) = b :: unescapeBytes rest := by
  have bound := b.toNat_lt
  have digits : [0x30 + b / 64, 0x30 + b / 8 % 8, 0x30 + b % 8].all isOctal = true := by
    simp [isOctal, UInt8.le_iff_toNat_le]
    omega
  have value : (0x30 + b / 64 - 0x30) * 64 + (0x30 + b / 8 % 8 - 0x30) * 8 +
      (0x30 + b % 8 - 0x30) = b := by
    have digit : ∀ d : UInt8, 0x30 + d - 0x30 = d := fun d => by
      rw [UInt8.add_comm, UInt8.add_sub_cancel]
    apply UInt8.toNat_inj.mp
    simp only [digit]
    simp
    omega
  have escape : (0x5C == (0x5C : UInt8)) = true := rfl
  rw [octal, List.cons_append, List.cons_append, List.cons_append, List.cons_append,
    List.nil_append, unescapeBytes, escape, digits, value]
  rfl

/-- A byte that is no backslash is copied. -/
theorem unescapeBytes_plain {b : UInt8} (plain : b ≠ 0x5C) (rest : List UInt8) :
    unescapeBytes (b :: rest) = b :: unescapeBytes rest := by
  have no_escape : (b == 0x5C) = false := beq_eq_false_iff_ne.mpr plain
  match rest with
  | [] => rfl
  | [_] => rfl
  | [_, _] => rfl
  | _ :: _ :: _ :: _ => rw [unescapeBytes, no_escape, Bool.false_and, if_neg Bool.false_ne_true]

/-- Escaping is undone whichever bytes are escaped, as long as the backslash is one of them:
a backslash that is left then begins an escape. -/
theorem unescapeBytes_octalEscape {chosen : UInt8 → Bool} (backslash : chosen 0x5C = true)
    (bytes : List UInt8) : unescapeBytes (octalEscape chosen bytes) = bytes := by
  induction bytes with
  | nil => rfl
  | cons b bytes ih =>
      rw [octalEscape, List.flatMap_cons]
      cases escaped : chosen b with
      | true => exact (unescapeBytes_octal b _).trans (congrArg (b :: ·) ih)
      | false =>
          have plain : b ≠ 0x5C := by
            rintro rfl
            cases escaped.symm.trans backslash
          exact (unescapeBytes_plain plain _).trans (congrArg (b :: ·) ih)

/-- Without a backslash nothing is changed. -/
theorem unescapeBytes_eq_self {bytes : List UInt8} (free : 0x5C ∉ bytes) :
    unescapeBytes bytes = bytes := by
  induction bytes with
  | nil => rfl
  | cons b bytes ih =>
      obtain ⟨plain, free⟩ := not_or.mp (mt List.mem_cons.mpr free)
      rw [unescapeBytes_plain (Ne.symm plain), ih free]

/-- The byte of the backslash occurs in no longer encoding, so it stands for the
character. -/
theorem backslash_of_mem_utf8 {s : List Char} (mem : 0x5C ∈ Utf8.utf8 s) : '\\' ∈ s := by
  obtain ⟨c, inside, mem⟩ := List.mem_flatMap.mp mem
  obtain ⟨-, same⟩ := Utf8.eq_of_mem_utf8EncodeChar mem (by decide)
  obtain rfl : c = '\\' := Char.toNat_inj.mp same
  exact inside

/-- The shortcut for a field without backslash changes nothing. -/
theorem unescapeMountField_eq (s : String) :
    unescapeMountField s = String.ofList (Utf8.lossy (unescapeBytes (Utf8.utf8 s.toList))) := by
  unfold unescapeMountField
  split
  · rename_i free
    have free : '\\' ∉ s.toList := by simpa using free
    rw [unescapeBytes_eq_self (mt backslash_of_mem_utf8 free), Utf8.lossy_utf8,
      String.ofList_toList]
  · rfl

/-- A string that was written in octal escapes, the backslash among the bytes escaped, is
read back. -/
theorem unescapeMountField_of_octal {chosen : UInt8 → Bool} (backslash : chosen 0x5C = true)
    {s t : String} (written : Utf8.utf8 s.toList = octalEscape chosen (Utf8.utf8 t.toList)) :
    unescapeMountField s = t := by
  rw [unescapeMountField_eq, written, unescapeBytes_octalEscape backslash, Utf8.lossy_utf8,
    String.ofList_toList]

end BlazeBee.Collectors
