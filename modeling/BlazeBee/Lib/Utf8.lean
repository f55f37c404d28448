import Mathlib.Data.List.Basic
import Mathlib.Tactic.Common

/-!
The bytes of a string, `String::from_utf8_lossy` and `String::from_utf8`.

`lossy_utf8`: decoding the bytes of a string gives the string back.
`decode_eq_some_iff`: strict decoding accepts the bytes of strings and no others.
`eq_of_mem_utf8EncodeChar`: a byte below 0x80 stands only for its own ASCII character,
so a pass over the bytes that looks for ASCII characters finds exactly these.
`lossy_append_ascii`: a broken sequence damages nothing behind the next ASCII character.
-/

namespace BlazeBee.Lib.Utf8

/-- The UTF-8 encoding of a string. -/
def utf8 (s : List Char) : List UInt8 := s.flatMap String.utf8EncodeChar

@[simp] theorem utf8_nil : utf8 [] = [] := rfl

@[simp] theorem utf8_cons (c : Char) (s : List Char) :
    utf8 (c :: s) = String.utf8EncodeChar c ++ utf8 s := rfl

@[simp] theorem utf8_append (s t : List Char) : utf8 (s ++ t) = utf8 s ++ utf8 t :=
  List.flatMap_append

/-- The size of a string is the number of its bytes. -/
theorem utf8ByteSize_ofList (s : List Char) :
    (String.ofList s).utf8ByteSize = (utf8 s).length := by
  simp [String.utf8ByteSize, utf8, List.utf8Encode]

/-- A character of one byte is found among the bytes. -/
theorem mem_utf8_of_mem {s : List Char} {c : Char} {b : UInt8}
    (encodes : String.utf8EncodeChar c = [b]) (mem : c ∈ s) : b ∈ utf8 s := by
  refine List.mem_flatMap.mpr ⟨c, mem, ?_⟩
  rw [encodes]
  exact List.mem_singleton_self b

/-- A character of one byte, repeated, is that byte repeated. -/
theorem utf8_replicate {c : Char} {b : UInt8} (encodes : String.utf8EncodeChar c = [b])
    (n : Nat) : utf8 (List.replicate n c) = List.replicate n b := by
  induction n with
  | zero => rfl
  | succ n ih => rw [List.replicate_succ, utf8_cons, ih, encodes, List.replicate_succ]; rfl

/-- Whether `b` may follow the lead byte `a` of a sequence of three or four bytes. -/
def secondByte (a b : UInt8) : Bool :=
  (a == 0xE0 && 0xA0 ≤ b && b ≤ 0xBF) || (0xE1 ≤ a && a ≤ 0xEC && 0x80 ≤ b && b ≤ 0xBF) ||
    (a == 0xED && 0x80 ≤ b && b ≤ 0x9F) || (0xEE ≤ a && a ≤ 0xEF && 0x80 ≤ b && b ≤ 0xBF) ||
    (a == 0xF0 && 0x90 ≤ b && b ≤ 0xBF) || (0xF1 ≤ a && a ≤ 0xF3 && 0x80 ≤ b && b ≤ 0xBF) ||
    (a == 0xF4 && 0x80 ≤ b && b ≤ 0x8F)

/-- The length of the longest beginning of a sequence at the front of bytes that do not
start with a whole one, at least one. -/
def brokenLen : List UInt8 → Nat
  | a :: b :: rest =>
      if secondByte a b then
        match rest with
        | c :: _ => if 0xF0 ≤ a && 0x80 ≤ c && c ≤ 0xBF then 3 else 2
        | [] => 2
      else 1
  | _ => 1

/-- Decodes after skipping the given number of bytes; each broken sequence becomes one
replacement character. -/
def lossyFrom : Nat → List UInt8 → List Char
  | _, [] => []
  | skip + 1, _ :: rest => lossyFrom skip rest
  | 0, b :: rest =>
      match (b :: rest).toByteArray.utf8DecodeChar? 0 with
      | some c => c :: lossyFrom (c.utf8Size - 1) rest
      | none => '\uFFFD' :: lossyFrom (brokenLen (b :: rest) - 1) rest

/-- `String::from_utf8_lossy`. -/
def lossy (bytes : List UInt8) : List Char := lossyFrom 0 bytes

/-- Bytes that belong to a character already decoded are skipped. -/
theorem lossyFrom_append (skipped rest : List UInt8) :
    lossyFrom skipped.length (skipped ++ rest) = lossyFrom 0 rest := by
  induction skipped with
  | nil => rfl
  | cons b skipped ih => exact ih

/-- A character is decoded to itself, whatever follows it. -/
theorem lossy_utf8EncodeChar (c : Char) (rest : List UInt8) :
    lossy (String.utf8EncodeChar c ++ rest) = c :: lossy rest := by
  have decoded : (String.utf8EncodeChar c ++ rest).toByteArray.utf8DecodeChar? 0 = some c := by
    rw [List.toByteArray_append]
    exact ByteArray.utf8DecodeChar?_utf8EncodeChar_append
  have size := String.length_utf8EncodeChar c
  have positive := c.utf8Size_pos
  cases encoded : String.utf8EncodeChar c with
  | nil =>
      rw [encoded] at size
      simp at size
      omega
  | cons b tail =>
      rw [encoded] at decoded size
      have width : c.utf8Size - 1 = tail.length := by
        simp at size
        omega
      rw [List.cons_append] at decoded ⊢
      rw [lossy, lossyFrom, decoded]
      dsimp only
      rw [width, lossyFrom_append]
      rfl

/-- And so is a text. -/
theorem lossy_utf8_append (s : List Char) (rest : List UInt8) :
    lossy (utf8 s ++ rest) = s ++ lossy rest := by
  induction s with
  | nil => rfl
  | cons c s ih => rw [utf8_cons, List.append_assoc, lossy_utf8EncodeChar, ih, List.cons_append]

/-- Decoding text, even lossily, loses nothing. -/
theorem lossy_utf8 (s : List Char) : lossy (utf8 s) = s := by
  have decoded := lossy_utf8_append s []
  have none : lossy [] = [] := rfl
  rwa [List.append_nil, none, List.append_nil] at decoded

/-- Different texts have different bytes. -/
theorem utf8_injective : Function.Injective utf8 := Function.LeftInverse.injective lossy_utf8

/-- A byte with a marked top bit is not ASCII. -/
theorem not_ascii_or (b : UInt8) {mark : UInt8} (high : 0x80 ≤ mark) : ¬ b ||| mark < 0x80 := by
  have grows : mark.toNat ≤ (b ||| mark).toNat := by
    rw [UInt8.toNat_or]
    exact Nat.right_le_or
  have high : 128 ≤ mark.toNat := UInt8.le_iff_toNat_le.mp high
  intro small
  have small : (b ||| mark).toNat < 128 := UInt8.lt_iff_toNat_lt.mp small
  omega

/-- The bytes of a wider character are all from 0x80 on. -/
theorem eq_of_mem_utf8EncodeChar {c : Char} {b : UInt8} (mem : b ∈ String.utf8EncodeChar c)
    (ascii : b < 0x80) : String.utf8EncodeChar c = [b] ∧ c.toNat = b.toNat := by
  rcases c.utf8Size_eq with size | size | size | size
  · have encoded := String.utf8EncodeChar_eq_singleton size
    rw [encoded, List.mem_singleton] at mem
    refine ⟨by rw [encoded, mem], ?_⟩
    have small : c.toNat ≤ 127 := UInt32.le_iff_toNat_le.mp (Char.utf8Size_eq_one_iff.mp size)
    rw [mem, UInt32.toNat_toUInt8]
    exact (Nat.mod_eq_of_lt (by omega)).symm
  · rw [String.utf8EncodeChar_eq_cons_cons size] at mem
    simp only [List.mem_cons, List.not_mem_nil, or_false] at mem
    rcases mem with rfl | rfl <;> exact absurd ascii (not_ascii_or _ (by decide))
  · rw [String.utf8EncodeChar_eq_cons_cons_cons size] at mem
    simp only [List.mem_cons, List.not_mem_nil, or_false] at mem
    rcases mem with rfl | rfl | rfl <;> exact absurd ascii (not_ascii_or _ (by decide))
  · rw [String.utf8EncodeChar_eq_cons_cons_cons_cons size] at mem
    simp only [List.mem_cons, List.not_mem_nil, or_false] at mem
    rcases mem with rfl | rfl | rfl | rfl <;> exact absurd ascii (not_ascii_or _ (by decide))

/-- A digit is one byte, with the number of the character. -/
theorem utf8EncodeChar_of_isDigit {c : Char} (digit : c.isDigit = true) :
    String.utf8EncodeChar c = [c.val.toUInt8] ∧ c.val.toUInt8.toNat = c.toNat := by
  have range : 48 ≤ c.toNat ∧ c.toNat ≤ 57 := by
    simpa [Char.isDigit, UInt32.le_iff_toNat_le] using digit
  have single : c.utf8Size = 1 := by
    refine Char.utf8Size_eq_one_iff.mpr (UInt32.le_iff_toNat_le.mpr ?_)
    have bound : (127 : UInt32).toNat = 127 := rfl
    have small : c.toNat ≤ 127 := by omega
    rwa [bound]
  refine ⟨String.utf8EncodeChar_eq_singleton single, ?_⟩
  rw [UInt32.toNat_toUInt8]
  exact Nat.mod_eq_of_lt (show c.toNat < 256 by omega)

/-- `bytes().all(|b| b.is_ascii_digit())`: the characters are digits. -/
theorem all_isDigit_utf8_iff {s : List Char} :
    ((utf8 s).all fun b => 0x30 ≤ b && b ≤ 0x39) = true ↔ ∀ c ∈ s, c.isDigit = true := by
  rw [List.all_eq_true]
  constructor
  · intro all c mem
    obtain ⟨b, bytes⟩ := List.exists_mem_of_ne_nil _ (String.utf8EncodeChar_ne_nil (c := c))
    have range := all b (List.mem_flatMap.mpr ⟨c, mem, bytes⟩)
    simp only [Bool.and_eq_true, decide_eq_true_eq, UInt8.le_iff_toNat_le] at range
    have low : (0x30 : UInt8).toNat = 48 := rfl
    have high : (0x39 : UInt8).toNat = 57 := rfl
    have ascii : b < 0x80 := UInt8.lt_iff_toNat_lt.mpr (show b.toNat < 128 by omega)
    have same := (eq_of_mem_utf8EncodeChar bytes ascii).2
    have digit : 48 ≤ c.toNat ∧ c.toNat ≤ 57 := by omega
    simpa [Char.isDigit, UInt32.le_iff_toNat_le] using digit
  · intro digits b mem
    obtain ⟨c, inside, bytes⟩ := List.mem_flatMap.mp mem
    obtain ⟨encoded, value⟩ := utf8EncodeChar_of_isDigit (digits c inside)
    rw [encoded, List.mem_singleton] at bytes
    have range : 48 ≤ c.toNat ∧ c.toNat ≤ 57 := by
      simpa [Char.isDigit, UInt32.le_iff_toNat_le] using digits c inside
    have low : (0x30 : UInt8).toNat = 48 := rfl
    have high : (0x39 : UInt8).toNat = 57 := rfl
    simp only [Bool.and_eq_true, decide_eq_true_eq, UInt8.le_iff_toNat_le]
    rw [bytes, value]
    omega

/-! ### Strict decoding -/

/-- The bytes of some string. -/
def Valid (bytes : List UInt8) : Prop := ∃ s, utf8 s = bytes

/-- `String::from_utf8`. -/
def decode (bytes : List UInt8) : Option (List Char) :=
  if utf8 (lossy bytes) = bytes then some (lossy bytes) else none

/-- Bytes are decoded to a text exactly if they are that text's bytes. -/
theorem decode_eq_some_iff {bytes : List UInt8} {s : List Char} :
    decode bytes = some s ↔ utf8 s = bytes := by
  constructor
  · intro decoded
    unfold decode at decoded
    split_ifs at decoded with same
    rwa [← Option.some.inj decoded]
  · rintro rfl
    rw [decode, lossy_utf8, if_pos rfl]

@[simp] theorem decode_utf8 (s : List Char) : decode (utf8 s) = some s :=
  decode_eq_some_iff.mpr rfl

/-- Bytes are refused exactly if they are no text's. -/
theorem decode_eq_none_iff {bytes : List UInt8} : decode bytes = none ↔ ¬ Valid bytes := by
  rw [Option.eq_none_iff_forall_ne_some, Valid, not_exists]
  exact forall_congr' fun s => not_congr decode_eq_some_iff

/-- What follows a whole string decides. -/
theorem valid_utf8_append_iff {s : List Char} {bytes : List UInt8} :
    Valid (utf8 s ++ bytes) ↔ Valid bytes := by
  constructor
  · rintro ⟨t, whole⟩
    have split : t = s ++ lossy bytes := by rw [← lossy_utf8_append, ← whole, lossy_utf8]
    rw [split, utf8_append] at whole
    exact ⟨lossy bytes, List.append_cancel_left whole⟩
  · rintro ⟨t, rfl⟩
    exact ⟨s ++ t, utf8_append s t⟩

/-- An ASCII byte at the end is a character of its own. -/
theorem valid_concat_iff {a : Char} {b : UInt8} (encodes : String.utf8EncodeChar a = [b])
    (ascii : b < 0x80) {bytes : List UInt8} : Valid (bytes ++ [b]) ↔ Valid bytes := by
  constructor
  · rintro ⟨t, whole⟩
    rcases List.eq_nil_or_concat t with rfl | ⟨s, c, rfl⟩
    · simp at whole
    · rw [List.concat_eq_append, utf8_append, utf8_cons, utf8_nil, List.append_nil] at whole
      have last : b ∈ String.utf8EncodeChar c := by
        have positive := c.utf8Size_pos
        have size := String.length_utf8EncodeChar c
        rcases List.eq_nil_or_concat (String.utf8EncodeChar c) with none | ⟨init, d, encoded⟩
        · rw [none] at size
          simp at size
          omega
        · rw [encoded, List.concat_eq_append, ← List.append_assoc] at whole
          obtain rfl : d = b := by simpa using (List.append_inj' whole rfl).2
          simp [encoded]
      obtain ⟨encoded, -⟩ := eq_of_mem_utf8EncodeChar last ascii
      rw [encoded] at whole
      exact ⟨s, (List.append_inj' whole rfl).1⟩
  · rintro ⟨s, rfl⟩
    exact ⟨s ++ [a], by rw [utf8_append, utf8_cons, encodes]; rfl⟩

/-- A byte of ASCII at the end, however often, neither makes bytes valid nor spoils them. -/
theorem valid_append_replicate_iff {a : Char} {b : UInt8}
    (encodes : String.utf8EncodeChar a = [b]) (ascii : b < 0x80) {bytes : List UInt8} (n : Nat) :
    Valid (bytes ++ List.replicate n b) ↔ Valid bytes := by
  induction n with
  | zero => rw [List.replicate_zero, List.append_nil]
  | succ n ih =>
      rw [List.replicate_succ', ← List.append_assoc, valid_concat_iff encodes ascii, ih]

/-! ### Lossy decoding beside an ASCII character -/

/-- A character is decoded exactly where its bytes are. -/
theorem utf8DecodeChar?_eq_some_iff {bytes : List UInt8} {c : Char} :
    bytes.toByteArray.utf8DecodeChar? 0 = some c ↔ String.utf8EncodeChar c <+: bytes := by
  constructor
  · intro decoded
    obtain ⟨tail, whole⟩ := ByteArray.exists_of_utf8DecodeChar?_eq_some decoded
    have same := congrArg (fun b => b.data.toList) whole
    exact ⟨tail.data.toList, by simpa using same.symm⟩
  · rintro ⟨tail, rfl⟩
    rw [List.toByteArray_append]
    exact ByteArray.utf8DecodeChar?_utf8EncodeChar_append

section Ascii

variable {b : UInt8} (ascii : b < 0x80)

include ascii

/-- No character reaches over an ASCII byte. -/
theorem utf8DecodeChar?_append_ascii {bytes : List UInt8} (nonempty : bytes ≠ [])
    (rest : List UInt8) :
    (bytes ++ b :: rest).toByteArray.utf8DecodeChar? 0 = bytes.toByteArray.utf8DecodeChar? 0 := by
  refine Option.ext fun c => ?_
  simp only [utf8DecodeChar?_eq_some_iff]
  refine ⟨fun ⟨tail, whole⟩ => ?_, fun inside => inside.trans (List.prefix_append _ _)⟩
  rcases List.append_eq_append_iff.mp whole with ⟨left, inside, -⟩ | ⟨beyond, encoded, over_it⟩
  · exact ⟨left, inside.symm⟩
  · cases beyond with
    | nil => exact ⟨[], by simpa using encoded⟩
    | cons first beyond =>
        obtain ⟨rfl, -⟩ := List.cons.inj over_it
        have alone := (eq_of_mem_utf8EncodeChar (encoded ▸ List.mem_append_right _ (.head _))
          ascii).1
        rw [alone] at encoded
        have length := congrArg List.length encoded
        have positive := List.length_pos_of_ne_nil nonempty
        simp at length
        omega

/-- An ASCII byte behind broken ones is not taken for a part of them. -/
theorem brokenLen_append_ascii {bytes : List UInt8} (nonempty : bytes ≠ []) (rest : List UInt8) :
    brokenLen (bytes ++ b :: rest) = brokenLen bytes := by
  have low : ¬ (0x80 : UInt8) ≤ b := UInt8.not_le.mpr ascii
  have not_second : ∀ x, secondByte x b = false := by
    intro x
    have below : ∀ k : UInt8, 0x80 ≤ k → ¬ k ≤ b := fun k high le => low (UInt8.le_trans high le)
    simp [secondByte, low, below 0xA0 (by decide), below 0x90 (by decide)]
  match bytes, nonempty with
  | [x], _ => simp [brokenLen, not_second]
  | [x, y], _ => simp [brokenLen, low]
  | x :: y :: z :: tail, _ => rfl

end Ascii

/-- What is replaced as one lies within the bytes. -/
theorem brokenLen_le {bytes : List UInt8} (nonempty : bytes ≠ []) :
    brokenLen bytes ≤ bytes.length := by
  match bytes, nonempty with
  | [x], _ => simp [brokenLen]
  | [x, y], _ =>
      simp only [brokenLen]
      split_ifs <;> simp
  | x :: y :: z :: tail, _ =>
      simp only [brokenLen]
      split_ifs <;> simp

/-- The bytes of a decoded character are there, unless it stands for a broken sequence. -/
theorem mem_lossyFrom {c : Char} {skip : Nat} {bytes : List UInt8}
    (mem : c ∈ lossyFrom skip bytes) : c = '\uFFFD' ∨ String.utf8EncodeChar c ⊆ bytes := by
  induction bytes generalizing skip with
  | nil => simp [lossyFrom] at mem
  | cons x bytes ih =>
      have later : ∀ {skip}, c ∈ lossyFrom skip bytes →
          c = '\uFFFD' ∨ String.utf8EncodeChar c ⊆ x :: bytes := fun mem =>
        (ih mem).imp_right fun inside => List.Subset.trans inside (List.subset_cons_self x bytes)
      cases skip with
      | succ skip => exact later mem
      | zero =>
          rw [lossyFrom] at mem
          cases decoded : (x :: bytes).toByteArray.utf8DecodeChar? 0 with
          | some d =>
              rw [decoded] at mem
              rcases List.mem_cons.mp mem with rfl | mem
              · exact Or.inr (utf8DecodeChar?_eq_some_iff.mp decoded).subset
              · exact later mem
          | none =>
              rw [decoded] at mem
              rcases List.mem_cons.mp mem with rfl | mem
              · exact Or.inl rfl
              · exact later mem

section Ascii

variable {a : Char} {b : UInt8} (encodes : String.utf8EncodeChar a = [b]) (ascii : b < 0x80)

include encodes ascii

/-- An ASCII character stands for itself behind whatever bytes: decoding starts anew
there. -/
theorem lossyFrom_append_ascii {skip : Nat} {bytes : List UInt8} (inside : skip ≤ bytes.length)
    (rest : List UInt8) :
    lossyFrom skip (bytes ++ b :: rest) = lossyFrom skip bytes ++ a :: lossy rest := by
  induction bytes generalizing skip with
  | nil =>
      obtain rfl : skip = 0 := Nat.le_zero.mp inside
      have first := lossy_utf8EncodeChar a rest
      rwa [encodes] at first
  | cons x bytes ih =>
      cases skip with
      | succ skip => exact ih (Nat.le_of_succ_le_succ inside)
      | zero =>
          have same := utf8DecodeChar?_append_ascii ascii (List.cons_ne_nil x bytes) rest
          have broken := brokenLen_append_ascii ascii (List.cons_ne_nil x bytes) rest
          rw [List.cons_append] at same broken ⊢
          rw [lossyFrom, lossyFrom, same, broken]
          cases decoded : (x :: bytes).toByteArray.utf8DecodeChar? 0 with
          | some c =>
              have size := (utf8DecodeChar?_eq_some_iff.mp decoded).length_le
              rw [String.length_utf8EncodeChar, List.length_cons] at size
              exact congrArg (c :: ·) (ih (by omega))
          | none =>
              have size := brokenLen_le (List.cons_ne_nil x bytes)
              rw [List.length_cons] at size
              exact congrArg ('\uFFFD' :: ·) (ih (by omega))

/-- Broken sequences end at an ASCII character. -/
theorem lossy_append_ascii (bytes rest : List UInt8) :
    lossy (bytes ++ b :: rest) = lossy bytes ++ a :: lossy rest :=
  lossyFrom_append_ascii encodes ascii (Nat.zero_le _) rest

/-- Lines of bytes, each with an ASCII character behind it, are decoded one by one. -/
theorem lossy_flatMap_append_ascii (rows : List (List UInt8)) :
    lossy (rows.flatMap (· ++ [b])) = (rows.map lossy).flatMap (· ++ [a]) := by
  induction rows with
  | nil => rfl
  | cons row rows ih =>
      rw [List.flatMap_cons, List.map_cons, List.flatMap_cons, ← ih, List.append_assoc,
        List.singleton_append, lossy_append_ascii encodes ascii, List.append_assoc,
        List.singleton_append]

end Ascii

/-- A character of one byte is not made up. -/
theorem not_mem_lossy {a : Char} {b : UInt8} (encodes : String.utf8EncodeChar a = [b])
    {bytes : List UInt8} (free : b ∉ bytes) : a ∉ lossy bytes := by
  intro mem
  rcases mem_lossyFrom mem with rfl | inside
  · cases encodes
  · exact free (inside (encodes ▸ List.mem_singleton_self b))

end BlazeBee.Lib.Utf8
