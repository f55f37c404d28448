import BlazeBee.Lib.Text

/-!
Tables as text: lines of columns with blanks between them.

* `splitAsciiWhitespace_row`: the columns of a line are its fields, whatever the blanks.
* `lines_unlines_append`: the lines of a table are read back.
-/

namespace BlazeBee.Lib.Columns

open BlazeBee.Lib.Text

/-- A field: not empty, and without ASCII whitespace. -/
structure IsField (w : List Char) : Prop where
  nonempty : w ≠ []
  free : ∀ c ∈ w, isAsciiWhitespace c = false

instance (w : List Char) : Decidable (IsField w) :=
  decidable_of_iff ((!w.isEmpty && w.all (!isAsciiWhitespace ·)) = true) <| by
    rw [Bool.and_eq_true, Bool.not_eq_true', List.isEmpty_eq_false_iff]
    exact ⟨fun ⟨nonempty, all⟩ => ⟨nonempty, none_of_all all⟩,
      fun field => ⟨field.nonempty, by simpa using field.free⟩⟩

/-- The column behind one more blank than its gap. -/
structure Column where
  gap : Nat
  text : List Char

/-- So many blanks. -/
def blanks (n : Nat) : List Char := List.replicate n ' '

/-- The column behind its blanks, of which there is one at least. -/
def Column.render (column : Column) : List Char := blanks (column.gap + 1) ++ column.text

/-- Columns one behind the other. -/
def renderColumns (columns : List Column) : List Char := columns.flatMap Column.render

/-- A line of columns, the first of which stands behind any number of blanks. -/
def row (lead : Nat) (first : List Char) (columns : List Column) : List Char :=
  blanks lead ++ first ++ renderColumns columns

/-! ### Fields -/

/-- Whitespace in front of a text has no field. -/
theorem splitAsciiWhitespace_cons {c : Char} (space : isAsciiWhitespace c = true)
    (s : List Char) : splitAsciiWhitespace (c :: s) = splitAsciiWhitespace s := by
  have split : splitAsciiWhitespace ([] ++ c :: s) =
      splitAsciiWhitespace [] ++ splitAsciiWhitespace s := words_append_cons [] space s
  exact split

/-- Nor has any amount of it. -/
theorem splitAsciiWhitespace_append {blank : List Char}
    (space : ∀ c ∈ blank, isAsciiWhitespace c = true) (s : List Char) :
    splitAsciiWhitespace (blank ++ s) = splitAsciiWhitespace s := by
  induction blank with
  | nil => rfl
  | cons c blank ih =>
      obtain ⟨here, later⟩ := List.forall_mem_cons.mp space
      rw [List.cons_append, splitAsciiWhitespace_cons here, ih later]

/-- Blanks are ASCII whitespace. -/
theorem blanks_space (n : Nat) : ∀ c ∈ blanks n, isAsciiWhitespace c = true := by
  intro c mem
  rw [List.eq_of_mem_replicate mem]
  rfl

/-- Blanks are whitespace, so trimming takes them off as well. -/
theorem blanks_isWhitespace (n : Nat) : ∀ c ∈ blanks n, isWhitespace c = true :=
  fun c mem => isWhitespace_of_ascii (blanks_space n c mem)

@[simp] theorem splitAsciiWhitespace_nil : splitAsciiWhitespace [] = [] := rfl

/-- A field by itself is the only field. -/
theorem splitAsciiWhitespace_field {w : List Char} (field : IsField w) :
    splitAsciiWhitespace w = [w] := words_eq_singleton field.nonempty field.free

/-- Nothing, or something that begins with whitespace. -/
def Apart (s : List Char) : Prop := ∀ c ∈ s.head?, isAsciiWhitespace c = true

/-- The end of a text ends a field. -/
theorem apart_nil : Apart [] := nofun

/-- So does whitespace. -/
theorem apart_cons {c : Char} (space : isAsciiWhitespace c = true) (s : List Char) :
    Apart (c :: s) := by
  intro d mem
  rwa [← Option.some.inj mem]

/-- A field in front of what is apart from it. -/
theorem splitAsciiWhitespace_field_append {w s : List Char} (field : IsField w)
    (apart : Apart s) : splitAsciiWhitespace (w ++ s) = w :: splitAsciiWhitespace s := by
  cases s with
  | nil =>
      rw [List.append_nil, splitAsciiWhitespace_field field]
      rfl
  | cons c s =>
      have space := apart c rfl
      have split : splitAsciiWhitespace (w ++ c :: s) =
          splitAsciiWhitespace w ++ splitAsciiWhitespace s := words_append_cons w space s
      rw [split, splitAsciiWhitespace_field field, splitAsciiWhitespace_cons space]
      rfl

/-- Columns do not run into what stands before them. -/
theorem apart_columns (columns : List Column) {rest : List Char} (apart : Apart rest) :
    Apart (renderColumns columns ++ rest) := by
  cases columns with
  | nil => exact apart
  | cons column columns => exact apart_cons rfl _

/-- The fields of columns are their texts, and those of what is behind them follow. -/
theorem splitAsciiWhitespace_columns {columns : List Column}
    (fields : ∀ column ∈ columns, IsField column.text) {rest : List Char} (apart : Apart rest) :
    splitAsciiWhitespace (renderColumns columns ++ rest) =
      columns.map Column.text ++ splitAsciiWhitespace rest := by
  induction columns with
  | nil => rfl
  | cons column columns ih =>
      obtain ⟨here, later⟩ := List.forall_mem_cons.mp fields
      have split : renderColumns (column :: columns) ++ rest =
          blanks (column.gap + 1) ++ (column.text ++ (renderColumns columns ++ rest)) := by
        simp only [renderColumns, List.flatMap_cons, Column.render, List.append_assoc]
      rw [split, splitAsciiWhitespace_append (blanks_space _),
        splitAsciiWhitespace_field_append here (apart_columns columns apart), ih later]
      rfl

/-- The fields of a line are its columns. -/
theorem splitAsciiWhitespace_row {lead : Nat} {first : List Char} {columns : List Column}
    (field : IsField first) (fields : ∀ column ∈ columns, IsField column.text) :
    splitAsciiWhitespace (row lead first columns) = first :: columns.map Column.text := by
  have others := splitAsciiWhitespace_columns fields apart_nil
  have apart := apart_columns columns apart_nil
  rw [List.append_nil] at apart others
  rw [splitAsciiWhitespace_nil, List.append_nil] at others
  rw [row, List.append_assoc, splitAsciiWhitespace_append (blanks_space _),
    splitAsciiWhitespace_field_append field apart, others]

/-! ### Lines -/

/-- The lines of a text, each ended by a newline. -/
def unlines (rows : List (List Char)) : List Char := rows.flatMap (· ++ ['\n'])

/-- Rows without a newline are the lines, a carriage return at their end apart, and what is
behind them is read for itself. -/
theorem lines_unlines_append {rows : List (List Char)} (free : ∀ line ∈ rows, '\n' ∉ line)
    (rest : List Char) : lines (unlines rows ++ rest) = rows.map stripCr ++ lines rest := by
  induction rows with
  | nil => rfl
  | cons line rows ih =>
      obtain ⟨here, later⟩ := List.forall_mem_cons.mp free
      have split : unlines (line :: rows) ++ rest = line ++ '\n' :: (unlines rows ++ rest) := by
        simp only [unlines, List.flatMap_cons, List.append_assoc, List.cons_append, List.nil_append]
      rw [split, lines_line here, ih later]
      rfl

/-- The lines of the rows of a table alone. -/
theorem lines_unlines {rows : List (List Char)} (free : ∀ line ∈ rows, '\n' ∉ line) :
    lines (unlines rows) = rows.map stripCr := by
  have read := lines_unlines_append free []
  rwa [List.append_nil, lines_nil, List.append_nil] at read

/-- Where there is no carriage return, none is stripped. -/
theorem stripCr_eq_self {line : List Char} (other : '\r' ∉ line) : stripCr line = line :=
  if_neg fun last => other (List.mem_of_getLast? last)

/-- Lines without line ends of any kind are read back as they are. -/
theorem lines_unlines_clean {rows : List (List Char)}
    (clean : ∀ line ∈ rows, '\n' ∉ line ∧ '\r' ∉ line) (rest : List Char) :
    lines (unlines rows ++ rest) = rows ++ lines rest := by
  have kept : rows.map stripCr = rows :=
    (List.map_congr_left fun line mem => stripCr_eq_self (clean line mem).2).trans (List.map_id _)
  rw [lines_unlines_append (fun line mem => (clean line mem).1), kept]

/-- Rows that have neither character are read back exactly. -/
theorem lines_unlines_self {rows : List (List Char)}
    (clean : ∀ line ∈ rows, '\n' ∉ line ∧ '\r' ∉ line) : lines (unlines rows) = rows := by
  have read := lines_unlines_clean clean []
  rwa [List.append_nil, lines_nil, List.append_nil] at read

/-- A carriage return at the end of a line is in none of its fields. -/
theorem splitAsciiWhitespace_stripCr (line : List Char) :
    splitAsciiWhitespace (stripCr line) = splitAsciiWhitespace line := by
  unfold stripCr
  split
  · rename_i last
    obtain ⟨before, rfl⟩ := List.getLast?_eq_some_iff.mp last
    have split : splitAsciiWhitespace (before ++ ['\r']) =
        splitAsciiWhitespace before ++ splitAsciiWhitespace [] := words_append_cons before rfl []
    rw [List.dropLast_concat, split, splitAsciiWhitespace_nil, List.append_nil]
  · rfl

/-- A field has no newline, blank or other ASCII whitespace in it. -/
theorem IsField.not_mem {w : List Char} (field : IsField w) {c : Char}
    (space : isAsciiWhitespace c = true) : c ∉ w := by
  intro mem
  cases space.symm.trans (field.free c mem)

/-- Blanks hold no other character. -/
theorem not_mem_blanks {c : Char} (other : c ≠ ' ') (n : Nat) : c ∉ blanks n :=
  fun mem => other (List.eq_of_mem_replicate mem)

/-- What is in no column is not in the columns, the blank apart. -/
theorem not_mem_renderColumns {c : Char} (other : c ≠ ' ') {columns : List Column}
    (free : ∀ column ∈ columns, c ∉ column.text) : c ∉ renderColumns columns := by
  intro mem
  obtain ⟨column, inside, mem⟩ := List.mem_flatMap.mp mem
  rcases List.mem_append.mp mem with blank | own
  · exact not_mem_blanks other _ blank
  · exact free column inside own

/-- Neither a newline nor a carriage return is in a line of fields. -/
theorem not_mem_row {c : Char} (space : isAsciiWhitespace c = true) (other : c ≠ ' ')
    {lead : Nat} {first : List Char} {columns : List Column} (field : IsField first)
    (fields : ∀ column ∈ columns, IsField column.text) : c ∉ row lead first columns := by
  rw [row, List.mem_append, List.mem_append, not_or, not_or]
  exact ⟨⟨not_mem_blanks other _, field.not_mem space⟩,
    not_mem_renderColumns other fun column mem => (fields column mem).not_mem space⟩

/-- A row is one line, and no carriage return is stripped from it. -/
theorem row_clean {lead : Nat} {first : List Char} {columns : List Column}
    (field : IsField first) (fields : ∀ column ∈ columns, IsField column.text) :
    '\n' ∉ row lead first columns ∧ '\r' ∉ row lead first columns :=
  ⟨not_mem_row rfl (by decide) field fields, not_mem_row rfl (by decide) field fields⟩

/-! ### One field after the other -/

/-- `SplitAsciiWhitespace`, with how far into the slice it has come. -/
structure Fields where
  offset : Nat
  rest : List Char

/-- A field, with the offset of its pointer. -/
structure FieldAt where
  start : Nat
  text : List Char

/-- `next`. -/
def Fields.next (fields : Fields) : Option (FieldAt × Fields) :=
  let start := fields.offset + byteLen (fields.rest.takeWhile isAsciiWhitespace)
  let body := fields.rest.dropWhile isAsciiWhitespace
  let text := body.takeWhile (!isAsciiWhitespace ·)
  if text.isEmpty then none
  else
    some (⟨start, text⟩, ⟨start + byteLen text, body.dropWhile (!isAsciiWhitespace ·)⟩)

/-- A blank is one byte. -/
theorem byteLen_blanks (n : Nat) : byteLen (blanks n) = n := by
  induction n with
  | zero => rfl
  | succ n ih =>
      have step : byteLen (blanks (n + 1)) = 1 + byteLen (blanks n) := rfl
      rw [step, ih, Nat.add_comm]

/-- A field does not go on in what is apart from it. -/
theorem takeWhile_of_apart {s : List Char} (apart : Apart s) :
    s.takeWhile (!isAsciiWhitespace ·) = [] ∧ s.dropWhile (!isAsciiWhitespace ·) = s := by
  cases s with
  | nil => exact ⟨rfl, rfl⟩
  | cons c s =>
      have space := apart c rfl
      exact ⟨List.takeWhile_cons_of_neg (by simp [space]),
        List.dropWhile_cons_of_neg (by simp [space])⟩

/-- The next field, in front of what is apart from it. -/
theorem Fields.next_field {w s : List Char} (field : IsField w) (apart : Apart s)
    (offset n : Nat) : (⟨offset, blanks n ++ (w ++ s)⟩ : Fields).next =
      some (⟨offset + n, w⟩, ⟨offset + n + byteLen w, s⟩) := by
  have visible : ∀ c ∈ w, (!isAsciiWhitespace c) = true := fun c mem => by
    rw [field.free c mem]
    rfl
  obtain ⟨first, w', rfl⟩ := List.exists_cons_of_ne_nil field.nonempty
  have stops : isAsciiWhitespace first = false := field.free first List.mem_cons_self
  have taken : (blanks n ++ (first :: w' ++ s)).takeWhile isAsciiWhitespace = blanks n := by
    rw [List.takeWhile_append_of_pos (blanks_space n), List.cons_append,
      List.takeWhile_cons_of_neg (by simp [stops]), List.append_nil]
  have dropped : (blanks n ++ (first :: w' ++ s)).dropWhile isAsciiWhitespace =
      first :: w' ++ s := by
    rw [List.dropWhile_append_of_pos (blanks_space n), List.cons_append,
      List.dropWhile_cons_of_neg (by simp [stops])]
  obtain ⟨none, rest⟩ := takeWhile_of_apart apart
  have text : (first :: w' ++ s).takeWhile (!isAsciiWhitespace ·) = first :: w' := by
    rw [List.takeWhile_append_of_pos visible, none, List.append_nil]
  have behind : (first :: w' ++ s).dropWhile (!isAsciiWhitespace ·) = s := by
    rw [List.dropWhile_append_of_pos visible, rest]
  simp only [next, taken, dropped, text, behind, byteLen_blanks, List.isEmpty_cons,
    Bool.false_eq_true, if_false]

/-- Where a field comes from. -/
structure Fields.Next (fields : Fields) (a : FieldAt) (next : Fields) : Prop where
  split : ∃ blank, fields.rest = blank ++ (a.text ++ next.rest) ∧
    (∀ c ∈ blank, isAsciiWhitespace c = true) ∧ a.start = fields.offset + byteLen blank
  field : IsField a.text
  apart : Apart next.rest
  offset : next.offset = a.start + byteLen a.text

/-- What a call of the iterator does: it passes over whitespace, takes a field that is as
long as it can be, and keeps the rest. -/
theorem Fields.next_eq_some {fields next : Fields} {a : FieldAt}
    (found : fields.next = some (a, next)) : fields.Next a next := by
  simp only [Fields.next] at found
  split_ifs at found with none
  obtain ⟨rfl, rfl⟩ := Prod.mk.inj (Option.some.inj found)
  refine ⟨⟨fields.rest.takeWhile isAsciiWhitespace, ?_, ?_, rfl⟩, ⟨?_, ?_⟩, ?_, rfl⟩
  · rw [List.takeWhile_append_dropWhile, List.takeWhile_append_dropWhile]
  · exact fun c mem => List.mem_takeWhile_imp mem
  · simpa using none
  · intro c mem
    simpa using List.mem_takeWhile_imp mem
  · intro c mem
    have stops := List.head?_dropWhile_not (!isAsciiWhitespace ·)
      (fields.rest.dropWhile isAsciiWhitespace)
    rw [mem] at stops
    simpa using stops

/-- The iterator ends only where no field is left. -/
theorem Fields.next_eq_none {fields : Fields} (found : fields.next = none) :
    splitAsciiWhitespace fields.rest = [] := by
  simp only [Fields.next] at found
  split_ifs at found with none
  have whole := List.takeWhile_append_dropWhile (p := isAsciiWhitespace) (l := fields.rest)
  have behind : fields.rest.dropWhile isAsciiWhitespace = [] := by
    cases body : fields.rest.dropWhile isAsciiWhitespace with
    | nil => rfl
    | cons c s =>
        have stops := List.head?_dropWhile_not isAsciiWhitespace fields.rest
        rw [body] at stops none
        have visible : isAsciiWhitespace c = false := stops
        simp [visible] at none
  rw [behind, List.append_nil] at whole
  rw [← whole, ← List.append_nil (fields.rest.takeWhile _),
    splitAsciiWhitespace_append fun c mem => List.mem_takeWhile_imp mem]
  rfl

/-- The fields come one after the other. -/
theorem Fields.Next.splitAsciiWhitespace_eq {fields next : Fields} {a : FieldAt}
    (found : fields.Next a next) :
    splitAsciiWhitespace fields.rest = a.text :: splitAsciiWhitespace next.rest := by
  obtain ⟨blank, split, space, -⟩ := found.split
  rw [split, splitAsciiWhitespace_append space,
    splitAsciiWhitespace_field_append found.field found.apart]

/-- What is left of a line, with its offset in it. -/
def Fields.Within (line : List Char) (fields : Fields) : Prop :=
  ∃ before, line = before ++ fields.rest ∧ byteLen before = fields.offset

/-- The rest that the iterator keeps is a suffix of the line, at the offset that it has
counted. -/
theorem Fields.Next.within {line : List Char} {fields next : Fields} {a : FieldAt}
    (found : fields.Next a next) (within : fields.Within line) : next.Within line := by
  obtain ⟨before, rfl, offset⟩ := within
  obtain ⟨blank, split, -, start⟩ := found.split
  refine ⟨before ++ blank ++ a.text, by simp only [split, List.append_assoc], ?_⟩
  rw [byteLen_append, byteLen_append, offset, found.offset, start]

end BlazeBee.Lib.Columns
