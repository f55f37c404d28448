import BlazeBee.Agent.Scheduler
import BlazeBee.Collectors.Procfs
import BlazeBee.Lib.Checks
import BlazeBee.Lib.Columns
import BlazeBee.Lib.Decimal

/-!
Counters in the columns of a `/proc` file.

`nextFields_ok` and `nextFields_error` say what a run of `next_field` does with the fields
of a line: it reads the leading counters if they are all there, and otherwise it fails.
-/

namespace BlazeBee.Collectors

open BlazeBee.Lib BlazeBee.Lib.Columns BlazeBee.Lib.Decimal
open BlazeBee.Agent (CollectorError)

variable {path : String}

/-- `procfs::parse`, for the type that `read` reads. -/
def parseAs {α : Type} (read : List Char → Option α) (token : List Char) (path what : String) :
    Except CollectorError α :=
  match read token with
  | some n => .ok n
  | none => .error (.parse path what ("invalid value '" ++ String.ofList token ++ "'"))

/-- `next_field`, for the type that `read` reads, with the fields after it. -/
def nextAs {α : Type} (read : List Char → Option α) (path what : String) :
    List (List Char) → Except CollectorError (α × List (List Char))
  | [] => .error (.missing path what)
  | token :: f => do
      let n ← parseAs read token path what
      return (n, f)

/-- `procfs::parse::<u64>`. -/
abbrev parseField (token : List Char) (path what : String) : Except CollectorError UInt64 :=
  parseAs parseU64 token path what

/-- `next_field::<u64>`, with the fields after it. -/
abbrev nextField (path what : String) (f : List (List Char)) :
    Except CollectorError (UInt64 × List (List Char)) :=
  nextAs parseU64 path what f

/-- `for (slot, what) in slots.zip(names) { *slot = next_field(&mut f, path, what)?; }`: the
slots, with the fields after them. -/
def nextFields (path : String) :
    List String → List (List Char) → Except CollectorError (List UInt64 × List (List Char))
  | [], f => .ok ([], f)
  | what :: names, f => do
      let (n, f) ← nextField path what f
      let (slots, f) ← nextFields path names f
      return (n :: slots, f)

/-- The fields begin with `n` counters. -/
def Counters (n : Nat) (tokens : List (List Char)) : Prop :=
  n ≤ tokens.length ∧ ∀ token ∈ tokens.take n, (parseU64 token).isSome = true

/-- The leading counters. -/
def counters (n : Nat) (tokens : List (List Char)) : List UInt64 :=
  (tokens.take n).map fun token => (parseU64 token).getD 0

/-- The counter in a column, 0 where there is none. -/
def counter (tokens : List (List Char)) (i : Nat) : UInt64 := (tokens[i]?.bind parseU64).getD 0

/-- Among the leading counters, a slot holds the counter of its own column. -/
theorem getD_counters {n i : Nat} (lt : i < n) (tokens : List (List Char)) :
    (counters n tokens).getD i 0 = counter tokens i := by
  rw [counters, List.getD_eq_getElem?_getD, List.getElem?_map, List.getElem?_take_of_lt lt, counter]
  cases tokens[i]? <;> rfl

/-- The columns are counted on behind the fields that a first run has taken. -/
theorem counter_drop (tokens : List (List Char)) (m i : Nat) :
    counter (tokens.drop m) i = counter tokens (m + i) := by
  rw [counter, List.getElem?_drop, counter]

/-- Every line begins with no counters at all. -/
theorem counters_zero (tokens : List (List Char)) : Counters 0 tokens :=
  ⟨Nat.zero_le _, by simp⟩

/-- One more counter is a first token that parses, and the others behind it. -/
theorem counters_succ_cons_iff {n : Nat} {token : List Char} {tokens : List (List Char)} :
    Counters (n + 1) (token :: tokens) ↔
      (parseU64 token).isSome = true ∧ Counters n tokens := by
  rw [Counters, Counters, List.take_succ_cons, List.forall_mem_cons, List.length_cons,
    Nat.add_le_add_iff_right]
  exact and_left_comm

/-- A line that has ended has no further counter. -/
theorem not_counters_succ_nil (n : Nat) : ¬ Counters (n + 1) [] :=
  fun enough => Nat.not_succ_le_zero n enough.1

/-- The counters behind some leading ones. -/
theorem counters_add_iff {m n : Nat} {tokens : List (List Char)} :
    Counters (m + n) tokens ↔ Counters m tokens ∧ Counters n (tokens.drop m) := by
  induction m generalizing tokens with
  | zero => simp [counters_zero]
  | succ m ih =>
      rw [Nat.succ_add]
      cases tokens with
      | nil => simp [not_counters_succ_nil]
      | cons token tokens =>
          rw [counters_succ_cons_iff, counters_succ_cons_iff, ih, List.drop_succ_cons, and_assoc]

section As

variable {α : Type} {read : List Char → Option α}

/-- A token that `read` accepts is passed on as its value, and the name of the counter plays
no part. -/
theorem parseAs_ok {token : List Char} {n : α} (parsed : read token = some n) (what : String) :
    parseAs read token path what = .ok n := by
  rw [parseAs, parsed]

/-- What is read, under a default that does not matter. -/
theorem parseAs_getD {token : List Char} (reads : (read token).isSome = true) (default : α)
    (what : String) : parseAs read token path what = .ok ((read token).getD default) := by
  obtain ⟨n, parsed⟩ := Option.isSome_iff_exists.mp reads
  rw [parseAs_ok parsed, parsed, Option.getD_some]

/-- A token that `read` refuses is an error of `procfs::parse`. -/
theorem parseAs_error {token : List Char} (fails : read token = none) (what : String) :
    ∃ e, parseAs read token path what = .error e := by
  rw [parseAs, fails]
  exact ⟨_, rfl⟩

/-- If the next field is there and parses, its value is returned with the fields after it. -/
theorem nextAs_ok {f : List (List Char)} {n : α} (found : f.head?.bind read = some n)
    (what : String) : nextAs read path what f = .ok (n, f.tail) := by
  cases f with
  | nil => cases found
  | cons token f =>
      rw [nextAs, parseAs_ok found]
      rfl

/-- If the next field is absent or does not parse, the call fails. The two cases have
different errors, and no caller tells them apart. -/
theorem nextAs_error {f : List (List Char)} (none : f.head?.bind read = none) (what : String) :
    ∃ e, nextAs read path what f = .error e := by
  cases f with
  | nil => exact ⟨_, rfl⟩
  | cons token f =>
      obtain ⟨e, failed⟩ := @parseAs_error path α read token none what
      rw [nextAs, failed]
      exact ⟨e, rfl⟩

end As

/-- One `next_field` for each name reads as many leading counters, and leaves the fields
after them for the next run. -/
theorem nextFields_ok {names : List String} {tokens : List (List Char)}
    (all : Counters names.length tokens) :
    nextFields path names tokens =
      .ok (counters names.length tokens, tokens.drop names.length) := by
  induction names generalizing tokens with
  | nil => rfl
  | cons what names ih =>
      cases tokens with
      | nil => exact absurd all (not_counters_succ_nil _)
      | cons token tokens =>
          obtain ⟨here, later⟩ := counters_succ_cons_iff.mp all
          simp only [nextFields, nextAs, parseAs_getD here 0, ih later, ok_bind, pure_bind]
          rfl

/-- A run fails as soon as one of its counters is absent or no number, whatever the later
ones are. -/
theorem nextFields_error {names : List String} {tokens : List (List Char)}
    (few : ¬ Counters names.length tokens) : ∃ e, nextFields path names tokens = .error e := by
  induction names generalizing tokens with
  | nil => exact absurd (counters_zero tokens) few
  | cons what names ih =>
      cases tokens with
      | nil => exact ⟨_, rfl⟩
      | cons token tokens =>
          simp only [nextFields, nextAs]
          by_cases here : (parseU64 token).isSome = true
          · have later : ¬ Counters names.length tokens :=
              fun later => few (counters_succ_cons_iff.mpr ⟨here, later⟩)
            obtain ⟨e, failed⟩ := ih later
            exact ⟨e, by simp only [parseAs_getD here 0, failed, ok_bind, pure_bind, error_bind]⟩
          · have unread := Option.not_isSome_iff_eq_none.mp here
            obtain ⟨e, failed⟩ := @parseAs_error path _ _ _ unread what
            exact ⟨e, by simp only [failed, error_bind]⟩

/-- What fails exactly when some row is incomplete. -/
theorem error_iff {α β ε : Type} {Complete : α → Prop} {rows : List α} {x : Except ε β}
    (ok : (∀ r ∈ rows, Complete r) → ∃ b, x = .ok b)
    (error : ∀ r ∈ rows, ¬ Complete r → ∃ e, x = .error e) :
    (∃ e, x = .error e) ↔ ∃ r ∈ rows, ¬ Complete r := by
  constructor
  · rintro ⟨e, failed⟩
    by_contra complete
    push Not at complete
    obtain ⟨b, succeeded⟩ := ok complete
    cases succeeded.symm.trans failed
  · rintro ⟨r, mem, incomplete⟩
    exact error r mem incomplete

/-! ### Rows -/

/-- The name of a row. -/
structure IsName (name : List Char) : Prop where
  nonempty : name ≠ []
  free : ∀ c ∈ name, Text.isWhitespace c = false
  colon : ':' ∉ name

/-- A row: a name, and columns behind it. -/
structure Row where
  lead : Nat
  name : List Char
  columns : List Column
  is_name : IsName name
  fields : ∀ column ∈ columns, IsField column.text

/-- The texts of the columns, which are the fields behind the name. -/
def Row.tokens (r : Row) : List (List Char) := r.columns.map Column.text

/-- A row of counters, at least so many of them, each behind one more blank than its gap. -/
structure CounterRow (least : Nat) where
  lead : Nat
  name : List Char
  cells : List (Nat × UInt64)
  is_name : IsName name
  enough : least ≤ cells.length

/-- A name is a field: ASCII whitespace is whitespace, and a name is free of that. -/
theorem IsName.isField {name : List Char} (is_name : IsName name) : IsField name where
  nonempty := is_name.nonempty
  free := by
    intro c mem
    by_contra space
    rw [Bool.not_eq_false] at space
    cases (Text.isWhitespace_of_ascii space).symm.trans (is_name.free c mem)

/-- Trimming takes nothing off a name, as it neither begins nor ends with whitespace. -/
theorem IsName.trimmed {name : List Char} (is_name : IsName name) : Text.Trimmed name where
  first c mem := is_name.free c (List.mem_of_head? mem)
  last c mem := is_name.free c (List.mem_of_getLast? mem)

/-- A number in decimal is a field, since it has a digit and nothing but digits. -/
theorem isField_decimal (n : Nat) : IsField (decimal n) where
  nonempty := decimal_ne_nil n
  free := by
    intro c mem
    have digit := isDigit_of_mem_decimal mem
    by_contra space
    simp only [Bool.not_eq_false, Text.isAsciiWhitespace, Bool.or_eq_true, beq_iff_eq] at space
    rcases space with (((rfl | rfl) | rfl) | rfl) | rfl <;> cases digit

namespace CounterRow

variable {least : Nat}

/-- The counters in decimal. -/
def toRow (r : CounterRow least) : Row where
  lead := r.lead
  name := r.name
  columns := r.cells.map fun (gap, n) => ⟨gap, decimal n.toNat⟩
  is_name := r.is_name
  fields := by
    intro column mem
    obtain ⟨cell, -, rfl⟩ := List.mem_map.mp mem
    exact isField_decimal _

/-- The counter in a column of the row, 0 where the row has none. -/
def counter (r : CounterRow least) (i : Nat) : UInt64 := (r.cells.map Prod.snd).getD i 0

/-- The fields of the row are its counters in decimal; the gaps do not show in them. -/
theorem tokens_eq (r : CounterRow least) :
    r.toRow.tokens = (r.cells.map Prod.snd).map fun n => decimal n.toNat := by
  rw [Row.tokens, toRow, List.map_map, List.map_map]
  rfl

/-- The counters are read back. -/
theorem counter_tokens (r : CounterRow least) : Collectors.counter r.toRow.tokens = r.counter := by
  funext i
  rw [tokens_eq, Collectors.counter, counter, List.getElem?_map, List.getD_eq_getElem?_getD]
  cases (r.cells.map Prod.snd)[i]? with
  | none => rfl
  | some n => rw [Option.map_some, Option.bind_some, parseU64_decimal, Option.getD_some]

/-- Each field of a row of counters is a number that fits its type. -/
theorem parses (r : CounterRow least) :
    ∀ token ∈ r.toRow.tokens, (parseU64 token).isSome = true := by
  intro token mem
  rw [tokens_eq] at mem
  obtain ⟨n, -, rfl⟩ := List.mem_map.mp mem
  rw [parseU64_decimal, Option.isSome_some]

/-- A row of at least `least` counters begins with that many. -/
theorem holds (r : CounterRow least) : Counters least r.toRow.tokens := by
  refine ⟨?_, fun token mem => r.parses token (List.mem_of_mem_take mem)⟩
  rw [tokens_eq, List.length_map, List.length_map]
  exact r.enough

end CounterRow

end BlazeBee.Collectors
