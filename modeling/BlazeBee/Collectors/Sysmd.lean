import BlazeBee.Collectors.Procfs
import BlazeBee.Lib.Checks
import BlazeBee.Lib.Columns

/-!
The output of `systemctl list-units`, a unit a line.

The description is the slice of the line from the end of the fourth field on. Where that
is, the parser computes from the pointer of the field.

* `parseOrPanic_eq`: the slice begins in the line, at a character.
* `parse_units`: units written with any blanks between the columns are read back.
-/

namespace BlazeBee.Collectors.Sysmd

open BlazeBee.Lib BlazeBee.Lib.Columns BlazeBee.Lib.Text

/-- A unit, with the five columns of the listing. -/
structure SystemdUnitStats where
  unitName : String
  loadState : String
  activeState : String
  subState : String
  description : String
deriving DecidableEq, Repr

/-- The first four fields of a line, the last of them with its place. -/
def columns (line : List Char) : Option (List Char × List Char × List Char × FieldAt) := do
  let (unitName, f) ← (⟨0, line⟩ : Fields).next
  let (loadState, f) ← f.next
  let (activeState, f) ← f.next
  let (subState, _) ← f.next
  return (unitName.text, loadState.text, activeState.text, subState)

/-- A line of the output; `none` where the slice panics. -/
def parseLineOrPanic (line : List Char) : Option (Option SystemdUnitStats) :=
  match columns line with
  | none => some none
  | some (unitName, loadState, activeState, subState) =>
      let consumed := subState.start + byteLen subState.text
      (sliceFrom line consumed).map fun rest =>
        some
          { unitName := String.ofList unitName
            loadState := String.ofList loadState
            activeState := String.ofList activeState
            subState := String.ofList subState.text
            description := trim (String.ofList rest) }

/-- `parse`; `none` where it panics. -/
def parseOrPanic (output : String) : Option (List SystemdUnitStats) :=
  ((lines output.toList).mapM parseLineOrPanic).map (·.filterMap id)

/-! ### The slice -/

/-- The fields of a line that has four of them, and what is left of it. -/
inductive Four (line : List Char) (a b c d : FieldAt) (rest : Fields) : Prop where
  | intro (f₁ f₂ f₃ : Fields) : (⟨0, line⟩ : Fields).next = some (a, f₁) →
      f₁.next = some (b, f₂) → f₂.next = some (c, f₃) → f₃.next = some (d, rest) →
      Four line a b c d rest

/-- A line either has four fields or fewer. -/
theorem four_or_fewer (line : List Char) :
    (∃ a b c d rest, Four line a b c d rest) ∨ columns line = none ∧ (fields line).length < 4 := by
  cases first : (⟨0, line⟩ : Fields).next with
  | none =>
      have whole : fields line = [] := Fields.next_eq_none first
      exact Or.inr ⟨by simp [columns, first], by simp [whole]⟩
  | some next =>
      obtain ⟨a, f₁⟩ := next
      have whole : fields line = a.text :: splitAsciiWhitespace f₁.rest :=
        (Fields.next_eq_some first).splitAsciiWhitespace_eq
      cases second : f₁.next with
      | none =>
          rw [Fields.next_eq_none second] at whole
          exact Or.inr ⟨by simp [columns, first, second], by simp [whole]⟩
      | some next =>
          obtain ⟨b, f₂⟩ := next
          rw [(Fields.next_eq_some second).splitAsciiWhitespace_eq] at whole
          cases third : f₂.next with
          | none =>
              rw [Fields.next_eq_none third] at whole
              exact Or.inr ⟨by simp [columns, first, second, third], by simp [whole]⟩
          | some next =>
              obtain ⟨c, f₃⟩ := next
              rw [(Fields.next_eq_some third).splitAsciiWhitespace_eq] at whole
              cases fourth : f₃.next with
              | none =>
                  rw [Fields.next_eq_none fourth] at whole
                  exact Or.inr ⟨by simp [columns, first, second, third, fourth], by simp [whole]⟩
              | some next =>
                  obtain ⟨d, rest⟩ := next
                  exact Or.inl ⟨a, b, c, d, rest, .intro f₁ f₂ f₃ first second third fourth⟩

/-- The fields of the line are the four, and those of the rest. -/
theorem Four.fields_eq {line : List Char} {a b c d : FieldAt} {rest : Fields}
    (four : Four line a b c d rest) :
    fields line = a.text :: b.text :: c.text :: d.text :: splitAsciiWhitespace rest.rest := by
  obtain ⟨f₁, f₂, f₃, first, second, third, fourth⟩ := four
  have whole : fields line = a.text :: splitAsciiWhitespace f₁.rest :=
    (Fields.next_eq_some first).splitAsciiWhitespace_eq
  rw [whole, (Fields.next_eq_some second).splitAsciiWhitespace_eq,
    (Fields.next_eq_some third).splitAsciiWhitespace_eq,
    (Fields.next_eq_some fourth).splitAsciiWhitespace_eq]

/-- The parser takes the four fields in order. -/
theorem Four.columns_eq {line : List Char} {a b c d : FieldAt} {rest : Fields}
    (four : Four line a b c d rest) : columns line = some (a.text, b.text, c.text, d) := by
  obtain ⟨f₁, f₂, f₃, first, second, third, fourth⟩ := four
  simp [columns, first, second, third, fourth]

/-- The fourth field ends inside the line, at a character. -/
theorem Four.split {line : List Char} {a b c d : FieldAt} {rest : Fields}
    (four : Four line a b c d rest) :
    ∃ before, line = before ++ rest.rest ∧ byteLen before = d.start + byteLen d.text := by
  obtain ⟨f₁, f₂, f₃, first, second, third, fourth⟩ := four
  have start : (⟨0, line⟩ : Fields).Within line := ⟨[], rfl, rfl⟩
  rw [← (Fields.next_eq_some fourth).offset]
  exact (Fields.next_eq_some fourth).within <| (Fields.next_eq_some third).within <|
    (Fields.next_eq_some second).within <| (Fields.next_eq_some first).within start

/-- A line with four fields gives a unit whose description is the rest of the line, trimmed.
The slice does not panic, as it begins where the fourth field ends. -/
theorem Four.parseLine {line : List Char} {a b c d : FieldAt} {rest : Fields}
    (four : Four line a b c d rest) :
    parseLineOrPanic line = some (some ⟨String.ofList a.text, String.ofList b.text,
      String.ofList c.text, String.ofList d.text, trim (String.ofList rest.rest)⟩) := by
  have slice : sliceFrom line (d.start + byteLen d.text) = some rest.rest := by
    obtain ⟨before, split, offset⟩ := four.split
    rw [← offset, split, sliceFrom_byteLen]
  simp only [parseLineOrPanic, four.columns_eq, slice, Option.map_some]

/-- A line with fewer fields is passed over. -/
theorem parseLine_of_few {line : List Char} (few : (fields line).length < 4) :
    parseLineOrPanic line = some none := by
  rcases four_or_fewer line with ⟨a, b, c, d, rest, four⟩ | ⟨none, -⟩
  · rw [four.fields_eq] at few
    simp at few
    omega
  · simp only [parseLineOrPanic, none]

/-- What a line gives, given that it does not panic. -/
def parseLine (line : List Char) : Option SystemdUnitStats := (parseLineOrPanic line).getD none

/-- A line either has four fields or fewer, and panics in neither case. -/
theorem parseLineOrPanic_eq (line : List Char) :
    parseLineOrPanic line = some (parseLine line) := by
  rw [parseLine]
  rcases four_or_fewer line with ⟨a, b, c, d, rest, four⟩ | ⟨-, few⟩
  · rw [four.parseLine, Option.getD_some]
  · rw [parseLine_of_few few, Option.getD_some]

/-- No line panics. -/
theorem parseOrPanic_eq (output : String) :
    parseOrPanic output = some ((lines output.toList).filterMap parseLine) := by
  rw [parseOrPanic, mapM_eq_pure fun line _ => parseLineOrPanic_eq line, Option.pure_def,
    Option.map_some, List.filterMap_map]
  rfl

/-! ### Units as they are written -/

/-- A unit on its line: the blanks before each column are its own, and before the
description there are some, unless it is empty. -/
structure UnitLine where
  lead : Nat
  unitName : List Char
  gapLoad : Nat
  loadState : List Char
  gapActive : Nat
  activeState : List Char
  gapSub : Nat
  subState : List Char
  gap : Nat
  description : List Char
  name_field : IsField unitName
  load_field : IsField loadState
  active_field : IsField activeState
  sub_field : IsField subState
  newline : '\n' ∉ description
  trimmed : Trimmed description
  spaced : description ≠ [] → 0 < gap

namespace UnitLine

/-- The line of the unit. -/
def render (u : UnitLine) : List Char :=
  blanks u.lead ++ (u.unitName ++ (blanks (u.gapLoad + 1) ++ (u.loadState ++
    (blanks (u.gapActive + 1) ++ (u.activeState ++ (blanks (u.gapSub + 1) ++
      (u.subState ++ (blanks u.gap ++ u.description))))))))

/-- The unit that the line stands for. -/
def stats (u : UnitLine) : SystemdUnitStats :=
  ⟨String.ofList u.unitName, String.ofList u.loadState, String.ofList u.activeState,
    String.ofList u.subState, String.ofList u.description⟩

/-- The fourth field ends at a blank or with the line, so the description does not run into
it. -/
theorem apart_description (u : UnitLine) : Apart (blanks u.gap ++ u.description) := by
  cases gap : u.gap with
  | zero =>
      have empty : u.description = [] := by
        by_contra nonempty
        exact Nat.ne_of_gt (u.spaced nonempty) gap
      rw [empty]
      exact apart_nil
  | succ n => exact apart_cons rfl _

/-- The line has four fields, which are the unit's columns, and the description is the
rest. -/
theorem four_render (u : UnitLine) : ∃ a b c d rest, Four u.render a b c d rest ∧
    a.text = u.unitName ∧ b.text = u.loadState ∧ c.text = u.activeState ∧ d.text = u.subState ∧
      rest.rest = blanks u.gap ++ u.description := by
  have apart : ∀ (n : Nat) (s : List Char), Apart (blanks (n + 1) ++ s) :=
    fun n s => apart_cons rfl _
  exact ⟨_, _, _, _, _,
    .intro _ _ _ (Fields.next_field u.name_field (apart _ _) _ _)
      (Fields.next_field u.load_field (apart _ _) _ _)
      (Fields.next_field u.active_field (apart _ _) _ _)
      (Fields.next_field u.sub_field u.apart_description _ _), rfl, rfl, rfl, rfl, rfl⟩

/-- A unit is read back from its line, description included, whatever blanks the description
has inside. -/
theorem parseLine_render (u : UnitLine) : parseLine u.render = some u.stats := by
  obtain ⟨a, b, c, d, rest, four, name, load, active, sub, behind⟩ := u.four_render
  rw [parseLine, four.parseLine, Option.getD_some, name, load, active, sub, behind,
    trim_append (blanks_isWhitespace _) u.trimmed]
  rfl

/-- A unit is one line. -/
theorem newline_render (u : UnitLine) : '\n' ∉ u.render := by
  have blank : ∀ n, '\n' ∉ blanks n := not_mem_blanks (by decide)
  simp only [render, List.mem_append, not_or]
  exact ⟨blank _, u.name_field.not_mem rfl, blank _, u.load_field.not_mem rfl, blank _,
    u.active_field.not_mem rfl, blank _, u.sub_field.not_mem rfl, blank _, u.newline⟩

/-- A unit's line does not end in a carriage return. -/
theorem stripCr_render (u : UnitLine) : stripCr u.render = u.render := by
  have blank : ∀ n, '\r' ∉ blanks n := not_mem_blanks (by decide)
  have front : ∃ front, u.render = front ++ u.description ∧ '\r' ∉ front := by
    refine ⟨_, by simp only [render, ← List.append_assoc]; rfl, ?_⟩
    simp only [List.mem_append, not_or]
    exact ⟨⟨⟨⟨⟨⟨⟨⟨blank _, u.name_field.not_mem rfl⟩, blank _⟩, u.load_field.not_mem rfl⟩, blank _⟩,
      u.active_field.not_mem rfl⟩, blank _⟩, u.sub_field.not_mem rfl⟩, blank _⟩
  obtain ⟨front, whole, free⟩ := front
  refine if_neg fun last => ?_
  rw [whole] at last
  by_cases empty : u.description = []
  · rw [empty, List.append_nil] at last
    exact free (List.mem_of_getLast? last)
  · rw [List.getLast?_append_of_ne_nil _ empty] at last
    cases u.trimmed.last _ last

end UnitLine

/-- A line of the output: a unit, or anything of fewer than four fields. -/
inductive Line where
  | unit (u : UnitLine)
  | other (line : List Char) (newline : '\n' ∉ line) (few : (fields line).length < 4)

/-- The line as it is written. -/
def Line.render : Line → List Char
  | .unit u => u.render
  | .other line _ _ => line

/-- The unit of the line, if it has one. -/
def Line.stats? : Line → Option SystemdUnitStats
  | .unit u => some u.stats
  | .other _ _ _ => none

/-- Either kind of line is one line. -/
theorem Line.newline_render (line : Line) : '\n' ∉ line.render := by
  cases line with
  | unit u => exact u.newline_render
  | other line newline _ => exact newline

/-- Each kind of line is read as what it stands for, with or without a carriage return at its
end. -/
theorem Line.parseLine_render (line : Line) : parseLine (stripCr line.render) = line.stats? := by
  cases line with
  | unit u =>
      rw [render, u.stripCr_render, u.parseLine_render]
      rfl
  | other line _ few =>
      have few : (fields (stripCr line)).length < 4 := by
        rwa [fields, splitAsciiWhitespace_stripCr]
      rw [render, parseLine, parseLine_of_few few]
      rfl

/-- The units are read back field by field from whatever lines they are written to, and no
input makes the parser panic: the slice begins in the line, at a character. -/
theorem parse_units :
    (∀ table : List Line, parseOrPanic (String.ofList (unlines (table.map Line.render))) =
        some (table.filterMap Line.stats?)) ∧
      (∀ line unitName loadState activeState subState,
        columns line = some (unitName, loadState, activeState, subState) →
        ∃ before after, line = before ++ after ∧
          byteLen before = subState.start + byteLen subState.text) ∧
      ∀ output, ∃ stats, parseOrPanic output = some stats := by
  refine ⟨fun table => ?_, fun line unitName loadState activeState subState found => ?_,
    fun output => ⟨_, parseOrPanic_eq output⟩⟩
  · have free : ∀ line ∈ table.map Line.render, '\n' ∉ line := by
      intro line mem
      obtain ⟨line, -, rfl⟩ := List.mem_map.mp mem
      exact line.newline_render
    rw [parseOrPanic_eq, String.toList_ofList, lines_unlines free, List.map_map, List.filterMap_map]
    exact congrArg some (List.filterMap_congr fun line _ => line.parseLine_render)
  · rcases four_or_fewer line with ⟨a, b, c, d, rest, four⟩ | ⟨none, -⟩
    · obtain ⟨-, -, -, rfl⟩ : a.text = unitName ∧ b.text = loadState ∧ c.text = activeState ∧
          d = subState := by simpa using four.columns_eq.symm.trans found
      obtain ⟨before, split, offset⟩ := four.split
      exact ⟨before, rest.rest, split, offset⟩
    · cases none.symm.trans found

/-- A unit with a description of several words. -/
def sshService : UnitLine where
  lead := 2
  unitName := "ssh.service".toList
  gapLoad := 3
  loadState := "loaded".toList
  gapActive := 0
  activeState := "active".toList
  gapSub := 0
  subState := "running".toList
  gap := 2
  description := "OpenBSD Secure Shell server".toList
  name_field := by decide
  load_field := by decide
  active_field := by decide
  sub_field := by decide
  newline := by simp
  trimmed := ⟨by simp; rfl, by simp; rfl⟩
  spaced _ := by decide

example : parseOrPanic (String.ofList (unlines (List.map Line.render
      [.other "1 loaded unit".toList (by decide) (by decide), .unit sshService]))) =
    some [⟨"ssh.service", "loaded", "active", "running", "OpenBSD Secure Shell server"⟩] := by
  decide +kernel

end BlazeBee.Collectors.Sysmd
