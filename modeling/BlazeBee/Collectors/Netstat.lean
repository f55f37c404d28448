import BlazeBee.Collectors.Procfs
import BlazeBee.Lib.Columns
import BlazeBee.Lib.Decimal

/-!
`/proc/net/netstat`: groups of counters, a line of names and a line of values each.

`parse_groups`: the names and the values of a group are paired one by one, whatever their
numbers and whichever of the values are no counters.
-/

namespace BlazeBee.Collectors.Netstat

open BlazeBee.Lib BlazeBee.Lib.Columns BlazeBee.Lib.Decimal

/-- A counter of a protocol's statistics. -/
structure NetstatEntry where
  /-- Group name without the trailing colon. -/
  protocol : String
  statName : String
  value : UInt64
deriving DecidableEq, Repr

/-- A name and its value, unless that is no counter. -/
def entry (protocol : String) (pair : List Char × List Char) : Option NetstatEntry :=
  (parseU64 pair.2).map fun value => ⟨protocol, String.ofList pair.1, value⟩

/-- The loop of `parse`, which takes two lines at a time. -/
def parseLines : List (List Char) → List NetstatEntry
  | header :: values :: rest =>
      match fields header, fields values with
      | protocol :: names, _ :: numbers =>
          (names.zip numbers).filterMap
            (entry (Text.trimEndMatches (String.ofList protocol) ':')) ++ parseLines rest
      | _, _ => parseLines rest
  | _ => []

/-- `netstat::parse`. It cannot fail: what is not paired, or is no counter, is left out. -/
def parse (content : String) : List NetstatEntry := parseLines (Text.lines content.toList)

/-! ### Groups -/

/-- A group as the kernel writes it: `name: names` and `name: values`. -/
structure Group where
  name : List Char
  names : List Column
  values : List Column
  name_field : IsField name
  name_end : name.getLast? ≠ some ':'
  names_fields : ∀ column ∈ names, IsField column.text
  values_fields : ∀ column ∈ values, IsField column.text

namespace Group

/-- The two lines of the group, which have the same first field. -/
def render (g : Group) : List (List Char) :=
  [row 0 (g.name ++ [':']) g.names, row 0 (g.name ++ [':']) g.values]

/-- The pairs whose value is a counter. -/
def entries (g : Group) : List NetstatEntry :=
  ((g.names.map Column.text).zip (g.values.map Column.text)).filterMap
    (entry (String.ofList g.name))

/-- The name with its colon is one field. -/
theorem head_field (g : Group) : IsField (g.name ++ [':']) where
  nonempty := List.append_ne_nil_of_right_ne_nil _ (List.cons_ne_nil _ _)
  free := by
    refine List.forall_mem_append.mpr ⟨g.name_field.free, fun c mem => ?_⟩
    rw [List.mem_singleton.mp mem]
    rfl

/-- Only the colon is taken off, since the name itself does not end with one. -/
theorem trim_head (g : Group) :
    Text.trimEndMatches (String.ofList (g.name ++ [':'])) ':' = String.ofList g.name := by
  rw [Text.trimEndMatches, String.toList_ofList, List.rdropWhile_concat_pos _ _ _ rfl,
    List.rdropWhile_eq_self_iff.mpr]
  intro nonempty last
  apply g.name_end
  rw [List.getLast?_eq_some_getLast nonempty, eq_of_beq last]

/-- Each of the two lines is one line, and no carriage return is stripped from it. -/
theorem lines_render (g : Group) : ∀ line ∈ g.render, '\n' ∉ line ∧ '\r' ∉ line := by
  intro line mem
  simp only [render, List.mem_cons, List.not_mem_nil, or_false] at mem
  rcases mem with rfl | rfl
  · exact row_clean g.head_field g.names_fields
  · exact row_clean g.head_field g.values_fields

/-- The two lines of a group give its entries. -/
theorem parseLines_render (g : Group) (rest : List (List Char)) :
    parseLines (g.render ++ rest) = g.entries ++ parseLines rest := by
  have header : fields (row 0 (g.name ++ [':']) g.names) =
      (g.name ++ [':']) :: g.names.map Column.text :=
    splitAsciiWhitespace_row g.head_field g.names_fields
  have values : fields (row 0 (g.name ++ [':']) g.values) =
      (g.name ++ [':']) :: g.values.map Column.text :=
    splitAsciiWhitespace_row g.head_field g.values_fields
  show parseLines (_ :: _ :: rest) = _
  simp only [parseLines, header, values, g.trim_head]
  rfl

/-- An entry is a name and a counter at one place of the two lines. Where one of the lines is
longer, its rest has no place in the other. -/
theorem mem_entries_iff {g : Group} {e : NetstatEntry} :
    e ∈ g.entries ↔ ∃ (i : Nat) (name value : Column), g.names[i]? = some name ∧
      g.values[i]? = some value ∧ parseU64 value.text = some e.value ∧
        e.protocol = String.ofList g.name ∧ e.statName = String.ofList name.text := by
  rw [entries, List.mem_filterMap]
  constructor
  · rintro ⟨⟨name, value⟩, mem, read⟩
    obtain ⟨i, at_index⟩ := List.mem_iff_getElem?.mp mem
    obtain ⟨here, there⟩ := List.getElem?_zip_eq_some.mp at_index
    rw [List.getElem?_map, Option.map_eq_some_iff] at here there
    obtain ⟨name, name_at, rfl⟩ := here
    obtain ⟨value, value_at, rfl⟩ := there
    obtain ⟨counter, parsed, rfl⟩ := Option.map_eq_some_iff.mp read
    exact ⟨i, name, value, name_at, value_at, parsed, rfl, rfl⟩
  · rintro ⟨i, name, value, name_at, value_at, parsed, protocol, statName⟩
    refine ⟨(name.text, value.text), List.mem_iff_getElem?.mpr ⟨i, ?_⟩, ?_⟩
    · rw [List.getElem?_zip_eq_some, List.getElem?_map, List.getElem?_map, name_at, value_at]
      exact ⟨rfl, rfl⟩
    · obtain ⟨_, _, _⟩ := e
      rw [entry, parsed, Option.map_some, ← protocol, ← statName]

end Group

/-- The lines of the groups are read two by two, so one group's values never meet another
group's names. -/
theorem parseLines_groups (groups : List Group) :
    parseLines (groups.flatMap Group.render) = groups.flatMap Group.entries := by
  induction groups with
  | nil => rfl
  | cons g groups ih => rw [List.flatMap_cons, g.parseLines_render, ih, List.flatMap_cons]

/-- The groups are read back: each entry has the name of its group and a name and a value
that stand at the same place in it, in order. -/
theorem parse_groups (groups : List Group) :
    parse (String.ofList (unlines (groups.flatMap Group.render))) =
        groups.flatMap Group.entries ∧
      ∀ (g : Group) (e : NetstatEntry), e ∈ g.entries ↔ ∃ (i : Nat) (name value : Column),
        g.names[i]? = some name ∧ g.values[i]? = some value ∧
          parseU64 value.text = some e.value ∧ e.protocol = String.ofList g.name ∧
            e.statName = String.ofList name.text := by
  have clean : ∀ line ∈ groups.flatMap Group.render, '\n' ∉ line ∧ '\r' ∉ line := by
    intro line mem
    obtain ⟨g, -, mem⟩ := List.mem_flatMap.mp mem
    exact g.lines_render line mem
  refine ⟨?_, fun g e => Group.mem_entries_iff⟩
  rw [parse, String.toList_ofList, lines_unlines_self clean, parseLines_groups]

/-- A group with a value that is no counter. -/
def tcpExt : Group where
  name := "TcpExt".toList
  names := [⟨0, "SyncookiesSent".toList⟩, ⟨0, "MaxConn".toList⟩, ⟨0, "TW".toList⟩]
  values := [⟨0, "17".toList⟩, ⟨0, "-1".toList⟩, ⟨0, "409".toList⟩]
  name_field := by decide
  name_end := by decide
  names_fields := by
    simp only [List.forall_mem_cons]
    exact ⟨by decide, by decide, by decide, nofun⟩
  values_fields := by
    simp only [List.forall_mem_cons]
    exact ⟨by decide, by decide, by decide, nofun⟩

example : parse (String.ofList (unlines ([tcpExt].flatMap Group.render))) =
    [⟨"TcpExt", "SyncookiesSent", 17⟩, ⟨"TcpExt", "TW", 409⟩] := by decide +kernel

end BlazeBee.Collectors.Netstat
