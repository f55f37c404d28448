import BlazeBee.Collectors.Counters
import BlazeBee.Collectors.Softnet
import BlazeBee.Lib.Hex

/-!
The other tables under `/proc`: `vmstat`, `net/sockstat`, `net/arp`, `schedstat` and
`net/ip_vs_stats`.

The first three are read line by line, and what does not look like a row is passed over; the
last two fail as a whole.

* `lenient_tables`: rows are read back in order, whatever stands between them.
* `Schedstat.schedstat_read_back`: the last three columns of every CPU, however many there are.
* `Ipvs.totals_read_back`: the hexadecimal totals of the third line.
-/

namespace BlazeBee.Collectors

open BlazeBee.Lib BlazeBee.Lib.Columns BlazeBee.Lib.Decimal
open BlazeBee.Agent (CollectorError)

/-- The fields of the lines of a text, where a line end may be `\r\n`. -/
theorem map_fields_lines {rows : List (List Char)} (free : ∀ line ∈ rows, '\n' ∉ line) :
    (Text.lines (unlines rows)).map fields = rows.map fields := by
  rw [lines_unlines free, List.map_map]
  exact List.map_congr_left fun line _ => splitAsciiWhitespace_stripCr line

/-! ### `/proc/vmstat` -/

namespace Vmstat

/-- A counter of the virtual memory subsystem, under the kernel's own name for it. -/
structure VmstatEntry where
  key : String
  value : UInt64
deriving DecidableEq, Repr

/-- The closure of `parse`, on the fields of a line. -/
def entry : List (List Char) → Option VmstatEntry
  | key :: value :: _ => (parseU64 value).map fun n => ⟨String.ofList key, n⟩
  | _ => none

/-- `vmstat::parse`. It cannot fail: what is no entry is left out. -/
def parse (content : String) : List VmstatEntry :=
  (Text.lines content.toList).filterMap fun line => entry (fields line)

/-- A name and its value, with any columns behind them. -/
structure Pair where
  lead : Nat
  name : List Char
  gap : Nat
  value : UInt64
  more : List Column
  name_field : IsField name
  more_fields : ∀ column ∈ more, IsField column.text

/-- The line of a pair, with one blank or more between its columns. -/
def Pair.render (p : Pair) : List Char :=
  row p.lead p.name (⟨p.gap, decimal p.value.toNat⟩ :: p.more)

/-- A line that does not look like `name value`: it has no second field, or that is no
number. -/
abbrev Other : Type :=
  { line : List Char // '\n' ∉ line ∧ ∀ value ∈ (fields line)[1]?, parseU64 value = none }

/-- The rows as a file, each followed by a newline. -/
def render (rows : List (Pair ⊕ Other)) : String :=
  String.ofList (unlines (rows.map (Sum.elim Pair.render Subtype.val)))

/-- What a line of the table stands for. -/
def entryOf : Pair ⊕ Other → Option VmstatEntry
  | .inl p => some ⟨String.ofList p.name, p.value⟩
  | .inr _ => none

namespace Pair

variable (p : Pair)

/-- The columns behind a name are fields, first of all the value in decimal. -/
theorem fields_columns :
    ∀ column ∈ (⟨p.gap, decimal p.value.toNat⟩ : Column) :: p.more, IsField column.text :=
  List.forall_mem_cons.mpr ⟨isField_decimal _, p.more_fields⟩

/-- A pair is one line. -/
theorem render_free : '\n' ∉ p.render := (row_clean p.name_field p.fields_columns).1

/-- A pair is read back, whatever columns are behind its value. -/
theorem entry_render : entry (fields p.render) = some ⟨String.ofList p.name, p.value⟩ := by
  have split : fields p.render = p.name :: decimal p.value.toNat :: p.more.map Column.text :=
    splitAsciiWhitespace_row p.name_field p.fields_columns
  rw [split, entry, parseU64_decimal, Option.map_some]

end Pair

/-- Without a number in the second field there is no entry. -/
theorem entry_other {tokens : List (List Char)}
    (other : ∀ value ∈ tokens[1]?, parseU64 value = none) : entry tokens = none := by
  match tokens with
  | [] => rfl
  | [_] => rfl
  | _ :: value :: _ =>
      rw [entry, other value rfl]
      rfl

/-- The pairs are read back in order, and every other line is passed over. -/
theorem parse_render (rows : List (Pair ⊕ Other)) :
    parse (render rows) = rows.filterMap entryOf := by
  have free : ∀ line ∈ rows.map (Sum.elim Pair.render Subtype.val), '\n' ∉ line := by
    refine List.forall_mem_map.mpr fun row _ => ?_
    rcases row with p | other
    · exact p.render_free
    · exact other.property.1
  have each : ∀ row, entry (fields (Sum.elim Pair.render Subtype.val row)) = entryOf row := by
    rintro (p | other)
    · exact p.entry_render
    · exact entry_other other.property.2
  calc parse (render rows)
      = ((Text.lines (unlines (rows.map (Sum.elim Pair.render Subtype.val)))).map
          fields).filterMap entry := by
        rw [parse, render, String.toList_ofList, List.filterMap_map]
        rfl
    _ = rows.filterMap entryOf := by
        rw [map_fields_lines free, List.map_map, List.filterMap_map]
        exact List.filterMap_congr fun row _ => each row

/-- A counter, and one that is too large. -/
def freePages : Pair where
  lead := 0
  name := "nr_free_pages".toList
  gap := 0
  value := 52125
  more := []
  name_field := by decide
  more_fields := nofun

example : parse (render [.inr ⟨"pgfault 18446744073709551616".toList, by decide, by decide⟩,
    .inl freePages]) = [⟨"nr_free_pages", 52125⟩] := parse_render _

end Vmstat

/-! ### `/proc/net/sockstat` -/

namespace Sockstat

/-- A metric of a protocol's sockets. -/
structure SockstatEntry where
  protocol : String
  metric : String
  value : UInt64
deriving DecidableEq, Repr

/-- `while let (Some(metric), Some(value)) = (f.next(), f.next())`. -/
def pairs (protocol : String) : List (List Char) → List SockstatEntry
  | metric :: value :: f =>
      match parseU64 value with
      | some n => ⟨protocol, String.ofList metric, n⟩ :: pairs protocol f
      | none => pairs protocol f
  | _ => []

/-- What the body of the loop pushes, on the fields of a line. -/
def entries : List (List Char) → List SockstatEntry
  | [] => []
  | protocol :: f => pairs (Text.trimEndMatches (String.ofList protocol) ':') f

/-- `sockstat::parse`. It cannot fail: a pair whose value is no number is left out. -/
def parse (content : String) : List SockstatEntry :=
  (Text.lines content.toList).flatMap fun line => entries (fields line)

/-- A metric and its value, which may be no number. -/
structure Cell where
  metric : Column
  value : Column
  metric_field : IsField metric.text
  value_field : IsField value.text

/-- A line `name: metric value …`, which may end with a metric alone. -/
structure Group where
  lead : Nat
  name : List Char
  cells : List Cell
  odd : Option { column : Column // IsField column.text }
  name_field : IsField name
  name_end : name.getLast? ≠ some ':'

namespace Group

variable (g : Group)

/-- The cells one behind the other, and the metric that may be left alone at the end. -/
def columns : List Column :=
  g.cells.flatMap (fun c => [c.metric, c.value]) ++ (g.odd.map Subtype.val).toList

/-- The line of a group, whose name stands directly before its colon. -/
def render : List Char := row g.lead (g.name ++ [':']) g.columns

/-- The pairs whose value is a number. -/
def entriesOf : List SockstatEntry :=
  g.cells.filterMap fun c => (parseU64 c.value.text).map fun n =>
    ⟨String.ofList g.name, String.ofList c.metric.text, n⟩

/-- The name with its colon is one field. -/
theorem head_field : IsField (g.name ++ [':']) where
  nonempty := List.append_ne_nil_of_right_ne_nil _ (List.cons_ne_nil _ _)
  free := by
    refine List.forall_mem_append.mpr ⟨g.name_field.free, fun c mem => ?_⟩
    rw [List.mem_singleton.mp mem]
    rfl

/-- Every column of the line is a field. -/
theorem columns_fields : ∀ column ∈ g.columns, IsField column.text := by
  intro column mem
  rcases List.mem_append.mp mem with cell | odd
  · obtain ⟨c, -, mem⟩ := List.mem_flatMap.mp cell
    rcases List.mem_pair.mp mem with rfl | rfl
    · exact c.metric_field
    · exact c.value_field
  · obtain ⟨⟨column', field⟩, -, rfl⟩ := Option.map_eq_some_iff.mp (Option.mem_toList.mp odd)
    exact field

/-- A group is one line. -/
theorem render_free : '\n' ∉ g.render := (row_clean g.head_field g.columns_fields).1

/-- Two columns are taken at a time, and the last one is dropped if it is alone. -/
theorem pairs_columns (protocol : String) (cells : List Cell)
    (odd : Option { column : Column // IsField column.text }) :
    pairs protocol ((cells.flatMap (fun c => [c.metric, c.value]) ++
        (odd.map Subtype.val).toList).map Column.text) =
      cells.filterMap fun c => (parseU64 c.value.text).map fun n =>
        ⟨protocol, String.ofList c.metric.text, n⟩ := by
  induction cells with
  | nil => cases odd <;> rfl
  | cons c cells ih =>
      cases number : parseU64 c.value.text with
      | none => simpa [pairs, number] using ih
      | some n => simpa [pairs, number] using ih

/-- A group is read back, a colon taken off its name: the pairs that have a number, in
order. -/
theorem entries_render : entries (fields g.render) = g.entriesOf := by
  have split : fields g.render = (g.name ++ [':']) :: g.columns.map Column.text :=
    splitAsciiWhitespace_row g.head_field g.columns_fields
  rw [split, entries, Text.trimEndMatches_concat g.name_end, entriesOf, columns, pairs_columns]

end Group

/-- A line without a number where a value would be, such as a blank line or a heading. -/
abbrev Other : Type :=
  { line : List Char // '\n' ∉ line ∧
    ∀ i, ∀ value ∈ (fields line)[2 * i + 2]?, parseU64 value = none }

/-- The rows as a file, each followed by a newline. -/
def render (rows : List (Group ⊕ Other)) : String :=
  String.ofList (unlines (rows.map (Sum.elim Group.render Subtype.val)))

/-- What a line of the table stands for. -/
def entriesOf : Group ⊕ Other → List SockstatEntry
  | .inl g => g.entriesOf
  | .inr _ => []

/-- Where no number stands in a place for values, no pair is pushed. The walk takes two
fields at a time. -/
theorem pairs_other (protocol : String) {tokens : List (List Char)}
    (other : ∀ i, ∀ value ∈ tokens[2 * i + 1]?, parseU64 value = none) :
    pairs protocol tokens = [] := by
  match tokens with
  | [] => rfl
  | [_] => rfl
  | _ :: value :: f =>
      rw [pairs, other 0 value rfl]
      exact pairs_other protocol fun i => other (i + 1)

/-- The places for values are every second field behind the name. -/
theorem entries_other {tokens : List (List Char)}
    (other : ∀ i, ∀ value ∈ tokens[2 * i + 2]?, parseU64 value = none) : entries tokens = [] := by
  match tokens with
  | [] => rfl
  | protocol :: f => exact pairs_other _ other

/-- The pairs of all groups are read back in order, and every other line is passed over. -/
theorem parse_render (rows : List (Group ⊕ Other)) :
    parse (render rows) = rows.flatMap entriesOf := by
  have free : ∀ line ∈ rows.map (Sum.elim Group.render Subtype.val), '\n' ∉ line := by
    refine List.forall_mem_map.mpr fun row _ => ?_
    rcases row with g | other
    · exact g.render_free
    · exact other.property.1
  have each : ∀ row, entries (fields (Sum.elim Group.render Subtype.val row)) =
      entriesOf row := by
    rintro (g | other)
    · exact g.entries_render
    · exact entries_other other.property.2
  calc parse (render rows)
      = ((Text.lines (unlines (rows.map (Sum.elim Group.render Subtype.val)))).map
          fields).flatMap entries := by
        rw [parse, render, String.toList_ofList, List.flatMap_map]
    _ = rows.flatMap entriesOf := by
        rw [map_fields_lines free, List.map_map, List.flatMap_map]
        exact List.flatMap_congr fun row _ => each row

/-- A number, a value that is none, and a metric without a value. -/
def tcp : Group where
  lead := 0
  name := "TCP".toList
  cells := [
    ⟨⟨0, "inuse".toList⟩, ⟨0, "27".toList⟩, by decide, by decide⟩,
    ⟨⟨0, "orphan".toList⟩, ⟨0, "-".toList⟩, by decide, by decide⟩]
  odd := some ⟨⟨0, "mem".toList⟩, by decide⟩
  name_field := by decide
  name_end := by decide

/-- A line that breaks off. -/
def sockets : Other where
  val := "sockets: used".toList
  property := by
    refine ⟨by decide, fun i value mem => ?_⟩
    have none : (fields "sockets: used".toList)[2 * i + 2]? = none :=
      List.getElem?_eq_none (Nat.le_add_left 2 (2 * i))
    cases none.symm.trans mem

example : parse (render [.inr sockets, .inl tcp]) = [⟨"TCP", "inuse", 27⟩] := parse_render _

end Sockstat

/-! ### `/proc/net/arp` -/

namespace Arp

/-- A neighbour, with the columns of the file as they are written. -/
structure ArpEntry where
  ipAddress : String
  hwType : String
  flags : String
  hwAddress : String
  mask : String
  device : String
deriving DecidableEq, Repr

/-- The closure of `parse`, on the fields of a line. -/
def entry : List (List Char) → Option ArpEntry
  | ipAddress :: hwType :: flags :: hwAddress :: mask :: device :: _ =>
      some ⟨String.ofList ipAddress, String.ofList hwType, String.ofList flags,
        String.ofList hwAddress, String.ofList mask, String.ofList device⟩
  | _ => none

/-- `arp::parse`. The first line is the head, and a line of fewer than six fields is left
out. -/
def parse (content : String) : List ArpEntry :=
  ((Text.lines content.toList).drop 1).filterMap fun line => entry (fields line)

/-- A neighbour: six columns, and any others behind them. -/
structure Neighbour where
  lead : Nat
  ipAddress : List Char
  hwType : Column
  flags : Column
  hwAddress : Column
  mask : Column
  device : Column
  more : List Column
  address_field : IsField ipAddress
  columns_fields : ∀ column ∈ hwType :: flags :: hwAddress :: mask :: device :: more,
    IsField column.text

namespace Neighbour

variable (n : Neighbour)

/-- The line of a neighbour, of six columns or more. -/
def render : List Char :=
  row n.lead n.ipAddress (n.hwType :: n.flags :: n.hwAddress :: n.mask :: n.device :: n.more)

/-- The entry of a neighbour: its first six columns, none of which is interpreted. -/
def entryOf : ArpEntry where
  ipAddress := String.ofList n.ipAddress
  hwType := String.ofList n.hwType.text
  flags := String.ofList n.flags.text
  hwAddress := String.ofList n.hwAddress.text
  mask := String.ofList n.mask.text
  device := String.ofList n.device.text

/-- A neighbour is one line. -/
theorem render_free : '\n' ∉ n.render := (row_clean n.address_field n.columns_fields).1

/-- A neighbour is read back, whatever columns are behind the sixth. -/
theorem entry_render : entry (fields n.render) = some n.entryOf := by
  have split : fields n.render = n.ipAddress ::
      (n.hwType :: n.flags :: n.hwAddress :: n.mask :: n.device :: n.more).map Column.text :=
    splitAsciiWhitespace_row n.address_field n.columns_fields
  rw [split]
  rfl

end Neighbour

/-- A line with fewer than six fields. -/
abbrev Short : Type := { line : List Char // '\n' ∉ line ∧ (fields line).length < 6 }

/-- The head and the rows as a file. -/
def render (head : Headline) (rows : List (Neighbour ⊕ Short)) : String :=
  String.ofList (unlines (head.val :: rows.map (Sum.elim Neighbour.render Subtype.val)))

/-- What a line of the table stands for. -/
def entryOf : Neighbour ⊕ Short → Option ArpEntry
  | .inl n => some n.entryOf
  | .inr _ => none

/-- Fewer than six fields are no entry. -/
theorem entry_short {tokens : List (List Char)} (few : tokens.length < 6) :
    entry tokens = none := by
  rw [entry]
  rintro a b c d e f rest rfl
  simp only [List.length_cons] at few
  omega

/-- The neighbours are read back in order. The head is not taken for one, even if it looks
like one. -/
theorem parse_render (head : Headline) (rows : List (Neighbour ⊕ Short)) :
    parse (render head rows) = rows.filterMap entryOf := by
  have free : ∀ line ∈ head.val :: rows.map (Sum.elim Neighbour.render Subtype.val),
      '\n' ∉ line := by
    refine List.forall_mem_cons.mpr ⟨head.property, List.forall_mem_map.mpr fun row _ => ?_⟩
    rcases row with n | short
    · exact n.render_free
    · exact short.property.1
  have each : ∀ row, entry (fields (Sum.elim Neighbour.render Subtype.val row)) = entryOf row := by
    rintro (n | short)
    · exact n.entry_render
    · exact entry_short short.property.2
  calc parse (render head rows)
      = ((((Text.lines (unlines (head.val ::
          rows.map (Sum.elim Neighbour.render Subtype.val)))).map fields).drop 1).filterMap
            entry) := by
        rw [parse, render, String.toList_ofList, ← List.map_drop, List.filterMap_map]
        rfl
    _ = rows.filterMap entryOf := by
        rw [map_fields_lines free, List.map_cons, List.drop_one, List.tail_cons, List.map_map,
          List.filterMap_map]
        exact List.filterMap_congr fun row _ => each row

/-- A neighbour that is reachable. -/
def gateway : Neighbour where
  lead := 0
  ipAddress := "192.168.1.1".toList
  hwType := ⟨5, "0x1".toList⟩
  flags := ⟨9, "0x2".toList⟩
  hwAddress := ⟨9, "aa:bb:cc:dd:ee:ff".toList⟩
  mask := ⟨4, "*".toList⟩
  device := ⟨8, "eth0".toList⟩
  more := []
  address_field := by decide
  columns_fields := by
    simp only [List.forall_mem_cons]
    exact ⟨by decide, by decide, by decide, by decide, by decide, nofun⟩

example : parse (render ⟨"IP address".toList, by decide⟩
      [.inr ⟨"192.168.1.7 0x1".toList, by decide, by decide⟩, .inl gateway]) =
    [⟨"192.168.1.1", "0x1", "0x2", "aa:bb:cc:dd:ee:ff", "*", "eth0"⟩] := parse_render _ _

end Arp

/-- Rows are read back in order, and whatever does not look like one is passed over, wherever
it stands. -/
theorem lenient_tables :
    (∀ rows : List (Vmstat.Pair ⊕ Vmstat.Other),
        Vmstat.parse (Vmstat.render rows) = rows.filterMap Vmstat.entryOf) ∧
      (∀ rows : List (Sockstat.Group ⊕ Sockstat.Other),
        Sockstat.parse (Sockstat.render rows) = rows.flatMap Sockstat.entriesOf) ∧
      ∀ (head : Headline) (rows : List (Arp.Neighbour ⊕ Arp.Short)),
        Arp.parse (Arp.render head rows) = rows.filterMap Arp.entryOf :=
  ⟨Vmstat.parse_render, Sockstat.parse_render, Arp.parse_render⟩

/-! ### `/proc/schedstat` -/

namespace Schedstat

def path : String := "/proc/schedstat"

/-- What a CPU's run queue has done since boot, in nanoseconds and time slices. -/
structure SchedstatCpu where
  cpu : String
  runningNs : UInt64
  runDelayNs : UInt64
  timeslices : UInt64
deriving DecidableEq, Repr

/-- What the body of the loop pushes for a line. -/
def parseLine (line : List Char) : Except CollectorError (Option SchedstatCpu) :=
  match Text.stripPrefix "cpu".toList line with
  | none => .ok none
  | some rest =>
      let f := fields rest
      let cpu := f.headD []
      let values := f.tail
      if values.length < 9 then
        .error (.parse path "cpu line"
          ("expected at least 9 fields, got " ++ String.ofList (decimal values.length)))
      else do
        let tail := values.drop (values.length - 3)
        let runningNs ← parseField (tail.getD 0 []) path "running_ns"
        let runDelayNs ← parseField (tail.getD 1 []) path "run_delay_ns"
        let timeslices ← parseField (tail.getD 2 []) path "timeslices"
        return some
          { cpu := String.ofList cpu
            runningNs := runningNs
            runDelayNs := runDelayNs
            timeslices := timeslices }

/-- `schedstat::parse`. The first CPU line that fails ends the loop with its error. -/
def parse (content : String) : Except CollectorError (List SchedstatCpu) := do
  let stats ← (Text.lines content.toList).mapM parseLine
  return stats.filterMap id

/-- The line of a CPU, with its number and any columns behind that. -/
structure CpuLine where
  name : List Char
  columns : List Column
  name_field : IsField name
  columns_fields : ∀ column ∈ columns, IsField column.text

/-- A line that is not for a CPU. -/
abbrev Other : Type := { line : List Char // '\n' ∉ line ∧ ¬ "cpu".toList <+: line }

/-- The line of a CPU, which begins with `cpu` and has no blank before the number. -/
def CpuLine.render (r : CpuLine) : List Char := row 0 ("cpu".toList ++ r.name) r.columns

/-- The rows as a file, each followed by a newline. -/
def render (rows : List (CpuLine ⊕ Other)) : String :=
  String.ofList (unlines (rows.map (Sum.elim CpuLine.render Subtype.val)))

/-- The texts behind the number of the CPU. -/
def CpuLine.values (r : CpuLine) : List (List Char) := r.columns.map Column.text

/-- Nine values at least, of which the last three are numbers. -/
def Complete (values : List (List Char)) : Prop :=
  9 ≤ values.length ∧ ∀ token ∈ values.drop (values.length - 3), (parseU64 token).isSome = true

/-- What a row stands for: its last three values. -/
def statsOf (name : List Char) (values : List (List Char)) : SchedstatCpu where
  cpu := String.ofList name
  runningNs := counter values (values.length - 3)
  runDelayNs := counter values (values.length - 2)
  timeslices := counter values (values.length - 1)

namespace CpuLine

variable (r : CpuLine)

/-- `cpu` and the number are one field. -/
theorem head_field : IsField ("cpu".toList ++ r.name) where
  nonempty := List.append_ne_nil_of_right_ne_nil _ r.name_field.nonempty
  free := by
    refine List.forall_mem_append.mpr ⟨fun c mem => ?_, r.name_field.free⟩
    have spelled : "cpu".toList = ['c', 'p', 'u'] := rfl
    rw [spelled] at mem
    simp only [List.mem_cons, List.not_mem_nil, or_false] at mem
    rcases mem with rfl | rfl | rfl <;> rfl

/-- A CPU's line is one line, and no carriage return is stripped from it. -/
theorem render_clean : '\n' ∉ r.render ∧ '\r' ∉ r.render :=
  row_clean r.head_field r.columns_fields

/-- Behind `cpu` the line begins with the number. -/
theorem stripPrefix_render :
    Text.stripPrefix "cpu".toList r.render = some (row 0 r.name r.columns) := by
  have split : r.render = "cpu".toList ++ row 0 r.name r.columns := by
    simp only [render, row, blanks, List.replicate_zero, List.nil_append, List.append_assoc]
  rw [split, Text.stripPrefix_append]

/-- Behind `cpu`, the fields are the number and the values. -/
theorem fields_rest : fields (row 0 r.name r.columns) = r.name :: r.values :=
  splitAsciiWhitespace_row r.name_field r.columns_fields

/-- From nine values on, the last three are the counters, however many are before them. -/
theorem parseLine_ok (complete : Complete r.values) :
    parseLine r.render = .ok (some (statsOf r.name r.values)) := by
  obtain ⟨enough, parses⟩ := complete
  have three : (r.values.drop (r.values.length - 3)).length = 3 := by
    rw [List.length_drop]
    omega
  obtain ⟨a, b, c, tail⟩ := List.length_eq_three.mp three
  rw [tail] at parses
  have at_end : ∀ i, counter r.values (r.values.length - 3 + i) = counter [a, b, c] i := fun i => by
    rw [← tail, counter_drop]
  have second : r.values.length - 2 = r.values.length - 3 + 1 := by omega
  have third : r.values.length - 1 = r.values.length - 3 + 2 := by omega
  have stats : statsOf r.name r.values =
      ⟨String.ofList r.name, (parseU64 a).getD 0, (parseU64 b).getD 0, (parseU64 c).getD 0⟩ := by
    rw [statsOf, second, third, at_end, at_end, ← Nat.add_zero (r.values.length - 3), at_end]
    rfl
  rw [stats, parseLine, stripPrefix_render]
  simp only [fields_rest, List.headD_cons, List.tail_cons, if_neg (Nat.not_lt.mpr enough), tail,
    List.getD_cons_zero, List.getD_cons_succ, parseAs_getD (parses a (by simp)) 0,
    parseAs_getD (parses b (by simp)) 0, parseAs_getD (parses c (by simp)) 0, ok_bind]
  rfl

/-- A CPU with fewer than nine values fails, and so does one whose last three are not all
numbers. The three are tried in order, so the first that fails gives the error. -/
theorem parseLine_error (incomplete : ¬ Complete r.values) :
    ∃ e, parseLine r.render = .error e := by
  have fails : ∀ {token : List Char}, ¬ (parseU64 token).isSome = true → ∀ what,
      ∃ e, parseField token path what = .error e :=
    fun unread => parseAs_error (Option.not_isSome_iff_eq_none.mp unread)
  rw [parseLine, stripPrefix_render]
  simp only [fields_rest, List.headD_cons, List.tail_cons]
  split_ifs with few
  · exact ⟨_, rfl⟩
  · have three : (r.values.drop (r.values.length - 3)).length = 3 := by
      rw [List.length_drop]
      omega
    obtain ⟨a, b, c, tail⟩ := List.length_eq_three.mp three
    simp only [tail, List.getD_cons_zero, List.getD_cons_succ]
    by_cases running : (parseU64 a).isSome = true
    · by_cases delay : (parseU64 b).isSome = true
      · have slices : ¬ (parseU64 c).isSome = true := by
          intro slices
          refine incomplete ⟨Nat.le_of_not_lt few, ?_⟩
          simp [tail, running, delay, slices]
        obtain ⟨e, failed⟩ := fails slices "timeslices"
        exact ⟨e, by simp only [parseAs_getD running 0, parseAs_getD delay 0, failed, ok_bind,
          error_bind]⟩
      · obtain ⟨e, failed⟩ := fails delay "run_delay_ns"
        exact ⟨e, by simp only [parseAs_getD running 0, failed, ok_bind, error_bind]⟩
    · obtain ⟨e, failed⟩ := fails running "running_ns"
      exact ⟨e, by simp only [failed, error_bind]⟩

end CpuLine

/-- A line that does not begin with `cpu` is passed over, with or without a carriage return
at its end. -/
theorem parseLine_other {line : List Char} (other : ¬ "cpu".toList <+: line) :
    parseLine (Text.stripCr line) = .ok none := by
  have still : ¬ "cpu".toList <+: Text.stripCr line := fun starts =>
    other (starts.trans (Text.stripCr_isPrefix line))
  rw [parseLine, Text.stripPrefix_eq_none still]

/-- What a line of the table stands for. -/
def rowOf : CpuLine ⊕ Other → Option SchedstatCpu
  | .inl r => some (statsOf r.name r.values)
  | .inr _ => none

/-- The lines of the file are its rows, less a carriage return at the end of a foreign
one. -/
theorem lines_render (rows : List (CpuLine ⊕ Other)) : Text.lines (render rows).toList =
    rows.map fun row => Text.stripCr (Sum.elim CpuLine.render Subtype.val row) := by
  have free : ∀ line ∈ rows.map (Sum.elim CpuLine.render Subtype.val), '\n' ∉ line := by
    refine List.forall_mem_map.mpr fun row _ => ?_
    rcases row with r | other
    · exact r.render_clean.1
    · exact other.property.1
  rw [render, String.toList_ofList, lines_unlines free, List.map_map]
  rfl

/-- The line of a CPU is not shortened by `lines`. -/
theorem stripCr_render (r : CpuLine) : Text.stripCr r.render = r.render :=
  stripCr_eq_self r.render_clean.2

/-- If every CPU's line is complete, each is read to what it stands for, in order. -/
theorem parse_ok {rows : List (CpuLine ⊕ Other)}
    (complete : ∀ r, .inl r ∈ rows → Complete r.values) :
    parse (render rows) = .ok (rows.filterMap rowOf) := by
  have each : ∀ row ∈ rows,
      parseLine (Text.stripCr (Sum.elim CpuLine.render Subtype.val row)) = pure (rowOf row) := by
    rintro (r | other) mem
    · rw [Sum.elim_inl, stripCr_render, r.parseLine_ok (complete r mem)]
      rfl
    · exact parseLine_other other.property.2
  rw [parse, lines_render, List.mapM_map]
  have read : rows.mapM
      (parseLine ∘ fun row => Text.stripCr (Sum.elim CpuLine.render Subtype.val row)) =
        pure (rows.map rowOf) := mapM_eq_pure each
  rw [read, pure_bind, List.filterMap_map]
  rfl

/-- One incomplete CPU fails the whole file. -/
theorem parse_error {rows : List (CpuLine ⊕ Other)} {r : CpuLine} (mem : .inl r ∈ rows)
    (incomplete : ¬ Complete r.values) : ∃ e, parse (render rows) = .error e := by
  have line := List.mem_map_of_mem
    (f := fun row => Text.stripCr (Sum.elim CpuLine.render Subtype.val row)) mem
  rw [Sum.elim_inl, stripCr_render] at line
  obtain ⟨e, failed⟩ := mapM_eq_error (f := parseLine) line (r.parseLine_error incomplete)
  exact ⟨e, by rw [parse, lines_render, failed, error_bind]⟩

/-- The line of a CPU with three counters, behind at least six columns of any other kind. -/
structure CpuCounters where
  name : List Char
  columns : List Column
  running : Nat × UInt64
  runDelay : Nat × UInt64
  timeslices : Nat × UInt64
  name_field : IsField name
  columns_fields : ∀ column ∈ columns, IsField column.text
  enough : 6 ≤ columns.length

namespace CpuCounters

variable (c : CpuCounters)

/-- The counters in decimal, behind the other columns. -/
def toLine : CpuLine where
  name := c.name
  columns := c.columns ++
    [c.running, c.runDelay, c.timeslices].map fun (gap, n) => ⟨gap, decimal n.toNat⟩
  name_field := c.name_field
  columns_fields := by
    refine List.forall_mem_append.mpr ⟨c.columns_fields, List.forall_mem_map.mpr ?_⟩
    rintro ⟨gap, n⟩ -
    exact isField_decimal _

/-- The entry of such a line. -/
def stats : SchedstatCpu :=
  ⟨String.ofList c.name, c.running.2, c.runDelay.2, c.timeslices.2⟩

/-- The values end with the three counters in decimal. -/
theorem values_toLine : c.toLine.values = c.columns.map Column.text ++
    [decimal c.running.2.toNat, decimal c.runDelay.2.toNat, decimal c.timeslices.2.toNat] := by
  rw [CpuLine.values, toLine, List.map_append]
  rfl

/-- All but three of the values are the other columns. -/
theorem length_values : c.toLine.values.length - 3 = (c.columns.map Column.text).length := by
  rw [values_toLine, List.length_append]
  rfl

/-- Six other columns and three counters are the nine values that the parser asks for. -/
theorem complete_toLine : Complete c.toLine.values := by
  have enough := c.enough
  have length := c.length_values
  refine ⟨by simp [values_toLine]; omega, ?_⟩
  rw [length, values_toLine, List.drop_left]
  simp

/-- The last three values are read back as the counters. -/
theorem statsOf_toLine : statsOf c.name c.toLine.values = c.stats := by
  have enough := c.enough
  have length := c.length_values
  have at_end : ∀ i, counter c.toLine.values ((c.columns.map Column.text).length + i) =
      counter [decimal c.running.2.toNat, decimal c.runDelay.2.toNat,
        decimal c.timeslices.2.toNat] i := fun i => by
    rw [← counter_drop, values_toLine, List.drop_left]
  have second : c.toLine.values.length - 2 = (c.columns.map Column.text).length + 1 := by
    rw [values_toLine, List.length_append]
    rfl
  have third : c.toLine.values.length - 1 = (c.columns.map Column.text).length + 2 := by
    rw [values_toLine, List.length_append]
    rfl
  rw [statsOf, length, second, third, at_end, at_end, ← Nat.add_zero (List.length _), at_end]
  simp [counter, stats]

end CpuCounters

/-- The three counters of every CPU are read back in order, however many columns the version
of the file has before them; and the parser fails, without a partial table, exactly when some
CPU has too few columns, or one of its last three is no number. -/
theorem schedstat_read_back :
    (∀ rows : List (CpuCounters ⊕ Other),
      parse (render (rows.map (Sum.map CpuCounters.toLine id))) =
        .ok (rows.filterMap (Sum.elim (some ∘ CpuCounters.stats) fun _ => none))) ∧
      ∀ rows : List (CpuLine ⊕ Other),
        (∃ e, parse (render rows) = .error e) ↔ ∃ r, .inl r ∈ rows ∧ ¬ Complete r.values := by
  constructor
  · intro rows
    have complete : ∀ r, .inl r ∈ rows.map (Sum.map CpuCounters.toLine id) →
        Complete r.values := by
      intro r mem
      obtain ⟨c | other, -, same⟩ := List.mem_map.mp mem
      · rw [← Sum.inl.inj same]
        exact c.complete_toLine
      · cases same
    rw [parse_ok complete, List.filterMap_map]
    refine congrArg _ (List.filterMap_congr ?_)
    rintro (c | other) -
    · exact congrArg some c.statsOf_toLine
    · rfl
  · intro rows
    refine ⟨fun ⟨e, failed⟩ => ?_, fun ⟨r, mem, incomplete⟩ => parse_error mem incomplete⟩
    by_contra complete
    push Not at complete
    cases (parse_ok complete).symm.trans failed

/-- A processor that has waited as long as can be counted. -/
def cpu0 : CpuCounters where
  name := "0".toList
  columns := List.replicate 6 ⟨0, "0".toList⟩
  running := (0, 500)
  runDelay := (0, 18446744073709551615)
  timeslices := (0, 7)
  name_field := by decide
  columns_fields column mem := by
    rw [List.eq_of_mem_replicate mem]
    decide
  enough := by decide

example : parse (render [.inr ⟨"version 15".toList, by decide, by decide⟩, .inl cpu0.toLine]) =
    .ok [⟨"0", 500, 18446744073709551615, 7⟩] := by decide +kernel

end Schedstat

/-! ### `/proc/net/ip_vs_stats` -/

namespace Ipvs

open BlazeBee.Lib.Hex

def path : String := "/proc/net/ip_vs_stats"

/-- The totals of the virtual server, over all its services. -/
structure IpvsStats where
  connections : UInt64
  incomingPackets : UInt64
  outgoingPackets : UInt64
  incomingBytes : UInt64
  outgoingBytes : UInt64
deriving DecidableEq, Repr

/-- The names that the errors have for the totals. -/
def names : List String := ["conns", "in_packets", "out_packets", "in_bytes", "out_bytes"]

/-- The loop over the slots. -/
def totals : List String → List (List Char) → Except CollectorError (List UInt64)
  | [], _ => .ok []
  | what :: _, [] => .error (.missing path what)
  | what :: names, token :: f =>
      match parseHexU64 token with
      | none => .error (.parse path what ("invalid hex value '" ++ String.ofList token ++ "'"))
      | some n => do
          let v ← totals names f
          return n :: v

/-- `ipvs::parse`, which looks at the third line only. -/
def parse (content : String) : Except CollectorError IpvsStats :=
  match (Text.lines content.toList)[2]? with
  | none => .error (.missing path "totals line")
  | some line => do
      let v ← totals names (fields line)
      return {
        connections := v.getD 0 0
        incomingPackets := v.getD 1 0
        outgoingPackets := v.getD 2 0
        incomingBytes := v.getD 3 0
        outgoingBytes := v.getD 4 0 }

/-- The loop succeeds exactly when there is a number for each slot. -/
theorem totals_eq_ok_iff {names : List String} {tokens : List (List Char)} {ns : List UInt64} :
    totals names tokens = .ok ns ↔
      ns.length = names.length ∧ (tokens.take names.length).map parseHexU64 = ns.map some := by
  induction names generalizing tokens ns with
  | nil =>
      rw [totals, List.length_nil, List.take_zero, List.map_nil, Except.ok.injEq,
        List.length_eq_zero_iff]
      constructor
      · rintro rfl
        exact ⟨rfl, rfl⟩
      · rintro ⟨empty, -⟩
        exact empty.symm
  | cons what names ih =>
      cases tokens with
      | nil =>
          refine iff_of_false (by simp [totals]) ?_
          rintro ⟨length, none⟩
          rw [List.take_nil, List.map_nil, eq_comm, List.map_eq_nil_iff] at none
          simp [none] at length
      | cons token f =>
          rw [totals, List.length_cons, List.take_succ_cons, List.map_cons]
          cases number : parseHexU64 token with
          | none =>
              refine iff_of_false (by simp) ?_
              rintro ⟨-, same⟩
              cases ns <;> simp at same
          | some n =>
              constructor
              · intro read
                obtain ⟨v, later, whole⟩ := bind_eq_ok_iff.mp read
                obtain rfl := Except.ok.inj whole
                obtain ⟨length, same⟩ := ih.mp later
                exact ⟨congrArg Nat.succ length, congrArg (List.cons (some n)) same⟩
              · rintro ⟨length, same⟩
                obtain ⟨m, v, rfl⟩ := List.exists_cons_of_length_eq_add_one length
                obtain ⟨first, later⟩ := List.cons.inj same
                obtain rfl := Option.some.inj first
                exact bind_eq_ok_iff.mpr ⟨v, ih.mpr ⟨Nat.succ.inj length, later⟩, rfl⟩

/-- The five totals in the order of the line. -/
def IpvsStats.all (s : IpvsStats) : List UInt64 :=
  [s.connections, s.incomingPackets, s.outgoingPackets, s.incomingBytes, s.outgoingBytes]

/-- A text is accepted exactly if its third line begins with five hexadecimal numbers, and
these are the totals. -/
theorem parse_ok_iff {content : String} {stats : IpvsStats} :
    parse content = .ok stats ↔ ∃ line, (Text.lines content.toList)[2]? = some line ∧
      ((fields line).take 5).map parseHexU64 = stats.all.map some := by
  rw [parse]
  cases third : (Text.lines content.toList)[2]? with
  | none => simp
  | some line =>
      simp only [Option.some.injEq, exists_eq_left', bind_eq_ok_iff]
      constructor
      · rintro ⟨v, read, whole⟩
        obtain ⟨length, same⟩ := totals_eq_ok_iff.mp read
        obtain ⟨a, b, c, d, e, rfl⟩ : ∃ a b c d e, v = [a, b, c, d, e] :=
          match v, length with
          | [a, b, c, d, e], _ => ⟨a, b, c, d, e, rfl⟩
        obtain rfl := Except.ok.inj whole
        exact same
      · intro same
        exact ⟨stats.all, totals_eq_ok_iff.mpr ⟨rfl, same⟩, rfl⟩

/-- A total as the kernel prints it: the blanks before it, and the digits it has at least. -/
structure Total where
  gap : Nat
  width : Nat
  value : UInt64

/-- The digits of a total, with zeros before them up to its width. -/
def Total.column (t : Total) : Column := ⟨t.gap, padded t.width t.value.toNat⟩

/-- The line of the totals, with any columns behind them. -/
structure Line where
  connections : Total
  incomingPackets : Total
  outgoingPackets : Total
  incomingBytes : Total
  outgoingBytes : Total
  more : List Column
  more_fields : ∀ column ∈ more, IsField column.text

namespace Line

variable (l : Line)

/-- The columns behind the first total. -/
def columns : List Column :=
  [l.incomingPackets, l.outgoingPackets, l.incomingBytes, l.outgoingBytes].map Total.column ++
    l.more

/-- The line of the totals. -/
def render : List Char :=
  row l.connections.gap l.connections.column.text l.columns

/-- The record of the line. -/
def stats : IpvsStats :=
  ⟨l.connections.value, l.incomingPackets.value, l.outgoingPackets.value, l.incomingBytes.value,
    l.outgoingBytes.value⟩

/-- A number has a digit at least, so it is a field, whatever its width. -/
theorem isField_total (t : Total) : IsField t.column.text := Softnet.isField_padded _ _

/-- Every column of the line is a field. -/
theorem columns_fields : ∀ column ∈ l.columns, IsField column.text :=
  List.forall_mem_append.mpr
    ⟨List.forall_mem_map.mpr fun t _ => isField_total t, l.more_fields⟩

/-- The totals are one line, and no carriage return is stripped from it. -/
theorem render_clean : '\n' ∉ l.render ∧ '\r' ∉ l.render :=
  row_clean (isField_total _) l.columns_fields

/-- The first five fields of the line are the totals in hexadecimal, and leading zeros do not
change a number. -/
theorem totals_render : ((fields l.render).take 5).map parseHexU64 = l.stats.all.map some := by
  have split : fields l.render = l.connections.column.text :: l.columns.map Column.text :=
    splitAsciiWhitespace_row (isField_total _) l.columns_fields
  rw [split]
  simp [columns, Total.column, stats, IpvsStats.all]

end Line

/-- The totals of the third line are read back, whatever stands before and behind it; and the
parser accepts a text exactly when its third line begins with five hexadecimal numbers. -/
theorem totals_read_back :
    (∀ (head₁ head₂ : Headline) (l : Line) (rest : List Char),
      parse (String.ofList (unlines [head₁.val, head₂.val, l.render] ++ rest)) = .ok l.stats) ∧
      ∀ content stats, parse content = .ok stats ↔
        ∃ line, (Text.lines content.toList)[2]? = some line ∧
          ((fields line).take 5).map parseHexU64 = stats.all.map some := by
  refine ⟨fun head₁ head₂ l rest => parse_ok_iff.mpr ⟨l.render, ?_, l.totals_render⟩,
    fun content stats => parse_ok_iff⟩
  have free : ∀ line ∈ [head₁.val, head₂.val, l.render], '\n' ∉ line := by
    intro line mem
    simp only [List.mem_cons, List.not_mem_nil, or_false] at mem
    rcases mem with rfl | rfl | rfl
    · exact head₁.property
    · exact head₂.property
    · exact l.render_clean.1
  rw [String.toList_ofList, lines_unlines_append free]
  simp [stripCr_eq_self l.render_clean.2]

/-- Totals as the kernel prints them, with a column behind them. -/
def someTotals : Line where
  connections := ⟨7, 1, 1⟩
  incomingPackets := ⟨8, 8, 26⟩
  outgoingPackets := ⟨0, 1, 0⟩
  incomingBytes := ⟨0, 16, 18446744073709551615⟩
  outgoingBytes := ⟨0, 1, 0⟩
  more := [⟨0, "-".toList⟩]
  more_fields := List.forall_mem_singleton.mpr (by decide)

example : parse (String.ofList (unlines
      ["   Total Incoming".toList, "   Conns  Packets".toList, someTotals.render])) =
    .ok ⟨1, 26, 0, 18446744073709551615, 0⟩ := by decide +kernel

end Ipvs

end BlazeBee.Collectors
