import BlazeBee.Agent.Scheduler
import BlazeBee.Collectors.Procfs
import BlazeBee.Lib.Checks
import BlazeBee.Lib.Columns
import BlazeBee.Lib.Decimal
import BlazeBee.Lib.Hex

/-!
The table `/proc/net/softnet_stat`, a line of hexadecimal columns for each CPU that is online.

The parser takes the CPU from where the line stands; the column that names it is not read.

* `parse_render`: every line is read, and numbered by its place.
* `parse_render_iff`: the numbers are those of the CPUs if no CPU before an online one is
  offline, and only then.
-/

namespace BlazeBee.Collectors.Softnet

open BlazeBee.Lib BlazeBee.Lib.Columns BlazeBee.Lib.Decimal BlazeBee.Lib.Hex
open BlazeBee.Agent (CollectorError)

def path : String := "/proc/net/softnet_stat"

/-- What a CPU has done with the packets it received. -/
structure SoftnetStats where
  cpu : String
  processed : UInt64
  dropped : UInt64
  timeSqueeze : UInt64
  receivedRps : UInt64
  flowLimitCount : UInt64
deriving DecidableEq, Repr

/-- The closure `hex` of `parse`: a column that is not there counts as 0. -/
def hex (cols : List (List Char)) (i : Nat) (what : String) : Except CollectorError UInt64 :=
  match cols[i]? with
  | some t =>
      match parseHexU64 t with
      | some n => .ok n
      | none => .error (.parse path what ("invalid hex value '" ++ String.ofList t ++ "'"))
  | none => .ok 0

/-- What the loop of `parse` pushes for a line. -/
def parseLine (cpu : Nat) (line : List Char) : Except CollectorError (Option SoftnetStats) :=
  let cols := fields line
  if cols.length < 3 then .ok none
  else do
    let processed ← hex cols 0 "processed"
    let dropped ← hex cols 1 "dropped"
    let timeSqueeze ← hex cols 2 "time_squeeze"
    let receivedRps ← hex cols 9 "received_rps"
    let flowLimitCount ← hex cols 10 "flow_limit_count"
    return some
      { cpu := String.ofList (decimal cpu)
        processed := processed
        dropped := dropped
        timeSqueeze := timeSqueeze
        receivedRps := receivedRps
        flowLimitCount := flowLimitCount }

/-- `softnet::parse`. The index runs over all lines, also those that are passed over. -/
def parse (content : String) : Except CollectorError (List SoftnetStats) := do
  let stats ← (Text.lines content.toList).zipIdx.mapM fun (line, cpu) => parseLine cpu line
  return stats.filterMap id

/-! ### The table of the kernel -/

/-- An online CPU: the columns before its number, and those behind it. -/
structure Cpu where
  number : Nat
  counters : Fin 12 → UInt64
  queues : Fin 2 → UInt64

/-- A column of a counter, eight digits at least. -/
def column (n : UInt64) : List Char := padded 8 n.toNat

/-- Twelve counters, the number of the CPU, and the lengths of its two queues. -/
def Cpu.columns (c : Cpu) : List (List Char) :=
  List.ofFn (fun i => column (c.counters i)) ++ padded 8 c.number ::
    List.ofFn fun i => column (c.queues i)

/-- The fifteen columns, with a blank between two of them. -/
def Cpu.line (c : Cpu) : List Char :=
  row 0 (column (c.counters 0)) (c.columns.tail.map (Column.mk 0))

/-- The lines of the online CPUs, in order. -/
def render (cpus : List Cpu) : String := String.ofList (unlines (cpus.map Cpu.line))

/-- The record of a CPU, under the number that the table has for it. -/
def Cpu.stats (c : Cpu) (number : Nat) : SoftnetStats where
  cpu := String.ofList (decimal number)
  processed := c.counters 0
  dropped := c.counters 1
  timeSqueeze := c.counters 2
  receivedRps := c.counters 9
  flowLimitCount := c.counters 10

/-- A hexadecimal number is a field. -/
theorem isField_padded (width n : Nat) : IsField (padded width n) where
  nonempty := padded_ne_nil width n
  free := by
    intro c mem
    obtain ⟨d, small, rfl⟩ := mem_padded mem
    have all : ∀ d : Fin 16, Text.isAsciiWhitespace (d : Nat).digitChar = false := by decide
    exact all ⟨d, small⟩

namespace Cpu

variable (c : Cpu)

/-- Each of the fifteen columns is a field. -/
theorem isField_columns : ∀ text ∈ c.columns, IsField text := by
  intro text mem
  rcases List.mem_append.mp mem with counter | rest
  · obtain ⟨i, rfl⟩ := List.mem_ofFn.mp counter
    exact isField_padded _ _
  · rcases List.mem_cons.mp rest with rfl | queue
    · exact isField_padded _ _
    · obtain ⟨i, rfl⟩ := List.mem_ofFn.mp queue
      exact isField_padded _ _

/-- So are those behind the first one. -/
theorem isField_tail : ∀ column ∈ c.columns.tail.map (Column.mk 0), IsField column.text :=
  List.forall_mem_map.mpr fun text mem => c.isField_columns text (List.mem_of_mem_tail mem)

/-- The fields of the line are its columns. -/
theorem fields_line : fields c.line = c.columns := by
  have split : Text.splitAsciiWhitespace c.line = _ :=
    splitAsciiWhitespace_row (isField_padded 8 _) c.isField_tail
  rw [fields, split, List.map_map]
  exact congrArg _ (List.map_id _)

/-- There are fifteen columns, of which the parser asks for three at least. -/
theorem length_columns : c.columns.length = 15 := by simp [columns]

/-- The first twelve columns are the counters. -/
theorem columns_getElem? (i : Fin 12) : c.columns[i.val]? = some (column (c.counters i)) := by
  have inside : i.val < (List.ofFn fun i => column (c.counters i)).length := by simp
  rw [columns, List.getElem?_append_left inside, List.getElem?_ofFn, dif_pos i.isLt]

/-- A counter is read back, and the name it has in errors plays no part. -/
theorem hex_columns (i : Fin 12) (what : String) :
    hex c.columns i.val what = .ok (c.counters i) := by
  rw [hex, c.columns_getElem? i]
  simp only [column, parseHexU64_padded]

/-- A line is read in full, under whatever number. -/
theorem parseLine_line (number : Nat) :
    parseLine number c.line = .ok (some (c.stats number)) := by
  have long : ¬ c.columns.length < 3 := by
    rw [length_columns]
    omega
  simp only [parseLine, fields_line, if_neg long]
  have processed : hex c.columns 0 "processed" = _ := c.hex_columns 0 _
  have dropped : hex c.columns 1 "dropped" = _ := c.hex_columns 1 _
  have timeSqueeze : hex c.columns 2 "time_squeeze" = _ := c.hex_columns 2 _
  have receivedRps : hex c.columns 9 "received_rps" = _ := c.hex_columns 9 _
  have flowLimitCount : hex c.columns 10 "flow_limit_count" = _ := c.hex_columns 10 _
  rw [processed, dropped, timeSqueeze, receivedRps, flowLimitCount]
  rfl

/-- A CPU's line is one line, and no carriage return is stripped from it. -/
theorem line_clean : '\n' ∉ c.line ∧ '\r' ∉ c.line :=
  row_clean (isField_padded 8 _) c.isField_tail

end Cpu

/-- The lines of the table are those of its CPUs. -/
theorem lines_render (cpus : List Cpu) :
    Text.lines (render cpus).toList = cpus.map Cpu.line := by
  rw [render, String.toList_ofList]
  exact lines_unlines_self (List.forall_mem_map.mpr fun c _ => c.line_clean)

/-- Every line gives the record of its CPU, under the number of the line. -/
theorem parse_render (cpus : List Cpu) :
    parse (render cpus) = .ok (cpus.zipIdx.map fun (c, number) => c.stats number) := by
  have each : ∀ place ∈ cpus.zipIdx,
      ((fun (line, cpu) => parseLine cpu line) ∘ Prod.map Cpu.line id) place =
        pure (some (place.1.stats place.2)) := by
    rintro ⟨c, number⟩ -
    rw [Function.comp_apply, Prod.map_apply, id]
    exact c.parseLine_line number
  rw [parse, lines_render, List.zipIdx_map, List.mapM_map, mapM_eq_pure each, pure_bind,
    filterMap_id_map_some]
  rfl

/-- The record of a CPU tells the number that it is reported under. -/
theorem stats_injective (c : Cpu) : Function.Injective c.stats := by
  intro m n same
  have cpu := congrArg SoftnetStats.cpu same
  exact decimal_injective (String.ofList_injective cpu)

/-- The records are those of the online CPUs exactly if these are the first ones. -/
theorem parse_render_iff (cpus : List Cpu) :
    parse (render cpus) = .ok (cpus.map fun c => c.stats c.number) ↔
      cpus.map Cpu.number = List.range cpus.length := by
  have own : (cpus.map fun c => c.stats c.number) =
      cpus.zipIdx.map fun place => place.1.stats place.1.number := by
    conv_lhs => rw [← List.zipIdx_map_fst 0 cpus, List.map_map]
    rfl
  have numbers : cpus.map Cpu.number = cpus.zipIdx.map fun place => place.1.number := by
    conv_lhs => rw [← List.zipIdx_map_fst 0 cpus, List.map_map]
    rfl
  have places : List.range cpus.length = cpus.zipIdx.map Prod.snd := by
    rw [List.zipIdx_map_snd, List.range_eq_range']
  rw [parse_render, own, numbers, places, Except.ok.injEq, List.map_inj_left, List.map_inj_left]
  refine forall₂_congr fun place _ => ?_
  exact (stats_injective place.1).eq_iff.trans eq_comm

/-- With the second of three CPUs offline, the third is reported as the second. -/
theorem not_parse_render :
    ¬ ∀ cpus : List Cpu, (cpus.map Cpu.number).Pairwise (· < ·) →
      parse (render cpus) = .ok (cpus.map fun c => c.stats c.number) := by
  intro claim
  have read := claim [⟨0, fun _ => 0, fun _ => 0⟩, ⟨2, fun _ => 0, fun _ => 0⟩] (by simp)
  rw [parse_render, Except.ok.injEq] at read
  obtain ⟨-, rest⟩ := List.cons.inj read
  obtain ⟨second, -⟩ := List.cons.inj rest
  cases stats_injective _ second

end BlazeBee.Collectors.Softnet
