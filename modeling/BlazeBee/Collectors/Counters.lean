import BlazeBee.Collectors.Fields
import BlazeBee.Lib.Checks

/-!
The tables of counters under `/proc`: `net/dev`, `diskstats` and `stat`.

`parse_tables`: each of the three parsers reads its table back, whatever the blanks, and
fails as a whole when a counter that it needs is missing or no number.
-/

namespace BlazeBee.Collectors

open BlazeBee.Lib BlazeBee.Lib.Columns BlazeBee.Lib.Decimal BlazeBee.Lib.Num
open BlazeBee.Agent (CollectorError)

/-- A line of a text. -/
abbrev Headline : Type := { line : List Char // '\n' ∉ line }

/-! ### `/proc/net/dev` -/

namespace Network

def path : String := "/proc/net/dev"

/-- The counters of one interface since boot, as they are reported. Eight of the sixteen
columns of the file are kept. -/
structure NetworkStats where
  interface : String
  receiveBytes : UInt64
  receivePackets : UInt64
  receiveErrors : UInt64
  receiveDrops : UInt64
  transmitBytes : UInt64
  transmitPackets : UInt64
  transmitErrors : UInt64
  transmitDrops : UInt64
deriving DecidableEq, Repr

def rxNames : List String :=
  ["rx_bytes", "rx_packets", "rx_errs", "rx_drop", "rx_fifo", "rx_frame", "rx_compressed",
    "rx_multicast"]

def txNames : List String := ["tx_bytes", "tx_packets", "tx_errs", "tx_drop"]

/-- What the loop of `parse` pushes for a line. -/
def parseLine (line : List Char) : Except CollectorError (Option NetworkStats) :=
  match Text.splitOnce ':' line with
  | none => .ok none
  | some (name, rest) =>
      let interface := Text.trim (String.ofList name)
      if interface.isEmpty then .ok none
      else do
        let (rx, f) ← nextFields path rxNames (fields rest)
        let (tx, _) ← nextFields path txNames f
        return some
          { interface := interface
            receiveBytes := rx.getD 0 0
            receivePackets := rx.getD 1 0
            receiveErrors := rx.getD 2 0
            receiveDrops := rx.getD 3 0
            transmitBytes := tx.getD 0 0
            transmitPackets := tx.getD 1 0
            transmitErrors := tx.getD 2 0
            transmitDrops := tx.getD 3 0 }

/-- `network::parse`. The two lines of the head are skipped, and the first line that fails
ends the loop with its error. -/
def parse (content : String) : Except CollectorError (List NetworkStats) := do
  let stats ← ((Text.lines content.toList).drop 2).mapM parseLine
  return stats.filterMap id

/-! ### Its rows -/

/-- The name of an interface stands directly before its colon, and the kernel pads it on the
left. -/
def renderRow (r : Row) : List Char := row r.lead (r.name ++ [':']) r.columns

def render (head₁ head₂ : Headline) (rows : List Row) : String :=
  String.ofList (unlines [head₁.val, head₂.val] ++ unlines (rows.map renderRow))

/-- What a row stands for: the first four counters are received, and the transmitted ones
begin at the ninth. -/
def statsOf (name : List Char) (counter : Nat → UInt64) : NetworkStats where
  interface := String.ofList name
  receiveBytes := counter 0
  receivePackets := counter 1
  receiveErrors := counter 2
  receiveDrops := counter 3
  transmitBytes := counter 8
  transmitPackets := counter 9
  transmitErrors := counter 10
  transmitDrops := counter 11

/-- A rendered row is one line: it holds neither a newline nor a carriage return that `lines`
would take off. -/
theorem renderRow_clean (r : Row) : '\n' ∉ renderRow r ∧ '\r' ∉ renderRow r := by
  refine row_clean ⟨List.append_ne_nil_of_right_ne_nil _ (List.cons_ne_nil _ _), ?_⟩ r.fields
  refine List.forall_mem_append.mpr ⟨r.is_name.isField.free, fun c mem => ?_⟩
  rw [List.mem_singleton.mp mem]
  rfl

/-- The first colon of a rendered row is the one behind its name, since a name has none. -/
theorem splitOnce_renderRow (r : Row) :
    Text.splitOnce ':' (renderRow r) = some (blanks r.lead ++ r.name, renderColumns r.columns) := by
  have split : renderRow r = (blanks r.lead ++ r.name) ++ ':' :: renderColumns r.columns := by
    simp only [renderRow, row, List.append_assoc, List.singleton_append]
  have free : ':' ∉ blanks r.lead ++ r.name := by
    rw [List.mem_append, not_or]
    exact ⟨not_mem_blanks (by decide) _, r.is_name.colon⟩
  rw [split, Text.splitOnce_append free]

/-- Whatever the gaps between the columns are, their texts are the fields. -/
theorem fields_renderColumns (r : Row) : fields (renderColumns r.columns) = r.tokens := by
  have split := splitAsciiWhitespace_columns r.fields apart_nil
  rwa [List.append_nil, splitAsciiWhitespace_nil, List.append_nil] at split

/-- The blanks that right-align a name are trimmed off, and nothing of the name is. -/
theorem trim_name (r : Row) :
    Text.trim (String.ofList (blanks r.lead ++ r.name)) = String.ofList r.name := by
  exact Text.trim_append (blanks_isWhitespace _) r.is_name.trimmed

/-- A rendered name is not empty, so its line is never passed over. -/
theorem name_isEmpty (r : Row) : (String.ofList r.name).isEmpty = false := by
  have nonempty := r.is_name.nonempty
  simpa using nonempty

/-- On the line of a row the counters are read in two runs. -/
theorem parseLine_renderRow (r : Row) :
    parseLine (renderRow r) = (do
      let (rx, f) ← nextFields path rxNames r.tokens
      let (tx, _) ← nextFields path txNames f
      return some ⟨String.ofList r.name, rx.getD 0 0, rx.getD 1 0, rx.getD 2 0, rx.getD 3 0,
        tx.getD 0 0, tx.getD 1 0, tx.getD 2 0, tx.getD 3 0⟩) := by
  simp only [parseLine, splitOnce_renderRow, trim_name, name_isEmpty, Bool.false_eq_true,
    if_false, fields_renderColumns]

/-- Twelve leading counters are enough: eight are read for the received side, and four behind
them for the transmitted one. -/
theorem parseLine_ok {r : Row} (all : Counters 12 r.tokens) :
    parseLine (renderRow r) = .ok (some (statsOf r.name (counter r.tokens))) := by
  obtain ⟨received, transmitted⟩ := (counters_add_iff (m := 8) (n := 4)).mp all
  have rx : nextFields path rxNames r.tokens = .ok (counters 8 r.tokens, r.tokens.drop 8) :=
    nextFields_ok received
  have tx : nextFields path txNames (r.tokens.drop 8) =
      .ok (counters 4 (r.tokens.drop 8), (r.tokens.drop 8).drop 4) := nextFields_ok transmitted
  simp only [parseLine_renderRow, rx, tx, ok_bind, getD_counters, counter_drop, Nat.reduceLT,
    Nat.reduceAdd]
  rfl

/-- A row with fewer than twelve leading counters fails, in the received run or in the
transmitted one. -/
theorem parseLine_error {r : Row} (few : ¬ Counters 12 r.tokens) :
    ∃ e, parseLine (renderRow r) = .error e := by
  rw [parseLine_renderRow]
  by_cases received : Counters 8 r.tokens
  · have transmitted : ¬ Counters 4 (r.tokens.drop 8) := fun transmitted =>
      few ((counters_add_iff (m := 8) (n := 4)).mpr ⟨received, transmitted⟩)
    have rx : nextFields path rxNames r.tokens = .ok (counters 8 r.tokens, r.tokens.drop 8) :=
      nextFields_ok received
    obtain ⟨e, failed⟩ : ∃ e, nextFields path txNames (r.tokens.drop 8) = .error e :=
      nextFields_error transmitted
    exact ⟨e, by simp only [rx, failed, ok_bind, error_bind]⟩
  · obtain ⟨e, failed⟩ : ∃ e, nextFields path rxNames r.tokens = .error e :=
      nextFields_error received
    exact ⟨e, by rw [failed, error_bind]⟩

/-- The two lines of the head are passed over. -/
theorem drop_lines_render (head₁ head₂ : Headline) (rows : List Row) :
    (Text.lines (render head₁ head₂ rows).toList).drop 2 = rows.map renderRow := by
  have headlines : ∀ line ∈ [head₁.val, head₂.val], '\n' ∉ line := by
    intro line mem
    rcases List.mem_pair.mp mem with rfl | rfl
    · exact head₁.property
    · exact head₂.property
  have clean : ∀ line ∈ rows.map renderRow, '\n' ∉ line ∧ '\r' ∉ line :=
    List.forall_mem_map.mpr fun r _ => renderRow_clean r
  rw [render, String.toList_ofList, lines_unlines_append headlines, lines_unlines_self clean]
  rfl

/-- If every row is complete, each is read to what it stands for, and their order is kept. -/
theorem parse_ok (head₁ head₂ : Headline) {rows : List Row}
    (all : ∀ r ∈ rows, Counters 12 r.tokens) :
    parse (render head₁ head₂ rows) =
      .ok (rows.map fun r => statsOf r.name (counter r.tokens)) := by
  have each : ∀ r ∈ rows, (parseLine ∘ renderRow) r =
      pure (some (statsOf r.name (counter r.tokens))) := fun r mem => parseLine_ok (all r mem)
  rw [parse, drop_lines_render, List.mapM_map, mapM_eq_pure each, pure_bind, filterMap_id_map_some]
  rfl

/-- One incomplete row fails the whole file, wherever it stands and whatever the rows before
it hold. -/
theorem parse_error {rows : List Row} {r : Row} (mem : r ∈ rows) (few : ¬ Counters 12 r.tokens)
    (head₁ head₂ : Headline) : ∃ e, parse (render head₁ head₂ rows) = .error e := by
  obtain ⟨e, failed⟩ := mapM_eq_error (f := parseLine) (List.mem_map_of_mem mem)
    (parseLine_error few)
  exact ⟨e, by rw [parse, drop_lines_render, failed, error_bind]⟩

/-- Rows that are built from counters are complete, so their numbers are read back as they
are. -/
theorem parse_counters (head₁ head₂ : Headline) (rows : List (CounterRow 12)) :
    parse (render head₁ head₂ (rows.map CounterRow.toRow)) =
      .ok (rows.map fun r => statsOf r.name r.counter) := by
  have all : ∀ r ∈ rows.map CounterRow.toRow, Counters 12 r.tokens :=
    List.forall_mem_map.mpr fun r _ => r.holds
  rw [parse_ok head₁ head₂ all, List.map_map]
  exact congrArg _ (List.map_congr_left fun r _ => congrArg (statsOf r.name) r.counter_tokens)

/-- The counters of an interface that has received all it can count. -/
def ethernet : CounterRow 12 where
  lead := 2
  name := "eth0".toList
  cells := [(0, 18446744073709551615), (4, 9), (4, 1), (4, 2), (4, 0), (5, 0), (10, 0), (9, 5),
    (6, 300), (6, 4), (4, 0), (4, 6), (4, 0), (5, 0), (7, 0), (10, 0)]
  is_name := ⟨by simp, Text.none_of_all rfl, by simp⟩
  enough := by decide

example : parse (render ⟨"Inter-|".toList, by decide⟩ ⟨" face |bytes".toList, by decide⟩
      ([ethernet].map CounterRow.toRow)) =
    .ok [⟨"eth0", 18446744073709551615, 9, 1, 2, 300, 4, 0, 6⟩] :=
  parse_counters _ _ [ethernet]

/-- The parser fails for no other reason: there is an error exactly when some row is
incomplete. -/
theorem parse_error_iff (head₁ head₂ : Headline) (rows : List Row) :
    (∃ e, parse (render head₁ head₂ rows) = .error e) ↔ ∃ r ∈ rows, ¬ Counters 12 r.tokens :=
  error_iff (fun all => ⟨_, parse_ok head₁ head₂ all⟩)
    fun _ mem few => parse_error mem few head₁ head₂

end Network

/-! ### `/proc/diskstats` -/

namespace Disk

def path : String := "/proc/diskstats"

def sectorBytes : UInt64 := 512

structure DiskStats where
  device : String
  readsCompleted : UInt64
  readsMerged : UInt64
  readBytes : UInt64
  readTimeMs : UInt64
  writesCompleted : UInt64
  writesMerged : UInt64
  writtenBytes : UInt64
  writeTimeMs : UInt64
  ioInProgress : UInt64
  ioTimeMs : UInt64
  /-- Field 14: time in flight weighted by queue depth. -/
  weightedIoTimeMs : UInt64
deriving DecidableEq, Repr

def names : List String :=
  ["reads_completed", "reads_merged", "sectors_read", "read_time_ms", "writes_completed",
    "writes_merged", "sectors_written", "write_time_ms", "io_in_progress", "io_time_ms",
    "weighted_io_time_ms"]

/-- What the loop of `parse` pushes for a line. -/
def parseLine (line : List Char) : Except CollectorError (Option DiskStats) :=
  match fields line with
  | _major :: _minor :: device :: f => do
      let (v, _) ← nextFields path names f
      return some
        { device := String.ofList device
          readsCompleted := v.getD 0 0
          readsMerged := v.getD 1 0
          readBytes := u64SaturatingMul (v.getD 2 0) sectorBytes
          readTimeMs := v.getD 3 0
          writesCompleted := v.getD 4 0
          writesMerged := v.getD 5 0
          writtenBytes := u64SaturatingMul (v.getD 6 0) sectorBytes
          writeTimeMs := v.getD 7 0
          ioInProgress := v.getD 8 0
          ioTimeMs := v.getD 9 0
          weightedIoTimeMs := v.getD 10 0 }
  | _ => .ok none

def parse (content : String) : Except CollectorError (List DiskStats) := do
  let stats ← (Text.lines content.toList).mapM parseLine
  return stats.filterMap id

/-! ### Its rows -/

/-- The numbers of a device, in front of its row. -/
structure Numbered where
  major : List Char
  minor : Column
  gap : Nat
  major_field : IsField major
  minor_field : IsField minor.text

def renderRow (device : Numbered × Row) : List Char :=
  row device.2.lead device.1.major (device.1.minor :: ⟨device.1.gap, device.2.name⟩ ::
    device.2.columns)

def render (rows : List (Numbered × Row)) : String :=
  String.ofList (unlines (rows.map renderRow))

/-- The bytes of so many sectors, as far as they can be counted. -/
def sectors (n : UInt64) : UInt64 := UInt64.ofNat (min (512 * n.toNat) (2 ^ 64 - 1))

/-- What a row stands for: each counter in its own field, the sectors as bytes. -/
def statsOf (name : List Char) (counter : Nat → UInt64) : DiskStats where
  device := String.ofList name
  readsCompleted := counter 0
  readsMerged := counter 1
  readBytes := sectors (counter 2)
  readTimeMs := counter 3
  writesCompleted := counter 4
  writesMerged := counter 5
  writtenBytes := sectors (counter 6)
  writeTimeMs := counter 7
  ioInProgress := counter 8
  ioTimeMs := counter 9
  weightedIoTimeMs := counter 10

theorem saturatingMul_sectorBytes (n : UInt64) : u64SaturatingMul n sectorBytes = sectors n := by
  have below := n.toNat_lt
  have size : sectorBytes.toNat = 512 := rfl
  rw [u64SaturatingMul, sectors, size]
  split_ifs with fits
  · rw [Nat.min_eq_left (by omega)]
    apply UInt64.toNat_inj.mp
    rw [UInt64.toNat_mul, size, UInt64.toNat_ofNat', Nat.mul_comm]
  · rw [Nat.min_eq_right (by omega)]
    rfl

variable {device : Numbered × Row}

theorem columns_fields (device : Numbered × Row) :
    ∀ column ∈ device.1.minor :: ⟨device.1.gap, device.2.name⟩ :: device.2.columns,
      IsField column.text :=
  List.forall_mem_cons.mpr ⟨device.1.minor_field,
    List.forall_mem_cons.mpr ⟨device.2.is_name.isField, device.2.fields⟩⟩

theorem renderRow_clean (device : Numbered × Row) :
    '\n' ∉ renderRow device ∧ '\r' ∉ renderRow device :=
  row_clean device.1.major_field (columns_fields device)

theorem fields_renderRow (device : Numbered × Row) : fields (renderRow device) =
    device.1.major :: device.1.minor.text :: device.2.name :: device.2.tokens :=
  splitAsciiWhitespace_row device.1.major_field (columns_fields device)

theorem parseLine_ok (all : Counters 11 device.2.tokens) :
    parseLine (renderRow device) =
      .ok (some (statsOf device.2.name (counter device.2.tokens))) := by
  have v : nextFields path names device.2.tokens =
      .ok (counters 11 device.2.tokens, device.2.tokens.drop 11) := nextFields_ok all
  simp only [parseLine, fields_renderRow, v, ok_bind, getD_counters, saturatingMul_sectorBytes,
    Nat.reduceLT]
  rfl

theorem parseLine_error (few : ¬ Counters 11 device.2.tokens) :
    ∃ e, parseLine (renderRow device) = .error e := by
  obtain ⟨e, failed⟩ : ∃ e, nextFields path names device.2.tokens = .error e :=
    nextFields_error few
  exact ⟨e, by simp only [parseLine, fields_renderRow, failed, error_bind]⟩

theorem lines_render (rows : List (Numbered × Row)) :
    Text.lines (render rows).toList = rows.map renderRow := by
  have clean : ∀ line ∈ rows.map renderRow, '\n' ∉ line ∧ '\r' ∉ line :=
    List.forall_mem_map.mpr fun device _ => renderRow_clean device
  rw [render, String.toList_ofList, lines_unlines_self clean]

theorem parse_ok {rows : List (Numbered × Row)}
    (all : ∀ device ∈ rows, Counters 11 device.2.tokens) :
    parse (render rows) =
      .ok (rows.map fun device => statsOf device.2.name (counter device.2.tokens)) := by
  have each : ∀ device ∈ rows, (parseLine ∘ renderRow) device =
      pure (some (statsOf device.2.name (counter device.2.tokens))) :=
    fun device mem => parseLine_ok (all device mem)
  rw [parse, lines_render, List.mapM_map, mapM_eq_pure each, pure_bind, filterMap_id_map_some]
  rfl

theorem parse_error {rows : List (Numbered × Row)} (mem : device ∈ rows)
    (few : ¬ Counters 11 device.2.tokens) : ∃ e, parse (render rows) = .error e := by
  obtain ⟨e, failed⟩ := mapM_eq_error (f := parseLine) (List.mem_map_of_mem mem)
    (parseLine_error few)
  exact ⟨e, by rw [parse, lines_render, failed, error_bind]⟩

theorem parse_counters (rows : List (Numbered × CounterRow 11)) :
    parse (render (rows.map fun (numbers, r) => (numbers, r.toRow))) =
      .ok (rows.map fun (_, r) => statsOf r.name r.counter) := by
  have all : ∀ device ∈ rows.map fun (numbers, r) => (numbers, r.toRow),
      Counters 11 device.2.tokens := List.forall_mem_map.mpr fun (_, r) _ => r.holds
  rw [parse_ok all, List.map_map]
  exact congrArg _ (List.map_congr_left fun (_, r) _ =>
    congrArg (statsOf r.name) r.counter_tokens)

theorem parse_error_iff (rows : List (Numbered × Row)) :
    (∃ e, parse (render rows) = .error e) ↔ ∃ r ∈ rows, ¬ Counters 11 r.2.tokens :=
  error_iff (fun all => ⟨_, parse_ok all⟩) fun _ mem few => parse_error mem few

end Disk

/-! ### `/proc/stat` -/

namespace Cpu

def path : String := "/proc/stat"

structure CpuStats where
  /-- `cpu` for the aggregate line, `cpu0`, `cpu1`, ... per logical CPU. -/
  cpu : String
  user : UInt64
  nice : UInt64
  system : UInt64
  idle : UInt64
  iowait : UInt64
  irq : UInt64
  softirq : UInt64
  /-- Time stolen by the hypervisor; 0 on kernels without the field. -/
  steal : UInt64
  guest : UInt64
  guestNice : UInt64
deriving DecidableEq, Repr

def names : List String :=
  ["user", "nice", "system", "idle", "iowait", "irq", "softirq", "steal", "guest", "guest_nice"]

/-- The slots from the eighth on: the fields may end before them, and they are 0 then. -/
def optionalFields : List String → List (List Char) → Except CollectorError (List UInt64)
  | [], _ => .ok []
  | what :: names, [] => .ok ((what :: names).map fun _ => 0)
  | what :: names, token :: f => do
      let n ← parseField token path what
      let slots ← optionalFields names f
      return n :: slots

/-- A line that starts with `cpu`. -/
def parseLine (line : List Char) : Except CollectorError CpuStats := do
  let f := fields line
  let cpu := f.headD []
  let (counters, f) ← nextFields path (names.take 7) f.tail
  let optional ← optionalFields (names.drop 7) f
  .ok
    { cpu := String.ofList cpu
      user := counters.getD 0 0
      nice := counters.getD 1 0
      system := counters.getD 2 0
      idle := counters.getD 3 0
      iowait := counters.getD 4 0
      irq := counters.getD 5 0
      softirq := counters.getD 6 0
      steal := optional.getD 0 0
      guest := optional.getD 1 0
      guestNice := optional.getD 2 0 }

def cpuStart : List Char := ['c', 'p', 'u']

/-- The loop of `parse`, with the rows so far. The first other line behind a row ends it. -/
def parseLines (stats : List CpuStats) :
    List (List Char) → Except CollectorError (List CpuStats)
  | [] => .ok stats
  | line :: rest =>
      if !cpuStart.isPrefixOf line then
        if !stats.isEmpty then .ok stats else parseLines stats rest
      else do
        let row ← parseLine line
        parseLines (stats ++ [row]) rest

def parse (content : String) : Except CollectorError (List CpuStats) := do
  let stats ← parseLines [] (Text.lines content.toList)
  rejectIf stats.isEmpty (CollectorError.missing path "cpu lines")
  return stats

/-! ### Its rows -/

/-- The name of a row begins with `cpu`, and it stands at the beginning of the line. -/
def AtStart (lead : Nat) (name : List Char) : Prop := lead = 0 ∧ cpuStart <+: name

abbrev CpuRow : Type := { r : Row // AtStart r.lead r.name }

abbrev CpuCounters : Type := { r : CounterRow 7 // AtStart r.lead r.name }

def CpuCounters.toRow (r : CpuCounters) : CpuRow := ⟨r.val.toRow, r.property⟩

/-- What stands behind the rows. -/
abbrev Tail : Type := { tail : List Char // ¬ cpuStart <+: tail }

def renderRow (r : CpuRow) : List Char := row r.val.lead r.val.name r.val.columns

def render (rows : List CpuRow) (tail : Tail) : String :=
  String.ofList (unlines (rows.map renderRow) ++ tail.val)

def statsOf (name : List Char) (counter : Nat → UInt64) : CpuStats where
  cpu := String.ofList name
  user := counter 0
  nice := counter 1
  system := counter 2
  idle := counter 3
  iowait := counter 4
  irq := counter 5
  softirq := counter 6
  steal := counter 7
  guest := counter 8
  guestNice := counter 9

/-- The first seven counters are there, and the next three as far as they are. -/
def Complete (tokens : List (List Char)) : Prop :=
  Counters 7 tokens ∧ ∀ token ∈ (tokens.drop 7).take 3, (parseU64 token).isSome = true

theorem optionalFields_ok {names : List String} {tokens : List (List Char)}
    (parses : ∀ token ∈ tokens.take names.length, (parseU64 token).isSome = true) :
    ∃ slots, optionalFields names tokens = .ok slots ∧
      ∀ i, i < names.length → slots.getD i 0 = counter tokens i := by
  induction names generalizing tokens with
  | nil => exact ⟨[], rfl, nofun⟩
  | cons what names ih =>
      cases tokens with
      | nil =>
          refine ⟨_, rfl, fun i lt => ?_⟩
          rw [List.map_const', List.getD_eq_getElem?_getD, List.getElem?_replicate_of_lt lt]
          rfl
      | cons token tokens =>
          rw [List.length_cons, List.take_succ_cons, List.forall_mem_cons] at parses
          obtain ⟨slots, read, later⟩ := ih parses.2
          refine ⟨(parseU64 token).getD 0 :: slots, ?_, fun i lt => ?_⟩
          · simp only [optionalFields, parseAs_getD parses.1 0, read, ok_bind]
            rfl
          · cases i with
            | zero => rfl
            | succ i => exact later i (Nat.lt_of_succ_lt_succ lt)

theorem optionalFields_error {names : List String} {tokens : List (List Char)}
    (fails : ∃ token ∈ tokens.take names.length, ¬ (parseU64 token).isSome = true) :
    ∃ e, optionalFields names tokens = .error e := by
  induction names generalizing tokens with
  | nil => simp at fails
  | cons what names ih =>
      cases tokens with
      | nil => simp at fails
      | cons token tokens =>
          rw [optionalFields]
          by_cases here : (parseU64 token).isSome = true
          · rw [List.length_cons, List.take_succ_cons, List.exists_mem_cons_iff] at fails
            obtain ⟨e, failed⟩ := ih (fails.resolve_left (not_not_intro here))
            exact ⟨e, by simp only [parseAs_getD here 0, failed, ok_bind, error_bind]⟩
          · have unread := Option.not_isSome_iff_eq_none.mp here
            obtain ⟨e, failed⟩ := @parseAs_error path _ _ _ unread what
            exact ⟨e, by simp only [failed, error_bind]⟩

variable {r : CpuRow}

theorem renderRow_clean (r : CpuRow) : '\n' ∉ renderRow r ∧ '\r' ∉ renderRow r :=
  row_clean r.val.is_name.isField r.val.fields

theorem cpuStart_isPrefixOf_renderRow (r : CpuRow) : cpuStart.isPrefixOf (renderRow r) = true := by
  obtain ⟨lead, starts⟩ := r.property
  rw [List.isPrefixOf_iff_prefix, renderRow, row, lead, List.append_assoc]
  exact starts.trans (List.prefix_append _ _)

theorem fields_renderRow (r : CpuRow) : fields (renderRow r) = r.val.name :: r.val.tokens :=
  splitAsciiWhitespace_row r.val.is_name.isField r.val.fields

theorem parseLine_ok (complete : Complete r.val.tokens) :
    parseLine (renderRow r) = .ok (statsOf r.val.name (counter r.val.tokens)) := by
  have required : nextFields path (names.take 7) r.val.tokens =
      .ok (counters 7 r.val.tokens, r.val.tokens.drop 7) := nextFields_ok complete.1
  obtain ⟨slots, optional, each⟩ := @optionalFields_ok (names.drop 7) _ complete.2
  have steal := each 0 (by decide)
  have guest := each 1 (by decide)
  have guestNice := each 2 (by decide)
  simp only [parseLine, fields_renderRow, List.headD_cons, List.tail_cons, required, optional,
    ok_bind, getD_counters, counter_drop, steal, guest, guestNice, Nat.reduceLT, Nat.reduceAdd]
  rfl

theorem parseLine_error (incomplete : ¬ Complete r.val.tokens) :
    ∃ e, parseLine (renderRow r) = .error e := by
  simp only [parseLine, fields_renderRow, List.headD_cons, List.tail_cons]
  by_cases enough : Counters 7 r.val.tokens
  · have required : nextFields path (names.take 7) r.val.tokens =
        .ok (counters 7 r.val.tokens, r.val.tokens.drop 7) := nextFields_ok enough
    have fails : ∃ token ∈ (r.val.tokens.drop 7).take 3, ¬ (parseU64 token).isSome = true := by
      by_contra parses
      push Not at parses
      exact incomplete ⟨enough, parses⟩
    obtain ⟨e, failed⟩ := @optionalFields_error (names.drop 7) _ fails
    exact ⟨e, by simp only [required, failed, ok_bind, error_bind]⟩
  · obtain ⟨e, failed⟩ : ∃ e, nextFields path (names.take 7) r.val.tokens = .error e :=
      nextFields_error enough
    exact ⟨e, by simp only [failed, error_bind]⟩

theorem parseLines_row (r : CpuRow) (stats : List CpuStats) (rest : List (List Char)) :
    parseLines stats (renderRow r :: rest) = (do
      let row ← parseLine (renderRow r)
      parseLines (stats ++ [row]) rest) := by
  rw [parseLines, cpuStart_isPrefixOf_renderRow r]
  rfl

theorem parseLines_rows {rows : List CpuRow} (complete : ∀ r ∈ rows, Complete r.val.tokens)
    (stats : List CpuStats) (rest : List (List Char)) :
    parseLines stats (rows.map renderRow ++ rest) =
      parseLines (stats ++ rows.map fun r => statsOf r.val.name (counter r.val.tokens)) rest := by
  induction rows generalizing stats with
  | nil => rw [List.map_nil, List.map_nil, List.nil_append, List.append_nil]
  | cons r rows ih =>
      obtain ⟨here, later⟩ := List.forall_mem_cons.mp complete
      rw [List.map_cons, List.cons_append, parseLines_row, parseLine_ok here, ok_bind, ih later,
        List.append_assoc, List.map_cons, List.singleton_append]

theorem parseLines_error {rows : List CpuRow} (mem : r ∈ rows)
    (incomplete : ¬ Complete r.val.tokens) (stats : List CpuStats) (rest : List (List Char)) :
    ∃ e, parseLines stats (rows.map renderRow ++ rest) = .error e := by
  induction rows generalizing stats with
  | nil => cases mem
  | cons first rows ih =>
      rw [List.map_cons, List.cons_append, parseLines_row]
      by_cases here : Complete first.val.tokens
      · rcases List.mem_cons.mp mem with rfl | mem
        · exact absurd here incomplete
        · rw [parseLine_ok here, ok_bind]
          exact ih mem _
      · obtain ⟨e, failed⟩ := parseLine_error here
        exact ⟨e, by rw [failed, error_bind]⟩

/-- Behind a row, what does not begin with `cpu` is passed over as a whole. -/
theorem parseLines_tail {stats : List CpuStats} (some_row : stats ≠ []) (tail : Tail) :
    parseLines stats (Text.lines tail.val) = .ok stats := by
  cases found : Text.lines tail.val with
  | nil => rfl
  | cons line rest =>
      have first : line <+: tail.val := Text.prefix_of_head?_lines (by rw [found]; rfl)
      have other : cpuStart.isPrefixOf line = false := by
        rw [Bool.eq_false_iff, ne_eq, List.isPrefixOf_iff_prefix]
        exact fun starts => tail.property (starts.trans first)
      have nonempty : stats.isEmpty = false := List.isEmpty_eq_false_iff.mpr some_row
      rw [parseLines, other, nonempty]
      rfl

theorem lines_render (rows : List CpuRow) (tail : Tail) :
    Text.lines (render rows tail).toList = rows.map renderRow ++ Text.lines tail.val := by
  have clean : ∀ line ∈ rows.map renderRow, '\n' ∉ line ∧ '\r' ∉ line :=
    List.forall_mem_map.mpr fun r _ => renderRow_clean r
  rw [render, String.toList_ofList, lines_unlines_clean clean]

theorem parse_ok {first : CpuRow} {rows : List CpuRow}
    (complete : ∀ r ∈ first :: rows, Complete r.val.tokens) (tail : Tail) :
    parse (render (first :: rows) tail) =
      .ok ((first :: rows).map fun r => statsOf r.val.name (counter r.val.tokens)) := by
  have read := parseLines_rows complete [] (Text.lines tail.val)
  rw [List.nil_append, parseLines_tail (by simp)] at read
  rw [parse, lines_render, read]
  rfl

theorem parse_error {rows : List CpuRow} (mem : r ∈ rows) (incomplete : ¬ Complete r.val.tokens)
    (tail : Tail) : ∃ e, parse (render rows tail) = .error e := by
  obtain ⟨e, failed⟩ := parseLines_error mem incomplete [] (Text.lines tail.val)
  exact ⟨e, by rw [parse, lines_render, failed, error_bind]⟩

theorem complete_counters (r : CounterRow 7) : Complete r.toRow.tokens :=
  ⟨r.holds, fun token mem => r.parses token (List.mem_of_mem_drop (List.mem_of_mem_take mem))⟩

theorem parse_counters (first : CpuCounters) (rows : List CpuCounters) (tail : Tail) :
    parse (render ((first :: rows).map CpuCounters.toRow) tail) =
      .ok ((first :: rows).map fun r => statsOf r.val.name r.val.counter) := by
  have all : ∀ r ∈ (first :: rows).map CpuCounters.toRow, Complete r.val.tokens :=
    List.forall_mem_map.mpr fun r _ => complete_counters r.val
  rw [List.map_cons] at all
  rw [List.map_cons, parse_ok all, ← List.map_cons (f := CpuCounters.toRow), List.map_map]
  exact congrArg _ (List.map_congr_left fun r _ =>
    congrArg (statsOf r.val.name) r.val.counter_tokens)

theorem parse_error_iff (first : CpuRow) (rows : List CpuRow) (tail : Tail) :
    (∃ e, parse (render (first :: rows) tail) = .error e) ↔
      ∃ r ∈ first :: rows, ¬ Complete r.val.tokens :=
  error_iff (fun all => ⟨_, parse_ok all tail⟩)
    fun _ mem incomplete => parse_error mem incomplete tail

end Cpu

/-- Each table of counters is read back, row by row and column by column; and the parser
fails, without a partial table, exactly when a row lacks a counter that it is asked for.

A processor's row is asked for seven counters, and may have three more. -/
theorem parse_tables :
    (∀ (head₁ head₂ : Headline) (rows : List (CounterRow 12)),
        Network.parse (Network.render head₁ head₂ (rows.map CounterRow.toRow)) =
          .ok (rows.map fun r => Network.statsOf r.name r.counter)) ∧
      (∀ (head₁ head₂ : Headline) (rows : List Row),
        (∃ e, Network.parse (Network.render head₁ head₂ rows) = .error e) ↔
          ∃ r ∈ rows, ¬ Counters 12 r.tokens) ∧
      (∀ rows : List (Disk.Numbered × CounterRow 11),
        Disk.parse (Disk.render (rows.map fun (numbers, r) => (numbers, r.toRow))) =
          .ok (rows.map fun (_, r) => Disk.statsOf r.name r.counter)) ∧
      (∀ rows : List (Disk.Numbered × Row),
        (∃ e, Disk.parse (Disk.render rows) = .error e) ↔
          ∃ r ∈ rows, ¬ Counters 11 r.2.tokens) ∧
      (∀ (first : Cpu.CpuCounters) (rows : List Cpu.CpuCounters) (tail : Cpu.Tail),
        Cpu.parse (Cpu.render ((first :: rows).map Cpu.CpuCounters.toRow) tail) =
          .ok ((first :: rows).map fun r => Cpu.statsOf r.val.name r.val.counter)) ∧
      ∀ (first : Cpu.CpuRow) (rows : List Cpu.CpuRow) (tail : Cpu.Tail),
        (∃ e, Cpu.parse (Cpu.render (first :: rows) tail) = .error e) ↔
          ∃ r ∈ first :: rows, ¬ Cpu.Complete r.val.tokens :=
  ⟨Network.parse_counters, Network.parse_error_iff, Disk.parse_counters, Disk.parse_error_iff,
    Cpu.parse_counters, Cpu.parse_error_iff⟩

end BlazeBee.Collectors
