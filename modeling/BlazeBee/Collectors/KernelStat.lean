import BlazeBee.Collectors.Fields
import BlazeBee.Lib.Keyed

/-!
The counters that two collectors take from `/proc/stat`, a key in the first field of a line
and its counter in the second.

Both parsers count the lines that they have read, and take the file for complete when they
have read enough of them.

* `StatFile.parse_ok_iff`: when a file is read.
* `StatFile.reported_iff`: a key may then still have no line, and only then is a counter
  reported that is not in the file.
-/

namespace BlazeBee.Collectors

open BlazeBee.Lib BlazeBee.Lib.Decimal
open BlazeBee.Agent (CollectorError)

variable {σ ω : Type}

/-- A parser of such a file: the arms of the match on the first field of a line, where they
store a counter, and how many lines make the file complete. -/
structure StatFile (σ ω : Type) where
  path : String
  arms : List (Arm String (List Char) ω)
  store : σ → ω → σ
  initial : σ
  needed : Nat
  missing : String
  distinct : (arms.map fun arm => arm.key.toList).Nodup

namespace StatFile

/-- The match on the first field of a line. -/
def readLine (file : StatFile σ ω) (line : List Char) : Except CollectorError (Option ω) :=
  match fields line with
  | [] => .ok none
  | first :: f =>
      match file.arms.find? fun arm => arm.key.toList == first with
      | none => .ok none
      | some arm => do
          let (n, _) ← nextAs arm.counter file.path arm.key f
          return some n

/-- The loop over the lines, and the check behind it. -/
def parse (file : StatFile σ ω) (content : String) : Except CollectorError σ := do
  let (stats, found) ←
    writeEach file.readLine file.store file.initial 0 (Text.lines content.toList)
  if found < file.needed then .error (.missing file.path file.missing) else .ok stats

end StatFile

namespace Processes

/-- The process and scheduling counters of the whole system. -/
structure ProcessStats where
  totalProcesses : UInt64
  runningProcesses : UInt64
  blockedProcesses : UInt64
  contextSwitches : UInt64
deriving DecidableEq

/-- A slot, with what is stored into it. -/
inductive Counter where
  | processes (n : UInt64)
  | procsRunning (n : UInt64)
  | procsBlocked (n : UInt64)
  | ctxt (n : UInt64)

/-- `*slot = next_field(..)?`, for the slot of the line's key. -/
def ProcessStats.store (stats : ProcessStats) : Counter → ProcessStats
  | .processes n => { stats with totalProcesses := n }
  | .procsRunning n => { stats with runningProcesses := n }
  | .procsBlocked n => { stats with blockedProcesses := n }
  | .ctxt n => { stats with contextSwitches := n }

/-- The four keys of the match, each with the type of its counter. -/
def arms : List (Arm String (List Char) Counter) :=
  [⟨"processes", fun token => (parseU64 token).map .processes⟩,
    ⟨"procs_running", fun token => (parseU64 token).map .procsRunning⟩,
    ⟨"procs_blocked", fun token => (parseU64 token).map .procsBlocked⟩,
    ⟨"ctxt", fun token => (parseU64 token).map .ctxt⟩]

/-- No two arms of the match have one key. -/
theorem arms_distinct : (arms.map fun arm => arm.key.toList).Nodup := by simp [arms]

/-- The parser of the process counters: four lines are enough for it. -/
def file : StatFile ProcessStats Counter where
  path := "/proc/stat"
  arms := arms
  store := ProcessStats.store
  initial := ⟨0, 0, 0, 0⟩
  needed := 4
  missing := "processes/procs_running/procs_blocked/ctxt"
  distinct := arms_distinct

/-- `processes::parse`. -/
def parse (content : String) : Except CollectorError ProcessStats := file.parse content

end Processes

namespace Stat

/-- The counters that are global to the system, with the time of its boot. -/
structure StatGlobalStats where
  bootTime : Int64
  totalForks : UInt64
  totalInterrupts : UInt64
deriving DecidableEq

/-- A slot, with what is stored into it. -/
inductive Counter where
  | btime (n : Int64)
  | processes (n : UInt64)
  | intr (n : UInt64)

/-- `*slot = next_field(..)?`, for the slot of the line's key. -/
def StatGlobalStats.store (stats : StatGlobalStats) : Counter → StatGlobalStats
  | .btime n => { stats with bootTime := n }
  | .processes n => { stats with totalForks := n }
  | .intr n => { stats with totalInterrupts := n }

/-- The three keys of the match. The time of the boot is signed. -/
def arms : List (Arm String (List Char) Counter) :=
  [⟨"btime", fun token => (parseI64 token).map .btime⟩,
    ⟨"processes", fun token => (parseU64 token).map .processes⟩,
    ⟨"intr", fun token => (parseU64 token).map .intr⟩]

/-- No two arms of the match have one key. -/
theorem arms_distinct : (arms.map fun arm => arm.key.toList).Nodup := by simp [arms]

/-- The parser of the global counters: three lines are enough for it. -/
def file : StatFile StatGlobalStats Counter where
  path := "/proc/stat"
  arms := arms
  store := StatGlobalStats.store
  initial := ⟨0, 0, 0⟩
  needed := 3
  missing := "btime/processes/intr"
  distinct := arms_distinct

/-- `stat::parse`. -/
def parse (content : String) : Except CollectorError StatGlobalStats := file.parse content

end Stat

/-! ### What a line has -/

/-- The first field of the line is the key. -/
def Starts (key : String) (line : List Char) : Prop := (fields line).head? = some key.toList

instance (key : String) : DecidablePred (Starts key) := fun line =>
  inferInstanceAs (Decidable ((fields line).head? = some key.toList))

/-- A line begins with one key at most. -/
theorem starts_unique {key key' : String} {line : List Char} (starts : Starts key line)
    (starts' : Starts key' line) : key = key' :=
  String.toList_injective (Option.some.inj (starts.symm.trans starts'))

namespace StatFile

variable {file : StatFile σ ω} {line : List Char} {content : String}

/-- A line that begins with no key of an arm is passed over, and it is not counted as
found. -/
theorem readLine_other (other : ∀ arm ∈ file.arms, ¬ Starts arm.key line) :
    file.readLine line = .ok none := by
  rw [readLine]
  cases split : fields line with
  | nil => rfl
  | cons first f =>
      have unknown : (file.arms.find? fun arm => arm.key.toList == first) = none := by
        refine List.find?_eq_none.mpr fun arm mem same => other arm mem ?_
        rw [Starts, split, List.head?_cons, eq_of_beq same]
      simp only [unknown]

/-- On a line that begins with a key, reading it is reading its second field at the type of
that key. -/
theorem readLine_eq {arm : Arm String (List Char) ω} (mem : arm ∈ file.arms)
    (starts : Starts arm.key line) :
    file.readLine line = (do
      let (n, _) ← nextAs arm.counter file.path arm.key (fields line).tail
      return some n) := by
  rw [Starts] at starts
  rw [readLine]
  cases split : fields line with
  | nil => simp [split] at starts
  | cons first f =>
      obtain rfl : first = arm.key.toList := by simpa [split] using starts
      simp only [find?_of_nodup file.distinct mem, List.tail_cons]

/-- If the second field is such a counter, it is stored, and whatever stands behind it is not
looked at. -/
theorem readLine_counter {arm : Arm String (List Char) ω} (mem : arm ∈ file.arms)
    (starts : Starts arm.key line) {w : ω} (value : (fields line)[1]?.bind arm.counter = some w) :
    file.readLine line = .ok (some w) := by
  rw [← List.head?_tail] at value
  rw [readLine_eq mem starts, nextAs_ok value]
  rfl

/-- If it is absent or no such counter, the line fails, and with it the file. -/
theorem readLine_error {arm : Arm String (List Char) ω} (mem : arm ∈ file.arms)
    (starts : Starts arm.key line) (unread : (fields line)[1]?.bind arm.counter = none) :
    ∃ e, file.readLine line = .error e := by
  rw [← List.head?_tail] at unread
  obtain ⟨e, failed⟩ := nextAs_error unread arm.key
  exact ⟨e, by rw [readLine_eq mem starts, failed, error_bind]⟩

/-- Lines with a key in the first field and a counter in the second. -/
def keyed (file : StatFile σ ω) : Keyed (List Char) String (List Char) CollectorError ω where
  Has := Starts
  unique := starts_unique
  argument line := (fields line)[1]?
  arms := file.arms
  read := file.readLine
  read_other _ := readLine_other
  read_counter _ _ mem starts _ := readLine_counter mem starts
  read_error _ _ := readLine_error

instance (file : StatFile σ ω) : DecidablePred file.keyed.IsCounter := fun line =>
  inferInstanceAs (Decidable (∃ arm ∈ file.arms, Starts arm.key line))

/-- The lines that the parser counts. -/
def counterLines (file : StatFile σ ω) (content : String) : List (List Char) :=
  (Text.lines content.toList).filter fun line => file.keyed.IsCounter line

/-- When a file is read, and what is then in the record. -/
theorem parse_ok_iff {stats : σ} :
    file.parse content = .ok stats ↔
      (∀ line ∈ Text.lines content.toList, file.keyed.Readable line) ∧
        file.needed ≤ (file.counterLines content).length ∧
        file.keyed.stored file.store file.initial (Text.lines content.toList) = stats := by
  by_cases readable : ∀ line ∈ Text.lines content.toList, file.keyed.Readable line
  · have run : writeEach file.readLine file.store file.initial 0 (Text.lines content.toList) = _ :=
      Keyed.run_ok readable file.initial 0
    rw [List.countP_eq_length_filter, Nat.zero_add] at run
    rw [parse, run, ok_bind, and_iff_right readable]
    by_cases few : (file.counterLines content).length < file.needed
    · rw [counterLines] at few ⊢
      simp [few]
    · have enough := Nat.le_of_not_lt few
      rw [counterLines] at few enough ⊢
      simp [few, enough]
  · refine iff_of_false (fun parsed => ?_) fun whole => readable whole.1
    push Not at readable
    obtain ⟨line, mem, unreadable⟩ := readable
    obtain ⟨e, failed⟩ : ∃ e, writeEach file.readLine file.store file.initial 0
        (Text.lines content.toList) = .error e :=
      Keyed.run_error mem unreadable file.initial 0
    rw [parse, failed, error_bind] at parsed
    cases parsed

/-- Counters that a parser accepts are those in the file, unless it read enough lines without
one for each key. -/
theorem reported_iff {Reported : σ → Prop}
    (complete : ∀ stats, Reported stats → file.keyed.Complete (Text.lines content.toList))
    (reported : (∀ line ∈ Text.lines content.toList, file.keyed.Readable line) →
      file.keyed.Complete (Text.lines content.toList) →
      Reported (file.keyed.stored file.store file.initial (Text.lines content.toList))) :
    (∀ stats, file.parse content = .ok stats → Reported stats) ↔
      file.keyed.Complete (Text.lines content.toList) ∨
        (file.counterLines content).length < file.needed ∨
        ∃ line ∈ Text.lines content.toList, ¬ file.keyed.Readable line := by
  constructor
  · intro right
    by_contra neither
    push Not at neither
    obtain ⟨incomplete, enough, readable⟩ := neither
    have parsed := parse_ok_iff.mpr ⟨readable, enough, rfl⟩
    exact incomplete (complete _ (right _ parsed))
  · intro fine stats parsed
    obtain ⟨readable, enough, rfl⟩ := parse_ok_iff.mp parsed
    rcases fine with whole | few | ⟨line, mem, unreadable⟩
    · exact reported readable whole
    · omega
    · exact absurd (readable line mem) unreadable

end StatFile

/-- The last line that begins with the key has the counter. -/
def ReportedFrom (key : String) {β : Type} (read : List Char → Option β) (content : String)
    (n : β) : Prop :=
  ∃ line, IsLast (Starts key) (Text.lines content.toList) line ∧
    (fields line)[1]?.bind read = some n

/-- Some line begins with the key. -/
def Present (key : String) (content : String) : Prop :=
  ∃ line ∈ Text.lines content.toList, Starts key line

/-- A counter that is reported from a key has a line with the key. -/
theorem ReportedFrom.present {key : String} {β : Type} {read : List Char → Option β}
    {content : String} {n : β} (reported : ReportedFrom key read content n) :
    Present key content := by
  obtain ⟨line, ⟨before, after, split, starts, -⟩, -⟩ := reported
  exact ⟨line, by simp [split], starts⟩

namespace Processes

/-- The forks since boot, as the one slot that their line stores into. -/
def processes : Part file.keyed file.store UInt64 where
  key := "processes"
  read := parseU64
  entry := .processes
  slot.get := ProcessStats.totalProcesses
  slot.value
    | .processes n => some n
    | _ => none
  slot.get_write := by rintro s (n | n | n | n) <;> rfl
  own := by simp [StatFile.keyed, file, arms]
  value_entry _ := rfl
  others := by simp [StatFile.keyed, file, arms]

/-- The runnable processes, likewise. -/
def procsRunning : Part file.keyed file.store UInt64 where
  key := "procs_running"
  read := parseU64
  entry := .procsRunning
  slot.get := ProcessStats.runningProcesses
  slot.value
    | .procsRunning n => some n
    | _ => none
  slot.get_write := by rintro s (n | n | n | n) <;> rfl
  own := by simp [StatFile.keyed, file, arms]
  value_entry _ := rfl
  others := by simp [StatFile.keyed, file, arms]

/-- The processes that wait for I/O, likewise. -/
def procsBlocked : Part file.keyed file.store UInt64 where
  key := "procs_blocked"
  read := parseU64
  entry := .procsBlocked
  slot.get := ProcessStats.blockedProcesses
  slot.value
    | .procsBlocked n => some n
    | _ => none
  slot.get_write := by rintro s (n | n | n | n) <;> rfl
  own := by simp [StatFile.keyed, file, arms]
  value_entry _ := rfl
  others := by simp [StatFile.keyed, file, arms]

/-- The context switches since boot, likewise. -/
def ctxt : Part file.keyed file.store UInt64 where
  key := "ctxt"
  read := parseU64
  entry := .ctxt
  slot.get := ProcessStats.contextSwitches
  slot.value
    | .ctxt n => some n
    | _ => none
  slot.get_write := by rintro s (n | n | n | n) <;> rfl
  own := by simp [StatFile.keyed, file, arms]
  value_entry _ := rfl
  others := by simp [StatFile.keyed, file, arms]

/-- Every counter is the one on the last line with its key. -/
def Reported (content : String) (stats : ProcessStats) : Prop :=
  ReportedFrom "processes" parseU64 content stats.totalProcesses ∧
    ReportedFrom "procs_running" parseU64 content stats.runningProcesses ∧
    ReportedFrom "procs_blocked" parseU64 content stats.blockedProcesses ∧
    ReportedFrom "ctxt" parseU64 content stats.contextSwitches

/-- Four counters that are reported from their keys need a line for each of the keys. -/
theorem complete_of_reported {content : String} {stats : ProcessStats}
    (reported : Reported content stats) :
    file.keyed.Complete (Text.lines content.toList) := by
  obtain ⟨total, running, blocked, switches⟩ := reported
  simpa [Keyed.Complete, StatFile.keyed, file, arms] using
    ⟨total.present, running.present, blocked.present, switches.present⟩

/-- With a line for each key, every counter is reported from the last line with its key. -/
theorem reported_of_complete {content : String}
    (readable : ∀ line ∈ Text.lines content.toList, file.keyed.Readable line)
    (complete : file.keyed.Complete (Text.lines content.toList)) :
    Reported content (file.keyed.stored file.store file.initial (Text.lines content.toList)) :=
  ⟨processes.reported readable (complete _ processes.own) _,
    procsRunning.reported readable (complete _ procsRunning.own) _,
    procsBlocked.reported readable (complete _ procsBlocked.own) _,
    ctxt.reported readable (complete _ ctxt.own) _⟩

end Processes

namespace Stat

/-- The time of the boot, as the one slot that its line stores into. -/
def btime : Part file.keyed file.store Int64 where
  key := "btime"
  read := parseI64
  entry := .btime
  slot.get := StatGlobalStats.bootTime
  slot.value
    | .btime n => some n
    | _ => none
  slot.get_write := by rintro s (n | n | n) <;> rfl
  own := by simp [StatFile.keyed, file, arms]
  value_entry _ := rfl
  others := by simp [StatFile.keyed, file, arms]

/-- The forks since boot, likewise. -/
def processes : Part file.keyed file.store UInt64 where
  key := "processes"
  read := parseU64
  entry := .processes
  slot.get := StatGlobalStats.totalForks
  slot.value
    | .processes n => some n
    | _ => none
  slot.get_write := by rintro s (n | n | n) <;> rfl
  own := by simp [StatFile.keyed, file, arms]
  value_entry _ := rfl
  others := by simp [StatFile.keyed, file, arms]

/-- The interrupts since boot, likewise. Their line goes on with a count for each source,
which is not read. -/
def intr : Part file.keyed file.store UInt64 where
  key := "intr"
  read := parseU64
  entry := .intr
  slot.get := StatGlobalStats.totalInterrupts
  slot.value
    | .intr n => some n
    | _ => none
  slot.get_write := by rintro s (n | n | n) <;> rfl
  own := by simp [StatFile.keyed, file, arms]
  value_entry _ := rfl
  others := by simp [StatFile.keyed, file, arms]

/-- Every counter is the one on the last line with its key. -/
def Reported (content : String) (stats : StatGlobalStats) : Prop :=
  ReportedFrom "btime" parseI64 content stats.bootTime ∧
    ReportedFrom "processes" parseU64 content stats.totalForks ∧
    ReportedFrom "intr" parseU64 content stats.totalInterrupts

/-- Three counters that are reported from their keys need a line for each of the keys. -/
theorem complete_of_reported {content : String} {stats : StatGlobalStats}
    (reported : Reported content stats) :
    file.keyed.Complete (Text.lines content.toList) := by
  obtain ⟨boot, forks, interrupts⟩ := reported
  simpa [Keyed.Complete, StatFile.keyed, file, arms] using
    ⟨boot.present, forks.present, interrupts.present⟩

/-- With a line for each key, every counter is reported from the last line with its key. -/
theorem reported_of_complete {content : String}
    (readable : ∀ line ∈ Text.lines content.toList, file.keyed.Readable line)
    (complete : file.keyed.Complete (Text.lines content.toList)) :
    Reported content (file.keyed.stored file.store file.initial (Text.lines content.toList)) :=
  ⟨btime.reported readable (complete _ btime.own) _,
    processes.reported readable (complete _ processes.own) _,
    intr.reported readable (complete _ intr.own) _⟩

end Stat

/-- What the two parsers accept is in the file, unless some key has no line and others have
enough of them. -/
theorem counters_reported_iff (content : String) :
    ((∀ stats, Processes.parse content = .ok stats → Processes.Reported content stats) ↔
      Processes.file.keyed.Complete (Text.lines content.toList) ∨
        (Processes.file.counterLines content).length < 4 ∨
        ∃ line ∈ Text.lines content.toList, ¬ Processes.file.keyed.Readable line) ∧
    ((∀ stats, Stat.parse content = .ok stats → Stat.Reported content stats) ↔
      Stat.file.keyed.Complete (Text.lines content.toList) ∨
        (Stat.file.counterLines content).length < 3 ∨
        ∃ line ∈ Text.lines content.toList, ¬ Stat.file.keyed.Readable line) := by
  constructor
  · apply StatFile.reported_iff
    · intro stats reported
      exact Processes.complete_of_reported reported
    · exact Processes.reported_of_complete
  · apply StatFile.reported_iff
    · intro stats reported
      exact Stat.complete_of_reported reported
    · exact Stat.reported_of_complete

/-- Four lines are enough, whatever keys they are for. -/
theorem not_counters_reported :
    ¬ ∀ content,
      (∀ stats, Processes.parse content = .ok stats → Processes.Reported content stats) ∧
      (∀ stats, Stat.parse content = .ok stats → Stat.Reported content stats) := by
  intro claim
  have parsed : Processes.parse "processes 1\nprocesses 1\nctxt 2\nprocs_running 1\n" =
      .ok ⟨1, 1, 0, 2⟩ := rfl
  obtain ⟨-, -, blocked, -⟩ := (claim _).1 _ parsed
  have absent : ¬ Present "procs_blocked"
      "processes 1\nprocesses 1\nctxt 2\nprocs_running 1\n" := by
    unfold Present
    decide
  exact absent blocked.present

end BlazeBee.Collectors
