import BlazeBee.Collectors.Fields
import BlazeBee.Collectors.ReadInto

/-!
Files under `/proc` and `/sys`, read whole: a `ProcFile` into a buffer that it keeps, and the
small ones into a fresh one.

* `FileReads.run_eq`: what `read_into` makes of an empty buffer is up to the file alone.
* `ProcFile.collect_run`: in a run of calls each sample is parsed from the bytes of its own
  call, whatever the calls before it have left in the buffer.
* `readNumber_ok`: a number is read back, whatever whitespace is behind it.
-/

namespace BlazeBee.Collectors

open BlazeBee.Lib BlazeBee.Lib.Decimal BlazeBee.Rumqttc
open BlazeBee.Agent (CollectorError)

/-- What the system calls on one file give to a `read_into` of an empty buffer with so much
memory to spare: results that the calls can have, up to the last one made. -/
structure FileReads (spare : Nat) where
  opened : Except IoError Unit
  reads : List (Except IoError (List UInt8))
  reserve : Nat → Nat → Nat
  runs : (readInto reserve opened reads "" spare).isSome = true

namespace FileReads

variable {spare : Nat} (calls : FileReads spare)

/-- The buffer, and the result of `read_into`. -/
def run : String × Except IoError Unit :=
  (readInto calls.reserve calls.opened calls.reads "" spare).get calls.runs

/-- The text of the file, or why there is none. -/
def text : Except IoError String :=
  match calls.opened with
  | .error e => .error e
  | .ok () =>
      match Utf8.decode (received calls.reads), failure calls.reads with
      | none, _ => .error ⟨.invalidData, "file is not valid UTF-8"⟩
      | some _, some e => .error e
      | some s, none => .ok (String.ofList s)

/-- The results are those of a call that returns. -/
theorem ran : readInto calls.reserve calls.opened calls.reads "" spare = some calls.run :=
  (Option.some_get calls.runs).symm

/-- A call on an empty buffer comes to one of the cases of `read_into`. -/
theorem cases_of_run : ReadInto calls.opened calls.reads "" calls.run :=
  cases_of_readInto calls.ran

/-- Where the file cannot be opened, the buffer stays empty. -/
theorem run_of_unopened {e : IoError} (closed : calls.opened = .error e) :
    calls.run = ("", .error e) := by
  have ran := calls.ran
  rw [closed] at ran
  exact (Option.some.inj ran).symm

/-- The result is up to the file alone, and on success the buffer has its text. -/
theorem run_eq : (calls.run.2.map fun _ => calls.run.1) = calls.text := by
  rw [text]
  cases opens : calls.opened with
  | error e =>
      rw [calls.run_of_unopened opens]
      rfl
  | ok u =>
      have outcome := calls.cases_of_run
      generalize calls.run = result at outcome
      cases outcome with
      | unopened e closed => cases closed.symm.trans opens
      | whole text fine same =>
          have encoded : Utf8.utf8 text.toList = received calls.reads := same
          simp only [Utf8.decode_eq_some_iff.mpr encoded, fine, String.ofList_toList]
          rfl
      | padded text e want _ fails wide same =>
          obtain ⟨s, encoded⟩ : Utf8.Valid (received calls.reads) :=
            valid_extended_iff.mp ⟨_, same⟩
          simp only [Utf8.decode_eq_some_iff.mpr encoded, fails]
          rfl
      | invalid invalid =>
          simp only [Utf8.decode_eq_none_iff.mpr invalid]
          rfl

end FileReads

/-! ### `ProcFile` -/

/-- A file under its path, and the buffer that is kept from one read to the next. -/
structure ProcFile where
  path : String
  buf : String

/-- One read: the memory that the cleared buffer has to spare, and what the calls give. -/
abbrev Reading : Type := (spare : Nat) × FileReads spare

/-- `ProcFile::new`, with an empty buffer. -/
def ProcFile.new (path : String) : ProcFile := ⟨path, ""⟩

/-- `ProcFile::read`: the buffer is cleared, and read into. -/
def ProcFile.read (file : ProcFile) (reading : Reading) :
    ProcFile × Except CollectorError String :=
  let (buf, result) := reading.2.run
  ({ file with buf := buf },
    match result with
    | .error e => .error (.read file.path e)
    | .ok () => .ok buf)

section Collect

variable {σ : Type} (parse : String → Except CollectorError σ)

/-- `collect` of a collector with one file: `sample(parse(self.file.read()?)?)`. -/
def ProcFile.collect (file : ProcFile) (reading : Reading) :
    ProcFile × Except CollectorError σ :=
  let (file, content) := file.read reading
  (file, do
    let content ← content
    parse content)

/-- A run of calls. -/
def ProcFile.collectEach : ProcFile → List Reading → List (Except CollectorError σ)
  | _, [] => []
  | file, reading :: readings =>
      let (file, sample) := file.collect parse reading
      sample :: file.collectEach readings

/-- The sample of a file with this text. -/
def sampleOf (path : String) (text : Except IoError String) : Except CollectorError σ :=
  match text with
  | .error e => .error (.read path e)
  | .ok content => parse content

/-- A call does not change which file it reads. -/
theorem ProcFile.path_collect (file : ProcFile) (reading : Reading) :
    (file.collect parse reading).1.path = file.path := rfl

/-- A sample depends on the text of the file at that call, and not on what an earlier call
has left in the buffer. -/
theorem ProcFile.collect_eq (file : ProcFile) (reading : Reading) :
    (file.collect parse reading).2 = sampleOf parse file.path reading.2.text := by
  rw [← reading.2.run_eq, ProcFile.collect, ProcFile.read]
  generalize reading.2.run = outcome
  obtain ⟨buf, (e | u)⟩ := outcome
  · rfl
  · rfl

/-- In a run of calls each sample is parsed from the text that its own call reads, and a call
that cannot read one fails alone. -/
theorem ProcFile.collect_run (file : ProcFile) (readings : List Reading) :
    file.collectEach parse readings =
      readings.map fun reading => sampleOf parse file.path reading.2.text := by
  induction readings generalizing file with
  | nil => rfl
  | cons reading readings ih =>
      have later := ih (file.collect parse reading).1
      rw [ProcFile.path_collect] at later
      rw [List.map_cons, ← ProcFile.collect_eq, ← later]
      rfl

end Collect

/-! ### Numbers -/

/-- `read_trimmed`. -/
def readTrimmed (calls : FileReads 64) : Except IoError String :=
  let (s, result) := calls.run
  match result with
  | .error e => .error e
  | .ok () => .ok (Text.trimEnd s)

/-- What is trimmed is the text of the file. -/
theorem readTrimmed_eq (calls : FileReads 64) :
    readTrimmed calls = calls.text.map Text.trimEnd := by
  rw [← calls.run_eq, readTrimmed]
  generalize calls.run = outcome
  obtain ⟨s, (e | u)⟩ := outcome
  · rfl
  · rfl

/-- `read_number`, for the type that `parse` reads. -/
def readNumber {α : Type} (parse : List Char → Option α) (path what : String)
    (calls : FileReads 64) : Except CollectorError α :=
  match readTrimmed calls with
  | .error e => .error (.read path e)
  | .ok text => parseAs parse text.toList path what

/-- A number is read back, whatever whitespace is behind it. -/
theorem readNumber_ok {α : Type} {parse : List Char → Option α} {path what : String}
    {calls : FileReads 64} {n : Nat} {blank : List Char} {a : α}
    (text : calls.text = .ok (String.ofList (decimal n ++ blank)))
    (space : ∀ c ∈ blank, Text.isWhitespace c = true) (reads : parse (decimal n) = some a) :
    readNumber parse path what calls = .ok a := by
  have last : ∀ c ∈ (decimal n).getLast?, Text.isWhitespace c = false := fun c mem =>
    Text.isWhitespace_eq_false_of_isDigit (isDigit_of_mem_decimal (List.mem_of_getLast? mem))
  have trimmed : readTrimmed calls = .ok (String.ofList (decimal n)) := by
    rw [readTrimmed_eq, text, ← Text.trimEnd_append last space]
    rfl
  simp only [readNumber, trimmed, String.toList_ofList, parseAs_ok reads]

/-- It fails with a read error exactly when there is no text. -/
theorem readNumber_eq_read_iff {α : Type} {parse : List Char → Option α} {path what : String}
    {calls : FileReads 64} {p : String} {e : IoError} :
    readNumber parse path what calls = .error (.read p e) ↔ calls.text = .error e ∧ p = path := by
  have trimmed := readTrimmed_eq calls
  cases read : calls.text with
  | error e' =>
      rw [read] at trimmed
      have failed : readTrimmed calls = .error e' := trimmed
      simp [readNumber, failed, eq_comm, and_comm]
  | ok s =>
      rw [read] at trimmed
      have done : readTrimmed calls = .ok (Text.trimEnd s) := trimmed
      simp only [readNumber, done, parseAs]
      cases parse (Text.trimEnd s).toList with
      | none => simp
      | some a => simp

/-- A number that cannot be read is never an error of a missing feature. -/
theorem readNumber_ne_unsupported {α : Type} {parse : List Char → Option α}
    {path what reason : String} {calls : FileReads 64} :
    readNumber parse path what calls ≠ .error (.unsupported reason) := by
  rw [readNumber]
  split
  · simp
  · rw [parseAs]
    split <;> simp

namespace Entropy

def path : String := "/proc/sys/kernel/random/entropy_avail"

/-- The entropy that the kernel's pool has, in bits. -/
structure EntropyStats where
  availableEntropy : UInt32
deriving DecidableEq, Repr

/-- `EntropyCollector::collect`. -/
def collect (calls : FileReads 64) : Except CollectorError EntropyStats := do
  let availableEntropy ← readNumber parseU32 path "entropy_avail" calls
  return ⟨availableEntropy⟩

end Entropy

namespace Conntrack

/-- The file of the entries that are tracked. -/
def countPath : String := "/proc/sys/net/netfilter/nf_conntrack_count"

/-- The file of their limit. -/
def maxPath : String := "/proc/sys/net/netfilter/nf_conntrack_max"

/-- The connections that are tracked, and how many can be. -/
structure ConntrackStats where
  entries : UInt64
  max : UInt64
deriving DecidableEq, Repr

variable (notFound : IoError → Bool)

/-- `ConntrackCollector::collect`, for the errors of kind `NotFound`. -/
def collect (count max : FileReads 64) : Except CollectorError ConntrackStats :=
  match readNumber parseU64 countPath "nf_conntrack_count" count with
  | .error (.read path source) =>
      if notFound source then .error (.unsupported "nf_conntrack is not loaded")
      else .error (.read path source)
  | .error e => .error e
  | .ok entries => do
      let max ← readNumber parseU64 maxPath "nf_conntrack_max" max
      return ⟨entries, max⟩

/-- The kernel is taken for one without connection tracking exactly when it has no file for
the count. -/
theorem collect_unsupported_iff (count max : FileReads 64) :
    (∃ reason, collect notFound count max = .error (.unsupported reason)) ↔
      ∃ e, count.text = .error e ∧ notFound e = true := by
  have unread : ∀ e, count.text = .error e ↔
      readNumber parseU64 countPath "nf_conntrack_count" count = .error (.read countPath e) :=
    fun e => by rw [readNumber_eq_read_iff, and_iff_left rfl]
  simp only [unread, collect]
  cases read : readNumber parseU64 countPath "nf_conntrack_count" count with
  | ok entries =>
      refine iff_of_false ?_ (by simp)
      rintro ⟨reason, failed⟩
      cases limit : readNumber parseU64 maxPath "nf_conntrack_max" max with
      | ok n => simp [limit] at failed
      | error e =>
          simp only [limit, error_bind, Except.error.injEq] at failed
          exact readNumber_ne_unsupported (failed ▸ limit)
  | error e =>
      cases e with
      | read p source =>
          obtain rfl := (readNumber_eq_read_iff.mp read).2
          cases found : notFound source <;> simp [found]
      | unsupported reason => exact absurd read readNumber_ne_unsupported
      | parse | missing | command | timeout => simp

end Conntrack

end BlazeBee.Collectors
