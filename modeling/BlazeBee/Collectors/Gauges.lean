import BlazeBee.Collectors.Pressure

/-!
The files of one line: `loadavg` and `sys/fs/file-nr`.

* `Avg.parse_ok_iff`, `FileFd.parse_ok_iff`: when a file is read, and what is then in
  the record.
-/

namespace BlazeBee.Collectors

open BlazeBee.Lib BlazeBee.Lib.Decimal
open BlazeBee.Agent (CollectorError)

/-- A field is read exactly if there is one, and it is a number. -/
theorem nextAs_eq_ok_iff {α : Type} {read : List Char → Option α} {path what : String}
    {f f' : List (List Char)} {n : α} :
    nextAs read path what f = .ok (n, f') ↔ ∃ token, f = token :: f' ∧ read token = some n := by
  cases f with
  | nil => simp [nextAs]
  | cons token f =>
      cases number : read token with
      | none =>
          obtain ⟨e, failed⟩ := @parseAs_error path _ _ _ number what
          rw [nextAs, failed, error_bind]
          simp [number]
      | some m =>
          rw [nextAs, parseAs_ok number, ok_bind]
          constructor
          · intro same
            obtain ⟨rfl, rfl⟩ := Prod.mk.inj (Except.ok.inj same)
            exact ⟨token, rfl, number⟩
          · rintro ⟨token', split, number'⟩
            obtain ⟨rfl, rfl⟩ := List.cons.inj split
            obtain rfl := Option.some.inj (number.symm.trans number')
            rfl

/-- `parse` succeeds exactly on what `read` accepts. -/
theorem parseAs_eq_ok_iff {α : Type} {read : List Char → Option α} {token : List Char}
    {path what : String} {n : α} : parseAs read token path what = .ok n ↔ read token = some n := by
  rw [parseAs]
  cases read token <;> simp

/-! ### `/proc/sys/fs/file-nr` -/

namespace FileFd

def path : String := "/proc/sys/fs/file-nr"

/-- The file handles of the whole system. -/
structure FileFdStats where
  allocated : UInt64
  maximum : UInt64
deriving DecidableEq, Repr

/-- `filefd::parse`. The number between the two is read and dropped, but it has to be a
number. -/
def parse (content : String) : Except CollectorError FileFdStats := do
  let (allocated, f) ← nextField path "allocated" (fields content.toList)
  let (_unused, f) ← nextField path "unused" f
  let (maximum, _) ← nextField path "maximum" f
  return ⟨allocated, maximum⟩

/-- The text begins with three numbers, and the first and the third of them are reported. -/
theorem parse_ok_iff {content : String} {stats : FileFdStats} :
    parse content = .ok stats ↔ ∃ a b c rest, fields content.toList = a :: b :: c :: rest ∧
      parseU64 a = some stats.allocated ∧ (parseU64 b).isSome = true ∧
        parseU64 c = some stats.maximum := by
  simp only [parse, bind_eq_ok_iff, Prod.exists, nextAs_eq_ok_iff]
  constructor
  · rintro ⟨allocated, f, ⟨a, split, first⟩, n, f', ⟨b, rfl, second⟩, maximum, rest,
      ⟨c, rfl, third⟩, whole⟩
    obtain rfl := Except.ok.inj whole
    exact ⟨a, b, c, rest, split, first, by rw [second, Option.isSome_some], third⟩
  · rintro ⟨a, b, c, rest, split, first, second, third⟩
    obtain ⟨n, second⟩ := Option.isSome_iff_exists.mp second
    exact ⟨_, _, ⟨a, split, first⟩, n, _, ⟨b, rfl, second⟩, _, rest, ⟨c, rfl, third⟩, rfl⟩

end FileFd

/-! ### `/proc/loadavg` -/

namespace Avg

variable {F : Type}

def path : String := "/proc/loadavg"

/-- The load averages, and the numbers of processes that are runnable and that exist. -/
structure LoadAverage (F : Type) where
  oneMinute : F
  fiveMinutes : F
  fifteenMinutes : F
  runningProcesses : UInt32
  totalProcesses : UInt32

/-- `avg::parse`. How an average is read as an `f64` is a parameter. -/
def parse (f64 : Pressure.Floats F) (content : String) :
    Except CollectorError (LoadAverage F) := do
  let (oneMinute, f) ← nextAs f64.parse path "load1" (fields content.toList)
  let (fiveMinutes, f) ← nextAs f64.parse path "load5" f
  let (fifteenMinutes, f) ← nextAs f64.parse path "load15" f
  match f with
  | [] => .error (.missing path "running/total")
  | procs :: _ =>
      match Text.splitOnce '/' procs with
      | none =>
          .error (.parse path "running/total"
            ("expected 'a/b', got '" ++ String.ofList procs ++ "'"))
      | some (running, total) => do
          let runningProcesses ← parseAs parseU32 running path "running"
          let totalProcesses ← parseAs parseU32 total path "total"
          return ⟨oneMinute, fiveMinutes, fifteenMinutes, runningProcesses, totalProcesses⟩

/-- The text begins with three averages, and two counts with a slash between them. -/
theorem parse_ok_iff {f64 : Pressure.Floats F} {content : String} {stats : LoadAverage F} :
    parse f64 content = .ok stats ↔ ∃ a b c procs rest running total,
      fields content.toList = a :: b :: c :: procs :: rest ∧
        f64.parse a = some stats.oneMinute ∧ f64.parse b = some stats.fiveMinutes ∧
          f64.parse c = some stats.fifteenMinutes ∧
            Text.splitOnce '/' procs = some (running, total) ∧
              parseU32 running = some stats.runningProcesses ∧
                parseU32 total = some stats.totalProcesses := by
  simp only [parse, bind_eq_ok_iff, Prod.exists, nextAs_eq_ok_iff]
  constructor
  · rintro ⟨one, f, ⟨a, split, first⟩, five, f', ⟨b, rfl, second⟩, fifteen, f'',
      ⟨c, rfl, third⟩, read⟩
    cases f'' with
    | nil => cases read
    | cons procs rest =>
        cases cut : Text.splitOnce '/' procs with
        | none => simp [cut] at read
        | some counts =>
            obtain ⟨running, total⟩ := counts
            simp only [cut, bind_eq_ok_iff, parseAs_eq_ok_iff] at read
            obtain ⟨m, before, n, behind, whole⟩ := read
            obtain rfl := Except.ok.inj whole
            exact ⟨a, b, c, procs, rest, running, total, split, first, second, third, cut, before,
              behind⟩
  · rintro ⟨a, b, c, procs, rest, running, total, split, first, second, third, cut, before,
      behind⟩
    refine ⟨_, _, ⟨a, split, first⟩, _, _, ⟨b, rfl, second⟩, _, _, ⟨c, rfl, third⟩, ?_⟩
    simp only [cut, bind_eq_ok_iff, parseAs_eq_ok_iff]
    exact ⟨_, before, _, behind, rfl⟩

end Avg

end BlazeBee.Collectors
