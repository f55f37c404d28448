import BlazeBee.Collectors.Pressure
import BlazeBee.Collectors.ProcFile
import BlazeBee.Collectors.Sysmd
import Mathlib.Data.List.ReduceOption

/-!
The two collectors that have more to decide than what a file parses to: there are three
pressure files, of which a kernel may lack some, and `systemctl` may hang, fail, or write
bytes that are no text.

* `Pressure.collect_each`: in a run of calls, each comes to the samples of the files that are
  there, to an error of its own for a kernel that has none, or to the first file that fails.
* `Sysmd.units_collected`: each line of the output is read for itself, whatever bytes are on
  the others.
-/

namespace BlazeBee.Collectors

open BlazeBee.Lib BlazeBee.Rumqttc
open BlazeBee.Agent (CollectorError)

/-! ### The pressure files -/

namespace Pressure

variable {F : Type} (f64 : Floats F) (notFound : IoError → Bool)

/-- The three resources, with their files, in the order in which a sample has them. -/
def resources : List (String × String) :=
  [("cpu", "/proc/pressure/cpu"), ("memory", "/proc/pressure/memory"), ("io", "/proc/pressure/io")]

/-- The text of the error for a kernel that has none of the three files. -/
def unavailable : String :=
  "pressure stall information is not available (CONFIG_PSI or psi=1 missing)"

/-- The variables of the loop, and the buffer, which is kept from one call to the next. -/
structure Gathered (F : Type) where
  buf : String
  stats : List (PressureStats F)
  absent : Nat

/-- The body of the loop: the buffer is cleared, and read into. -/
def Gathered.visit (g : Gathered F) (metricType path : String) (reading : Reading) :
    Gathered F × Except CollectorError Unit :=
  let (buf, result) := reading.2.run
  match result with
  | .ok () =>
      match parse f64 metricType path buf with
      | .ok stats => ({ g with buf := buf, stats := g.stats ++ [stats] }, .ok ())
      | .error e => ({ g with buf := buf }, .error e)
  | .error e =>
      if notFound e then ({ g with buf := buf, absent := g.absent + 1 }, .ok ())
      else ({ g with buf := buf }, .error (.read path e))

/-- The loop, for what a read of each path gives. -/
def Gathered.visitEach (reading : String → Reading) :
    Gathered F → List (String × String) → Gathered F × Except CollectorError Unit
  | g, [] => (g, .ok ())
  | g, (metricType, path) :: rest =>
      match g.visit f64 notFound metricType path (reading path) with
      | (g, .ok ()) => g.visitEach reading rest
      | (g, .error e) => (g, .error e)

/-- The collector keeps nothing but its buffer. -/
structure PressureCollector where
  buf : String

/-- `PressureCollector::collect`. -/
def PressureCollector.collect (self : PressureCollector) (reading : String → Reading) :
    PressureCollector × Except CollectorError (List (PressureStats F)) :=
  let (g, result) := (⟨self.buf, [], 0⟩ : Gathered F).visitEach f64 notFound reading resources
  (⟨g.buf⟩, do
    result
    if g.absent = resources.length then .error (.unsupported unavailable) else .ok g.stats)

/-- A run of calls. -/
def PressureCollector.collectEach :
    PressureCollector → List (String → Reading) →
      List (Except CollectorError (List (PressureStats F)))
  | _, [] => []
  | self, reading :: readings =>
      let (self, sample) := self.collect f64 notFound reading
      sample :: self.collectEach readings

/-- What the file of a resource comes to; nothing, if it is absent. -/
def reported (reading : String → Reading) (resource : String × String) :
    Except CollectorError (Option (PressureStats F)) :=
  let (metricType, path) := resource
  match (reading path).2.text with
  | .ok content => (parse f64 metricType path content).map some
  | .error e => if notFound e then .ok none else .error (.read path e)

/-- What a call comes to, given what each file does. -/
inductive Collected (found : String × String → Except CollectorError (Option (PressureStats F))) :
    Except CollectorError (List (PressureStats F)) → Prop where
  | sampled (stats : List (Option (PressureStats F))) :
      resources.map found = stats.map .ok → (∃ s, some s ∈ stats) →
      Collected found (.ok stats.reduceOption)
  | unsupported : (∀ r ∈ resources, found r = .ok none) →
      Collected found (.error (.unsupported unavailable))
  | failed (earlier later : List (String × String)) (r : String × String) (e : CollectorError) :
      resources = earlier ++ r :: later → (∀ p ∈ earlier, ∃ s, found p = .ok s) →
      found r = .error e → Collected found (.error e)

section Loop

variable (reading : String → Reading) (g : Gathered F)

/-- A visit does to the variables what the text of the file says, whatever is left in the
buffer. -/
theorem Gathered.visit_eq (metricType path : String) :
    ∃ buf, g.visit f64 notFound metricType path (reading path) =
      match reported f64 notFound reading (metricType, path) with
      | .ok (some stats) => ({ g with buf := buf, stats := g.stats ++ [stats] }, .ok ())
      | .ok none => ({ g with buf := buf, absent := g.absent + 1 }, .ok ())
      | .error e => ({ g with buf := buf }, .error e) := by
  simp only [reported, ← (reading path).2.run_eq, visit]
  generalize (reading path).2.run = outcome
  obtain ⟨buf, e | u⟩ := outcome
  · refine ⟨buf, ?_⟩
    simp only [Except.map]
    split_ifs <;> rfl
  · refine ⟨buf, ?_⟩
    simp only [Except.map]
    cases parse f64 metricType path buf <;> rfl

/-- Files that all come to something are gathered in their order, the absent ones counted. -/
theorem Gathered.visitEach_ok {rs : List (String × String)}
    {stats : List (Option (PressureStats F))}
    (found : rs.map (reported f64 notFound reading) = stats.map .ok)
    (rest : List (String × String)) :
    ∃ g' : Gathered F,
      g.visitEach f64 notFound reading (rs ++ rest) = g'.visitEach f64 notFound reading rest ∧
      g'.stats = g.stats ++ stats.reduceOption ∧
      g'.absent = g.absent + stats.countP Option.isNone := by
  induction rs generalizing g stats with
  | nil =>
      obtain rfl := List.map_eq_nil_iff.mp found.symm
      exact ⟨g, rfl, (List.append_nil _).symm, rfl⟩
  | cons r rs ih =>
      obtain ⟨metricType, path⟩ := r
      obtain ⟨s, later, rfl, first, others⟩ := List.map_eq_cons_iff.mp found.symm
      obtain ⟨buf, visited⟩ := g.visit_eq f64 notFound reading metricType path
      rw [← first] at visited
      cases s with
      | none =>
          obtain ⟨g', ran, gathered, absent⟩ :=
            ih { g with buf := buf, absent := g.absent + 1 } others.symm
          refine ⟨g', ?_, gathered, ?_⟩
          · rw [← ran, List.cons_append, visitEach, visited]
          · have counted : g'.absent = g.absent + 1 + later.countP Option.isNone := absent
            rw [counted, List.countP_cons_of_pos rfl]
            omega
      | some stats =>
          obtain ⟨g', ran, gathered, absent⟩ :=
            ih { g with buf := buf, stats := g.stats ++ [stats] } others.symm
          refine ⟨g', ?_, ?_, ?_⟩
          · rw [← ran, List.cons_append, visitEach, visited]
          · rw [gathered, List.append_assoc, List.reduceOption_cons_of_some, List.singleton_append]
          · rw [absent, List.countP_cons_of_neg (by simp)]

/-- A call comes to one of the three outcomes: either every file comes to something, and it
matters whether all are absent, or there is a first one that fails. -/
theorem PressureCollector.collected (self : PressureCollector) :
    Collected (reported f64 notFound reading) (self.collect f64 notFound reading).2 := by
  rcases forall_ok_or_first (reported f64 notFound reading) resources with
    all | ⟨earlier, r, later, e, split, before, fails⟩
  · obtain ⟨stats, found⟩ := exists_map_ok all
    obtain ⟨g, ran, gathered, absent⟩ :=
      (⟨self.buf, [], 0⟩ : Gathered F).visitEach_ok f64 notFound reading found []
    rw [List.append_nil, Gathered.visitEach] at ran
    have length : resources.length = stats.length := by
      simpa using congrArg List.length found
    have result : (self.collect f64 notFound reading).2 =
        if stats.countP Option.isNone = stats.length then .error (.unsupported unavailable)
        else .ok stats.reduceOption := by
      rw [collect, ran, length]
      simp only [ok_bind, absent, gathered, Nat.zero_add, List.nil_append]
    rw [result]
    split_ifs with none
    · refine .unsupported fun r mem => ?_
      obtain ⟨s, inside, same⟩ := List.mem_map.mp (found ▸ List.mem_map_of_mem mem)
      rw [← same, Option.isNone_iff_eq_none.mp (List.countP_eq_length.mp none s inside)]
    · refine .sampled stats found ?_
      by_contra empty
      refine none (List.countP_eq_length.mpr fun s mem => ?_)
      cases s with
      | none => rfl
      | some s => exact absurd ⟨s, mem⟩ empty
  · obtain ⟨stats, found⟩ := exists_map_ok before
    obtain ⟨g, ran, -⟩ :=
      (⟨self.buf, [], 0⟩ : Gathered F).visitEach_ok f64 notFound reading found (r :: later)
    obtain ⟨metricType, path⟩ := r
    obtain ⟨buf, failed⟩ := g.visit_eq f64 notFound reading metricType path
    rw [fails] at failed
    rw [Gathered.visitEach, failed, ← split] at ran
    have result : (self.collect f64 notFound reading).2 = .error e := by
      rw [collect, ran]
      rfl
    rw [result]
    exact .failed earlier later (metricType, path) e split before fails

end Loop

/-- In a run of calls each comes to what the three files have at that call. -/
theorem PressureCollector.collect_each (self : PressureCollector)
    (readings : List (String → Reading)) :
    List.Forall₂ (fun reading result => Collected (reported f64 notFound reading) result) readings
      (self.collectEach f64 notFound readings) := by
  induction readings generalizing self with
  | nil => exact .nil
  | cons reading readings ih => exact .cons (self.collected f64 notFound reading) (ih _)

end Pressure

/-! ### `systemctl` -/

namespace Sysmd

open BlazeBee.Lib.Columns BlazeBee.Lib.Text

/-- The command as the errors name it. -/
def command : String := "systemctl"

/-- `std::process::Output`, the status as it is displayed. -/
structure Output where
  success : Bool
  status : String
  stdout : List UInt8
  stderr : List UInt8

/-- `SystemdCollector::collect`, for what the child comes to in the time it is given, and the
texts of errors; `none` where the parser panics. -/
def collectOrPanic (display : IoError → String) (child : Option (Except IoError Output)) :
    Option (Except CollectorError (List SystemdUnitStats)) :=
  match child with
  | none => some (.error (.command command "did not finish within 5s"))
  | some (.error e) => some (.error (.command command (display e)))
  | some (.ok output) =>
      if output.success then
        (parseOrPanic (String.ofList (Utf8.lossy output.stdout))).map .ok
      else
        let stderr := trim (String.ofList (Utf8.lossy output.stderr))
        some (.error (.command command (output.status ++ ": " ++ stderr)))

/-- A line of the output: text, or bytes of any kind. -/
abbrev OutputLine : Type := Line ⊕ { bytes : List UInt8 // 0x0A ∉ bytes }

/-- The bytes of the line, without its newline. -/
def OutputLine.bytes : OutputLine → List UInt8
  | .inl line => Utf8.utf8 line.render
  | .inr bytes => bytes.val

/-- What the line stands for. Bytes that are no text are read as what they are decoded to,
with replacement characters. -/
def OutputLine.stats? : OutputLine → Option SystemdUnitStats
  | .inl line => line.stats?
  | .inr bytes => parseLine (stripCr (Utf8.lossy bytes.val))

/-- Decoding brings no newline into a line, so the lines of the text are those of the
bytes. -/
theorem OutputLine.newline_lossy (line : OutputLine) : '\n' ∉ Utf8.lossy line.bytes := by
  cases line with
  | inl line =>
      rw [bytes, Utf8.lossy_utf8]
      exact line.newline_render
  | inr bytes => exact Utf8.not_mem_lossy rfl bytes.property

/-- A line that is text is decoded to itself. -/
theorem OutputLine.parseLine_lossy (line : OutputLine) :
    parseLine (stripCr (Utf8.lossy line.bytes)) = line.stats? := by
  cases line with
  | inl line =>
      rw [bytes, Utf8.lossy_utf8]
      exact line.parseLine_render
  | inr bytes => rfl

/-- The output of a child that succeeds is read line by line, and a line that is no text does
not touch the others. -/
theorem collect_lines (display : IoError → String) (status : String) (stderr : List UInt8)
    (lines : List OutputLine) :
    collectOrPanic display (some (.ok
        ⟨true, status, (lines.map OutputLine.bytes).flatMap (· ++ [0x0A]), stderr⟩)) =
      some (.ok (lines.filterMap OutputLine.stats?)) := by
  have decoded : Utf8.lossy ((lines.map OutputLine.bytes).flatMap (· ++ [0x0A])) =
      unlines ((lines.map OutputLine.bytes).map Utf8.lossy) :=
    Utf8.lossy_flatMap_append_ascii rfl (by decide) _
  have free : ∀ line ∈ (lines.map OutputLine.bytes).map Utf8.lossy, '\n' ∉ line := by
    intro line mem
    rw [List.map_map] at mem
    obtain ⟨line, -, rfl⟩ := List.mem_map.mp mem
    exact line.newline_lossy
  rw [collectOrPanic, if_pos rfl, decoded, parseOrPanic_eq, String.toList_ofList,
    lines_unlines free, List.map_map, List.map_map, List.filterMap_map]
  have stats : lines.filterMap (parseLine ∘ (stripCr ∘ Utf8.lossy) ∘ OutputLine.bytes) =
      lines.filterMap OutputLine.stats? :=
    List.filterMap_congr fun line _ => OutputLine.parseLine_lossy line
  rw [stats, Option.map_some]

/-- Each line of the output is read for itself, whatever bytes are on the others; the call
never panics, and fails, with an error of the command, exactly when the child does. -/
theorem units_collected (display : IoError → String) :
    (∀ status stderr (lines : List OutputLine),
      collectOrPanic display (some (.ok
          ⟨true, status, (lines.map OutputLine.bytes).flatMap (· ++ [0x0A]), stderr⟩)) =
        some (.ok (lines.filterMap OutputLine.stats?))) ∧
      ∀ child, (∃ output stats, child = some (.ok output) ∧ output.success = true ∧
          collectOrPanic display child = some (.ok stats)) ∨
        (∀ output, child = some (.ok output) → output.success = false) ∧
          ∃ reason, collectOrPanic display child = some (.error (.command command reason)) := by
  refine ⟨fun status stderr => collect_lines display status stderr, fun child => ?_⟩
  rcases child with none | e | output
  · exact Or.inr ⟨nofun, _, rfl⟩
  · exact Or.inr ⟨nofun, _, rfl⟩
  · cases success : output.success with
    | true =>
        obtain ⟨stats, parsed⟩ : ∃ stats,
            parseOrPanic (String.ofList (Utf8.lossy output.stdout)) = some stats :=
          ⟨_, parseOrPanic_eq _⟩
        refine Or.inl ⟨output, stats, rfl, success, ?_⟩
        rw [collectOrPanic, if_pos success, parsed, Option.map_some]
    | false =>
        have failed : ¬ output.success = true := Bool.eq_false_iff.mp success
        refine Or.inr ⟨?_, output.status ++ ": " ++ trim (String.ofList (Utf8.lossy output.stderr)),
          if_neg failed⟩
        rintro other ⟨⟩
        exact success

end Sysmd

end BlazeBee.Collectors
