import BlazeBee.Collectors.Fields
import BlazeBee.Lib.Writes

/-!
`/proc/meminfo`: lines `key: number kB`, of which seven are stored into slots.

A key that is not known is passed over, and so is one with nothing behind it; only the total
has to be there.

* `meminfo_read_iff`: when a file is read, and what is then in the record.
-/

namespace BlazeBee.Collectors.Memory

open BlazeBee.Lib BlazeBee.Lib.Decimal
open BlazeBee.Agent (CollectorError)

def path : String := "/proc/meminfo"

/-- The figures in kibibytes, as the kernel reports them. -/
structure MemoryStats where
  memTotal : UInt64
  memFree : UInt64
  memAvailable : UInt64
  buffers : UInt64
  cached : UInt64
  swapTotal : UInt64
  swapFree : UInt64
deriving DecidableEq, Repr

/-- The slot that the match on the key gives. -/
inductive Counter where
  | memTotal
  | memFree
  | memAvailable
  | buffers
  | cached
  | swapTotal
  | swapFree
deriving DecidableEq

namespace Counter

/-- The seven keys in the order of the arms of the match. -/
def all : List Counter :=
  [memTotal, memFree, memAvailable, buffers, cached, swapTotal, swapFree]

/-- The key of a slot as it stands in the file, without its colon. -/
def key : Counter → String
  | memTotal => "MemTotal"
  | memFree => "MemFree"
  | memAvailable => "MemAvailable"
  | buffers => "Buffers"
  | cached => "Cached"
  | swapTotal => "SwapTotal"
  | swapFree => "SwapFree"

/-- No key has two slots, so the match on a key is a choice of one slot. -/
theorem key_injective : Function.Injective key := by
  intro slot slot' same
  cases slot <;> cases slot' <;> simp_all [key]

end Counter

namespace MemoryStats

/-- The field of the record that a slot is a reference to. -/
def get (stats : MemoryStats) : Counter → UInt64
  | .memTotal => stats.memTotal
  | .memFree => stats.memFree
  | .memAvailable => stats.memAvailable
  | .buffers => stats.buffers
  | .cached => stats.cached
  | .swapTotal => stats.swapTotal
  | .swapFree => stats.swapFree

/-- `*slot = n`. -/
def set (stats : MemoryStats) (slot : Counter) (n : UInt64) : MemoryStats :=
  match slot with
  | .memTotal => { stats with memTotal := n }
  | .memFree => { stats with memFree := n }
  | .memAvailable => { stats with memAvailable := n }
  | .buffers => { stats with buffers := n }
  | .cached => { stats with cached := n }
  | .swapTotal => { stats with swapTotal := n }
  | .swapFree => { stats with swapFree := n }

/-- What a store does to every slot: the written slot has the new number, and the others keep
theirs. -/
theorem get_set (stats : MemoryStats) (slot slot' : Counter) (n : UInt64) :
    (stats.set slot n).get slot' = if slot = slot' then n else stats.get slot' := by
  cases slot <;> cases slot' <;> rfl

/-- The seven slots are all of the record. -/
theorem ext_get {stats stats' : MemoryStats} (same : ∀ slot, stats.get slot = stats'.get slot) :
    stats = stats' := by
  cases stats
  cases stats'
  congr
  · exact same .memTotal
  · exact same .memFree
  · exact same .memAvailable
  · exact same .buffers
  · exact same .cached
  · exact same .swapTotal
  · exact same .swapFree

end MemoryStats

/-- The record, and `seen_total`. -/
structure Progress where
  stats : MemoryStats
  seenTotal : Bool

/-- `MemoryStats::default()`, before a total has been seen. -/
def Progress.initial : Progress := ⟨⟨0, 0, 0, 0, 0, 0, 0⟩, false⟩

/-- The end of the loop's body, where `n` goes to its slot and a total is remembered. -/
def Progress.store (s : Progress) (entry : Counter × UInt64) : Progress where
  stats := s.stats.set entry.1 entry.2
  seenTotal := if entry.1 = .memTotal then true else s.seenTotal

/-- The body of the loop, up to what is stored. -/
def readLine (line : List Char) : Except CollectorError (Option (Counter × UInt64)) :=
  match Text.splitOnce ':' line with
  | none => .ok none
  | some (key, rest) =>
      match Counter.all.find? fun slot => slot.key.toList == key with
      | none => .ok none
      | some slot =>
          match fields rest with
          | [] => .ok none
          | token :: _ => do
              let n ← parseField token path "memory counter"
              return some (slot, n)

/-- `ram::parse`. -/
def parse (content : String) : Except CollectorError MemoryStats := do
  let (s, _) ← writeEach readLine Progress.store Progress.initial 0 (Text.lines content.toList)
  if !s.seenTotal then .error (.missing path "MemTotal") else .ok s.stats

/-! ### What a line has -/

/-- The first field behind the key of the slot, if the line is for it. -/
def token (slot : Counter) (line : List Char) : Option (List Char) :=
  match Text.splitOnce ':' line with
  | some (key, rest) => if key = slot.key.toList then (fields rest).head? else none
  | none => none

/-- Whatever the line has for a slot is a number. -/
def Readable (line : List Char) : Prop :=
  ∀ slot, ∀ t ∈ token slot line, (parseU64 t).isSome = true

/-- The number on the last line that has one for the slot, or else zero. -/
def valueOf (slot : Counter) (content : String) : UInt64 :=
  let numbers := (Text.lines content.toList).filterMap fun line => (token slot line).bind parseU64
  numbers.getLast?.getD 0

/-- Some line has something for the total. -/
def HasTotal (content : String) : Prop :=
  ∃ line ∈ Text.lines content.toList, (token .memTotal line).isSome = true

section Line

variable {line : List Char} {slot : Counter} {t : List Char}

/-- A line has something for a slot if its part before the first colon is the key itself, and
some field stands behind the colon. -/
theorem token_eq_some_iff :
    token slot line = some t ↔ ∃ rest, Text.splitOnce ':' line = some (slot.key.toList, rest) ∧
      (fields rest).head? = some t := by
  rw [token]
  cases split : Text.splitOnce ':' line with
  | none => simp
  | some pair =>
      obtain ⟨key, rest⟩ := pair
      by_cases same : key = slot.key.toList
      · simp [same]
      · simp [same]

/-- A line is for one slot at most. -/
theorem token_unique {slot' : Counter} {t' : List Char} (found : token slot line = some t)
    (found' : token slot' line = some t') : slot = slot' := by
  obtain ⟨rest, split, -⟩ := token_eq_some_iff.mp found
  obtain ⟨rest', split', -⟩ := token_eq_some_iff.mp found'
  have same := congrArg Prod.fst (Option.some.inj (split.symm.trans split'))
  exact Counter.key_injective (String.toList_injective same)

/-- The search for a key ends at its own slot, since the arms before it have other keys. -/
theorem find?_key (slot : Counter) :
    (Counter.all.find? fun slot' => slot'.key.toList == slot.key.toList) = some slot := by
  cases slot <;> rfl

/-- On a line that has something for a slot, reading it is parsing that field, and the
outcome is for that slot alone. -/
theorem readLine_token (found : token slot line = some t) :
    readLine line = (do
      let n ← parseField t path "memory counter"
      return some (slot, n)) := by
  obtain ⟨rest, split, first⟩ := token_eq_some_iff.mp found
  obtain ⟨others, whole⟩ := List.head?_eq_some_iff.mp first
  simp only [readLine, split, find?_key, whole]

/-- A line that has nothing for any slot is passed over: it has no colon, or another key, or
nothing behind its key. -/
theorem readLine_other (other : ∀ slot, token slot line = none) : readLine line = .ok none := by
  rw [readLine]
  cases split : Text.splitOnce ':' line with
  | none => rfl
  | some pair =>
      obtain ⟨key, rest⟩ := pair
      cases known : Counter.all.find? fun slot => slot.key.toList == key with
      | none => simp only [known]
      | some slot =>
          have accepted := List.find?_some known
          have same : slot.key.toList = key := eq_of_beq accepted
          have none := other slot
          simp only [token, split, same, if_true, List.head?_eq_none_iff] at none
          simp only [known, none]

/-- A readable line does not fail, and what it stores is seen slot by slot: the number it has
for that slot, if it has one. -/
theorem readLine_readable (readable : Readable line) :
    ∃ entry, readLine line = .ok entry ∧ ∀ slot,
      (entry.bind fun e => if e.1 = slot then some e.2 else none) =
        (token slot line).bind parseU64 := by
  by_cases mine : ∃ slot t, token slot line = some t
  · obtain ⟨slot, t, found⟩ := mine
    obtain ⟨n, parsed⟩ := Option.isSome_iff_exists.mp (readable slot t found)
    refine ⟨some (slot, n), ?_, fun slot' => ?_⟩
    · rw [readLine_token found, parseField, parseAs_ok parsed]
      rfl
    · by_cases same : slot = slot'
      · simp [← same, found, parsed]
      · cases found' : token slot' line with
        | none => simp [same]
        | some t' => exact absurd (token_unique found found') same
  · have other : ∀ slot, token slot line = none := fun slot =>
      Option.eq_none_iff_forall_ne_some.mpr fun t found => mine ⟨slot, t, found⟩
    exact ⟨none, readLine_other other, fun slot => by rw [other slot]; rfl⟩

/-- Where a field stands behind one of the seven keys that is no number, the line fails. -/
theorem readLine_unreadable (unreadable : ¬ Readable line) : ∃ e, readLine line = .error e := by
  rw [Readable] at unreadable
  push Not at unreadable
  obtain ⟨slot, t, found, fails⟩ := unreadable
  have unread := Option.not_isSome_iff_eq_none.mp fails
  obtain ⟨e, failed⟩ := @parseAs_error path _ _ t unread "memory counter"
  exact ⟨e, by rw [readLine_token found, parseField, failed, error_bind]⟩

end Line

/-! ### The loop -/

/-- The record's slot as a place of the loop's state that only the entries for it write
to. -/
def slotOf (slot : Counter) : Slot Progress.store UInt64 where
  get s := s.stats.get slot
  value e := if e.1 = slot then some e.2 else none
  get_write s e := by
    rw [Progress.store, MemoryStats.get_set]
    split_ifs <;> rfl

/-- The flag `seen_total` as such a place: an entry for the total sets it, and no other entry
clears it. -/
def seen : Slot Progress.store Bool where
  get := Progress.seenTotal
  value e := if e.1 = .memTotal then some true else none
  get_write s e := by
    rw [Progress.store]
    split_ifs <;> rfl

/-- What a readable line writes to a slot is the number that it has for the slot. -/
theorem slotOf_valueAt {line : List Char} (readable : Readable line) (slot : Counter) :
    (slotOf slot).valueAt readLine line = (token slot line).bind parseU64 := by
  obtain ⟨entry, read, value⟩ := readLine_readable readable
  rw [Slot.valueAt, writeOf_of_ok read]
  exact value slot

/-- A readable line sets the flag exactly if it has something for the total. -/
theorem seen_valueAt {line : List Char} (readable : Readable line) :
    seen.valueAt readLine line = (token .memTotal line).map fun _ => true := by
  obtain ⟨entry, read, value⟩ := readLine_readable readable
  have stored : entry.bind seen.value =
      (entry.bind fun e => if e.1 = .memTotal then some e.2 else none).map fun _ => true := by
    cases entry with
    | none => rfl
    | some e => by_cases total : e.1 = .memTotal <;> simp [seen, total]
  rw [Slot.valueAt, writeOf_of_ok read, stored, value .memTotal]
  cases found : token .memTotal line with
  | none => rfl
  | some t =>
      obtain ⟨n, parsed⟩ := Option.isSome_iff_exists.mp (readable .memTotal t found)
      simp [parsed]

/-- What the loop leaves, if it does not fail. -/
def progress (content : String) : Progress :=
  ((Text.lines content.toList).filterMap (writeOf readLine)).foldl Progress.store .initial

section Content

variable {content : String} (readable : ∀ line ∈ Text.lines content.toList, Readable line)
include readable

/-- Behind the loop a slot has the number of the last line for it, as each such line
overwrites the ones before. -/
theorem get_progress (slot : Counter) :
    (progress content).stats.get slot = valueOf slot content := by
  have last : (slotOf slot).get (progress content) = _ := (slotOf slot).get_run _ .initial
  have values : (Text.lines content.toList).filterMap ((slotOf slot).valueAt readLine) =
      (Text.lines content.toList).filterMap fun line => (token slot line).bind parseU64 :=
    List.filterMap_congr fun line mem => slotOf_valueAt (readable line mem) slot
  have initial : (slotOf slot).get .initial = 0 := by cases slot <;> rfl
  rw [values, initial] at last
  exact last

/-- Behind the loop the flag says whether any line had the total. -/
theorem seenTotal_progress : (progress content).seenTotal = true ↔ HasTotal content := by
  have last : seen.get (progress content) = _ := seen.get_run _ .initial
  have values : (Text.lines content.toList).filterMap (seen.valueAt readLine) =
      ((Text.lines content.toList).filterMap (token .memTotal)).map fun _ => true := by
    rw [List.map_filterMap]
    exact List.filterMap_congr fun line mem => seen_valueAt (readable line mem)
  have some_total : HasTotal content ↔
      (Text.lines content.toList).filterMap (token .memTotal) ≠ [] := by
    rw [ne_eq, List.filterMap_eq_nil_iff, HasTotal]
    push Not
    simp only [Option.isSome_iff_ne_none]
  have got : (progress content).seenTotal =
      (((Text.lines content.toList).filterMap (token .memTotal)).map fun _ => true).getLast?.getD
        false := by
    rw [← values]
    exact last
  rw [got, some_total, List.getLast?_map]
  cases total : (Text.lines content.toList).filterMap (token .memTotal) using
      List.reverseRecOn with
  | nil => simp
  | append_singleton front t => simp

end Content

/-- A file is read exactly when some line has the total and whatever stands behind one of the
seven keys is a number; each slot then has the number on the last line for it. -/
theorem meminfo_read_iff {content : String} {stats : MemoryStats} :
    parse content = .ok stats ↔
      (∀ line ∈ Text.lines content.toList, Readable line) ∧ HasTotal content ∧
        ∀ slot, stats.get slot = valueOf slot content := by
  by_cases readable : ∀ line ∈ Text.lines content.toList, Readable line
  · have fine : ∀ line ∈ Text.lines content.toList, ∃ entry, readLine line = .ok entry :=
      fun line mem => (readLine_readable (readable line mem)).imp fun _ => And.left
    have run : writeEach readLine Progress.store Progress.initial 0 (Text.lines content.toList) =
        .ok (progress content, _) := writeEach_ok fine _ 0
    rw [parse, run, ok_bind, and_iff_right readable, ← seenTotal_progress readable]
    simp only [← get_progress readable]
    cases (progress content).seenTotal with
    | false => simp
    | true =>
        simp only [Bool.not_true, Bool.false_eq_true, if_false, Except.ok.injEq, true_and]
        exact ⟨fun same slot => same ▸ rfl, fun same => (MemoryStats.ext_get same).symm⟩
  · refine iff_of_false (fun parsed => ?_) fun whole => readable whole.1
    push Not at readable
    obtain ⟨line, mem, unreadable⟩ := readable
    obtain ⟨e, failed⟩ : ∃ e, writeEach readLine Progress.store Progress.initial 0
        (Text.lines content.toList) = .error e :=
      writeEach_error mem (readLine_unreadable unreadable) _ 0
    rw [parse, failed, error_bind] at parsed
    cases parsed

end BlazeBee.Collectors.Memory
