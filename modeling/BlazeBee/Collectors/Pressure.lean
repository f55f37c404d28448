import BlazeBee.Collectors.Fields
import BlazeBee.Lib.Keyed

/-!
The pressure stall files: a kind of line in its first field, and tokens `key=value` in the
others.

The numbers of a line are collected into slots that begin at zero, and the kind of the line
is looked at afterwards.

* `parse_ok_iff`: a file is read if all its tokens are numbers and some line is of the kind
  `some`.
* `accurate_iff`: a line may then still lack a token, and only then is a number reported
  that is not in the file.
-/

namespace BlazeBee.Collectors.Pressure

open BlazeBee.Lib BlazeBee.Lib.Decimal
open BlazeBee.Agent (CollectorError)

variable {F : Type}

/-- The numbers of type `f64`: the default, and what `str::parse` reads. -/
structure Floats (F : Type) where
  zero : F
  parse : List Char → Option F

/-- The stall times of one resource. The numbers of the `full` line are absent on kernels and
resources without one. -/
structure PressureStats (F : Type) where
  metricType : String
  someAvg10 : F
  someAvg60 : F
  someAvg300 : F
  someTotalUs : UInt64
  fullAvg10 : Option F
  fullAvg60 : Option F
  fullAvg300 : Option F
  fullTotalUs : Option UInt64

/-- The slots for one line. -/
structure Numbers (F : Type) where
  avg10 : F
  avg60 : F
  avg300 : F
  total : UInt64

/-- A slot, with what is stored into it. -/
inductive Number (F : Type) where
  | avg10 (n : F)
  | avg60 (n : F)
  | avg300 (n : F)
  | total (n : UInt64)

/-- `*slot = parse(..)?`, for the slot of the token's key. -/
def Numbers.store (line : Numbers F) : Number F → Numbers F
  | .avg10 n => { line with avg10 := n }
  | .avg60 n => { line with avg60 := n }
  | .avg300 n => { line with avg300 := n }
  | .total n => { line with total := n }

/-- The arms of the match on the key of a token. -/
def arms (f64 : Floats F) : List (Arm String (List Char) (Number F)) :=
  [⟨"avg10", fun value => (f64.parse value).map .avg10⟩,
    ⟨"avg60", fun value => (f64.parse value).map .avg60⟩,
    ⟨"avg300", fun value => (f64.parse value).map .avg300⟩,
    ⟨"total", fun value => (parseU64 value).map .total⟩]

/-- The body of the loop over the tokens, up to what is stored. A token without `=`, or with
a key of no arm, is passed over. -/
def readToken (f64 : Floats F) (path : String) (token : List Char) :
    Except CollectorError (Option (Number F)) :=
  match Text.splitOnce '=' token with
  | none => .ok none
  | some (key, value) =>
      match (arms f64).find? fun arm => arm.key.toList == key with
      | none => .ok none
      | some arm => do
          let n ← parseAs arm.counter value path arm.key
          return some n

/-- The loop over the tokens of a line. -/
def readTokens (f64 : Floats F) (path : String) (tokens : List (List Char)) :
    Except CollectorError (Numbers F) := do
  let (line, _) ←
    writeEach (readToken f64 path) Numbers.store ⟨f64.zero, f64.zero, f64.zero, 0⟩ 0 tokens
  return line

/-- What a line has for the record. -/
inductive Entry (F : Type) where
  | some (line : Numbers F)
  | full (line : Numbers F)

/-- The body of the loop over the lines, up to the match on the kind. -/
def readLine (f64 : Floats F) (path : String) (line : List Char) :
    Except CollectorError (Option (Entry F)) := do
  let f := fields line
  let kind := f.head?
  let numbers ← readTokens f64 path f.tail
  if kind = some "some".toList then return some (.some numbers)
  else if kind = some "full".toList then return some (.full numbers)
  else return none

/-- The record, and `seen_some`. -/
structure Progress (F : Type) where
  stats : PressureStats F
  seenSome : Bool

/-- The match on the kind of a line. -/
def Progress.store (s : Progress F) : Entry F → Progress F
  | .some line =>
      { seenSome := true
        stats :=
          { s.stats with
            someAvg10 := line.avg10
            someAvg60 := line.avg60
            someAvg300 := line.avg300
            someTotalUs := line.total } }
  | .full line =>
      { s with
        stats :=
          { s.stats with
            fullAvg10 := some line.avg10
            fullAvg60 := some line.avg60
            fullAvg300 := some line.avg300
            fullTotalUs := some line.total } }

/-- The record under its metric type, before any line has been read. -/
def Progress.initial (f64 : Floats F) (metricType : String) : Progress F where
  stats := ⟨metricType, f64.zero, f64.zero, f64.zero, 0, none, none, none, none⟩
  seenSome := false

/-- `pressure::parse`. -/
def parse (f64 : Floats F) (metricType path content : String) :
    Except CollectorError (PressureStats F) := do
  let (s, _) ←
    writeEach (readLine f64 path) Progress.store (.initial f64 metricType) 0
      (Text.lines content.toList)
  if !s.seenSome then .error (.missing path "some line") else .ok s.stats

/-! ### Tokens -/

/-- The token is `key=value`, for some value. -/
def HasKey (key : String) (token : List Char) : Prop :=
  (Text.splitOnce '=' token).map Prod.fst = some key.toList

instance (key : String) : DecidablePred (HasKey key) := fun token =>
  inferInstanceAs (Decidable ((Text.splitOnce '=' token).map Prod.fst = some key.toList))

/-- The value of a token. -/
def value (token : List Char) : Option (List Char) := (Text.splitOnce '=' token).map Prod.snd

/-- A token has one key at most. -/
theorem hasKey_unique {key key' : String} {token : List Char} (has : HasKey key token)
    (has' : HasKey key' token) : key = key' :=
  String.toList_injective (Option.some.inj (has.symm.trans has'))

section Tokens

variable {f64 : Floats F} {path : String} {token : List Char}

/-- The four keys differ, so the match has one arm for each of them. -/
theorem arms_distinct (f64 : Floats F) : ((arms f64).map fun arm => arm.key.toList).Nodup := by
  simp [arms]

/-- A token with none of the four keys stores nothing, even if it has no `=` at all. -/
theorem readToken_other (other : ∀ arm ∈ arms f64, ¬ HasKey arm.key token) :
    readToken f64 path token = .ok none := by
  rw [readToken]
  cases split : Text.splitOnce '=' token with
  | none => rfl
  | some pair =>
      have unknown : ((arms f64).find? fun arm => arm.key.toList == pair.1) = none := by
        refine List.find?_eq_none.mpr fun arm mem same => other arm mem ?_
        rw [HasKey, split, Option.map_some, eq_of_beq same]
      simp only [unknown]

/-- On a token with one of the keys, reading it is parsing its value at the type of that
key. -/
theorem readToken_eq {arm : Arm String (List Char) (Number F)} (mem : arm ∈ arms f64)
    (has : HasKey arm.key token) :
    ∃ v, value token = some v ∧
      readToken f64 path token = (do
        let n ← parseAs arm.counter v path arm.key
        return some n) := by
  obtain ⟨⟨key, v⟩, split, same⟩ := Option.map_eq_some_iff.mp has
  obtain rfl : key = arm.key.toList := same
  refine ⟨v, by rw [value, split]; rfl, ?_⟩
  rw [readToken, split]
  simp only [find?_of_nodup (arms_distinct f64) mem]

/-- If the value is a number of that type, it is stored. -/
theorem readToken_number {arm : Arm String (List Char) (Number F)} (mem : arm ∈ arms f64)
    (has : HasKey arm.key token) {n : Number F}
    (parsed : (value token).bind arm.counter = some n) :
    readToken f64 path token = .ok (some n) := by
  obtain ⟨v, found, result⟩ := @readToken_eq _ _ path _ _ mem has
  rw [found, Option.bind_some] at parsed
  rw [result, parseAs_ok parsed]
  rfl

/-- If it is not, the token fails, and with it the file. -/
theorem readToken_error {arm : Arm String (List Char) (Number F)} (mem : arm ∈ arms f64)
    (has : HasKey arm.key token) (unread : (value token).bind arm.counter = none) :
    ∃ e, readToken f64 path token = .error e := by
  obtain ⟨v, found, result⟩ := @readToken_eq _ _ path _ _ mem has
  rw [found, Option.bind_some] at unread
  obtain ⟨e, failed⟩ := @parseAs_error path _ _ _ unread arm.key
  exact ⟨e, by rw [result, failed, error_bind]⟩

/-- Tokens with a key before the `=` and a number behind it. -/
def tokens (f64 : Floats F) (path : String) :
    Keyed (List Char) String (List Char) CollectorError (Number F) where
  Has := HasKey
  unique := hasKey_unique
  argument := value
  arms := arms f64
  read := readToken f64 path
  read_other _ := readToken_other
  read_counter _ _ mem has _ := readToken_number mem has
  read_error _ _ := readToken_error

/-- The average over ten seconds, as the one slot that its token stores into. -/
def avg10 (f64 : Floats F) (path : String) : Part (tokens f64 path) Numbers.store F where
  key := "avg10"
  read := f64.parse
  entry := .avg10
  slot.get := Numbers.avg10
  slot.value
    | .avg10 n => some n
    | _ => none
  slot.get_write := by rintro s (n | n | n | n) <;> rfl
  own := by simp [tokens, arms]
  value_entry _ := rfl
  others := by simp [tokens, arms]

/-- The average over a minute, likewise. -/
def avg60 (f64 : Floats F) (path : String) : Part (tokens f64 path) Numbers.store F where
  key := "avg60"
  read := f64.parse
  entry := .avg60
  slot.get := Numbers.avg60
  slot.value
    | .avg60 n => some n
    | _ => none
  slot.get_write := by rintro s (n | n | n | n) <;> rfl
  own := by simp [tokens, arms]
  value_entry _ := rfl
  others := by simp [tokens, arms]

/-- The average over five minutes, likewise. -/
def avg300 (f64 : Floats F) (path : String) : Part (tokens f64 path) Numbers.store F where
  key := "avg300"
  read := f64.parse
  entry := .avg300
  slot.get := Numbers.avg300
  slot.value
    | .avg300 n => some n
    | _ => none
  slot.get_write := by rintro s (n | n | n | n) <;> rfl
  own := by simp [tokens, arms]
  value_entry _ := rfl
  others := by simp [tokens, arms]

/-- The total in microseconds, which unlike the averages is an integer. -/
def total (f64 : Floats F) (path : String) : Part (tokens f64 path) Numbers.store UInt64 where
  key := "total"
  read := parseU64
  entry := .total
  slot.get := Numbers.total
  slot.value
    | .total n => some n
    | _ => none
  slot.get_write := by rintro s (n | n | n | n) <;> rfl
  own := by simp [tokens, arms]
  value_entry _ := rfl
  others := by simp [tokens, arms]

end Tokens

/-! ### Lines -/

/-- The kind of the line, its first field. -/
def Kind (kind : String) (line : List Char) : Prop := (fields line).head? = some kind.toList

instance (kind : String) : DecidablePred (Kind kind) := fun line =>
  inferInstanceAs (Decidable ((fields line).head? = some kind.toList))

/-- The last token of the line with the key has the number. -/
def TokenNumber (key : String) {β : Type} (read : List Char → Option β) (line : List Char)
    (n : β) : Prop :=
  ∃ token, IsLast (HasKey key) (fields line).tail token ∧ (value token).bind read = some n

/-- The numbers are those in the tokens of the line. -/
structure FromTokens (f64 : Floats F) (line : List Char) (numbers : Numbers F) : Prop where
  avg10 : TokenNumber "avg10" f64.parse line numbers.avg10
  avg60 : TokenNumber "avg60" f64.parse line numbers.avg60
  avg300 : TokenNumber "avg300" f64.parse line numbers.avg300
  total : TokenNumber "total" parseU64 line numbers.total

/-- The line has a token for each number. -/
def HasTokens (line : List Char) : Prop :=
  ∀ key ∈ ["avg10", "avg60", "avg300", "total"], ∃ token ∈ (fields line).tail, HasKey key token

/-- The values behind the four keys are numbers. -/
def Legible (f64 : Floats F) (line : List Char) : Prop :=
  ∀ token ∈ (fields line).tail, ∀ arm ∈ arms f64, HasKey arm.key token →
    ((value token).bind arm.counter).isSome = true

section Lines

variable {f64 : Floats F} {path : String} {line : List Char}

/-- The slots, after all tokens of the line. -/
def numbers (f64 : Floats F) (path : String) (line : List Char) : Numbers F :=
  (tokens f64 path).stored Numbers.store ⟨f64.zero, f64.zero, f64.zero, 0⟩ (fields line).tail

/-- What the line has for the record. -/
def entry (f64 : Floats F) (path : String) (line : List Char) : Option (Entry F) :=
  if Kind "some" line then some (.some (numbers f64 path line))
  else if Kind "full" line then some (.full (numbers f64 path line))
  else none

/-- Behind a line that has all four tokens, each slot has the number of the last token with
its key. -/
theorem fromTokens_numbers (legible : Legible f64 line) (whole : HasTokens line) :
    FromTokens f64 line (numbers f64 path line) where
  avg10 := (avg10 f64 path).reported legible (whole _ (by simp [avg10])) _
  avg60 := (avg60 f64 path).reported legible (whole _ (by simp [avg60])) _
  avg300 := (avg300 f64 path).reported legible (whole _ (by simp [avg300])) _
  total := (total f64 path).reported legible (whole _ (by simp [total])) _

/-- On a line whose values are numbers the loop ends, with what its tokens store. -/
theorem readTokens_legible (legible : Legible f64 line) :
    readTokens f64 path (fields line).tail = .ok (numbers f64 path line) := by
  classical
  have run : writeEach (readToken f64 path) Numbers.store ⟨f64.zero, f64.zero, f64.zero, 0⟩ 0
      (fields line).tail = _ :=
    (tokens f64 path).run_ok legible _ 0
  rw [readTokens, run]
  rfl

/-- One value that is no number fails the line, wherever its token stands. -/
theorem readTokens_illegible (illegible : ¬ Legible f64 line) :
    ∃ e, readTokens f64 path (fields line).tail = .error e := by
  rw [Legible] at illegible
  push Not at illegible
  obtain ⟨token, mem, arm, inside, has, unread⟩ := illegible
  have unreadable : ¬ (tokens f64 path).Readable token :=
    fun readable => unread (readable arm inside has)
  obtain ⟨e, failed⟩ : ∃ e, writeEach (readToken f64 path) Numbers.store
      ⟨f64.zero, f64.zero, f64.zero, 0⟩ 0 (fields line).tail = .error e :=
    (tokens f64 path).run_error mem unreadable _ 0
  exact ⟨e, by rw [readTokens, failed, error_bind]⟩

/-- The tokens of every line are read, but only a line of one of the two kinds has something
for the record. -/
theorem readLine_legible (legible : Legible f64 line) :
    readLine f64 path line = .ok (entry f64 path line) := by
  simp only [readLine, readTokens_legible legible, ok_bind]
  by_cases is_some : (fields line).head? = some "some".toList
  · rw [entry, if_pos is_some, if_pos (show Kind "some" line from is_some)]
    rfl
  · rw [entry, if_neg is_some, if_neg (show ¬ Kind "some" line from is_some)]
    by_cases is_full : (fields line).head? = some "full".toList
    · rw [if_pos is_full, if_pos (show Kind "full" line from is_full)]
      rfl
    · rw [if_neg is_full, if_neg (show ¬ Kind "full" line from is_full)]
      rfl

/-- A value that is no number fails the file also on a line of another kind, since the kind
is looked at later. -/
theorem readLine_illegible (illegible : ¬ Legible f64 line) :
    ∃ e, readLine f64 path line = .error e := by
  obtain ⟨e, failed⟩ := @readTokens_illegible _ _ path _ illegible
  exact ⟨e, by simp only [readLine, failed, error_bind]⟩

/-! ### The loop over the lines -/

/-- The numbers of the record that a `some` line sets. -/
def someSlot : Slot (Progress.store (F := F)) (Numbers F) where
  get s := ⟨s.stats.someAvg10, s.stats.someAvg60, s.stats.someAvg300, s.stats.someTotalUs⟩
  value
    | .some line => some line
    | .full _ => none
  get_write := by rintro s (line | line) <;> rfl

/-- The numbers that a `full` line sets. -/
def fullSlot : Slot (Progress.store (F := F)) (Option F × Option F × Option F × Option UInt64) where
  get s := ⟨s.stats.fullAvg10, s.stats.fullAvg60, s.stats.fullAvg300, s.stats.fullTotalUs⟩
  value
    | .some _ => none
    | .full line => some (some line.avg10, some line.avg60, some line.avg300, some line.total)
  get_write := by rintro s (line | line) <;> rfl

/-- The flag `seen_some`, which a `some` line sets. -/
def seenSlot : Slot (Progress.store (F := F)) Bool where
  get := Progress.seenSome
  value
    | .some _ => some true
    | .full _ => none
  get_write := by rintro s (line | line) <;> rfl

/-- A line has one kind. -/
theorem not_full_of_some (is_some : Kind "some" line) : ¬ Kind "full" line := by
  intro is_full
  have same := is_some.symm.trans is_full
  simp at same

/-- A line has something for a slot that only one kind of entry sets. -/
theorem someSlot_valueAt (legible : Legible f64 line) :
    someSlot.valueAt (readLine f64 path) line =
      if Kind "some" line then some (numbers f64 path line) else none := by
  rw [Slot.valueAt, writeOf_of_ok (readLine_legible legible), entry]
  split_ifs <;> rfl

/-- A `full` line sets all four of its numbers at once, and a line of another kind sets
none. -/
theorem fullSlot_valueAt (legible : Legible f64 line) :
    fullSlot.valueAt (readLine f64 path) line =
      if Kind "full" line then
        some (some (numbers f64 path line).avg10, some (numbers f64 path line).avg60,
          some (numbers f64 path line).avg300, some (numbers f64 path line).total)
      else none := by
  rw [Slot.valueAt, writeOf_of_ok (readLine_legible legible), entry]
  by_cases is_some : Kind "some" line
  · rw [if_pos is_some, if_neg (not_full_of_some is_some)]
    rfl
  · rw [if_neg is_some]
    split_ifs <;> rfl

/-- It is the `some` lines that set the flag, whichever tokens they have. -/
theorem seenSlot_valueAt (legible : Legible f64 line) :
    seenSlot.valueAt (readLine f64 path) line =
      if Kind "some" line then some true else none := by
  rw [Slot.valueAt, writeOf_of_ok (readLine_legible legible), entry]
  split_ifs <;> rfl

variable {metricType content : String}

/-- What the loop leaves, if all tokens are numbers. -/
def progress (f64 : Floats F) (metricType path content : String) : Progress F :=
  ((Text.lines content.toList).filterMap (writeOf (readLine f64 path))).foldl Progress.store
    (.initial f64 metricType)

/-- The last line with something for a slot is the last of its kind. -/
theorem last_valueAt {slot : Slot (Progress.store (F := F)) β} {kind : String}
    {lines : List (List Char)} {number : List Char → β}
    (valueAt : ∀ line ∈ lines,
      slot.valueAt (readLine f64 path) line = if Kind kind line then some (number line) else none)
    (last : IsLast (Kind kind) lines line) (s : Progress F) :
    slot.get ((lines.filterMap (writeOf (readLine f64 path))).foldl Progress.store s) =
      number line := by
  obtain ⟨before, after, rfl, is_kind, later⟩ := last
  refine slot.last ⟨before, after, rfl, ?_, fun b mem => ?_⟩ ?_ s
  · simp [valueAt line (by simp), is_kind]
  · simp [valueAt b (by simp [mem]), later b mem]
  · simp [valueAt line (by simp), is_kind]

/-- Without a line of its kind, a slot keeps what the loop began with. -/
theorem untouched_valueAt {slot : Slot (Progress.store (F := F)) β} {kind : String}
    {lines : List (List Char)} {number : List Char → β}
    (valueAt : ∀ line ∈ lines,
      slot.valueAt (readLine f64 path) line = if Kind kind line then some (number line) else none)
    (none : ¬ ∃ line ∈ lines, Kind kind line) (s : Progress F) :
    slot.get ((lines.filterMap (writeOf (readLine f64 path))).foldl Progress.store s) =
      slot.get s := by
  refine slot.untouched (fun line mem => ?_) s
  rw [valueAt line mem, if_neg fun is_kind => none ⟨line, mem, is_kind⟩]

/-- Behind the loop the flag says whether the file has a `some` line. -/
theorem seenSome_iff (legible : ∀ line ∈ Text.lines content.toList, Legible f64 line) :
    (progress f64 metricType path content).seenSome = true ↔
      ∃ line ∈ Text.lines content.toList, Kind "some" line := by
  have valueAt : ∀ line ∈ Text.lines content.toList, seenSlot.valueAt (readLine f64 path) line =
      if Kind "some" line then some true else none :=
    fun line mem => seenSlot_valueAt (legible line mem)
  by_cases seen : ∃ line ∈ Text.lines content.toList, Kind "some" line
  · obtain ⟨line, mem, is_some⟩ := seen
    obtain ⟨last, final⟩ := exists_isLast mem is_some
    exact iff_of_true (last_valueAt valueAt final _) ⟨line, mem, is_some⟩
  · have unseen : (progress f64 metricType path content).seenSome = false :=
      untouched_valueAt valueAt seen _
    simp [unseen, seen]

/-- When a file is read, and what is then in the record. -/
theorem parse_ok_iff {stats : PressureStats F} :
    parse f64 metricType path content = .ok stats ↔
      (∀ line ∈ Text.lines content.toList, Legible f64 line) ∧
        (∃ line ∈ Text.lines content.toList, Kind "some" line) ∧
        (progress f64 metricType path content).stats = stats := by
  by_cases legible : ∀ line ∈ Text.lines content.toList, Legible f64 line
  · have run := @writeEach_ok _ _ _ _ (readLine f64 path) Progress.store (Text.lines content.toList)
      (fun line mem => ⟨_, readLine_legible (legible line mem)⟩) (.initial f64 metricType) 0
    have result : parse f64 metricType path content =
        if !(progress f64 metricType path content).seenSome then
          .error (.missing path "some line")
        else .ok (progress f64 metricType path content).stats := by
      rw [parse, run]
      rfl
    rw [result, and_iff_right legible, ← @seenSome_iff _ _ path metricType _ legible]
    cases (progress f64 metricType path content).seenSome <;> simp
  · refine iff_of_false (fun parsed => ?_) fun whole => legible whole.1
    push Not at legible
    obtain ⟨line, mem, illegible⟩ := legible
    obtain ⟨e, failed⟩ := @writeEach_error _ _ _ _ (readLine f64 path) Progress.store _ _ mem
      (readLine_illegible illegible) (.initial f64 metricType) 0
    rw [parse, failed, error_bind] at parsed
    cases parsed

end Lines

/-! ### What is reported -/

/-- The numbers of the last `some` line, from its tokens. -/
def SomeReported (f64 : Floats F) (content : String) (stats : PressureStats F) : Prop :=
  ∃ line, IsLast (Kind "some") (Text.lines content.toList) line ∧
    FromTokens f64 line
      ⟨stats.someAvg10, stats.someAvg60, stats.someAvg300, stats.someTotalUs⟩

/-- The numbers of the last `full` line, from its tokens; nothing if there is no such line. -/
def FullReported (f64 : Floats F) (content : String) (stats : PressureStats F) : Prop :=
  (∀ line, IsLast (Kind "full") (Text.lines content.toList) line →
    ∃ numbers, FromTokens f64 line numbers ∧ stats.fullAvg10 = some numbers.avg10 ∧
      stats.fullAvg60 = some numbers.avg60 ∧ stats.fullAvg300 = some numbers.avg300 ∧
      stats.fullTotalUs = some numbers.total) ∧
  ((¬ ∃ line ∈ Text.lines content.toList, Kind "full" line) →
    stats.fullAvg10 = none ∧ stats.fullAvg60 = none ∧ stats.fullAvg300 = none ∧
      stats.fullTotalUs = none)

/-- A pressure line. -/
def IsPressure (line : List Char) : Prop := Kind "some" line ∨ Kind "full" line

/-- What is reported is in the file, and a pressure line without one of its tokens is an error. -/
def Accurate (f64 : Floats F) (metricType path content : String) : Prop :=
  (∀ stats, parse f64 metricType path content = .ok stats →
    SomeReported f64 content stats ∧ FullReported f64 content stats) ∧
  ∀ line ∈ Text.lines content.toList, IsPressure line → ¬ HasTokens line →
    ∃ e, parse f64 metricType path content = .error e

section Reported

variable {f64 : Floats F} {metricType path content : String}
  (legible : ∀ line ∈ Text.lines content.toList, Legible f64 line)
  (whole : ∀ line ∈ Text.lines content.toList, IsPressure line → HasTokens line)
include legible whole

/-- If every pressure line has its four tokens, the record has the numbers of the last `some`
line. -/
theorem someReported (seen : ∃ line ∈ Text.lines content.toList, Kind "some" line) :
    SomeReported f64 content (progress f64 metricType path content).stats := by
  obtain ⟨line, mem, is_some⟩ := seen
  obtain ⟨last, final⟩ := exists_isLast mem is_some
  have inside : last ∈ Text.lines content.toList := final.mem
  have numbers : someSlot.get (progress f64 metricType path content) = numbers f64 path last :=
    last_valueAt (fun line mem => someSlot_valueAt (legible line mem)) final _
  refine ⟨last, final, ?_⟩
  have tokens := @fromTokens_numbers _ _ path _ (legible last inside)
    (whole last inside (.inl final.holds))
  rwa [← numbers] at tokens

/-- Likewise for the `full` line; and if there is none, its numbers are absent. -/
theorem fullReported : FullReported f64 content (progress f64 metricType path content).stats := by
  have valueAt := fun line mem => @fullSlot_valueAt _ _ path _ (legible line mem)
  constructor
  · intro line last
    have inside : line ∈ Text.lines content.toList := last.mem
    have numbers : fullSlot.get (progress f64 metricType path content) = _ :=
      last_valueAt valueAt last _
    refine ⟨_, @fromTokens_numbers _ _ path _ (legible line inside)
      (whole line inside (.inr last.holds)), ?_⟩
    simpa [fullSlot] using numbers
  · intro none
    have untouched : fullSlot.get (progress f64 metricType path content) = _ :=
      untouched_valueAt valueAt none _
    simpa [fullSlot, Progress.initial] using untouched

end Reported

/-- What the parser accepts is accurate, unless a pressure line lacks a token. -/
theorem accurate_iff (f64 : Floats F) (metricType path content : String) :
    Accurate f64 metricType path content ↔
      (∀ line ∈ Text.lines content.toList, IsPressure line → HasTokens line) ∨
        (¬ ∃ line ∈ Text.lines content.toList, Kind "some" line) ∨
        ∃ line ∈ Text.lines content.toList, ¬ Legible f64 line := by
  constructor
  · rintro ⟨-, missing⟩
    by_contra neither
    push Not at neither
    obtain ⟨⟨line, mem, pressure, lacking⟩, seen, legible⟩ := neither
    obtain ⟨e, failed⟩ := missing line mem pressure lacking
    have parsed := (@parse_ok_iff _ f64 path metricType content _).mpr ⟨legible, seen, rfl⟩
    cases parsed.symm.trans failed
  · intro fine
    constructor
    · intro stats parsed
      obtain ⟨legible, seen, rfl⟩ := parse_ok_iff.mp parsed
      rcases fine with whole | unseen | ⟨line, mem, illegible⟩
      · exact ⟨someReported legible whole seen, fullReported legible whole⟩
      · exact absurd seen unseen
      · exact absurd (legible line mem) illegible
    · intro line mem pressure lacking
      cases result : parse f64 metricType path content with
      | error e => exact ⟨e, rfl⟩
      | ok stats =>
          obtain ⟨legible, seen, -⟩ := parse_ok_iff.mp result
          rcases fine with whole | unseen | ⟨line, mem, illegible⟩
          · exact absurd (whole line mem pressure) lacking
          · exact absurd seen unseen
          · exact absurd (legible line mem) illegible

/-- Whatever reads an `f64`, a line with only a `total` is read. -/
theorem not_accurate :
    ¬ ∃ (F : Type) (f64 : Floats F), ∀ metricType path content,
      Accurate f64 metricType path content := by
  rintro ⟨F, f64, claim⟩
  have lines : Text.lines "some total=5\n".toList = ["some total=5".toList] := rfl
  have tail : (fields "some total=5".toList).tail = ["total=5".toList] := rfl
  have key : HasKey "total" "total=5".toList := rfl
  have legible : Legible f64 "some total=5".toList := by
    intro token mem arm inside has
    rw [tail] at mem
    obtain rfl := List.mem_singleton.mp mem
    have same := hasKey_unique has key
    simp only [arms, List.mem_cons, List.not_mem_nil, or_false] at inside
    rcases inside with rfl | rfl | rfl | rfl
    · simp at same
    · simp at same
    · simp at same
    · rfl
  have lacking : ¬ HasTokens "some total=5".toList := by
    intro whole
    obtain ⟨token, mem, has⟩ := whole "avg10" List.mem_cons_self
    rw [tail] at mem
    obtain rfl := List.mem_singleton.mp mem
    have same := hasKey_unique has key
    simp at same
  have seen : "some total=5".toList ∈ Text.lines "some total=5\n".toList := by
    rw [lines]
    exact List.mem_singleton_self _
  have all : ∀ line ∈ Text.lines "some total=5\n".toList, Legible f64 line := by
    rw [lines]
    exact List.forall_mem_singleton.mpr legible
  have parsed := (@parse_ok_iff _ f64 "p" "cpu" "some total=5\n" _).mpr
    ⟨all, ⟨_, seen, rfl⟩, rfl⟩
  obtain ⟨e, failed⟩ := (claim "cpu" "p" "some total=5\n").2 _ seen (.inl rfl) lacking
  cases parsed.symm.trans failed

end BlazeBee.Collectors.Pressure
