import BlazeBee.Collectors.Fields
import BlazeBee.Collectors.Procfs
import BlazeBee.Lib.Columns
import BlazeBee.Lib.Decimal
import BlazeBee.Lib.Num

/-!
Software RAID arrays from `/proc/mdstat`.

The parser goes through the lines one by one. A line of a device begins a record, and the
others change the last one. How a percentage is read as an `f64` is a parameter.

* `parse_arrays`: the arrays are read back, whatever lines stand between theirs.
* `oddArray_misread`: an array whose text, member or progress line looks like something else.
-/

namespace BlazeBee.Collectors.MdRaid

open BlazeBee.Lib BlazeBee.Lib.Columns BlazeBee.Lib.Decimal BlazeBee.Lib.Num

/-- An array, from the line of its device and the lines behind that. -/
structure MdRaidStats (F : Type) where
  device : String
  /-- `raid1`, `raid5`, `linear`, ... or empty for inactive arrays. -/
  level : String
  /-- `active`, `inactive`, `active (auto-read-only)`, ... -/
  state : String
  /-- Working member devices (`m` in `[n/m]`). -/
  activeDevices : UInt32
  /-- Member slots of the array (`n` in `[n/m]`). -/
  totalDevices : UInt32
  failedDevices : UInt32
  spareDevices : UInt32
  degraded : Bool
  syncAction : Option String
  /-- Progress of `syncAction` in percent. -/
  syncProgress : Option F
deriving DecidableEq, Repr

/-- `is_level`: the word that ends the state of an array. -/
def isLevel (token : List Char) : Bool :=
  "raid".toList.isPrefixOf token || token == "linear".toList || token == "multipath".toList ||
    token == "faulty".toList

/-- What the loop over the tokens of a device's line has found. -/
structure Scan where
  state : List Char
  level : List Char
  failed : UInt32
  spare : UInt32
  members : UInt32

/-- A turn of that loop; the counts wrap, as in a release build. -/
def scanToken (scan : Scan) (token : List Char) : Scan :=
  if token.contains '[' then
    { scan with
      members := scan.members + 1
      failed := if Text.containsStr "(F)".toList token then scan.failed + 1 else scan.failed
      spare := if Text.containsStr "(S)".toList token then scan.spare + 1 else scan.spare }
  else if scan.level.isEmpty && isLevel token then { scan with level := token }
  else if scan.level.isEmpty then
    { scan with
      state := (if scan.state.isEmpty then scan.state else scan.state ++ [' ']) ++ token }
  else scan

variable {F : Type}

/-- The record that the line of a device begins. -/
def parseDevice (line : List Char) : MdRaidStats F :=
  let f := fields line
  let scan := (f.drop 2).foldl scanToken ⟨[], [], 0, 0, 0⟩
  { device := String.ofList (f.headD [])
    level := String.ofList scan.level
    state := String.ofList scan.state
    totalDevices := scan.members
    activeDevices := u32SaturatingSub (u32SaturatingSub scan.members scan.failed) scan.spare
    failedDevices := scan.failed
    spareDevices := scan.spare
    degraded := false
    syncAction := none
    syncProgress := none }

/-- `n` and `m` of the first `[n/m]` behind a blank. -/
def parseGeometry (trimmed : List Char) : Option (UInt32 × UInt32) := do
  let (_, tail) ← Text.findStr " [".toList trimmed
  let geometry := tail.drop 2
  let (n, rest) ← Text.splitOnce '/' geometry
  let (m, _) ← Text.splitOnce ']' rest
  let n ← parseU32 n
  let m ← parseU32 m
  return (n, m)

/-- The four actions whose progress the file can show. -/
inductive Action where
  | recovery
  | resync
  | reshape
  | check
deriving DecidableEq, Repr

/-- The name of an action, as the file has it and as the record has it. -/
def Action.name : Action → String
  | .recovery => "recovery"
  | .resync => "resync"
  | .reshape => "reshape"
  | .check => "check"

/-- The order in which the parser looks for them. -/
def actions : List Action := [.recovery, .resync, .reshape, .check]

/-- `format!("{action} =")`. -/
def Action.pattern (action : Action) : List Char := action.name.toList ++ " =".toList

section Parse

variable (parseF64 : List Char → Option F)

/-- The first of the actions that the line names, and its percentage. -/
def parseProgress (trimmed : List Char) : Option (Action × Option F) :=
  actions.findSome? fun action =>
    (Text.findStr action.pattern trimmed).map fun (_, tail) =>
      let after := tail.drop (action.name.length + 2)
      let pct := ((after.dropWhile Text.isWhitespace).splitOn '%').head?.bind fun p =>
        parseF64 (Text.trim (String.ofList p)).toList
      (action, pct)

/-- What another line does to the last record. -/
def update (current : MdRaidStats F) (line : List Char) : MdRaidStats F :=
  let trimmed := line.dropWhile Text.isWhitespace
  if Text.containsStr " blocks ".toList trimmed then
    match parseGeometry trimmed with
    | some (n, m) =>
        { current with totalDevices := n, activeDevices := m, degraded := m < n }
    | none => current
  else
    match parseProgress parseF64 trimmed with
    | some (action, pct) =>
        { current with syncAction := some action.name, syncProgress := pct }
    | none => current

/-- A turn of the loop over the lines. -/
def step (stats : List (MdRaidStats F)) (line : List Char) : List (MdRaidStats F) :=
  if "md".toList.isPrefixOf line && Text.containsStr " : ".toList line then
    stats ++ [parseDevice line]
  else
    match stats.getLast? with
    | none => stats
    | some current => stats.dropLast ++ [update parseF64 current line]

/-- `mdraid::parse`. It cannot fail: a line that it makes nothing of is passed over. -/
def parse (content : String) : List (MdRaidStats F) :=
  (Text.lines content.toList).foldl (step parseF64) []

end Parse

/-! ### Arrays as the kernel writes them -/

/-- A member: `name[index]` with flags behind it. -/
structure Member where
  gap : Nat
  name : List Char
  index : Nat
  flags : List Char
  name_free : ∀ c ∈ name, Text.isAsciiWhitespace c = false
  flags_free : ∀ c ∈ flags, Text.isAsciiWhitespace c = false

/-- The token of a member, with its role in brackets between its name and its flags. -/
def Member.column (m : Member) : Column :=
  ⟨m.gap, m.name ++ '[' :: (decimal m.index ++ ']' :: m.flags)⟩

/-- The member has the flag, behind its role. -/
def Member.flagged (flag : List Char) (m : Member) : Bool := Text.containsStr flag m.flags

/-- `[n/m] map`. -/
structure Geometry where
  n : UInt32
  m : UInt32
  map : List Char
  newline : '\n' ∉ map

/-- The numbers of slots and of working members in brackets, and the map behind them. -/
def Geometry.render (g : Geometry) : List Char :=
  " [".toList ++ (decimal g.n.toNat ++ '/' :: (decimal g.m.toNat ++ ']' :: ' ' :: g.map))

/-- The line with the number of blocks. -/
structure Blocks where
  indent : Nat
  count : Nat
  /-- What stands between `blocks` and the geometry, from the blank on. -/
  text : List Char
  geometry : Option Geometry
  newline : '\n' ∉ text
  shape : (∃ words, text = ' ' :: words ∧ ¬ " [".toList <:+: words) ∨
    text = [] ∧ geometry.isSome = true

/-- The indented number of blocks, then the text, then the geometry. -/
def Blocks.line (b : Blocks) : List Char :=
  blanks b.indent ++ (decimal b.count ++ (" blocks".toList ++
    (b.text ++ b.geometry.elim [] Geometry.render)))

/-- A bar or whatever leads, the action with its equals sign, and the percentage up to the
percent sign. -/
def progressLine (lead : List Char) (action : Action) (gap : Nat) (pct rest : List Char) :
    List Char :=
  lead ++ (action.pattern ++ (blanks gap ++ (pct ++ '%' :: rest)))

/-- The line with the progress of an action, and of no other one. -/
structure Progress where
  lead : List Char
  action : Action
  gap : Nat
  pct : List Char
  rest : List Char
  newline : '\n' ∉ progressLine lead action gap pct rest
  other : ¬ "md".toList <+: progressLine lead action gap pct rest
  once : ∀ a : Action, Text.occurrences a.pattern (progressLine lead action gap pct rest) =
    if a = action then 1 else 0
  trimmed : Text.Trimmed pct
  percent : '%' ∉ pct

/-- The line of the progress. -/
def Progress.line (p : Progress) : List Char := progressLine p.lead p.action p.gap p.pct p.rest

/-- A line that is passed over. -/
structure Passed where
  line : List Char
  newline : '\n' ∉ line
  other : ¬ "md".toList <+: line
  blocks : ¬ " blocks ".toList <:+: line
  action : ∀ a : Action, ¬ a.pattern <:+: line

/-- An array as the file describes it: the line of its device, the line of its blocks, and
perhaps a progress among lines that say nothing to the parser. -/
structure MdArray where
  device : List Char
  colon : Nat
  word : Column
  words : List Column
  level : Option Column
  members : List Member
  blocks : Blocks
  between : List Passed
  progress : Option Progress
  after : List Passed
  device_field : IsField device
  device_md : "md".toList <+: device
  state : ∀ w ∈ word :: words, IsField w.text ∧ '[' ∉ w.text ∧ isLevel w.text = false
  level_name : ∀ l ∈ level, IsField l.text ∧ '[' ∉ l.text ∧ isLevel l.text = true

namespace MdArray

/-- The columns behind the colon. -/
def columns (a : MdArray) : List Column :=
  (a.word :: a.words) ++ a.level.toList ++ a.members.map Member.column

/-- The line of the device: name, colon, state, level and members. -/
def header (a : MdArray) : List Char := row 0 a.device (⟨a.colon, [':']⟩ :: a.columns)

/-- The lines behind that, up to the next device. -/
def body (a : MdArray) : List (List Char) :=
  a.blocks.line :: (a.between.map Passed.line ++ a.progress.toList.map Progress.line ++
    a.after.map Passed.line)

/-- All lines of the array. -/
def lines (a : MdArray) : List (List Char) := a.header :: a.body

/-- The members with the flag. The counter of the loop wraps at its 32 bits. -/
def count (flag : List Char) (a : MdArray) : UInt32 :=
  UInt32.ofNat (a.members.countP (Member.flagged flag))

/-- The numbers of members, without a geometry. -/
def total (a : MdArray) : UInt32 := UInt32.ofNat a.members.length

/-- The members without the failed and the spare ones, as the header alone tells them. -/
def active (a : MdArray) : UInt32 :=
  u32SaturatingSub (u32SaturatingSub a.total (a.count "(F)".toList)) (a.count "(S)".toList)

/-- The record of the array. -/
def stats (parseF64 : List Char → Option F) (a : MdArray) : MdRaidStats F where
  device := String.ofList a.device
  level := String.ofList (a.level.elim [] Column.text)
  state := String.ofList ([' '].intercalate ((a.word :: a.words).map Column.text))
  activeDevices := a.blocks.geometry.elim a.active Geometry.m
  totalDevices := a.blocks.geometry.elim a.total Geometry.n
  failedDevices := a.count "(F)".toList
  spareDevices := a.count "(S)".toList
  degraded := a.blocks.geometry.elim false fun g => g.m < g.n
  syncAction := a.progress.map fun p => p.action.name
  syncProgress := a.progress.bind fun p => parseF64 p.pct

/-- Nothing looks like something else: the name of a member like a flag, the text before
the geometry like a geometry, the progress like the number of blocks. -/
structure Plain (a : MdArray) : Prop where
  names : ∀ m ∈ a.members, ¬ "(F)".toList <:+: m.name ∧ ¬ "(S)".toList <:+: m.name
  text : ¬ " [".toList <:+: a.blocks.text
  progress : ∀ p ∈ a.progress, ¬ " blocks ".toList <:+: p.line

end MdArray

/-- A line in front of the arrays. -/
abbrev Preceding : Type := { line : List Char // '\n' ∉ line ∧ ¬ "md".toList <+: line }

/-- The file, with the arrays one behind the other. -/
def render (head : List Preceding) (arrays : List MdArray) : String :=
  String.ofList (unlines (head.map Subtype.val ++ arrays.flatMap MdArray.lines))

/-! ### The line of a device -/

/-- A member is one token. -/
theorem Member.isField (m : Member) : IsField m.column.text where
  nonempty := List.append_ne_nil_of_right_ne_nil _ (List.cons_ne_nil _ _)
  free := by
    have index : ∀ c ∈ decimal m.index, Text.isAsciiWhitespace c = false :=
      fun c mem => (isField_decimal m.index).free c mem
    simp only [Member.column, List.forall_mem_append, List.forall_mem_cons]
    exact ⟨m.name_free, rfl, index, rfl, m.flags_free⟩

/-- A member has its role in brackets, which is how the loop recognises it. -/
theorem Member.bracket (m : Member) : m.column.text.contains '[' = true := by
  simp [Member.column]

/-- A flag is in a member's token if it is among its flags. -/
theorem Member.containsStr_flag {flag : List Char} {m : Member} (own : ¬ flag <:+: m.name)
    (digit : ∃ c ∈ flag, c.isDigit = false) (open_free : '[' ∉ flag) (close_free : ']' ∉ flag) :
    Text.containsStr flag m.column.text = m.flagged flag := by
  have index : ¬ flag <:+: decimal m.index := by
    intro within
    obtain ⟨c, mem, other⟩ := digit
    cases other.symm.trans (isDigit_of_mem_decimal (within.subset mem))
  rw [Bool.eq_iff_iff, Member.flagged, Text.containsStr_iff, Text.containsStr_iff, Member.column,
    Text.infix_append_cons_iff open_free, Text.infix_append_cons_iff close_free]
  simp only [own, index, false_or]

/-- A member is counted, and each of the two flags is counted if the member has it, as long
as its name does not contain them. -/
theorem scanToken_member (scan : Scan) {m : Member}
    (own : ¬ "(F)".toList <:+: m.name ∧ ¬ "(S)".toList <:+: m.name) :
    scanToken scan m.column.text =
      { scan with
        members := scan.members + 1
        failed := if m.flagged "(F)".toList then scan.failed + 1 else scan.failed
        spare := if m.flagged "(S)".toList then scan.spare + 1 else scan.spare } := by
  have failed := Member.containsStr_flag own.1 ⟨'(', by simp, rfl⟩ (by simp) (by simp)
  have spare := Member.containsStr_flag own.2 ⟨'(', by simp, rfl⟩ (by simp) (by simp)
  rw [scanToken, if_pos m.bracket, failed, spare]

/-- The members are counted, and those with a flag. -/
theorem foldl_members {members : List Member}
    (own : ∀ m ∈ members, ¬ "(F)".toList <:+: m.name ∧ ¬ "(S)".toList <:+: m.name) (scan : Scan) :
    (members.map fun m => m.column.text).foldl scanToken scan =
      { scan with
        members := scan.members + UInt32.ofNat members.length
        failed := scan.failed + UInt32.ofNat (members.countP (Member.flagged "(F)".toList))
        spare := scan.spare + UInt32.ofNat (members.countP (Member.flagged "(S)".toList)) } := by
  induction members generalizing scan with
  | nil => simp
  | cons m members ih =>
      obtain ⟨here, later⟩ := List.forall_mem_cons.mp own
      have one_more : ∀ (x : UInt32) (n : Nat),
          x + 1 + UInt32.ofNat n = x + UInt32.ofNat (n + 1) := by
        intro x n
        rw [UInt32.add_assoc, UInt32.add_comm 1, UInt32.ofNat_add]
        rfl
      have counted : ∀ (flag : Bool) (x : UInt32) (n : Nat),
          (if flag then x + 1 else x) + UInt32.ofNat n =
            x + UInt32.ofNat (n + if flag then 1 else 0) := by
        intro flag x n
        cases flag with
        | true => exact one_more x n
        | false => rfl
      rw [List.map_cons, List.foldl_cons, scanToken_member scan here, ih later, List.length_cons,
        List.countP_cons, List.countP_cons, ← one_more, ← counted, ← counted]

/-- A word before the level, which is no member and no level itself, goes to the end of the
state. -/
theorem scanToken_word {scan : Scan} {w : List Char} (no_level : scan.level = [])
    (bracket : '[' ∉ w) (other : isLevel w = false) :
    scanToken scan w =
      { scan with
        state := (if scan.state.isEmpty then scan.state else scan.state ++ [' ']) ++ w } := by
  have no_bracket : w.contains '[' = false := by simpa using bracket
  simp only [scanToken, no_bracket, other, no_level, List.isEmpty_nil, Bool.and_false,
    Bool.false_eq_true, if_false, if_true]

/-- The words of the state are joined. -/
theorem foldl_words {words : List Column} {w : List Char} (nonempty : w ≠ [])
    (state : ∀ w ∈ words, IsField w.text ∧ '[' ∉ w.text ∧ isLevel w.text = false) :
    (words.map Column.text).foldl scanToken ⟨w, [], 0, 0, 0⟩ =
      ⟨[' '].intercalate (w :: words.map Column.text), [], 0, 0, 0⟩ := by
  induction words generalizing w with
  | nil => rw [List.map_nil, List.foldl_nil, List.intercalate_singleton]
  | cons next words ih =>
      obtain ⟨⟨field, bracket, other⟩, later⟩ := List.forall_mem_cons.mp state
      have started : w.isEmpty = false := List.isEmpty_eq_false_iff.mpr nonempty
      have joined : w ++ [' '] ++ next.text ≠ [] :=
        List.append_ne_nil_of_right_ne_nil _ field.nonempty
      rw [List.map_cons, List.foldl_cons, scanToken_word rfl bracket other]
      simp only [started, Bool.false_eq_true, if_false, ih joined later]
      rw [List.intercalate_cons_cons]
      cases words with
      | nil => rw [List.map_nil, List.intercalate_singleton, List.intercalate_singleton]
      | cons after words =>
          rw [List.map_cons, List.intercalate_cons_cons, List.intercalate_cons_cons]
          simp only [List.append_assoc]

namespace MdArray

variable (a : MdArray)

/-- The colon and the columns behind it are fields. -/
theorem columns_fields :
    ∀ column ∈ (⟨a.colon, [':']⟩ : Column) :: a.columns, IsField column.text := by
  refine List.forall_mem_cons.mpr ⟨⟨List.cons_ne_nil _ _, by simp; rfl⟩, ?_⟩
  intro column mem
  rcases List.mem_append.mp mem with mem | mem
  · rcases List.mem_append.mp mem with mem | mem
    · exact (a.state column mem).1
    · exact (a.level_name column (by simpa using mem)).1
  · obtain ⟨m, -, rfl⟩ := List.mem_map.mp mem
    exact m.isField

/-- The fields of the header are the device, the colon and the texts of the columns. -/
theorem fields_header :
    fields a.header = a.device :: [':'] :: a.columns.map Column.text :=
  splitAsciiWhitespace_row a.device_field a.columns_fields

/-- What the loop over the tokens finds. -/
theorem scan_columns {a : MdArray} (plain : a.Plain) :
    (a.columns.map Column.text).foldl scanToken ⟨[], [], 0, 0, 0⟩ =
      ⟨[' '].intercalate ((a.word :: a.words).map Column.text), a.level.elim [] Column.text,
        a.count "(F)".toList, a.count "(S)".toList, a.total⟩ := by
  obtain ⟨⟨field, bracket, other⟩, later⟩ := List.forall_mem_cons.mp a.state
  have words : ((a.word :: a.words).map Column.text).foldl scanToken ⟨[], [], 0, 0, 0⟩ =
      ⟨[' '].intercalate ((a.word :: a.words).map Column.text), [], 0, 0, 0⟩ := by
    rw [List.map_cons, List.foldl_cons, scanToken_word rfl bracket other]
    exact foldl_words field.nonempty later
  have level : ∀ state : List Char,
      (a.level.toList.map Column.text).foldl scanToken ⟨state, [], 0, 0, 0⟩ =
        ⟨state, a.level.elim [] Column.text, 0, 0, 0⟩ := by
    intro state
    cases found : a.level with
    | none => rfl
    | some l =>
        obtain ⟨-, bracket, is_level⟩ := a.level_name l found
        simp [scanToken, bracket, is_level]
  rw [columns, List.map_append, List.map_append, List.foldl_append, List.foldl_append, words,
    level, List.map_map]
  have members := foldl_members plain.names
    ⟨[' '].intercalate ((a.word :: a.words).map Column.text), a.level.elim [] Column.text, 0, 0, 0⟩
  simp only [UInt32.zero_add] at members
  exact members

/-- The record that the header begins: what comes from the other lines is not in it yet. -/
def begun (a : MdArray) : MdRaidStats F where
  device := String.ofList a.device
  level := String.ofList (a.level.elim [] Column.text)
  state := String.ofList ([' '].intercalate ((a.word :: a.words).map Column.text))
  activeDevices := a.active
  totalDevices := a.total
  failedDevices := a.count "(F)".toList
  spareDevices := a.count "(S)".toList
  degraded := false
  syncAction := none
  syncProgress := none

/-- The header of a plain array begins the record that the array's own description gives. -/
theorem parseDevice_header {a : MdArray} (plain : a.Plain) :
    parseDevice a.header = (a.begun : MdRaidStats F) := by
  simp only [parseDevice, a.fields_header, List.drop_succ_cons, List.drop_zero,
    scan_columns plain, List.headD_cons]
  rfl

/-- The header is one line, and no carriage return is stripped from it. -/
theorem header_clean : '\n' ∉ a.header ∧ '\r' ∉ a.header :=
  row_clean a.device_field a.columns_fields

/-- The header begins with `md`, as the device does. -/
theorem header_starts : "md".toList <+: a.header := by
  rw [header, row, blanks, List.replicate_zero, List.nil_append]
  exact a.device_md.trans (List.prefix_append _ _)

/-- There are blanks around the colon. -/
theorem header_colon : " : ".toList <:+: a.header := by
  have before : ∀ n, blanks (n + 1) = blanks n ++ [' '] := fun n => List.replicate_succ'
  have after : ∀ n, blanks (n + 1) = ' ' :: blanks n := fun n => List.replicate_succ
  refine ⟨a.device ++ blanks a.colon, blanks a.word.gap ++ (a.word.text ++
    renderColumns (a.words ++ a.level.toList ++ a.members.map Member.column)), ?_⟩
  simp only [header, row, columns, renderColumns, List.cons_append, List.flatMap_cons,
    Column.render, before a.colon, after a.word.gap, List.append_assoc]
  rfl

end MdArray

/-! ### The line of the blocks -/

/-- Where the indentation ends. -/
theorem dropWhile_indent (n k : Nat) (s : List Char) :
    (blanks n ++ (decimal k ++ s)).dropWhile Text.isWhitespace = decimal k ++ s := by
  obtain ⟨d, digits, split, digit⟩ := exists_decimal_eq_cons k
  have visible := Text.isWhitespace_eq_false_of_isDigit digit
  rw [List.dropWhile_append_of_pos (blanks_isWhitespace n), split, List.cons_append,
    List.dropWhile_cons_of_neg (by simp [visible])]

/-- A line that begins with blanks and a number is not taken for a device. -/
theorem not_md_indent (n k : Nat) (s : List Char) :
    ¬ "md".toList <+: blanks n ++ (decimal k ++ s) := by
  intro starts
  obtain ⟨d, digits, split, digit⟩ := exists_decimal_eq_cons k
  cases n with
  | zero =>
      rw [split] at starts
      obtain ⟨rfl, -⟩ := List.cons_prefix_cons.mp starts
      cases digit
  | succ n => cases (List.cons_prefix_cons.mp starts).1

/-- There is no geometry before the one of the line. -/
theorem no_geometry {text : List Char} (plain : ¬ " [".toList <:+: text) (k : Nat) :
    ¬ " [".toList <:+: decimal k ++ (" blocks".toList ++ text) := by
  have split : decimal k ++ (" blocks".toList ++ text) =
      (decimal k ++ " block".toList) ++ 's' :: text := by
    rw [List.append_assoc]
    rfl
  rw [split, Text.infix_append_cons_iff (by simp), not_or]
  refine ⟨fun within => ?_, plain⟩
  rcases List.mem_append.mp (within.subset (by simp : '[' ∈ " [".toList)) with mem | mem
  · cases isDigit_of_mem_decimal mem
  · simp at mem

/-- A blank at the end of the text brings in no geometry: what it begins is not closed by
it. -/
theorem no_geometry_concat {text : List Char} (plain : ¬ " [".toList <:+: text) :
    ¬ " [".toList <:+: text ++ [' '] := by
  rw [List.infix_concat_iff, not_or]
  refine ⟨fun ends => ?_, plain⟩
  rcases List.suffix_concat_iff.mp ends with empty | ⟨front, same, -⟩
  · cases empty
  · have last := congrArg List.getLast? same
    rw [List.getLast?_concat] at last
    cases last

/-- The geometry behind a text without one is found, and its two numbers are read back. -/
theorem parseGeometry_render {text : List Char} (plain : ¬ " [".toList <:+: text) (k : Nat)
    (g : Geometry) :
    parseGeometry (decimal k ++ (" blocks".toList ++ (text ++ g.render))) = some (g.n, g.m) := by
  have found : Text.findStr " [".toList (decimal k ++ (" blocks".toList ++ (text ++ g.render))) =
      some (decimal k ++ (" blocks".toList ++ text), g.render) := by
    have first := Text.findStr_append (no_geometry_concat (no_geometry plain k))
      (decimal g.n.toNat ++ '/' :: (decimal g.m.toNat ++ ']' :: ' ' :: g.map))
    simp only [List.append_assoc] at first
    exact first
  have n : '/' ∉ decimal g.n.toNat := fun mem => by cases isDigit_of_mem_decimal mem
  have m : ']' ∉ decimal g.m.toNat := fun mem => by cases isDigit_of_mem_decimal mem
  have behind : g.render.drop 2 =
      decimal g.n.toNat ++ '/' :: (decimal g.m.toNat ++ ']' :: ' ' :: g.map) := rfl
  simp only [parseGeometry, found, behind, Option.bind_eq_bind, Option.bind_some,
    Text.splitOnce_append n, Text.splitOnce_append m, parseU32_decimal, Option.pure_def]

/-- A line without a geometry has none found in its text. -/
theorem parseGeometry_none {text : List Char} (plain : ¬ " [".toList <:+: text) (k : Nat) :
    parseGeometry (decimal k ++ (" blocks".toList ++ text)) = none := by
  rw [parseGeometry, Text.findStr_eq_none_iff.mpr (no_geometry plain k)]
  rfl

/-- A carriage return at the end of the map is stripped with the line, and the two numbers
stay. -/
theorem Geometry.stripCr_render (g : Geometry) :
    ∃ g' : Geometry, Text.stripCr g.render = g'.render ∧ g'.n = g.n ∧ g'.m = g.m := by
  have split : g.render = " [".toList ++ (decimal g.n.toNat ++ '/' :: (decimal g.m.toNat ++
      [']'])) ++ [' '] ++ g.map := by
    simp only [Geometry.render, List.append_assoc, List.cons_append, List.nil_append]
  have newline : '\n' ∉ Text.stripCr g.map := fun mem =>
    g.newline ((Text.stripCr_isPrefix g.map).subset mem)
  refine ⟨{ g with map := Text.stripCr g.map, newline := newline }, ?_, rfl, rfl⟩
  rw [split, Text.stripCr_append (by rw [List.getLast?_concat]; nofun)]
  simp only [Geometry.render, List.append_assoc, List.cons_append, List.nil_append]

namespace Blocks

/-- The blocks are one line. -/
theorem newline_line (b : Blocks) : '\n' ∉ b.line := by
  have digits : ∀ n, '\n' ∉ decimal n := fun n => (isField_decimal n).not_mem rfl
  have geometry : '\n' ∉ b.geometry.elim [] Geometry.render := by
    cases b.geometry with
    | none => exact List.not_mem_nil
    | some g => simp [Geometry.render, digits, g.newline]
  simp [line, not_mem_blanks, digits, b.newline, geometry]

/-- Without its indentation the line begins with the number, and a carriage return is only
stripped behind the word. -/
theorem trim_line (indent k : Nat) (t : List Char) :
    (Text.stripCr (blanks indent ++ (decimal k ++ (" blocks".toList ++ t)))).dropWhile
        Text.isWhitespace = decimal k ++ (" blocks".toList ++ Text.stripCr t) := by
  have split : blanks indent ++ (decimal k ++ (" blocks".toList ++ t)) =
      blanks indent ++ (decimal k ++ " block".toList) ++ ['s'] ++ t := by
    simp only [List.append_assoc]
    rfl
  have join : blanks indent ++ (decimal k ++ " block".toList) ++ ['s'] ++ Text.stripCr t =
      blanks indent ++ (decimal k ++ (" blocks".toList ++ Text.stripCr t)) := by
    simp only [List.append_assoc]
    rfl
  rw [split, Text.stripCr_append (by rw [List.getLast?_concat]; nofun), join, dropWhile_indent]

/-- The line says `blocks` between blanks, and so it is looked through for a geometry. -/
theorem blocks_line (k : Nat) (t : List Char) :
    Text.containsStr " blocks ".toList (decimal k ++ (" blocks".toList ++ ' ' :: t)) = true := by
  refine Text.containsStr_iff.mpr ⟨decimal k, t, ?_⟩
  rw [List.append_assoc]
  rfl

/-- The line of the blocks tells the geometry, if there is one. -/
theorem update_line {b : Blocks} (plain : ¬ " [".toList <:+: b.text)
    (parseF64 : List Char → Option F) (current : MdRaidStats F) :
    update parseF64 current (Text.stripCr b.line) =
      { current with
        activeDevices := b.geometry.elim current.activeDevices Geometry.m
        totalDevices := b.geometry.elim current.totalDevices Geometry.n
        degraded := b.geometry.elim current.degraded fun g => g.m < g.n } := by
  rw [update, line, trim_line]
  cases found : b.geometry with
  | none =>
      obtain ⟨words, text, -⟩ : ∃ words, b.text = ' ' :: words ∧ ¬ " [".toList <:+: words := by
        rcases b.shape with spaced | ⟨-, geometry⟩
        · exact spaced
        · rw [found] at geometry
          cases geometry
      have strip : Text.stripCr (b.text ++ []) = ' ' :: Text.stripCr words := by
        rw [List.append_nil, text]
        exact Text.stripCr_append (s := [' ']) nofun words
      have plain : ¬ " [".toList <:+: ' ' :: Text.stripCr words := fun within =>
        plain (text ▸ within.trans
          (List.cons_prefix_cons.mpr ⟨rfl, Text.stripCr_isPrefix words⟩).isInfix)
      rw [Option.elim_none, strip, if_pos (blocks_line _ _), parseGeometry_none plain]
      rfl
  | some g =>
      obtain ⟨g', strip, n, m⟩ := g.stripCr_render
      have spaced : ∃ t, b.text ++ g'.render = ' ' :: t := by
        rcases b.shape with ⟨words, text, -⟩ | ⟨text, -⟩
        · exact ⟨words ++ g'.render, by rw [text, List.cons_append]⟩
        · exact ⟨_, by rw [text, List.nil_append]; rfl⟩
      have strip : Text.stripCr (b.text ++ g.render) = b.text ++ g'.render := by
        have nonempty : g.render ≠ [] := List.cons_ne_nil _ _
        rw [Text.stripCr_append_of_ne_nil _ nonempty, strip]
      obtain ⟨t, spaced⟩ := spaced
      have blocks := blocks_line b.count t
      rw [← spaced] at blocks
      rw [Option.elim_some, strip, if_pos blocks, parseGeometry_render plain, n, m]
      rfl

end Blocks

/-! ### The other lines -/

/-- What is left of a line is a part of it. -/
theorem infix_trim (line : List Char) :
    (Text.stripCr line).dropWhile Text.isWhitespace <:+: line :=
  (List.dropWhile_suffix _).isInfix.trans (Text.stripCr_isPrefix line).isInfix

/-- An action that does not occur in a line is not found in what is left of it. -/
theorem findStr_action_none {action : Action} {line : List Char}
    (other : Text.occurrences action.pattern line = 0) :
    Text.findStr action.pattern ((Text.stripCr line).dropWhile Text.isWhitespace) = none := by
  rw [Text.findStr_eq_none_iff, ← Text.occurrences_pos_iff, Nat.not_lt, ← other]
  exact Text.occurrences_le_of_infix (infix_trim line)

/-- Trimming a line does not make it one of blocks. -/
theorem not_blocks {line : List Char} (plain : ¬ " blocks ".toList <:+: line) :
    Text.containsStr " blocks ".toList ((Text.stripCr line).dropWhile Text.isWhitespace) =
      false := by
  rw [← Bool.not_eq_true, Text.containsStr_iff]
  exact fun within => plain (within.trans (infix_trim line))

/-- A line that says neither blocks nor an action changes nothing. -/
theorem Passed.update_line (p : Passed) (parseF64 : List Char → Option F)
    (current : MdRaidStats F) : update parseF64 current (Text.stripCr p.line) = current := by
  have progress : parseProgress parseF64 ((Text.stripCr p.line).dropWhile Text.isWhitespace) =
      none := by
    rw [parseProgress, List.findSome?_eq_none_iff]
    intro action _
    have none : Text.occurrences action.pattern p.line = 0 :=
      Nat.eq_zero_of_not_pos (mt Text.occurrences_pos_iff.mp (p.action action))
    rw [findStr_action_none none, Option.map_none]
  rw [update, not_blocks p.blocks, progress]
  rfl

/-- The parser skips the name and the two characters behind it. -/
theorem Action.length_pattern (action : Action) :
    action.pattern.length = action.name.length + 2 := by
  cases action <;> rfl

/-- A pattern begins with a letter, so no blank of it is trimmed. -/
theorem Action.pattern_visible (action : Action) :
    ∃ c s, action.pattern = c :: s ∧ Text.isWhitespace c = false := by
  cases action <;> exact ⟨_, _, rfl, rfl⟩

namespace Progress

/-- The line from its first visible character on. -/
theorem trim_line (p : Progress) :
    (Text.stripCr p.line).dropWhile Text.isWhitespace =
      p.lead.dropWhile Text.isWhitespace ++ (p.action.pattern ++ (blanks p.gap ++
        (p.pct ++ '%' :: Text.stripCr p.rest))) := by
  have split : p.line = p.lead ++ (p.action.pattern ++ (blanks p.gap ++ p.pct)) ++ ['%'] ++
      p.rest := by
    simp only [line, progressLine, List.append_assoc, List.cons_append, List.nil_append]
  have visible : ∀ s, (p.action.pattern ++ s).dropWhile Text.isWhitespace =
      p.action.pattern ++ s := by
    intro s
    obtain ⟨c, pattern, starts, visible⟩ := p.action.pattern_visible
    rw [starts, List.cons_append]
    exact List.dropWhile_cons_of_neg (by simp [visible])
  rw [split, Text.stripCr_append (by rw [List.getLast?_concat]; nofun)]
  simp only [List.append_assoc, List.cons_append, List.nil_append]
  rw [List.dropWhile_append, visible]
  split_ifs with blank
  · rw [List.isEmpty_iff.mp blank, List.nil_append]
  · rfl

/-- The action of the line is found where it stands, since it occurs there only. -/
theorem findStr_own (p : Progress) :
    Text.findStr p.action.pattern ((Text.stripCr p.line).dropWhile Text.isWhitespace) =
      some (p.lead.dropWhile Text.isWhitespace, p.action.pattern ++ (blanks p.gap ++
        (p.pct ++ '%' :: Text.stripCr p.rest))) := by
  have once : Text.occurrences p.action.pattern
      ((Text.stripCr p.line).dropWhile Text.isWhitespace) ≤ 1 := by
    refine Nat.le_trans (Text.occurrences_le_of_infix (infix_trim p.line)) ?_
    rw [line, p.once, if_pos rfl]
  rw [trim_line] at once ⊢
  exact Text.findStr_of_once once

/-- The percentage is what stands between the equals sign and the percent sign. -/
theorem percentage (p : Progress) (s : List Char) :
    ((blanks p.gap ++ (p.pct ++ '%' :: s)).dropWhile Text.isWhitespace).splitOn '%' =
      p.pct :: s.splitOn '%' := by
  have visible : (p.pct ++ '%' :: s).dropWhile Text.isWhitespace = p.pct ++ '%' :: s := by
    have first := p.trimmed.first
    cases found : p.pct with
    | nil => exact List.dropWhile_cons_of_neg (by simp [Text.isWhitespace])
    | cons c pct =>
        rw [found] at first
        exact List.dropWhile_cons_of_neg (by simp [first c rfl])
  rw [List.dropWhile_append_of_pos (blanks_isWhitespace p.gap), visible,
    List.splitOn_append_cons_self_of_not_mem p.percent]

/-- The actions are tried in their order, and the line names its own only, so this is found,
with the number up to the percent sign. -/
theorem parseProgress_line (p : Progress) (parseF64 : List Char → Option F) :
    parseProgress parseF64 ((Text.stripCr p.line).dropWhile Text.isWhitespace) =
      some (p.action, parseF64 p.pct) := by
  have listed : p.action ∈ actions := by
    cases p.action <;> simp [actions]
  obtain ⟨earlier, later, split, before⟩ := List.eq_append_cons_of_mem listed
  have trimmed : Text.trim (String.ofList p.pct) = String.ofList p.pct :=
    @Text.trim_append [] _ nofun p.trimmed
  refine List.findSome?_eq_some_iff.mpr ⟨earlier, p.action, later, split, ?_, ?_⟩
  · simp only [p.findStr_own, Option.map_some, List.drop_left' p.action.length_pattern,
      p.percentage, List.head?_cons, Option.bind_some, trimmed, String.toList_ofList]
  · intro action mem
    have other : action ≠ p.action := fun same => before (same ▸ mem)
    have none : Text.occurrences action.pattern p.line = 0 := by
      rw [line, p.once, if_neg other]
    rw [findStr_action_none none, Option.map_none]

/-- A line of progress sets the action and the percentage, unless it is taken for a line of
blocks. -/
theorem update_line {p : Progress} (plain : ¬ " blocks ".toList <:+: p.line)
    (parseF64 : List Char → Option F) (current : MdRaidStats F) :
    update parseF64 current (Text.stripCr p.line) =
      { current with syncAction := some p.action.name, syncProgress := parseF64 p.pct } := by
  rw [update, not_blocks plain, parseProgress_line]
  rfl

end Progress

/-! ### A run over the lines -/

section Run

variable (parseF64 : List Char → Option F) (stats : List (MdRaidStats F))

/-- A header begins a new record behind the others. -/
theorem step_header (a : MdArray) :
    step parseF64 stats a.header = stats ++ [parseDevice a.header] := by
  rw [step, List.isPrefixOf_iff_prefix.mpr a.header_starts,
    Text.containsStr_iff.mpr a.header_colon]
  rfl

/-- A line that does not begin with `md` is not the line of a device, also with its carriage
return stripped. -/
theorem no_device {line : List Char} (other : ¬ "md".toList <+: line) :
    "md".toList.isPrefixOf (Text.stripCr line) = false := by
  rw [← Bool.not_eq_true, List.isPrefixOf_iff_prefix]
  exact fun starts => other (starts.trans (Text.stripCr_isPrefix line))

/-- Any other line changes the last record only. -/
theorem step_other {line : List Char} (other : ¬ "md".toList <+: line)
    (current : MdRaidStats F) :
    step parseF64 (stats ++ [current]) (Text.stripCr line) =
      stats ++ [update parseF64 current (Text.stripCr line)] := by
  rw [step, no_device other, Bool.false_and, if_neg Bool.false_ne_true, List.getLast?_concat,
    List.dropLast_concat]

/-- As long as no device comes, the run works on the last record and leaves the others
alone. -/
theorem foldl_step_body {lines : List (List Char)} (other : ∀ line ∈ lines, ¬ "md".toList <+: line)
    (current : MdRaidStats F) :
    (lines.map Text.stripCr).foldl (step parseF64) (stats ++ [current]) =
      stats ++ [(lines.map Text.stripCr).foldl (update parseF64) current] := by
  induction lines generalizing current with
  | nil => rfl
  | cons line lines ih =>
      obtain ⟨here, later⟩ := List.forall_mem_cons.mp other
      rw [List.map_cons, List.foldl_cons, step_other parseF64 stats here, ih later, List.foldl_cons]

/-- Before the first device there is no record. -/
theorem foldl_step_preceding {lines : List (List Char)}
    (other : ∀ line ∈ lines, ¬ "md".toList <+: line) :
    (lines.map Text.stripCr).foldl (step parseF64) [] = [] := by
  induction lines with
  | nil => rfl
  | cons line lines ih =>
      obtain ⟨here, later⟩ := List.forall_mem_cons.mp other
      have first : step parseF64 [] (Text.stripCr line) = [] := by
        rw [step, no_device here, Bool.false_and, if_neg Bool.false_ne_true]
        rfl
      rw [List.map_cons, List.foldl_cons, first, ih later]

/-- Any number of lines that say nothing change nothing. -/
theorem foldl_passed (lines : List Passed) (current : MdRaidStats F) :
    ((lines.map Passed.line).map Text.stripCr).foldl (update parseF64) current = current := by
  induction lines with
  | nil => rfl
  | cons p lines ih =>
      rw [List.map_cons, List.map_cons, List.foldl_cons, p.update_line parseF64 current, ih]

namespace MdArray

/-- What holds of each kind of line holds of all of them. -/
theorem forall_mem_body {P : List Char → Prop} {a : MdArray} (blocks : P a.blocks.line)
    (passed : ∀ p : Passed, P p.line) (progress : ∀ p : Progress, P p.line) :
    ∀ line ∈ a.body, P line := by
  have passed : ∀ lines : List Passed, ∀ line ∈ lines.map Passed.line, P line :=
    fun lines => List.forall_mem_map.mpr fun p _ => passed p
  have progress : ∀ line ∈ a.progress.toList.map Progress.line, P line :=
    List.forall_mem_map.mpr fun p _ => progress p
  exact List.forall_mem_cons.mpr ⟨blocks,
    List.forall_mem_append.mpr ⟨List.forall_mem_append.mpr ⟨passed _, progress⟩, passed _⟩⟩

/-- No line of the body begins with `md`, so none begins a record. -/
theorem body_other (a : MdArray) : ∀ line ∈ a.body, ¬ "md".toList <+: line :=
  forall_mem_body (not_md_indent _ _ _) Passed.other Progress.other

/-- Each line of the body is one line. -/
theorem body_newline (a : MdArray) : ∀ line ∈ a.body, '\n' ∉ line :=
  forall_mem_body a.blocks.newline_line Passed.newline Progress.newline

/-- The lines behind the header complete the record. -/
theorem foldl_update_body {a : MdArray} (plain : a.Plain) :
    (a.body.map Text.stripCr).foldl (update parseF64) a.begun = a.stats parseF64 := by
  have progress : ∀ current : MdRaidStats F,
      ((a.progress.toList.map Progress.line).map Text.stripCr).foldl (update parseF64) current =
        { current with
          syncAction := a.progress.elim current.syncAction fun p => some p.action.name
          syncProgress := a.progress.elim current.syncProgress fun p => parseF64 p.pct } := by
    intro current
    cases found : a.progress with
    | none => rfl
    | some p => exact Progress.update_line (plain.progress p found) parseF64 current
  rw [body, List.map_cons, List.map_append, List.map_append, List.foldl_cons, List.foldl_append,
    List.foldl_append, Blocks.update_line plain.text, foldl_passed, progress, foldl_passed]
  simp only [begun, stats]
  cases a.progress <;> rfl

/-- A run over the lines of a plain array adds its record, whatever was read before. -/
theorem foldl_step_lines {a : MdArray} (plain : a.Plain) :
    (a.lines.map Text.stripCr).foldl (step parseF64) stats = stats ++ [a.stats parseF64] := by
  rw [lines, List.map_cons, stripCr_eq_self a.header_clean.2, List.foldl_cons, step_header,
    parseDevice_header plain, foldl_step_body parseF64 stats a.body_other,
    foldl_update_body parseF64 plain]

end MdArray

/-- A run over several arrays adds a record for each, in order: an array's lines do not reach
into the record of another. -/
theorem foldl_step_arrays (arrays : List { a : MdArray // a.Plain }) :
    (((arrays.map Subtype.val).flatMap MdArray.lines).map Text.stripCr).foldl (step parseF64)
        stats = stats ++ arrays.map fun a => a.val.stats parseF64 := by
  induction arrays generalizing stats with
  | nil => exact (List.append_nil stats).symm
  | cons a arrays ih =>
      rw [List.map_cons, List.flatMap_cons, List.map_append, List.foldl_append,
        MdArray.foldl_step_lines parseF64 stats a.property, ih, List.append_assoc, List.map_cons,
        List.singleton_append]

end Run

/-- Each line of the file is one line. -/
theorem render_newline (head : List Preceding) (arrays : List MdArray) :
    ∀ line ∈ head.map Subtype.val ++ arrays.flatMap MdArray.lines, '\n' ∉ line := by
  refine List.forall_mem_append.mpr ⟨fun line mem => ?_, fun line mem => ?_⟩
  · obtain ⟨line, -, rfl⟩ := List.mem_map.mp mem
    exact line.property.1
  · obtain ⟨a, -, mem⟩ := List.mem_flatMap.mp mem
    rcases List.mem_cons.mp mem with rfl | mem
    · exact a.header_clean.1
    · exact a.body_newline line mem

/-- The arrays are read back: one record for each, in order, with what its own lines say. -/
theorem parse_arrays (parseF64 : List Char → Option F) (head : List Preceding)
    (arrays : List { a : MdArray // a.Plain }) :
    parse parseF64 (render head (arrays.map Subtype.val)) =
      arrays.map fun a => a.val.stats parseF64 := by
  have preceding : ∀ line ∈ head.map Subtype.val, ¬ "md".toList <+: line := by
    intro line mem
    obtain ⟨line, -, rfl⟩ := List.mem_map.mp mem
    exact line.property.2
  rw [parse, render, String.toList_ofList, lines_unlines (render_newline _ _), List.map_append,
    List.foldl_append, foldl_step_preceding parseF64 preceding, foldl_step_arrays, List.nil_append]

/-! ### Two arrays -/

/-- A member with its flags. -/
def member (name : String) (index : Nat) (flags : String)
    (clean : (name.toList ++ flags.toList).all (!Text.isAsciiWhitespace ·) = true) : Member where
  gap := 0
  name := name.toList
  index := index
  flags := flags.toList
  name_free c mem := Text.none_of_all clean c (List.mem_append_left _ mem)
  flags_free c mem := Text.none_of_all clean c (List.mem_append_right _ mem)

/-- The array of the module's documentation. -/
def recovering : MdArray where
  device := "md0".toList
  colon := 0
  word := ⟨0, "active".toList⟩
  words := []
  level := some ⟨0, "raid5".toList⟩
  members := [member "sdd" 3 "" rfl, member "sdc" 1 "" rfl, member "sdb" 0 "(F)" rfl,
    member "sde" 4 "(S)" rfl]
  blocks :=
    { indent := 6
      count := 1953260544
      text := " super 1.2 level 5, 512k chunk, algorithm 2".toList
      geometry := some ⟨3, 2, "[UU_]".toList, by simp⟩
      newline := by simp
      shape := Or.inl ⟨"super 1.2 level 5, 512k chunk, algorithm 2".toList, rfl,
        Text.not_infix_of_containsStr rfl⟩ }
  between := []
  progress := some
    { lead := "      [=>...................]  ".toList
      action := .recovery
      gap := 2
      pct := "5.3".toList
      rest := " (51800064/976630272) finish=77.1min speed=199875K/sec".toList
      newline := by simp [progressLine, Action.pattern, Action.name, blanks]
      other := by simp [progressLine]
      once := by
        intro a
        cases a <;> rfl
      trimmed := ⟨by simp; rfl, by simp; rfl⟩
      percent := by simp }
  after := []
  device_field := by decide
  device_md := ⟨['0'], rfl⟩
  state := by
    intro w mem
    rw [List.mem_singleton.mp mem]
    exact ⟨by decide, by simp, rfl⟩
  level_name := by
    intro l mem
    rw [← Option.some.inj mem]
    exact ⟨by decide, by simp, rfl⟩

/-- An array without a spare, with a bitmap. -/
def readOnly : MdArray where
  device := "md1".toList
  colon := 0
  word := ⟨0, "active".toList⟩
  words := [⟨0, "(auto-read-only)".toList⟩]
  level := some ⟨0, "raid1".toList⟩
  members := [member "sdf1" 0 "" rfl]
  blocks :=
    { indent := 6
      count := 1047552
      text := " super 1.2".toList
      geometry := some ⟨2, 1, "[U_]".toList, by simp⟩
      newline := by simp
      shape := Or.inl ⟨"super 1.2".toList, rfl, Text.not_infix_of_containsStr rfl⟩ }
  between := [⟨"      bitmap: 0/8 pages [0KB], 65536KB chunk".toList, by simp, by simp,
    Text.not_infix_of_containsStr rfl, fun a => Text.not_infix_of_containsStr (by cases a <;> rfl)⟩]
  progress := none
  after := []
  device_field := by decide
  device_md := ⟨['1'], rfl⟩
  state := by
    intro w mem
    rcases List.mem_pair.mp mem with rfl | rfl
    · exact ⟨by decide, by simp, rfl⟩
    · exact ⟨by decide, by simp, rfl⟩
  level_name := by
    intro l mem
    rw [← Option.some.inj mem]
    exact ⟨by decide, by simp, rfl⟩

/-- Nothing of this array looks like something else. -/
theorem plain_recovering : recovering.Plain where
  names m mem := by
    simp only [recovering, List.mem_cons, List.not_mem_nil, or_false] at mem
    rcases mem with rfl | rfl | rfl | rfl
    all_goals exact ⟨Text.not_infix_of_containsStr rfl, Text.not_infix_of_containsStr rfl⟩
  text := Text.not_infix_of_containsStr rfl
  progress p mem := by
    rw [← Option.some.inj mem]
    exact Text.not_infix_of_containsStr (by decide +kernel)

/-- Nor does anything of this one. -/
theorem plain_readOnly : readOnly.Plain where
  names m mem := by
    rw [List.mem_singleton.mp mem]
    exact ⟨Text.not_infix_of_containsStr rfl, Text.not_infix_of_containsStr rfl⟩
  text := Text.not_infix_of_containsStr rfl
  progress p mem := nomatch mem

/-- An array in recovery and one without a spare, behind the head of the file. -/
theorem parse_arrays_two :
    parse some (render [⟨"Personalities : [raid1] [raid5]".toList, by simp, by simp⟩]
        [recovering, readOnly]) =
      [⟨"md0", "raid5", "active", 2, 3, 1, 1, true, some "recovery", some "5.3".toList⟩,
        ⟨"md1", "raid1", "active (auto-read-only)", 1, 2, 0, 0, true, none, none⟩] := by
  have read := parse_arrays some [⟨"Personalities : [raid1] [raid5]".toList, by simp, by simp⟩]
    [⟨recovering, plain_recovering⟩, ⟨readOnly, plain_readOnly⟩]
  exact read.trans (by decide +kernel)

/-! ### What looks like something else -/

/-- The progress of a check, in blocks. -/
def oddProgress : Progress where
  lead := "  [>...]  ".toList
  action := .check
  gap := 1
  pct := ['2']
  rest := " of 5 blocks checked".toList
  newline := by simp [progressLine, Action.pattern, Action.name, blanks]
  other := by simp [progressLine]
  once := by
    intro a
    cases a <;> rfl
  trimmed := ⟨by simp; rfl, by simp; rfl⟩
  percent := by simp

/-- A member with a flag in its name, a text like a geometry and a progress in blocks. -/
def oddArray : MdArray where
  device := "md0".toList
  colon := 0
  word := ⟨0, "active".toList⟩
  words := []
  level := some ⟨0, "raid1".toList⟩
  members := [⟨0, "a(F)".toList, 0, [], Text.none_of_all rfl, nofun⟩]
  blocks :=
    { indent := 1
      count := 5
      text := " [9/9]".toList
      geometry := some ⟨3, 2, "[UU_]".toList, by simp⟩
      newline := by simp
      shape := Or.inl ⟨"[9/9]".toList, rfl, by simp [List.infix_cons_iff]⟩ }
  between := []
  progress := some oddProgress
  after := []
  device_field := by decide
  device_md := ⟨['0'], rfl⟩
  state := by
    intro w mem
    rw [List.mem_singleton.mp mem]
    exact ⟨by decide, by simp, rfl⟩
  level_name := by
    intro l mem
    rw [← Option.some.inj mem]
    exact ⟨by decide, by simp, rfl⟩

/-- The flag in the name is counted, the text gives the numbers of members, and the line of
the progress is taken for one of blocks, so the check is lost. -/
theorem oddArray_misread :
    parse parseU32 (render [] [oddArray]) ≠ [oddArray.stats parseU32] ∧
      parse parseU32 (render [] [oddArray]) =
        [⟨"md0", "raid1", "active", 9, 9, 1, 0, false, none, none⟩] ∧
      oddArray.stats parseU32 =
        ⟨"md0", "raid1", "active", 2, 3, 0, 0, true, some "check", some 2⟩ := by
  have read : parse parseU32 (render [] [oddArray]) =
      [⟨"md0", "raid1", "active", 9, 9, 1, 0, false, none, none⟩] := by decide +kernel
  have written : oddArray.stats parseU32 =
      ⟨"md0", "raid1", "active", 2, 3, 0, 0, true, some "check", some 2⟩ := by decide +kernel
  refine ⟨?_, read, written⟩
  rw [read, written]
  simp

end BlazeBee.Collectors.MdRaid
