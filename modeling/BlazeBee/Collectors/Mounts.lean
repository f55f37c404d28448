import BlazeBee.Collectors.Procfs
import BlazeBee.Lib.Table

/-!
The mount table as the kernel writes it, and as `parse_mounts` reads it.

The kernel escapes space, tab, newline and backslash. The tokenizer splits at every
ASCII whitespace, so a form feed or carriage return inside a field cuts it in two, and
the type is used as it is written.

* `parseLine_line`: what the loop makes of a line, from the pieces of its fields.
* `parse_mounts_iff`: a table is read back exactly when its kept mounts are free of all
  that, as long as no torn line of a skipped mount passes the filter.
-/

namespace BlazeBee.Collectors

open BlazeBee.Lib

/-- `SKIPPED_FS_TYPES`. -/
def skippedFsTypes : List String :=
  ["autofs", "binfmt_misc", "bpf", "cgroup", "cgroup2", "configfs", "debugfs", "devpts",
    "devtmpfs", "efivarfs", "fusectl", "hugetlbfs", "mqueue", "nsfs", "overlay", "proc", "procfs",
    "pstore", "ramfs", "rpc_pipefs", "securityfs", "selinuxfs", "squashfs", "sysfs", "tmpfs",
    "tracefs", "nfs", "nfs4", "cifs", "smb3", "smbfs", "afs", "ceph", "glusterfs", "9p", "lustre"]

/-- A line of the mount table that is kept, with its two paths unescaped. -/
structure Mount where
  device : String
  mountPoint : String
  fsType : String
deriving DecidableEq, Repr

/-- The filter of `parse_mounts`. -/
def keeps (device fsType : List Char) : Bool :=
  List.isPrefixOf ['/'] device && !skippedFsTypes.contains (String.ofList fsType) &&
    !List.isPrefixOf ['f', 'u', 's', 'e'] fsType

/-- What the loop of `parse_mounts` inserts for a line, if anything. -/
def parseLine (line : List Char) : Option Mount :=
  match fields line with
  | device :: mountPoint :: fsType :: _ =>
      if keeps device fsType then
        some ⟨unescapeMountField (String.ofList device),
          unescapeMountField (String.ofList mountPoint), String.ofList fsType⟩
      else none
  | _ => none

/-- `parse_mounts`. -/
def parseMounts (content : String) : List Mount :=
  let table := (Text.lines content.toList).foldl (fun table line =>
    match parseLine line with
    | some mount => Table.insert Mount.mountPoint table mount
    | none => table) Table.empty
  table.toList

/-- The loop inserts the mounts of the lines that are kept, in their order, and the other
lines do nothing. -/
theorem parseMounts_eq (content : String) :
    parseMounts content =
      (Table.ofList Mount.mountPoint ((Text.lines content.toList).filterMap parseLine)).toList := by
  rw [parseMounts, Table.ofList, List.foldl_filterMap]
  congr 2
  funext table line
  cases parseLine line <;> rfl

/-! ### The kernel's rendering -/

/-- The characters that the kernel writes in octal. -/
def isMangled (c : Char) : Bool := c == ' ' || c == '\t' || c == '\n' || c == '\\'

/-- The ASCII whitespace that it writes as it is. -/
def isTorn (c : Char) : Bool := c == '\x0C' || c == '\r'

/-- A backslash and three octal digits, or the character itself. -/
def mangleChar (c : Char) : List Char :=
  if isMangled c then
    ['\\', Nat.digitChar (c.toNat / 64), Nat.digitChar (c.toNat / 8 % 8),
      Nat.digitChar (c.toNat % 8)]
  else [c]

/-- A field as the kernel writes it. -/
def mangle (s : List Char) : List Char := s.flatMap mangleChar

/-- A mount of the kernel's table. -/
structure Listed where
  device : String
  mountPoint : String
  fsType : String
  options : String
  device_nonempty : device.toList ≠ []
  mountPoint_nonempty : mountPoint.toList ≠ []
  fsType_nonempty : fsType.toList ≠ []

namespace Listed

/-- The line of a mount: the four fields, and the two zeros of an `fstab`. -/
def line (m : Listed) : List Char :=
  mangle m.device.toList ++ ' ' :: (mangle m.mountPoint.toList ++ ' ' ::
    (mangle m.fsType.toList ++ ' ' :: (mangle m.options.toList ++ ' ' :: ['0', ' ', '0'])))

/-- What a reader should make of the line. -/
def mount (m : Listed) : Mount := ⟨m.device, m.mountPoint, m.fsType⟩

/-- The filter applied to the fields themselves, before anything is escaped. -/
def kept (m : Listed) : Bool := keeps m.device.toList m.fsType.toList

/-- The fields, each cut where the kernel leaves whitespace in it. -/
def pieces (m : Listed) : List (List Char) :=
  Text.words isTorn m.device.toList ++ (Text.words isTorn m.mountPoint.toList ++
    (Text.words isTorn m.fsType.toList ++ (Text.words isTorn m.options.toList ++ [['0'], ['0']])))

/-- The mount that a line is read as. -/
def reading (m : Listed) : Option Mount :=
  match m.pieces with
  | device :: mountPoint :: fsType :: _ =>
      if keeps device fsType then
        some ⟨String.ofList device, String.ofList mountPoint, String.ofList (mangle fsType)⟩
      else none
  | _ => none

/-- No field is cut in two, and the type has nothing to escape. -/
structure Clean (m : Listed) : Prop where
  device : ∀ c ∈ m.device.toList, isTorn c = false
  mountPoint : ∀ c ∈ m.mountPoint.toList, isTorn c = false
  fsType : ∀ c ∈ m.fsType.toList, isTorn c = false
  fsType_plain : ∀ c ∈ m.fsType.toList, isMangled c = false

/-- The filter drops the line for the first three pieces of it too. -/
def Dropped (m : Listed) : Prop :=
  ∀ device mountPoint fsType rest, m.pieces = device :: mountPoint :: fsType :: rest →
    keeps device fsType = false

end Listed

/-- The table as a file. -/
def renderMounts (ms : List Listed) : String :=
  String.ofList (ms.flatMap fun m => m.line ++ ['\n'])

/-! ### Reading what was written -/

/-- A field is escaped character by character. -/
theorem mangle_cons (c : Char) (s : List Char) : mangle (c :: s) = mangleChar c ++ mangle s := rfl

/-- A character that needs no escape is written as it is. -/
theorem mangleChar_plain {c : Char} (plain : isMangled c = false) : mangleChar c = [c] :=
  if_neg (by simp [plain])

/-- There are four characters that the kernel escapes. -/
theorem isMangled_cases {c : Char} (mangled : isMangled c = true) :
    c = ' ' ∨ c = '\t' ∨ c = '\n' ∨ c = '\\' := by
  simpa [isMangled, or_assoc] using mangled

/-- The bytes that the kernel writes in octal. -/
def isMangledByte (b : UInt8) : Bool := b == 0x20 || b == 0x09 || b == 0x0A || b == 0x5C

/-- Escaping a character and escaping its bytes come to the same: the four are ASCII, and no
byte of a longer encoding is one of them. -/
theorem utf8_mangleChar (c : Char) :
    Utf8.utf8 (mangleChar c) = octalEscape isMangledByte (String.utf8EncodeChar c) := by
  cases mangled : isMangled c with
  | true =>
      rcases isMangled_cases mangled with rfl | rfl | rfl | rfl <;> decide
  | false =>
      have plain : ∀ b ∈ String.utf8EncodeChar c, isMangledByte b = false := by
        intro b mem
        rw [← Bool.not_eq_true]
        intro chosen
        have bytes : b = 0x20 ∨ b = 0x09 ∨ b = 0x0A ∨ b = 0x5C := by
          simpa [isMangledByte, or_assoc] using chosen
        have ascii : b < 0x80 := by rcases bytes with rfl | rfl | rfl | rfl <;> decide
        have same := (Utf8.eq_of_mem_utf8EncodeChar mem ascii).2
        have char : c = Char.ofNat b.toNat := by rw [← same, Char.ofNat_toNat]
        rcases bytes with rfl | rfl | rfl | rfl <;> (subst char; cases mangled)
      rw [mangleChar_plain mangled, octalEscape, Utf8.utf8_cons, Utf8.utf8_nil, List.append_nil]
      calc String.utf8EncodeChar c = (String.utf8EncodeChar c).flatMap fun b => [b] :=
            (List.flatMap_singleton' _).symm
        _ = _ := List.flatMap_congr fun b mem => by
            rw [plain b mem]
            rfl

/-- The bytes of an escaped field are the escaped bytes of the field, so the byte-wise reader
undoes the escaping. -/
theorem utf8_mangle (s : List Char) :
    Utf8.utf8 (mangle s) = octalEscape isMangledByte (Utf8.utf8 s) := by
  induction s with
  | nil => rfl
  | cons c s ih =>
      rw [mangle_cons, Utf8.utf8_append, utf8_mangleChar, ih, Utf8.utf8_cons, octalEscape,
        octalEscape, octalEscape, List.flatMap_append]

/-- A field survives being escaped by the kernel and unescaped by the reader, whatever its
characters are. -/
theorem unescapeMountField_mangle (s : List Char) :
    unescapeMountField (String.ofList (mangle s)) = String.ofList s := by
  have backslash : isMangledByte 0x5C = true := rfl
  apply unescapeMountField_of_octal backslash
  rw [String.toList_ofList, String.toList_ofList, utf8_mangle]

/-! ### The filter on written fields -/

/-- Escaping does not change how a field begins, as far as the beginning has nothing to
escape. -/
theorem isPrefixOf_mangle {p : List Char} (plain : ∀ c ∈ p, isMangled c = false) (s : List Char) :
    p.isPrefixOf (mangle s) = p.isPrefixOf s := by
  induction p generalizing s with
  | nil => rfl
  | cons c p ih =>
      cases s with
      | nil => rfl
      | cons d s =>
          have plain_c := plain c List.mem_cons_self
          cases mangled : isMangled d with
          | false =>
              rw [mangle_cons, mangleChar_plain mangled, List.singleton_append,
                List.isPrefixOf, List.isPrefixOf, ih fun e mem => plain e (.tail _ mem)]
          | true =>
              have other : (c == d) = false := by
                rw [beq_eq_false_iff_ne]
                rintro rfl
                cases plain_c.symm.trans mangled
              have escape : (c == '\\') = false := by
                rw [beq_eq_false_iff_ne]
                rintro rfl
                cases plain_c
              simp [mangle_cons, mangleChar, mangled, List.isPrefixOf, other, escape]

/-- Escaping makes no field shorter. -/
theorem length_le_mangle (s : List Char) : s.length ≤ (mangle s).length := by
  induction s with
  | nil => exact Nat.le_refl _
  | cons c s ih =>
      rw [mangle_cons, List.length_append, List.length_cons]
      have one : 1 ≤ (mangleChar c).length := by
        unfold mangleChar
        split <;> simp
      omega

/-- A field is written as it is exactly if it has nothing to escape, for an escape takes more
characters than it replaces. -/
theorem mangle_eq_self_iff {s : List Char} :
    mangle s = s ↔ ∀ c ∈ s, isMangled c = false := by
  induction s with
  | nil => exact iff_of_true rfl nofun
  | cons c s ih =>
      rw [mangle_cons]
      cases mangled : isMangled c with
      | false => simp [mangleChar_plain mangled, mangled, ih]
      | true =>
          refine iff_of_false (fun same => ?_) (by simp [mangled])
          have sizes := congrArg List.length same
          have grows := length_le_mangle s
          simp [mangleChar, mangled] at sizes
          omega

/-- Only a plain text is written as that plain text, because every escape brings a backslash
with it. -/
theorem mangle_eq_iff {p : List Char} (plain : ∀ c ∈ p, isMangled c = false) {s : List Char} :
    mangle s = p ↔ s = p := by
  constructor
  · intro same
    have plain_s : ∀ c ∈ s, isMangled c = false := by
      intro c mem
      rw [← Bool.not_eq_true]
      intro mangled
      have escape : '\\' ∈ mangle s :=
        List.mem_flatMap.mpr ⟨c, mem, by rw [mangleChar, mangled]; exact List.mem_cons_self⟩
      rw [same] at escape
      cases plain _ escape
    rw [← same, mangle_eq_self_iff.mpr plain_s]
  · rintro rfl
    exact mangle_eq_self_iff.mpr plain

/-- The skipped types are plain, so an escaped type is in the list exactly when the type
itself is. -/
theorem contains_mangle (s : List Char) :
    skippedFsTypes.contains (String.ofList (mangle s)) =
      skippedFsTypes.contains (String.ofList s) := by
  have plain : ∀ k ∈ skippedFsTypes, ∀ c ∈ k.toList, isMangled c = false := by
    have all : skippedFsTypes.all (fun k => k.toList.all fun c => !isMangled c) = true := rfl
    exact fun k mem => Text.none_of_all (List.all_eq_true.mp all k mem)
  have same : ∀ k ∈ skippedFsTypes, String.ofList (mangle s) = k ↔ String.ofList s = k := by
    intro k mem
    rw [← String.toList_inj, ← String.toList_inj, String.toList_ofList, String.toList_ofList]
    exact mangle_eq_iff (plain k mem)
  rw [Bool.eq_iff_iff, List.contains_iff_mem, List.contains_iff_mem]
  constructor
  · intro mem
    rwa [(same _ mem).mp rfl]
  · intro mem
    rwa [(same _ mem).mpr rfl]

/-- The filter runs before the unescaping, and that makes no difference to it. -/
theorem keeps_mangle (device fsType : List Char) :
    keeps (mangle device) (mangle fsType) = keeps device fsType := by
  have slash : ∀ c ∈ ['/'], isMangled c = false := Text.none_of_all rfl
  have fuse : ∀ c ∈ ['f', 'u', 's', 'e'], isMangled c = false := Text.none_of_all rfl
  rw [keeps, keeps, isPrefixOf_mangle slash, isPrefixOf_mangle fuse, contains_mangle]

/-! ### A line, and the whole table -/

/-- What is written for a character has no ASCII whitespace, unless it is one of the two that
the kernel leaves as they are. -/
theorem mangleChar_free {c : Char} (whole : isTorn c = false) :
    mangleChar c ≠ [] ∧ ∀ d ∈ mangleChar c, Text.isAsciiWhitespace d = false := by
  cases mangled : isMangled c with
  | true =>
      rcases isMangled_cases mangled with rfl | rfl | rfl | rfl <;>
        exact ⟨List.cons_ne_nil _ _, Text.none_of_all rfl⟩
  | false =>
      rw [mangleChar_plain mangled]
      refine ⟨List.cons_ne_nil _ _, fun d mem => ?_⟩
      obtain rfl := List.mem_singleton.mp mem
      simp only [isTorn, isMangled, Bool.or_eq_false_iff] at whole mangled
      simp [Text.isAsciiWhitespace, whole, mangled]

/-- An escaped field is cut at the whitespace that the kernel leaves in it, and nowhere
else. -/
theorem fields_mangle (s : List Char) :
    fields (mangle s) = (Text.words isTorn s).map mangle := by
  refine Text.words_flatMap (fun c torn => ?_) (fun c whole => mangleChar_free whole) s
  have cases : c = '\x0C' ∨ c = '\r' := by simpa [isTorn] using torn
  rcases cases with rfl | rfl <;> exact ⟨rfl, rfl⟩

namespace Listed

variable {m : Listed}

/-- The fields of a line are the pieces of its mount, each of them escaped. -/
theorem fields_line (m : Listed) : fields m.line = m.pieces.map mangle := by
  have space : Text.isAsciiWhitespace ' ' = true := rfl
  have split : ∀ s t : List Char, fields (s ++ ' ' :: t) = fields s ++ fields t :=
    fun s t => Text.words_append_cons s space t
  have zeros : fields ['0', ' ', '0'] = [['0'], ['0']] := rfl
  rw [line, split, split, split, split, fields_mangle, fields_mangle, fields_mangle,
    fields_mangle, zeros, pieces]
  simp only [List.map_append]
  rfl

/-- A line is read from the first three pieces, and these need not be the device, the mount
point and the type. -/
theorem parseLine_line (m : Listed) : parseLine m.line = m.reading := by
  rw [parseLine, reading, fields_line]
  match m.pieces with
  | [] => rfl
  | [_] => rfl
  | [_, _] => rfl
  | device :: mountPoint :: fsType :: _ =>
      simp only [List.map_cons, keeps_mangle, unescapeMountField_mangle]

/-- A rendered line holds no newline, and it ends in a digit, so that no carriage return is
stripped from it. -/
theorem line_free (m : Listed) : '\n' ∉ m.line ∧ m.line.getLast? = some '0' := by
  have free : ∀ s : List Char, '\n' ∉ mangle s := by
    intro s mem
    obtain ⟨c, -, mem⟩ := List.mem_flatMap.mp mem
    cases mangled : isMangled c with
    | true =>
        rcases isMangled_cases mangled with rfl | rfl | rfl | rfl <;> exact absurd mem (by decide)
    | false =>
        rw [mangleChar_plain mangled, List.mem_singleton] at mem
        subst mem
        cases mangled
  constructor
  · simp [line, free]
  · simp [line, List.getLast?_append, List.getLast?_cons]

/-- The lines of a rendered table are the lines of its mounts. -/
theorem lines_render (ms : List Listed) :
    Text.lines (ms.flatMap fun m => m.line ++ ['\n']) = ms.map line := by
  induction ms with
  | nil => rfl
  | cons m ms ih =>
      obtain ⟨free, last⟩ := line_free m
      have whole : Text.stripCr m.line = m.line := if_neg (by simp [last])
      rw [List.flatMap_cons, List.append_assoc, List.singleton_append, Text.lines_line free, ih,
        whole, List.map_cons]

/-- A rendered table is read as the readings of its mounts, of which the last one at each
mount point stays. -/
theorem parseMounts_render (ms : List Listed) :
    parseMounts (renderMounts ms) =
      (Table.ofList Mount.mountPoint (ms.filterMap reading)).toList := by
  rw [parseMounts_eq, renderMounts, String.toList_ofList, lines_render, List.filterMap_map]
  congr 2
  exact List.filterMap_congr fun m _ => parseLine_line m

/-! ### Clean mounts -/

/-- A mount whose pieces the filter drops is not read at all. -/
theorem reading_of_dropped (dropped : m.Dropped) : m.reading = none := by
  rw [reading]
  match split : m.pieces with
  | [] => rfl
  | [_] => rfl
  | [_, _] => rfl
  | device :: mountPoint :: fsType :: rest =>
      simp only [dropped device mountPoint fsType rest split]
      rfl

/-- Fields without torn characters are the first three pieces. -/
theorem pieces_of_whole (device : ∀ c ∈ m.device.toList, isTorn c = false)
    (mountPoint : ∀ c ∈ m.mountPoint.toList, isTorn c = false)
    (fsType : ∀ c ∈ m.fsType.toList, isTorn c = false) :
    ∃ rest, m.pieces = m.device.toList :: m.mountPoint.toList :: m.fsType.toList :: rest := by
  rw [pieces, Text.words_eq_singleton m.device_nonempty device,
    Text.words_eq_singleton m.mountPoint_nonempty mountPoint,
    Text.words_eq_singleton m.fsType_nonempty fsType]
  exact ⟨_, rfl⟩

/-- A clean mount that the filter keeps is read as itself. -/
theorem reading_of_clean (clean : m.Clean) (kept : m.kept = true) : m.reading = some m.mount := by
  obtain ⟨rest, split⟩ := pieces_of_whole clean.device clean.mountPoint clean.fsType
  have written : mangle m.fsType.toList = m.fsType.toList :=
    mangle_eq_self_iff.mpr clean.fsType_plain
  have keep : keeps m.device.toList m.fsType.toList = true := kept
  rw [reading, split]
  simp only [keep, written, String.ofList_toList]
  rfl

/-- From a line that is read as its own mount: the first two pieces are its device and its
mount point, and the third is written as its type. -/
theorem pieces_of_reading (read : m.reading = some m.mount) :
    ∃ fsType rest, m.pieces = m.device.toList :: m.mountPoint.toList :: fsType :: rest ∧
      mangle fsType = m.fsType.toList := by
  unfold reading at read
  split at read
  · rename_i device mountPoint fsType rest split
    split at read
    · obtain ⟨same_device, same_point, written⟩ := Mount.mk.inj (Option.some.inj read)
      refine ⟨fsType, rest, ?_, ?_⟩
      · rw [split, ← same_device, ← same_point, String.toList_ofList, String.toList_ofList]
      · rw [← written, String.toList_ofList]
    · cases read
  · cases read

/-- A piece has nothing at which it would be cut again. -/
theorem piece_whole {piece : List Char} (mem : piece ∈ m.pieces) :
    ∀ c ∈ piece, isTorn c = false := by
  simp only [pieces, List.mem_append] at mem
  rcases mem with mem | mem | mem | mem | mem
  · exact (Text.word_spec mem).2
  · exact (Text.word_spec mem).2
  · exact (Text.word_spec mem).2
  · exact (Text.word_spec mem).2
  · have zero : piece = ['0'] := by simpa using mem
    subst zero
    exact Text.none_of_all rfl

/-- Escaping brings in no whitespace at which a field would be cut. -/
theorem mangle_whole {s : List Char} (whole : ∀ c ∈ s, isTorn c = false) :
    ∀ c ∈ mangle s, isTorn c = false := by
  intro c mem
  obtain ⟨d, inside, mem⟩ := List.mem_flatMap.mp mem
  have free := (mangleChar_free (whole d inside)).2 c mem
  simp only [Text.isAsciiWhitespace, Bool.or_eq_false_iff] at free
  simp [isTorn, free]

/-- A line that is read as its own mount had nothing to tear or to escape in its type. -/
theorem clean_of_reading (read : m.reading = some m.mount) : m.Clean := by
  obtain ⟨fsType, rest, split, written⟩ := pieces_of_reading read
  have whole : ∀ piece ∈ m.device.toList :: m.mountPoint.toList :: fsType :: rest,
      ∀ c ∈ piece, isTorn c = false := by
    rw [← split]
    exact fun piece mem => piece_whole mem
  have device := whole m.device.toList (by simp)
  have mountPoint := whole m.mountPoint.toList (by simp)
  have type_whole : ∀ c ∈ m.fsType.toList, isTorn c = false := by
    rw [← written]
    exact mangle_whole (whole fsType (by simp))
  obtain ⟨others, same⟩ := pieces_of_whole device mountPoint type_whole
  obtain rfl : fsType = m.fsType.toList := by
    rw [split] at same
    simpa using (List.cons.inj (List.cons.inj (List.cons.inj same).2).2).1
  exact ⟨device, mountPoint, type_whole, mangle_eq_self_iff.mp written⟩

end Listed

/-- A filter that yields as much as a map over the same list has dropped nothing: each
element must then have given its own value. -/
theorem map_of_filterMap {α β : Type} {f : α → Option β} {g : α → β} {l : List α}
    (same : l.filterMap f = l.map g) : ∀ a ∈ l, f a = some (g a) := by
  induction l with
  | nil => nofun
  | cons a l ih =>
      cases found : f a with
      | none =>
          rw [List.filterMap_cons_none found, List.map_cons] at same
          have sizes := congrArg List.length same
          have short := List.length_filterMap_le f l
          simp at sizes
          omega
      | some b =>
          rw [List.filterMap_cons_some found, List.map_cons] at same
          obtain ⟨rfl, later⟩ := List.cons.inj same
          intro c mem
          rcases List.mem_cons.mp mem with rfl | mem
          · exact found
          · exact ih later c mem

/-- A table whose kept mounts have distinct mount points, and whose skipped mounts are
dropped by the filter also where their fields are torn, is read back exactly when no field
of a kept mount holds a form feed or a carriage return and no kept type a character that
the kernel escapes. -/
theorem parse_mounts_iff {ms : List Listed}
    (distinct : ((ms.filter Listed.kept).map Listed.mountPoint).Nodup)
    (dropped : ∀ m ∈ ms, m.kept = false → m.Dropped) :
    parseMounts (renderMounts ms) = (ms.filter Listed.kept).map Listed.mount ↔
      ∀ m ∈ ms, m.kept = true → m.Clean := by
  have readings : ms.filterMap Listed.reading =
      (ms.filter Listed.kept).filterMap Listed.reading := by
    rw [List.filterMap_filter]
    refine List.filterMap_congr fun m mem => ?_
    cases kept : m.kept with
    | true => rfl
    | false => exact Listed.reading_of_dropped (dropped m mem kept)
  rw [Listed.parseMounts_render, readings]
  constructor
  · intro same m mem kept
    have count := congrArg List.length same
    rw [List.length_map] at count
    have short := List.length_filterMap_le Listed.reading (ms.filter Listed.kept)
    have apart := Table.nodup_of_length_le Mount.mountPoint (short.trans count.ge)
    rw [Table.toList_ofList Mount.mountPoint apart] at same
    exact Listed.clean_of_reading
      (map_of_filterMap same m (List.mem_filter.mpr ⟨mem, kept⟩))
  · intro clean
    have read : (ms.filter Listed.kept).filterMap Listed.reading =
        (ms.filter Listed.kept).map Listed.mount := by
      rw [← List.filterMap_eq_map]
      refine List.filterMap_congr fun m mem => ?_
      obtain ⟨mem, kept⟩ := List.mem_filter.mp mem
      exact Listed.reading_of_clean (clean m mem kept) kept
    rw [read]
    apply Table.toList_ofList
    rw [List.map_map]
    exact distinct

/-- A mount that the filter drops, by its device and by its type. -/
def runMount : Listed := ⟨"tmpfs", "/run", "tmpfs", "rw", by decide, by decide, by decide⟩

/-- A mount point with a space. -/
def diskMount : Listed :=
  ⟨"/dev/sdb1", "/mnt/my disk", "ext4", "rw", by decide, by decide, by decide⟩

/-- A mount point with a carriage return. -/
def tornMount : Listed :=
  ⟨"/dev/sdb1", "/mnt/a\rb", "ext4", "rw", by decide, by decide, by decide⟩

/-- A mount with nothing to escape. -/
def rootMount : Listed := ⟨"/dev/sda1", "/", "ext4", "rw", by decide, by decide, by decide⟩

/-- Two kept mounts, in their order, and a dropped one between them. -/
theorem parse_mounts_iff_disk :
    parseMounts (renderMounts [diskMount, runMount, rootMount]) =
      [diskMount.mount, rootMount.mount] := by
  have distinct : (([diskMount, runMount, rootMount].filter Listed.kept).map
      Listed.mountPoint).Nodup := by
    have points : ([diskMount, runMount, rootMount].filter Listed.kept).map Listed.mountPoint =
        ["/mnt/my disk", "/"] := rfl
    rw [points]
    decide
  have dropped : ∀ m ∈ [diskMount, runMount, rootMount], m.kept = false → m.Dropped := by
    intro m mem skipped
    simp only [List.mem_cons, List.not_mem_nil, or_false] at mem
    rcases mem with rfl | rfl | rfl
    · cases skipped
    · intro device mountPoint fsType rest split
      obtain ⟨rfl, -⟩ := List.cons.inj split
      rfl
    · cases skipped
  refine (parse_mounts_iff distinct dropped).mpr ?_
  intro m mem kept
  simp only [List.mem_cons, List.not_mem_nil, or_false] at mem
  rcases mem with rfl | rfl | rfl
  · exact ⟨Text.none_of_all rfl, Text.none_of_all rfl, Text.none_of_all rfl,
      Text.none_of_all rfl⟩
  · cases kept
  · exact ⟨Text.none_of_all rfl, Text.none_of_all rfl, Text.none_of_all rfl,
      Text.none_of_all rfl⟩

/-- The carriage return is taken for the end of the mount point, and the rest of it for the
type. -/
theorem tornMount_misread :
    tornMount.kept = true ∧
      parseMounts (renderMounts [tornMount]) = [⟨"/dev/sdb1", "/mnt/a", "b"⟩] ∧
      parseMounts (renderMounts [tornMount]) ≠
        ([tornMount].filter Listed.kept).map Listed.mount := by
  have read : parseMounts (renderMounts [tornMount]) = [⟨"/dev/sdb1", "/mnt/a", "b"⟩] := by
    rw [Listed.parseMounts_render]
    rfl
  refine ⟨rfl, read, ?_⟩
  rw [read]
  decide

end BlazeBee.Collectors
