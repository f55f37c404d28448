import BlazeBee.Collectors.Mounts

/-!
What `parse_mounts` keeps of a mount table.

The order vector and the map of the loop are one `Table`, keyed by the decoded mount
point. Two spellings of one path are one key, and the last of several lines for it stands
where the first one stood.

* `parseLine_eq_some_iff`: the lines that the loop inserts.
* `parse_mounts_merged`: what comes out of the final drain, for every content.
* `parse_mounts_visible_iff`: when that is what a process sees, although the last line for
  a path is only looked for among the lines that the filter keeps.
-/

namespace BlazeBee.Collectors

open BlazeBee.Lib

/-- A line with three fields at least, of a device and a type to be measured, and the mount
that it is decoded to. -/
inductive Eligible : List Char → Mount → Prop where
  | intro {line device mountPoint fsType : List Char} {rest : List (List Char)} :
      fields line = device :: mountPoint :: fsType :: rest →
      ['/'] <+: device → String.ofList fsType ∉ skippedFsTypes →
      ¬ ['f', 'u', 's', 'e'] <+: fsType →
      Eligible line ⟨unescapeMountField (String.ofList device),
        unescapeMountField (String.ofList mountPoint), String.ofList fsType⟩

/-- The filter on the fields as they are written: a device with a path, a type that is not in
the list, and no FUSE. -/
theorem keeps_iff {device fsType : List Char} :
    keeps device fsType = true ↔ ['/'] <+: device ∧ String.ofList fsType ∉ skippedFsTypes ∧
      ¬ ['f', 'u', 's', 'e'] <+: fsType := by
  simp only [keeps, Bool.and_eq_true, List.isPrefixOf_iff_prefix, Bool.not_eq_true', and_assoc,
    ← Bool.not_eq_true, List.contains_iff_mem]

/-- The loop inserts the eligible lines. -/
theorem parseLine_eq_some_iff {line : List Char} {mount : Mount} :
    parseLine line = some mount ↔ Eligible line mount := by
  constructor
  · intro read
    unfold parseLine at read
    split at read
    · rename_i device mountPoint fsType rest split
      split_ifs at read with keep
      obtain rfl := Option.some.inj read
      obtain ⟨path, listed, fuse⟩ := keeps_iff.mp keep
      exact .intro split path listed fuse
    · cases read
  · rintro ⟨split, path, listed, fuse⟩
    have keep := keeps_iff.mpr ⟨path, listed, fuse⟩
    simp only [parseLine, split, if_pos keep]

/-- The mounts of the eligible lines of a table, in their order. -/
def eligibleMounts (content : String) : List Mount :=
  (Text.lines content.toList).filterMap parseLine

/-- The mount points are distinct; they are those of the eligible lines in the order of
their first occurrences; and each comes with the device and the type of the last eligible
line for it. -/
theorem parse_mounts_merged (content : String) :
    (∀ line mount, parseLine line = some mount ↔ Eligible line mount) ∧
      ((parseMounts content).map Mount.mountPoint).Nodup ∧
      (parseMounts content).map Mount.mountPoint =
        ((eligibleMounts content).map Mount.mountPoint).eraseDups ∧
      ∀ m, m ∈ parseMounts content ↔
        ((eligibleMounts content).filter fun other =>
          decide (other.mountPoint = m.mountPoint)).getLast? = some m := by
  rw [parseMounts_eq]
  refine ⟨fun line mount => parseLine_eq_some_iff, ?_, ?_, fun m => ?_⟩
  · exact Table.nodup_map_key_toList Mount.mountPoint _
  · exact Table.map_key_toList Mount.mountPoint _
  · exact Table.mem_toList_iff Mount.mountPoint

/-! ### Mounted over -/

/-- The decoded mount point of a line of the table, whatever its device and type. -/
def tablePoint (line : List Char) : Option String :=
  match fields line with
  | _ :: mountPoint :: _ :: _ => some (unescapeMountField (String.ofList mountPoint))
  | _ => none

/-- A line that is kept is for the mount point that it is decoded to. -/
theorem tablePoint_of_parseLine {line : List Char} {m : Mount} (read : parseLine line = some m) :
    tablePoint line = some m.mountPoint := by
  obtain ⟨split, -, -, -⟩ := parseLine_eq_some_iff.mp read
  simp only [tablePoint, split]

/-- The line is the last one of the table for its path. -/
def LastAt (content path : String) (line : List Char) : Prop :=
  IsLast (fun line => tablePoint line = some path) (Text.lines content.toList) line

/-- What a process sees at the path of a mount is that mount. -/
def Visible (content : String) (m : Mount) : Prop :=
  ∃ line, LastAt content m.mountPoint line ∧ parseLine line = some m

/-- The last line for a path is one that the filter skips. -/
def Covered (content path : String) : Prop :=
  ∃ line, LastAt content path line ∧ parseLine line = none

/-- A mount is returned from the last eligible line for its path. -/
theorem mem_parseMounts_iff {content : String} {m : Mount} :
    m ∈ parseMounts content ↔
      ∃ line, IsLast (fun line => ∃ other, parseLine line = some other ∧
        other.mountPoint = m.mountPoint) (Text.lines content.toList) line ∧
        parseLine line = some m := by
  rw [parseMounts_eq, Table.mem_toList_iff, getLast?_filter_eq_some_iff, isLast_filterMap_iff]

/-- Nothing is returned that no eligible line has. -/
theorem mem_eligibleMounts {content : String} {m : Mount} (mem : m ∈ parseMounts content) :
    m ∈ eligibleMounts content := by
  obtain ⟨line, ⟨before, after, split, -, -⟩, read⟩ := mem_parseMounts_iff.mp mem
  refine List.mem_filterMap.mpr ⟨line, ?_, read⟩
  rw [split]
  exact List.mem_append_right _ List.mem_cons_self

/-- A line for a path is followed by a last one. -/
theorem exists_lastAt {content : String} {m : Mount} (mem : m ∈ eligibleMounts content) :
    ∃ line, LastAt content m.mountPoint line := by
  obtain ⟨line, inside, read⟩ := List.mem_filterMap.mp mem
  exact exists_isLast inside (tablePoint_of_parseLine read)

/-- The last line for a path, if it is eligible, is the last eligible line for it. -/
theorem LastAt.eligible {content : String} {m : Mount} {line : List Char}
    (last : LastAt content m.mountPoint line) {other : Mount}
    (read : parseLine line = some other) :
    other.mountPoint = m.mountPoint ∧
      IsLast (fun line => ∃ other, parseLine line = some other ∧
        other.mountPoint = m.mountPoint) (Text.lines content.toList) line := by
  have here : tablePoint line = some m.mountPoint := by
    obtain ⟨_, _, -, here, -⟩ := last
    exact here
  have same : other.mountPoint = m.mountPoint :=
    Option.some.inj ((tablePoint_of_parseLine read).symm.trans here)
  refine ⟨same, last.mono ⟨other, read, same⟩ ?_⟩
  rintro line' ⟨other', read', same'⟩
  rw [tablePoint_of_parseLine read', same']

/-- Every returned mount is what a process sees at its path, exactly when no path with an
eligible line has a skipped line as its last. -/
theorem parse_mounts_visible_iff (content : String) :
    (∀ m ∈ parseMounts content, Visible content m) ↔
      ∀ m ∈ eligibleMounts content, ¬ Covered content m.mountPoint := by
  constructor
  · rintro visible m mem ⟨line, last, skipped⟩
    -- The mount that is returned for the path comes from another line than its last one.
    obtain ⟨line₀, inside, read₀⟩ := List.mem_filterMap.mp mem
    obtain ⟨line', last'⟩ := exists_isLast (p := fun line => ∃ other,
      parseLine line = some other ∧ other.mountPoint = m.mountPoint) inside ⟨m, read₀, rfl⟩
    obtain ⟨_, _, -, ⟨m', read', same⟩, -⟩ := id last'
    rw [← same] at last last'
    obtain ⟨line'', last'', read''⟩ := visible m' (mem_parseMounts_iff.mpr ⟨line', last', read'⟩)
    obtain rfl := last.unique last''
    cases skipped.symm.trans read''
  · intro uncovered m mem
    obtain ⟨line, last, read⟩ := mem_parseMounts_iff.mp mem
    obtain ⟨line', last'⟩ := exists_lastAt (mem_eligibleMounts mem)
    cases read' : parseLine line' with
    | none => exact absurd ⟨line', last', read'⟩ (uncovered m (mem_eligibleMounts mem))
    | some m' =>
        obtain ⟨-, final⟩ := last'.eligible read'
        obtain rfl := final.unique last
        exact ⟨line', last', read⟩

/-- A disk that a `tmpfs` is mounted over. -/
def coveredTable : String := "/dev/sda1 /data ext4 rw 0 0\ntmpfs /data tmpfs rw 0 0\n"

/-- The last line for the path is the one that is skipped, and the disk under it is
returned. -/
theorem coveredTable_returned :
    parseMounts coveredTable = [⟨"/dev/sda1", "/data", "ext4"⟩] ∧
      ¬ ∀ m ∈ parseMounts coveredTable, Visible coveredTable m := by
  have returned : parseMounts coveredTable = [⟨"/dev/sda1", "/data", "ext4"⟩] := by
    decide +kernel
  refine ⟨returned, fun visible => ?_⟩
  have lines : Text.lines coveredTable.toList =
      ["/dev/sda1 /data ext4 rw 0 0".toList, "tmpfs /data tmpfs rw 0 0".toList] := by
    decide +kernel
  have last : LastAt coveredTable "/data" "tmpfs /data tmpfs rw 0 0".toList :=
    ⟨["/dev/sda1 /data ext4 rw 0 0".toList], [], lines, rfl, nofun⟩
  obtain ⟨line, last', read⟩ :=
    visible ⟨"/dev/sda1", "/data", "ext4"⟩ (returned ▸ List.mem_singleton_self _)
  obtain rfl := last.unique last'
  cases read

end BlazeBee.Collectors
