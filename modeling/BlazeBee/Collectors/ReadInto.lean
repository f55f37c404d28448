import BlazeBee.Lib.Utf8
import BlazeBee.Rumqttc

/-!
`read_into`, on the results of the system calls.

The buffer is moved out as bytes, extended with zeros before each read and cut back after
it. The file is a list of results, of which the loop looks at those up to the end of file
or the first error. The capacities, which decide how much a read may return, are up to the
allocator.

* `readLoop_eq_some`: what the loop leaves in the vector.
* `read_into_all_or_nothing_iff`: when an error leaves the buffer as it was.
-/

namespace BlazeBee.Collectors

open BlazeBee.Lib BlazeBee.Rumqttc

/-- `CHUNK`. -/
def chunk : Nat := 8192

/-! ### Vectors of bytes -/

/-- A `Vec<u8>`, with the number of bytes that it has memory for. -/
structure ByteVec where
  bytes : List UInt8
  capacity : Nat
  fits : bytes.length ≤ capacity

namespace ByteVec

/-- A vector that is resized has memory for its bytes, since what is missing is allocated. -/
theorem fits_resize (v : ByteVec) (reserve : Nat → Nat → Nat) (n : Nat) (fill : UInt8) :
    (v.bytes.take n ++ List.replicate (n - v.bytes.length) fill).length ≤
      if n ≤ v.capacity then v.capacity else max n (reserve v.capacity n) := by
  have length : (v.bytes.take n ++ List.replicate (n - v.bytes.length) fill).length = n := by
    rw [List.length_append, List.length_take, List.length_replicate]
    omega
  rw [length]
  split
  · assumption
  · exact Nat.le_max_left _ _

/-- `resize`: where the memory does not suffice, the allocator chooses how much there is. -/
def resize (reserve : Nat → Nat → Nat) (v : ByteVec) (n : Nat) (fill : UInt8) : ByteVec :=
  ⟨v.bytes.take n ++ List.replicate (n - v.bytes.length) fill,
    if n ≤ v.capacity then v.capacity else max n (reserve v.capacity n),
    v.fits_resize reserve n fill⟩

/-- A shorter vector fits where a longer one did. -/
theorem fits_take (v : ByteVec) (n : Nat) : (v.bytes.take n).length ≤ v.capacity := by
  rw [List.length_take]
  exact Nat.le_trans (Nat.min_le_right _ _) v.fits

/-- `truncate`, which keeps the memory. -/
def truncate (v : ByteVec) (n : Nat) : ByteVec := ⟨v.bytes.take n, v.capacity, v.fits_take n⟩

/-- The bytes after a `truncate`. -/
@[simp] theorem bytes_truncate (v : ByteVec) (n : Nat) :
    (v.truncate n).bytes = v.bytes.take n := rfl

/-- Writing into a vector does not make it longer. -/
theorem fits_fill (v : ByteVec) (start : Nat) (data : List UInt8) :
    (v.bytes.take start ++ (data ++ v.bytes.drop (start + data.length)).take
      (v.bytes.length - start)).length ≤ v.capacity := by
  have fits := v.fits
  rw [List.length_append, List.length_take, List.length_take]
  omega

/-- The bytes from `start` on are overwritten, as far as the vector reaches. -/
def fill (v : ByteVec) (start : Nat) (data : List UInt8) : ByteVec :=
  ⟨v.bytes.take start ++
      (data ++ v.bytes.drop (start + data.length)).take (v.bytes.length - start),
    v.capacity, v.fits_fill start data⟩

/-- Extending a vector puts the new bytes behind the old ones. -/
@[simp] theorem bytes_resize_add (reserve : Nat → Nat → Nat) (v : ByteVec) (n : Nat)
    (b : UInt8) : (v.resize reserve (v.bytes.length + n) b).bytes =
      v.bytes ++ List.replicate n b := by
  have more : v.bytes.length ≤ v.bytes.length + n := Nat.le_add_right _ _
  show v.bytes.take (v.bytes.length + n) ++ List.replicate (v.bytes.length + n - v.bytes.length) b
    = v.bytes ++ List.replicate n b
  rw [List.take_of_length_le more, Nat.add_sub_cancel_left]

/-- After a read into the new part, what was read stands behind what there was. -/
theorem bytes_filled (reserve : Nat → Nat → Nat) (v : ByteVec) {n : Nat} {data : List UInt8}
    (room : data.length ≤ n) (b : UInt8) :
    (((v.resize reserve (v.bytes.length + n) b).fill v.bytes.length data).truncate
      (v.bytes.length + data.length)).bytes = v.bytes ++ data := by
  have start : (v.bytes ++ List.replicate n b).take v.bytes.length = v.bytes :=
    List.take_left
  have size : (v.bytes ++ List.replicate n b).length - v.bytes.length = n := by
    rw [List.length_append, List.length_replicate, Nat.add_sub_cancel_left]
  rw [bytes_truncate, fill]
  dsimp only
  rw [bytes_resize_add, start, size, List.take_length_add_append, List.take_take,
    Nat.min_eq_left room, List.take_left]

end ByteVec

/-! ### The loop -/

/-- The loop of `read_into`, as far as the results go; `none` where they end too early, or
one of them is more than was asked for. -/
def readLoop (reserve : Nat → Nat → Nat) (bytes : ByteVec) :
    List (Except IoError (List UInt8)) → Option (ByteVec × Except IoError Unit)
  | [] => none
  | read :: reads =>
      let len := bytes.bytes.length
      let want := max (bytes.capacity - len) chunk
      let extended := bytes.resize reserve (len + want) 0
      match read with
      | .error e => some (extended, .error e)
      | .ok data =>
          if want < data.length then none
          else
            let cut := (extended.fill len data).truncate (len + data.length)
            if data.length = 0 then some (cut, .ok ()) else readLoop reserve cut reads

/-- `read_into`, for a buffer with some memory to spare. -/
def readInto (reserve : Nat → Nat → Nat) (opened : Except IoError Unit)
    (reads : List (Except IoError (List UInt8))) (buf : String) (spare : Nat) :
    Option (String × Except IoError Unit) :=
  match opened with
  | .error e => some (buf, .error e)
  | .ok () =>
      let taken := Utf8.utf8 buf.toList
      let start := taken.length
      match readLoop reserve ⟨taken, start + spare, Nat.le_add_right _ _⟩ reads with
      | none => none
      | some (bytes, result) =>
          match Utf8.decode bytes.bytes with
          | some text => some (String.ofList text, result)
          | none =>
              some (String.ofList ((Utf8.decode (bytes.truncate start).bytes).getD []),
                .error ⟨.invalidData, "file is not valid UTF-8"⟩)

/-- All bytes read, up to the end of file or the first error. -/
def received : List (Except IoError (List UInt8)) → List UInt8
  | .ok (b :: data) :: reads => (b :: data) ++ received reads
  | _ => []

/-- The error of a read, if one fails before the end of file. -/
def failure : List (Except IoError (List UInt8)) → Option IoError
  | .ok (_ :: _) :: reads => failure reads
  | .error e :: _ => some e
  | _ => none

/-- Everything the loop can leave: what was read, and after an error the zeros too. -/
inductive Left (bytes : List UInt8) (reads : List (Except IoError (List UInt8))) :
    List UInt8 → Except IoError Unit → Prop where
  | ended : failure reads = none → Left bytes reads (bytes ++ received reads) (.ok ())
  | failed (e : IoError) (want : Nat) : failure reads = some e → chunk ≤ want →
      Left bytes reads (bytes ++ received reads ++ List.replicate want 0) (.error e)

/-- At the end of file the extension is taken back as a whole. -/
theorem readLoop_eof (reserve : Nat → Nat → Nat) (bytes : ByteVec)
    (reads : List (Except IoError (List UInt8))) :
    ∃ left, readLoop reserve bytes (.ok [] :: reads) = some (left, .ok ()) ∧
      left.bytes = bytes.bytes := by
  refine ⟨_, rfl, ?_⟩
  rw [ByteVec.bytes_filled reserve bytes (Nat.zero_le _) 0, List.append_nil]

/-- A read that gives something is kept, the rest of the extension is taken back, and the
loop goes on. -/
theorem readLoop_data (reserve : Nat → Nat → Nat) {bytes : ByteVec} {data : List UInt8}
    (some : data ≠ []) (room : data.length ≤ max (bytes.capacity - bytes.bytes.length) chunk)
    (reads : List (Except IoError (List UInt8))) :
    ∃ cut, readLoop reserve bytes (.ok data :: reads) = readLoop reserve cut reads ∧
      cut.bytes = bytes.bytes ++ data := by
  have more : data.length ≠ 0 := mt List.length_eq_zero_iff.mp some
  refine ⟨_, ?_, ByteVec.bytes_filled reserve bytes room 0⟩
  simp only [readLoop, if_neg (Nat.not_lt.mpr room), if_neg more]

/-- What the loop leaves in the vector: behind the bytes it had, all that was read, and after
an error also the extension of the read that failed, which nobody takes back. By induction on
the results. -/
theorem readLoop_eq_some {reserve : Nat → Nat → Nat} {bytes left : ByteVec}
    {reads : List (Except IoError (List UInt8))} {result : Except IoError Unit}
    (ran : readLoop reserve bytes reads = some (left, result)) :
    Left bytes.bytes reads left.bytes result := by
  induction reads generalizing bytes with
  | nil => cases ran
  | cons read reads ih =>
      rcases read with e | _ | ⟨b, data⟩
      · obtain ⟨rfl, rfl⟩ := Prod.mk.inj (Option.some.inj ran)
        rw [ByteVec.bytes_resize_add]
        have none : bytes.bytes ++ received (.error e :: reads) = bytes.bytes :=
          List.append_nil _
        have failed : Left bytes.bytes (.error e :: reads)
            (bytes.bytes ++ received (.error e :: reads) ++
              List.replicate (max (bytes.capacity - bytes.bytes.length) chunk) 0) (.error e) :=
          .failed e _ rfl (Nat.le_max_right _ _)
        rwa [none] at failed
      · obtain ⟨left', ended, same⟩ := readLoop_eof reserve bytes reads
        obtain ⟨rfl, rfl⟩ := Prod.mk.inj (Option.some.inj (ended.symm.trans ran))
        have none : bytes.bytes ++ received (.ok [] :: reads) = bytes.bytes := List.append_nil _
        have ended : Left bytes.bytes (.ok [] :: reads)
            (bytes.bytes ++ received (.ok [] :: reads)) (.ok ()) := .ended rfl
        rw [same]
        rwa [none] at ended
      · have room : (b :: data).length ≤ max (bytes.capacity - bytes.bytes.length) chunk := by
          by_contra excess
          simp only [readLoop, if_pos (Nat.lt_of_not_le excess), reduceCtorEq] at ran
        obtain ⟨cut, goes, same⟩ := readLoop_data reserve (List.cons_ne_nil b data) room reads
        have later := ih (goes.symm.trans ran)
        rw [same] at later
        generalize left.bytes = final at later ⊢
        -- The rest of the reads is as it was, behind this one.
        have more : received (.ok (b :: data) :: reads) = (b :: data) ++ received reads := rfl
        cases later with
        | ended fine =>
            rw [List.append_assoc, ← more]
            exact .ended fine
        | failed e want fails wide =>
            rw [List.append_assoc bytes.bytes, ← more]
            exact .failed e want fails wide

/-- Reads of a chunk at most that come to an end are a run of the loop. -/
theorem exists_readLoop {reads : List (Except IoError (List UInt8))}
    (short : ∀ data, .ok data ∈ reads → data.length ≤ chunk)
    (ends : .ok [] ∈ reads ∨ ∃ e, .error e ∈ reads) (reserve : Nat → Nat → Nat)
    (bytes : ByteVec) : ∃ left result, readLoop reserve bytes reads = some (left, result) := by
  induction reads generalizing bytes with
  | nil => simp at ends
  | cons read reads ih =>
      rcases read with e | _ | ⟨b, data⟩
      · exact ⟨_, _, rfl⟩
      · obtain ⟨left, ended, -⟩ := readLoop_eof reserve bytes reads
        exact ⟨left, _, ended⟩
      · have room := short (b :: data) List.mem_cons_self
        obtain ⟨cut, goes, -⟩ := readLoop_data reserve (List.cons_ne_nil b data)
          (Nat.le_trans room (Nat.le_max_right _ _)) reads
        rw [goes]
        refine ih (fun data mem => short data (List.mem_cons_of_mem _ mem)) ?_ cut
        simpa using ends

/-! ### The buffer -/

/-- On success the bytes read stand behind what there was; after an error the buffer is
what it was. -/
def AllOrNothing (buf : String) (reads : List (Except IoError (List UInt8)))
    (outcome : String × Except IoError Unit) : Prop :=
  (outcome.2 = .ok () →
    Utf8.utf8 outcome.1.toList = Utf8.utf8 buf.toList ++ received reads) ∧
    ∀ e, outcome.2 = .error e → outcome.1 = buf

/-- No read fails while the bytes so far are valid. -/
def FailsOnlyInvalid (opened : Except IoError Unit)
    (reads : List (Except IoError (List UInt8))) : Prop :=
  opened = .ok () → ∀ e, failure reads = some e → ¬ Utf8.Valid (received reads)

/-- A zero byte is a character, so padding with zeros is valid text. -/
theorem nul_encodes : String.utf8EncodeChar '\x00' = [0] := rfl

/-- The zeros behind the bytes read are valid, as are the bytes of the buffer before them. -/
theorem valid_extended_iff {buf : String} {bytes : List UInt8} {want : Nat} :
    Utf8.Valid (Utf8.utf8 buf.toList ++ bytes ++ List.replicate want 0) ↔ Utf8.Valid bytes := by
  have ascii : (0 : UInt8) < 0x80 := UInt8.lt_iff_toNat_lt.mpr (Nat.zero_lt_succ 127)
  rw [Utf8.valid_append_replicate_iff nul_encodes ascii, Utf8.valid_utf8_append_iff]

/-- Cutting back to the beginning restores the buffer. -/
theorem restored {buf : String} {rest : List UInt8} {bytes : ByteVec}
    (left : bytes.bytes = Utf8.utf8 buf.toList ++ rest) :
    String.ofList ((Utf8.decode (bytes.truncate (Utf8.utf8 buf.toList).length).bytes).getD []) =
      buf := by
  have prefix_eq : (bytes.truncate (Utf8.utf8 buf.toList).length).bytes =
      Utf8.utf8 buf.toList := by
    rw [ByteVec.bytes_truncate, left]
    exact List.take_left
  rw [prefix_eq, Utf8.decode_utf8, Option.getD_some, String.ofList_toList]

/-- A file that is read in chunks and comes to an end, or to an error, is a run of the
call. -/
theorem exists_readInto {reads : List (Except IoError (List UInt8))}
    (short : ∀ data, .ok data ∈ reads → data.length ≤ chunk)
    (ends : .ok [] ∈ reads ∨ ∃ e, .error e ∈ reads) (reserve : Nat → Nat → Nat)
    (opened : Except IoError Unit) (buf : String) (spare : Nat) :
    ∃ outcome, readInto reserve opened reads buf spare = some outcome := by
  cases opened with
  | error e => exact ⟨_, rfl⟩
  | ok u =>
      obtain ⟨left, result, loop⟩ := exists_readLoop short ends reserve
        ⟨Utf8.utf8 buf.toList, (Utf8.utf8 buf.toList).length + spare, Nat.le_add_right _ _⟩
      simp only [readInto, loop]
      split
      · exact ⟨_, rfl⟩
      · exact ⟨_, rfl⟩

/-- Everything a call can come to. -/
inductive ReadInto (opened : Except IoError Unit) (reads : List (Except IoError (List UInt8)))
    (buf : String) : String × Except IoError Unit → Prop where
  | unopened (e : IoError) : opened = .error e → ReadInto opened reads buf (buf, .error e)
  | whole (text : String) : failure reads = none →
      Utf8.utf8 text.toList = Utf8.utf8 buf.toList ++ received reads →
      ReadInto opened reads buf (text, .ok ())
  | padded (text : String) (e : IoError) (want : Nat) : opened = .ok () →
      failure reads = some e → chunk ≤ want →
      Utf8.utf8 text.toList =
        Utf8.utf8 buf.toList ++ received reads ++ List.replicate want 0 →
      ReadInto opened reads buf (text, .error e)
  | invalid : ¬ Utf8.Valid (received reads) →
      ReadInto opened reads buf (buf, .error ⟨.invalidData, "file is not valid UTF-8"⟩)

/-- A call comes to one of the four. After an error of a read the zeros are still there, and
as they are valid text, the check behind the loop lets them pass. -/
theorem cases_of_readInto {reserve : Nat → Nat → Nat} {opened : Except IoError Unit}
    {reads : List (Except IoError (List UInt8))} {buf : String} {spare : Nat}
    {outcome : String × Except IoError Unit}
    (ran : readInto reserve opened reads buf spare = some outcome) :
    ReadInto opened reads buf outcome := by
  cases opened with
  | error e =>
      obtain rfl := Option.some.inj ran
      exact .unopened e rfl
  | ok u =>
      simp only [readInto] at ran
      split at ran
      · cases ran
      · rename_i bytes result loop
        have left : Left (Utf8.utf8 buf.toList) reads bytes.bytes result := readLoop_eq_some loop
        generalize final : bytes.bytes = bytes' at left ran
        cases left with
        | ended fine =>
            split at ran
            · rename_i text decoded
              obtain rfl := Option.some.inj ran
              refine .whole _ fine ?_
              rw [String.toList_ofList]
              exact Utf8.decode_eq_some_iff.mp decoded
            · rename_i undecoded
              obtain rfl := Option.some.inj ran
              rw [restored final]
              exact .invalid fun valid =>
                Utf8.decode_eq_none_iff.mp undecoded (Utf8.valid_utf8_append_iff.mpr valid)
        | failed e want fails wide =>
            split at ran
            · rename_i text decoded
              obtain rfl := Option.some.inj ran
              refine .padded _ e want rfl fails wide ?_
              rw [String.toList_ofList]
              exact Utf8.decode_eq_some_iff.mp decoded
            · rename_i undecoded
              obtain rfl := Option.some.inj ran
              rw [restored (final.trans (List.append_assoc _ _ _))]
              exact .invalid fun valid =>
                Utf8.decode_eq_none_iff.mp undecoded (valid_extended_iff.mpr valid)

/-- Zeros that are left behind an error are a change. -/
theorem padded_ne {text buf : String} {bytes : List UInt8} {want : Nat} (wide : chunk ≤ want)
    (padded : Utf8.utf8 text.toList = Utf8.utf8 buf.toList ++ bytes ++ List.replicate want 0) :
    text ≠ buf := by
  rintro rfl
  have length := congrArg List.length padded
  simp only [List.length_append, List.length_replicate] at length
  have positive : 0 < chunk := Nat.zero_lt_succ 8191
  omega

/-- The buffer is read into as a whole or not at all, exactly when no read fails while the
bytes read so far are valid UTF-8: the zeros are cut off only with invalid bytes. -/
theorem read_into_all_or_nothing_iff {reserve : Nat → Nat → Nat} {opened : Except IoError Unit}
    {reads : List (Except IoError (List UInt8))} {buf : String} {spare : Nat}
    {outcome : String × Except IoError Unit}
    (ran : readInto reserve opened reads buf spare = some outcome) :
    AllOrNothing buf reads outcome ↔ FailsOnlyInvalid opened reads := by
  cases cases_of_readInto ran with
  | unopened e closed =>
      refine iff_of_true ⟨nofun, fun _ _ => rfl⟩ fun opens => ?_
      cases closed.symm.trans opens
  | whole text fine same =>
      refine iff_of_true ⟨fun _ => same, nofun⟩ fun _ e fails => ?_
      cases fine.symm.trans fails
  | padded text e want opens fails wide same =>
      refine iff_of_false (fun all => padded_ne wide same (all.2 e rfl)) fun meets => ?_
      exact meets opens e fails (valid_extended_iff.mp ⟨_, same⟩)
  | invalid invalid => exact iff_of_true ⟨nofun, fun _ _ => rfl⟩ fun _ _ _ => invalid

/-- A character in two reads, of which the second one fails. -/
def cutRead : List (Except IoError (List UInt8)) :=
  [.ok [0x61, 0xC3], .error ⟨.other, "input/output error"⟩]

/-- The first byte of a character without the second is not valid, so the buffer is
restored. -/
theorem read_into_all_or_nothing_cut :
    ∃ outcome, readInto (fun _ n => n) (.ok ()) cutRead "keep" 0 = some outcome ∧
      AllOrNothing "keep" cutRead outcome := by
  have short : ∀ data, .ok data ∈ cutRead → data.length ≤ chunk := by simp [cutRead, chunk]
  have ends : .ok [] ∈ cutRead ∨ ∃ e, .error e ∈ cutRead :=
    Or.inr ⟨_, List.mem_cons_of_mem _ (List.mem_singleton_self _)⟩
  obtain ⟨outcome, ran⟩ := exists_readInto short ends (fun _ n => n) (.ok ()) "keep" 0
  refine ⟨outcome, ran, (read_into_all_or_nothing_iff ran).mpr fun _ _ _ valid => ?_⟩
  exact Utf8.decode_eq_none_iff.mp (by decide +kernel) valid

/-- An error of the first read. -/
def failedRead : List (Except IoError (List UInt8)) := [.error ⟨.other, "input/output error"⟩]

/-- The buffer comes back with a chunk of zeros behind it. -/
theorem failedRead_padded :
    ∃ text, readInto (fun _ n => n) (.ok ()) failedRead "keep" 0 =
        some (text, .error ⟨.other, "input/output error"⟩) ∧
      (∃ want, chunk ≤ want ∧ text.toList = "keep".toList ++ List.replicate want '\x00') ∧
      ¬ AllOrNothing "keep" failedRead (text, .error ⟨.other, "input/output error"⟩) := by
  have ends : .ok [] ∈ failedRead ∨ ∃ e, .error e ∈ failedRead :=
    Or.inr ⟨_, List.mem_singleton_self _⟩
  obtain ⟨outcome, ran⟩ :=
    exists_readInto (by simp [failedRead]) ends (fun _ n => n) (.ok ()) "keep" 0
  cases cases_of_readInto ran with
  | unopened e closed => cases closed
  | whole text fine _ => cases fine
  | padded text e want _ fails wide same =>
      obtain rfl := Option.some.inj fails
      refine ⟨text, ran, ⟨want, wide, ?_⟩, fun all => padded_ne wide same (all.2 _ rfl)⟩
      have none : received failedRead = [] := rfl
      rw [none, List.append_nil, ← Utf8.utf8_replicate nul_encodes, ← Utf8.utf8_append] at same
      exact Utf8.utf8_injective same
  | invalid invalid => exact absurd ⟨[], rfl⟩ invalid

end BlazeBee.Collectors
