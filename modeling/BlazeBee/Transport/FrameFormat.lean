import BlazeBee.Transport.Reassembly

/-!
The frame format, exactly.

`decode_exact` says that a byte string is read as a header exactly when it starts with
that header's encoding, so the two tables of format bytes and the hand-written offsets
agree. `frames_exact` says when `frames` succeeds and what every frame then is.
`decodeOrPanic` and `framesOrPanic` are the same functions with every operation of the
source that can panic left partial; they never do.
-/

namespace BlazeBee.Transport

open BlazeBee.Lib.Bytes BlazeBee.Lib.Fragments BlazeBee.Lib.Num

/-! ### The header, read back -/

/-- `bytes[i..j]`: a range outside the bytes is a panic. -/
def sliceOrPanic (bytes : List UInt8) (i j : Nat) : Option (List UInt8) :=
  if i ≤ j ∧ j ≤ bytes.length then some (slice bytes i j) else none

/-- `try_into` for an array of `n` bytes, read as a big-endian number. -/
def fromBytes (n : Nat) (bytes : List UInt8) : Option Nat :=
  if bytes.length = n then some (ofBE bytes) else none

/-- The struct expression at the end of `decode`. -/
def FrameHeader.fieldsOrPanic (bytes : List UInt8) (format : SerializationFormat) :
    Option (Option FrameHeader) := do
  let qos ← bytes[4]?
  let streamId ← sliceOrPanic bytes 5 13
  let frameIndex ← sliceOrPanic bytes 13 17
  let frameTotal ← sliceOrPanic bytes 17 21
  return do
    let streamId ← fromBytes 8 streamId
    let frameIndex ← fromBytes 4 frameIndex
    let frameTotal ← fromBytes 4 frameTotal
    return ⟨format, qos, UInt64.ofNat streamId, UInt32.ofNat frameIndex, UInt32.ofNat frameTotal⟩

/-- The `match` on `bytes[3]`. -/
def SerializationFormat.ofU8 : UInt8 → Option SerializationFormat
  | 0 => some .json
  | 1 => some .messagePack
  | 2 => some .cbor
  | _ => none

/-- `decode` with its index and slice expressions as they can fail: `none` is a panic, and
the inner `none` the result for a byte string that is no header. -/
def FrameHeader.decodeOrPanic (bytes : List UInt8) : Option (Option FrameHeader) :=
  -- `||` stops at the first condition that holds.
  if bytes.length < frameHeaderLen then some none
  else do
    let magic ← sliceOrPanic bytes 0 2
    if magic ≠ frameMagic then return none
    let version ← bytes[2]?
    if version ≠ frameVersion then return none
    let code ← bytes[3]?
    match SerializationFormat.ofU8 code with
    | none => return none
    | some format => fieldsOrPanic bytes format

/-! ### The two tables -/

/-- A byte names a format exactly when it is the byte of that format. -/
theorem SerializationFormat.ofU8_eq_some_iff {b : UInt8} {format : SerializationFormat} :
    ofU8 b = some format ↔ b = format.toU8 := by
  constructor
  · intro found
    unfold ofU8 at found
    split at found <;> cases found <;> rfl
  · rintro rfl
    cases format <;> rfl

section Decode

variable {bytes : List UInt8}

@[simp] theorem length_slice {i j : Nat} (le : i ≤ j) (inside : j ≤ bytes.length) :
    (slice bytes i j).length = j - i := by
  rw [slice, List.length_take, List.length_drop]
  omega

/-- Inside the bounds a slice does not panic. -/
theorem sliceOrPanic_of_le {i j : Nat} (le : i ≤ j) (inside : j ≤ bytes.length) :
    sliceOrPanic bytes i j = some (slice bytes i j) := if_pos ⟨le, inside⟩

/-- Eight bytes are a stream identifier, and back. -/
theorem streamId_to_bytes {s : List UInt8} (length : s.length = 8) :
    toBE 8 (UInt64.ofNat (ofBE s)).toNat = s := by
  have lt : ofBE s < 256 ^ 8 := length ▸ ofBE_lt s
  have same : (UInt64.ofNat (ofBE s)).toNat = ofBE s := Nat.mod_eq_of_lt lt
  rw [same, ← length, toBE_ofBE]

/-- Four bytes are a frame index, and back. -/
theorem frameIndex_to_bytes {s : List UInt8} (length : s.length = 4) :
    toBE 4 (UInt32.ofNat (ofBE s)).toNat = s := by
  have lt : ofBE s < 256 ^ 4 := length ▸ ofBE_lt s
  have same : (UInt32.ofNat (ofBE s)).toNat = ofBE s := Nat.mod_eq_of_lt lt
  rw [same, ← length, toBE_ofBE]

/-- The fields of a header, apart from the format. -/
def FrameHeader.fields (bytes : List UInt8) (qos : UInt8) (format : SerializationFormat) :
    FrameHeader :=
  ⟨format, qos, UInt64.ofNat (ofBE (slice bytes 5 13)),
    UInt32.ofNat (ofBE (slice bytes 13 17)), UInt32.ofNat (ofBE (slice bytes 17 21))⟩

/-- The first 21 bytes, by the offsets of the fields, and what `decode` makes of them. -/
theorem FrameHeader.decode_of_long (long : 21 ≤ bytes.length) :
    ∃ version code qos, bytes[2]? = some version ∧ bytes[3]? = some code ∧
      bytes[4]? = some qos ∧
      bytes.take 21 = bytes.take 2 ++ [version, code, qos] ++
        slice bytes 5 13 ++ slice bytes 13 17 ++ slice bytes 17 21 ∧
      decode bytes =
        if bytes.take 2 ≠ frameMagic ∨ version ≠ frameVersion then none
        else (SerializationFormat.ofU8 code).map (fields bytes qos) := by
  refine ⟨bytes[2], bytes[3], bytes[4], List.getElem?_eq_getElem _, List.getElem?_eq_getElem _,
    List.getElem?_eq_getElem _, ?_, ?_⟩
  · have total : bytes.take 21 = bytes.take 17 ++ slice bytes 17 21 :=
      List.take_add (i := 17) (j := 4)
    have index : bytes.take 17 = bytes.take 13 ++ slice bytes 13 17 :=
      List.take_add (i := 13) (j := 4)
    have stream : bytes.take 13 = bytes.take 5 ++ slice bytes 5 13 :=
      List.take_add (i := 5) (j := 8)
    have qos : bytes.take 5 = bytes.take 4 ++ [bytes[4]] := List.take_succ_eq_append_getElem _
    have format : bytes.take 4 = bytes.take 3 ++ [bytes[3]] := List.take_succ_eq_append_getElem _
    have version : bytes.take 3 = bytes.take 2 ++ [bytes[2]] := List.take_succ_eq_append_getElem _
    rw [total, index, stream, qos, format, version]
    simp only [List.append_assoc, List.cons_append, List.nil_append]
  · unfold decode
    rw [dif_neg (Nat.not_lt.mpr long)]
    simp only
    split_ifs with magic
    · rfl
    · unfold SerializationFormat.ofU8
      split <;> simp_all [fields]

/-- A byte string that is read as a header starts with its encoding. -/
theorem FrameHeader.take_of_decode {h : FrameHeader} (decoded : decode bytes = some h) :
    21 ≤ bytes.length ∧ bytes.take 21 = h.encode := by
  have long : 21 ≤ bytes.length := by
    by_contra short
    rw [decode, dif_pos (Nat.lt_of_not_le short)] at decoded
    cases decoded
  refine ⟨long, ?_⟩
  obtain ⟨version, code, qos, -, -, -, layout, meaning⟩ := decode_of_long long
  rw [meaning] at decoded
  split_ifs at decoded with other
  obtain ⟨magic, rfl⟩ : bytes.take 2 = frameMagic ∧ version = frameVersion := by
    simpa only [not_or, not_not] using other
  obtain ⟨format, known, rfl⟩ := Option.map_eq_some_iff.mp decoded
  have stream : (slice bytes 5 13).length = 8 := length_slice (by decide) (by omega)
  have index : (slice bytes 13 17).length = 4 := length_slice (by decide) (by omega)
  have total : (slice bytes 17 21).length = 4 := length_slice (by decide) long
  rw [layout, magic, SerializationFormat.ofU8_eq_some_iff.mp known, encode, fields,
    streamId_to_bytes stream, frameIndex_to_bytes index, frameIndex_to_bytes total]

/-- Once the length is checked, no field is read out of bounds. -/
theorem FrameHeader.fieldsOrPanic_of_long (long : 21 ≤ bytes.length) {qos : UInt8}
    (fourth : bytes[4]? = some qos) (format : SerializationFormat) :
    fieldsOrPanic bytes format = some (some (fields bytes qos format)) := by
  have stream : (slice bytes 5 13).length = 8 := length_slice (by decide) (by omega)
  have index : (slice bytes 13 17).length = 4 := length_slice (by decide) (by omega)
  have total : (slice bytes 17 21).length = 4 := length_slice (by decide) long
  have within : ∀ i j, i ≤ j → j ≤ 21 → sliceOrPanic bytes i j = some (slice bytes i j) :=
    fun i j le inside => sliceOrPanic_of_le le (Nat.le_trans inside long)
  rw [fieldsOrPanic, fourth, within 5 13 (by decide) (by decide),
    within 13 17 (by decide) (by decide), within 17 21 (by decide) (by decide)]
  simp [fromBytes, stream, index, total, fields]

/-- Nothing in `decode` can panic: the length test guards every offset. -/
theorem FrameHeader.decodeOrPanic_eq (bytes : List UInt8) :
    decodeOrPanic bytes = some (decode bytes) := by
  rcases Nat.lt_or_ge bytes.length 21 with short | long
  · rw [decodeOrPanic, if_pos short, decode, dif_pos short]
  · have magic : sliceOrPanic bytes 0 2 = some (bytes.take 2) :=
      sliceOrPanic_of_le (by decide) (by omega)
    obtain ⟨version, code, qos, second, third, fourth, -, meaning⟩ := decode_of_long long
    rw [decodeOrPanic, if_neg (Nat.not_lt.mpr long), meaning, magic, second, third]
    by_cases known : bytes.take 2 = frameMagic
    · by_cases current : version = frameVersion
      · cases found : SerializationFormat.ofU8 code with
        | none => simp [known, current, found]
        | some format => simp [known, current, found, fieldsOrPanic_of_long long fourth]
      · simp [known, current]
    · simp [known]

end Decode

/-- The codec is exact: a header is read back whatever follows it, a byte string is read
as a header exactly when it starts with that header's encoding, and no byte string makes
`decode` panic. -/
theorem FrameHeader.decode_exact :
    (∀ (h : FrameHeader) (rest : List UInt8), decode (h.encode ++ rest) = some h) ∧
      (∀ (bytes : List UInt8) (h : FrameHeader),
        decode bytes = some h ↔ 21 ≤ bytes.length ∧ bytes.take 21 = h.encode) ∧
      ∀ bytes : List UInt8, decodeOrPanic bytes = some (decode bytes) := by
  refine ⟨decode_encode, fun bytes h => ⟨take_of_decode, ?_⟩, decodeOrPanic_eq⟩
  rintro ⟨-, start⟩
  rw [← List.take_append_drop 21 bytes, start]
  exact decode_encode h _

/-! ### Frames, one by one -/

/-- `frames` with its partial operations as they can fail: `none` is a panic. -/
def framesOrPanic (payload : List UInt8) (format : SerializationFormat) (qos : UInt8)
    (streamId : UInt64) (maxFrameLen : Nat) : Option (Except TransferError (List (List UInt8))) :=
  match (checkedSub maxFrameLen frameHeaderLen).filter
      fun n => decide (n > 0) || payload.isEmpty with
  | none => some (.error (.framing
      "max_packet_size leaves no room for payload after the 21-byte frame header"))
  | some chunkMax => do
      let total ← if payload.isEmpty then some 1 else divCeilOrPanic payload.length chunkMax
      match u32TryFrom total with
      | none => return .error (.framing "payload needs more than u32::MAX frames")
      | some frameTotal =>
          let chunks ← if payload.isEmpty then some [payload.take 0]
            else chunksOrPanic chunkMax payload
          return .ok (chunks.mapIdx (frame format qos streamId frameTotal))

/-- The number of frames that a payload needs. -/
def framesNeeded (payload : List UInt8) (maxFrameLen : Nat) : Nat :=
  if payload = [] then 1 else payload.length ⌈/⌉ (maxFrameLen - frameHeaderLen)

/-- What the `i`-th frame carries of a payload. -/
def chunkAt (payload : List UInt8) (maxFrameLen i : Nat) : List UInt8 :=
  (payload.drop (i * (maxFrameLen - frameHeaderLen))).take (maxFrameLen - frameHeaderLen)

/-- The `i`-th of `total` frames: a header with both numbers, neither of them wrapped,
and the chunk behind it. -/
structure FrameAt (payload : List UInt8) (format : SerializationFormat) (qos : UInt8)
    (streamId : UInt64) (maxFrameLen total i : Nat) (bytes : List UInt8) : Prop where
  layout : bytes = (FrameHeader.mk format qos streamId (UInt32.ofNat i) (UInt32.ofNat total)).encode
    ++ chunkAt payload maxFrameLen i
  index_exact : (UInt32.ofNat i).toNat = i
  total_exact : (UInt32.ofNat total).toNat = total
  length : bytes.length = frameHeaderLen + (chunkAt payload maxFrameLen i).length
  fits : bytes.length ≤ maxFrameLen
  full : i + 1 < total → (chunkAt payload maxFrameLen i).length = maxFrameLen - frameHeaderLen
  nonempty : payload ≠ [] → chunkAt payload maxFrameLen i ≠ []

section Frames

variable {payload : List UInt8} {format : SerializationFormat} {qos : UInt8} {streamId : UInt64}
  {maxFrameLen : Nat}

/-- With room, a payload that is not empty has chunks of at least one byte. -/
theorem chunkMax_pos (room : HasRoom payload maxFrameLen) (nonempty : payload ≠ []) :
    0 < maxFrameLen - frameHeaderLen := by
  have := room.2 nonempty
  omega

/-- The number of frames by the format's own rule is the one that the framer counts. -/
theorem framesNeeded_eq (room : HasRoom payload maxFrameLen) :
    framesNeeded payload maxFrameLen =
      frameCount payload.length (maxFrameLen - frameHeaderLen) := by
  by_cases empty : payload = []
  · simp [framesNeeded, frameCount, empty]
  · rw [framesNeeded, if_neg empty, ← divCeil_eq_ceilDiv (chunkMax_pos room empty), frameCount,
      if_neg (mt List.length_eq_zero_iff.mp empty)]

/-- The guard on the chunk size keeps every division by it, and every split into chunks,
from panicking. -/
theorem framesOrPanic_eq (payload : List UInt8) (format : SerializationFormat) (qos : UInt8)
    (streamId : UInt64) (maxFrameLen : Nat) :
    framesOrPanic payload format qos streamId maxFrameLen =
      some (frames payload format qos streamId maxFrameLen) := by
  by_cases room : HasRoom payload maxFrameLen
  · simp only [framesOrPanic, frames, chunkMax_of_room room]
    cases payload with
    | nil => rfl
    | cons b payload =>
        have pos := chunkMax_pos room (List.cons_ne_nil b payload)
        simp only [List.isEmpty_cons, Bool.false_eq_true, if_false, divCeilOrPanic_of_pos pos,
          chunksOrPanic_of_pos pos, framePieces, Option.bind_eq_bind, Option.bind_some]
        cases u32TryFrom (divCeil (b :: payload).length (maxFrameLen - frameHeaderLen)) <;> rfl
  · rw [framesOrPanic, frames, chunkMax_of_no_room room]

/-- The pieces are the chunks, and only the last one may be short. -/
theorem framePieces_spec (room : HasRoom payload maxFrameLen) {i : Nat}
    (lt : i < (framePieces (maxFrameLen - frameHeaderLen) payload).length) :
    (framePieces (maxFrameLen - frameHeaderLen) payload)[i] = chunkAt payload maxFrameLen i ∧
      (i + 1 < (framePieces (maxFrameLen - frameHeaderLen) payload).length →
        (chunkAt payload maxFrameLen i).length = maxFrameLen - frameHeaderLen) ∧
      (payload ≠ [] → chunkAt payload maxFrameLen i ≠ []) := by
  cases payload with
  | nil =>
      have first : i = 0 := by simpa [framePieces] using lt
      subst first
      simp [framePieces, chunkAt]
  | cons b payload =>
      have pos := chunkMax_pos room (List.cons_ne_nil b payload)
      have cut : framePieces (maxFrameLen - frameHeaderLen) (b :: payload) =
          chunks (maxFrameLen - frameHeaderLen) (b :: payload) := rfl
      simp only [cut] at lt ⊢
      have same : (chunks (maxFrameLen - frameHeaderLen) (b :: payload))[i] =
          chunkAt (b :: payload) maxFrameLen i := by simp [chunks, chunkAt]
      obtain ⟨some_byte, full⟩ := getElem_chunks_spec pos lt
      rw [same] at some_byte full
      exact ⟨same, full, fun _ => List.ne_nil_of_length_pos some_byte⟩

/-- Every frame of a successful call is as the format says, with its own index and the common
total. -/
theorem frameAt_of_frames {produced : List (List UInt8)}
    (ok : frames payload format qos streamId maxFrameLen = .ok produced) {i : Nat}
    (lt : i < produced.length) :
    FrameAt payload format qos streamId maxFrameLen produced.length i produced[i] := by
  obtain ⟨room, few, pieces⟩ := frames_ok ok
  have count : produced.length = frameCount payload.length (maxFrameLen - frameHeaderLen) := by
    rw [pieces, List.length_mapIdx, length_framePieces]
  have inside : i < (framePieces (maxFrameLen - frameHeaderLen) payload).length := by
    rwa [length_framePieces, ← count]
  obtain ⟨piece, full, nonempty⟩ := framePieces_spec room inside
  have layout : produced[i] = (FrameHeader.mk format qos streamId (UInt32.ofNat i)
      (UInt32.ofNat produced.length)).encode ++ chunkAt payload maxFrameLen i := by
    rw [count]
    simp only [pieces, List.getElem_mapIdx, piece, frame]
  have length : produced[i].length = frameHeaderLen + (chunkAt payload maxFrameLen i).length := by
    rw [layout, List.length_append, FrameHeader.length_encode]
  have chunk : (chunkAt payload maxFrameLen i).length ≤ maxFrameLen - frameHeaderLen :=
    List.length_take_le _ _
  have header : frameHeaderLen ≤ maxFrameLen := room.1
  rw [length_framePieces, ← count] at full
  exact {
    layout
    index_exact := toNat_ofNat_of_le (by omega)
    total_exact := toNat_ofNat_of_le (by omega)
    length
    fits := by omega
    full
    nonempty }

/-- `frames` succeeds exactly when a frame has room for its header, and for a byte behind
it if there is a payload, and the number of frames fits into the header. It then produces
that many frames, each as the format says; and no input makes it panic. -/
theorem frames_exact (payload : List UInt8) (format : SerializationFormat) (qos : UInt8)
    (streamId : UInt64) (maxFrameLen : Nat) :
    ((∃ produced, frames payload format qos streamId maxFrameLen = .ok produced) ↔
      21 ≤ maxFrameLen ∧ (payload ≠ [] → 22 ≤ maxFrameLen) ∧
        framesNeeded payload maxFrameLen ≤ 4294967295) ∧
    (∀ produced, frames payload format qos streamId maxFrameLen = .ok produced →
      produced.length = framesNeeded payload maxFrameLen ∧
        ∀ i, (lt : i < produced.length) →
          FrameAt payload format qos streamId maxFrameLen produced.length i produced[i]) ∧
    framesOrPanic payload format qos streamId maxFrameLen =
      some (frames payload format qos streamId maxFrameLen) := by
  refine ⟨⟨?_, ?_⟩, ?_, framesOrPanic_eq payload format qos streamId maxFrameLen⟩
  · rintro ⟨produced, ok⟩
    obtain ⟨room, few, -⟩ := frames_ok ok
    exact ⟨room.1, room.2, framesNeeded_eq room ▸ few⟩
  · rintro ⟨header, byte, few⟩
    have room : HasRoom payload maxFrameLen := ⟨header, byte⟩
    exact ⟨_, frames_eq room (framesNeeded_eq room ▸ few)⟩
  · intro produced ok
    obtain ⟨room, -, pieces⟩ := frames_ok ok
    refine ⟨?_, fun i lt => frameAt_of_frames ok lt⟩
    rw [framesNeeded_eq room, pieces, List.length_mapIdx, length_framePieces]

end Frames

end BlazeBee.Transport
