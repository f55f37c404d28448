import BlazeBee.Lib.Bytes
import BlazeBee.Lib.Fragments
import BlazeBee.Transport.Config

/-!
Splitting an encoded payload into frames that each fit into one MQTT packet
(`framer.rs`).

`FrameHeader.encode` and `FrameHeader.decode` are the 21-byte big-endian header;
`decode_encode` is their round trip, whatever follows the header. `frames` is the
iterator of the source as a list. `frames_eq` gives its result in one formula:
the payload is cut into `pieces`, and the `i`-th piece is sent behind a header
with index `i` and the number of pieces.
-/

namespace BlazeBee.Transport

open BlazeBee.Lib.Bytes BlazeBee.Lib.Fragments BlazeBee.Lib.Num

/-! ### The header -/

/-- `b"FR"`. -/
def frameMagic : List UInt8 := [0x46, 0x52]

/-- The version in the frame header. -/
def frameVersion : UInt8 := 1

/-- Size of the fixed header that precedes every chunk. -/
abbrev frameHeaderLen : Nat := 21

/-- The fields in front of every chunk, in the order in which they are written. -/
structure FrameHeader where
  format : SerializationFormat
  qos : UInt8
  streamId : UInt64
  frameIndex : UInt32
  frameTotal : UInt32
deriving DecidableEq, Repr

/-- The header, its numbers in network byte order. -/
def FrameHeader.encode (self : FrameHeader) : List UInt8 :=
  frameMagic ++ [frameVersion, self.format.toU8, self.qos] ++
    toBE 8 self.streamId.toNat ++ toBE 4 self.frameIndex.toNat ++ toBE 4 self.frameTotal.toNat

/-- `bytes[i..j]`. -/
def slice (bytes : List UInt8) (i j : Nat) : List UInt8 := (bytes.drop i).take (j - i)

/-- Parses a header. The length test comes first, so every index below is in
range. -/
def FrameHeader.decode (bytes : List UInt8) : Option FrameHeader :=
  if short : bytes.length < frameHeaderLen then none
  else
    have len : 21 ≤ bytes.length := Nat.le_of_not_lt short
    if bytes.take 2 ≠ frameMagic ∨ bytes[2] ≠ frameVersion then none
    else do
      let format ← match bytes[3] with
        | 0 => some SerializationFormat.json
        | 1 => some SerializationFormat.messagePack
        | 2 => some SerializationFormat.cbor
        | _ => none
      return {
        format
        qos := bytes[4]
        streamId := UInt64.ofNat (ofBE (slice bytes 5 13))
        frameIndex := UInt32.ofNat (ofBE (slice bytes 13 17))
        frameTotal := UInt32.ofNat (ofBE (slice bytes 17 21)) }

/-- The header is as long as the constant says. -/
@[simp] theorem FrameHeader.length_encode (h : FrameHeader) : h.encode.length = frameHeaderLen := by
  simp [encode, frameMagic]

/-- A stream identifier survives its eight bytes. -/
theorem streamId_of_bytes (x : UInt64) : UInt64.ofNat (ofBE (toBE 8 x.toNat)) = x := by
  have lt : x.toNat < 256 ^ 8 := x.toNat_lt
  rw [ofBE_toBE, Nat.mod_eq_of_lt lt, UInt64.ofNat_toNat]

/-- A frame index survives its four bytes. -/
theorem frameIndex_of_bytes (x : UInt32) : UInt32.ofNat (ofBE (toBE 4 x.toNat)) = x := by
  have lt : x.toNat < 256 ^ 4 := x.toNat_lt
  rw [ofBE_toBE, Nat.mod_eq_of_lt lt, UInt32.ofNat_toNat]

/-- A header is read back from any byte string that starts with its encoding. -/
theorem FrameHeader.decode_encode (h : FrameHeader) (rest : List UInt8) :
    decode (h.encode ++ rest) = some h := by
  obtain ⟨format, qos, streamId, frameIndex, frameTotal⟩ := h
  set bytes := (FrameHeader.mk format qos streamId frameIndex frameTotal).encode ++ rest
    with def_bytes
  have layout : bytes = 0x46 :: 0x52 :: frameVersion :: format.toU8 :: qos ::
      (toBE 8 streamId.toNat ++
        (toBE 4 frameIndex.toNat ++ (toBE 4 frameTotal.toNat ++ rest))) := by
    simp [def_bytes, encode, frameMagic]
  have long : ¬ bytes.length < frameHeaderLen := by
    simp [def_bytes]
  have stream : slice bytes 5 13 = toBE 8 streamId.toNat := by
    simp [layout, slice]
  have index : slice bytes 13 17 = toBE 4 frameIndex.toNat := by
    simp [layout, slice]
  have total : slice bytes 17 21 = toBE 4 frameTotal.toNat := by
    have past : (toBE 8 streamId.toNat).drop 12 = [] := List.drop_eq_nil_of_le (by simp)
    simp [layout, slice, List.drop_append, past]
  rw [decode, dif_neg long, stream, index, total, streamId_of_bytes, frameIndex_of_bytes,
    frameIndex_of_bytes]
  simp only [layout]
  cases format <;> simp [frameMagic, SerializationFormat.toU8]

/-! ### Frames -/

/-- The chunks that are sent one per frame; an empty payload is sent as one empty
chunk. -/
def framePieces (chunkMax : Nat) (payload : List UInt8) : List (List UInt8) :=
  if payload.isEmpty then [payload.take 0] else chunks chunkMax payload

/-- The number of frames a payload of `len` bytes needs. -/
def frameCount (len chunkMax : Nat) : Nat :=
  if len = 0 then 1 else divCeil len chunkMax

/-- The `index`-th frame. -/
def frame (format : SerializationFormat) (qos : UInt8) (streamId : UInt64) (frameTotal : UInt32)
    (index : Nat) (chunk : List UInt8) : List UInt8 :=
  (FrameHeader.mk format qos streamId (UInt32.ofNat index) frameTotal).encode ++ chunk

/-- Returns the frames for `payload`, none of them longer than `maxFrameLen`. -/
def frames (payload : List UInt8) (format : SerializationFormat) (qos : UInt8) (streamId : UInt64)
    (maxFrameLen : Nat) : Except TransferError (List (List UInt8)) :=
  match (checkedSub maxFrameLen frameHeaderLen).filter
      fun n => decide (n > 0) || payload.isEmpty with
  | none => .error (.framing
      "max_packet_size leaves no room for payload after the 21-byte frame header")
  | some chunkMax =>
      let total := if payload.isEmpty then 1 else divCeil payload.length chunkMax
      match u32TryFrom total with
      | none => .error (.framing "payload needs more than u32::MAX frames")
      | some frameTotal =>
          .ok ((framePieces chunkMax payload).mapIdx (frame format qos streamId frameTotal))

section Spec

variable {payload : List UInt8} {format : SerializationFormat} {qos : UInt8} {streamId : UInt64}
  {maxFrameLen : Nat}

/-- The number of frames that the source computes, an empty payload having one. -/
theorem total_eq_frameCount (payload : List UInt8) (chunkMax : Nat) :
    (if payload.isEmpty then 1 else divCeil payload.length chunkMax) =
      frameCount payload.length chunkMax := by
  cases payload <;> simp [frameCount]

/-- There are as many pieces as counted. -/
@[simp] theorem length_framePieces (chunkMax : Nat) (payload : List UInt8) :
    (framePieces chunkMax payload).length = frameCount payload.length chunkMax := by
  cases payload <;> simp [framePieces, frameCount]

/-- A frame has room for its header and, unless the payload is empty, for at
least one byte behind it. -/
def HasRoom (payload : List UInt8) (maxFrameLen : Nat) : Prop :=
  frameHeaderLen ≤ maxFrameLen ∧ (payload ≠ [] → frameHeaderLen < maxFrameLen)

instance : Decidable (HasRoom payload maxFrameLen) := by
  unfold HasRoom
  exact inferInstance

/-- With room, a frame carries what the limit leaves after the header. -/
theorem chunkMax_of_room (room : HasRoom payload maxFrameLen) :
    (checkedSub maxFrameLen frameHeaderLen).filter (fun n => decide (n > 0) || payload.isEmpty) =
      some (maxFrameLen - frameHeaderLen) := by
  obtain ⟨header, nonempty⟩ := room
  rw [checkedSub, if_pos header]
  cases payload with
  | nil => simp
  | cons b payload => simp [nonempty]

/-- Without room there is no chunk size. -/
theorem chunkMax_of_no_room (tight : ¬ HasRoom payload maxFrameLen) :
    (checkedSub maxFrameLen frameHeaderLen).filter (fun n => decide (n > 0) || payload.isEmpty) =
      none := by
  unfold HasRoom at tight
  unfold checkedSub
  split_ifs with header
  · cases payload with
    | nil => simp [header] at tight
    | cons b payload =>
        have none_left : maxFrameLen - frameHeaderLen = 0 := by
          simp [header] at tight
          omega
        simp [none_left]
  · rfl

/-- The frames in one formula, and when there are any. -/
theorem frames_eq (room : HasRoom payload maxFrameLen)
    (few : frameCount payload.length (maxFrameLen - frameHeaderLen) ≤ u32Max) :
    frames payload format qos streamId maxFrameLen =
      .ok ((framePieces (maxFrameLen - frameHeaderLen) payload).mapIdx
        (frame format qos streamId
          (UInt32.ofNat (frameCount payload.length (maxFrameLen - frameHeaderLen))))) := by
  simp only [frames, chunkMax_of_room room, total_eq_frameCount]
  rw [u32TryFrom, if_pos few]

variable (format qos streamId) in
/-- The error for a limit below the header, or equal to it with a payload to send. -/
theorem frames_no_room (tight : ¬ HasRoom payload maxFrameLen) :
    frames payload format qos streamId maxFrameLen = .error (.framing
      "max_packet_size leaves no room for payload after the 21-byte frame header") := by
  rw [frames, chunkMax_of_no_room tight]

variable (format qos streamId) in
/-- The error for a payload whose frames cannot be numbered. -/
theorem frames_too_many (room : HasRoom payload maxFrameLen)
    (many : u32Max < frameCount payload.length (maxFrameLen - frameHeaderLen)) :
    frames payload format qos streamId maxFrameLen =
      .error (.framing "payload needs more than u32::MAX frames") := by
  simp only [frames, chunkMax_of_room room, total_eq_frameCount]
  rw [u32TryFrom_eq_none_iff.mpr many]

/-- What a successful call guarantees. -/
theorem frames_ok {produced : List (List UInt8)}
    (ok : frames payload format qos streamId maxFrameLen = .ok produced) :
    HasRoom payload maxFrameLen ∧
      frameCount payload.length (maxFrameLen - frameHeaderLen) ≤ u32Max ∧
      produced = (framePieces (maxFrameLen - frameHeaderLen) payload).mapIdx
        (frame format qos streamId
          (UInt32.ofNat (frameCount payload.length (maxFrameLen - frameHeaderLen)))) := by
  by_cases room : HasRoom payload maxFrameLen
  · rcases Nat.lt_or_ge u32Max (frameCount payload.length (maxFrameLen - frameHeaderLen)) with
      many | few
    · simp [frames_too_many format qos streamId room many] at ok
    · rw [frames_eq room few] at ok
      exact ⟨room, few, (Except.ok.inj ok).symm⟩
  · simp [frames_no_room format qos streamId room] at ok

/-- Every failure is a framing error. -/
theorem frames_error {e : TransferError}
    (failed : frames payload format qos streamId maxFrameLen = .error e) :
    ∃ message, e = .framing message := by
  by_cases room : HasRoom payload maxFrameLen
  · rcases Nat.lt_or_ge u32Max (frameCount payload.length (maxFrameLen - frameHeaderLen)) with
      many | few
    · rw [frames_too_many format qos streamId room many] at failed
      exact ⟨_, (Except.error.inj failed).symm⟩
    · rw [frames_eq room few] at failed
      exact absurd failed (by simp)
  · rw [frames_no_room format qos streamId room] at failed
    exact ⟨_, (Except.error.inj failed).symm⟩

/-- The pieces of a payload that has room concatenate to the payload. -/
theorem flatten_framePieces (room : HasRoom payload maxFrameLen) :
    (framePieces (maxFrameLen - frameHeaderLen) payload).flatten = payload := by
  cases payload with
  | nil => rfl
  | cons b payload =>
      have pos : 0 < maxFrameLen - frameHeaderLen := by
        have := room.2 (by simp)
        omega
      simp only [framePieces, List.isEmpty_cons]
      exact flatten_chunks pos _

/-- No piece is longer than the chunk size. -/
theorem length_le_of_mem_framePieces {chunkMax : Nat} {piece : List UInt8}
    (mem : piece ∈ framePieces chunkMax payload) : piece.length ≤ chunkMax := by
  unfold framePieces at mem
  split_ifs at mem with empty
  · simp_all
  · exact length_le_of_mem_chunks mem

/-- Even an empty payload has a frame. -/
theorem frameCount_pos (room : HasRoom payload maxFrameLen) :
    0 < frameCount payload.length (maxFrameLen - frameHeaderLen) := by
  cases payload with
  | nil => simp [frameCount]
  | cons b payload =>
      have := room.2 (by simp)
      simp only [frameCount, List.length_cons, Nat.add_eq_zero_iff, one_ne_zero, and_false,
        if_false]
      exact divCeil_pos (by omega) (by omega)

/-- One frame is enough exactly when its chunk can be the whole payload. -/
theorem frameCount_eq_one_iff (room : HasRoom payload maxFrameLen) :
    frameCount payload.length (maxFrameLen - frameHeaderLen) = 1 ↔
      payload.length ≤ maxFrameLen - frameHeaderLen := by
  have positive := frameCount_pos room
  cases payload with
  | nil => simp [frameCount]
  | cons b payload =>
      have chunk : 0 < maxFrameLen - frameHeaderLen := by
        have := room.2 (by simp)
        omega
      simp only [frameCount, List.length_cons, Nat.add_eq_zero_iff, one_ne_zero, and_false,
        if_false] at positive ⊢
      have covered := divCeil_le_iff (a := payload.length + 1) (k := 1) chunk
      omega

/-- A frame is its header and its chunk. -/
@[simp] theorem length_frame (frameTotal : UInt32) (index : Nat) (chunk : List UInt8) :
    (frame format qos streamId frameTotal index chunk).length = frameHeaderLen + chunk.length := by
  simp [frame]

end Spec

end BlazeBee.Transport
