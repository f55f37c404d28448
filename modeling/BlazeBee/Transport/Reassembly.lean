import BlazeBee.Transport.Framer

/-!
Reassembly of interleaved streams: what a consumer can do with the frames.

`group`, `reassemble` and `isComplete` are the consumer's side of the format:
frames are sorted by stream id, ordered by index and concatenated, and a stream
is complete when as many distinct indices as the announced total have arrived.
`frames_reassemble` states that this works for any finite family of streams in
any order of arrival, and that completeness is never announced early.
-/

namespace BlazeBee.Transport

open BlazeBee.Lib.Fragments BlazeBee.Lib.Num

/-! ### The consumer -/

/-- A received frame, taken apart: what its header says, and the chunk of the payload behind
it. -/
structure Fragment where
  header : FrameHeader
  chunk : List UInt8
deriving DecidableEq, Repr

/-- The frame as it is sent. -/
def Fragment.encode (f : Fragment) : List UInt8 := f.header.encode ++ f.chunk

/-- The place of the chunk in its stream. -/
def Fragment.index (f : Fragment) : Nat := f.header.frameIndex.toNat

/-- The fragment in a received payload, if the payload is a frame. -/
def receive (bytes : List UInt8) : Option Fragment :=
  (FrameHeader.decode bytes).map fun h => ⟨h, bytes.drop frameHeaderLen⟩

/-- The fragments of one stream, in order of arrival. -/
def group (wire : List (List UInt8)) (streamId : UInt64) : List Fragment :=
  (wire.filterMap receive).filter fun f => decide (f.header.streamId = streamId)

/-- The bytes of one stream, chunks ordered by frame index. -/
def reassemble (wire : List (List UInt8)) (streamId : UInt64) : List UInt8 :=
  ((group wire streamId).mergeSort fun a b => decide (a.index ≤ b.index)).flatMap Fragment.chunk

/-- As many distinct frame indices as the total that the frames announce. -/
def isComplete (wire : List (List UInt8)) (streamId : UInt64) : Bool :=
  match group wire streamId with
  | [] => false
  | f :: rest => ((f :: rest).map Fragment.index).dedup.length == f.header.frameTotal.toNat

/-- A frame that was sent is received as it was. -/
@[simp] theorem receive_encode (f : Fragment) : receive f.encode = some f := by
  have past : f.encode.drop frameHeaderLen = f.chunk := by
    rw [Fragment.encode, ← FrameHeader.length_encode f.header, List.drop_left]
  have decoded : FrameHeader.decode f.encode = some f.header := FrameHeader.decode_encode _ _
  rw [receive, decoded, Option.map_some, past]

/-- Any number of frames is received as it was sent. -/
theorem filterMap_receive_encode (fs : List Fragment) :
    (fs.map Fragment.encode).filterMap receive = fs := by
  induction fs with
  | nil => rfl
  | cons f fs ih => simp [ih]

/-! ### One stream -/

/-- A successful call of `frames`. -/
structure FramedStream where
  payload : List UInt8
  format : SerializationFormat
  qos : UInt8
  streamId : UInt64
  maxFrameLen : Nat
  produced : List (List UInt8)
  ok : frames payload format qos streamId maxFrameLen = .ok produced

namespace FramedStream

variable (s : FramedStream)

/-- The chunks of the payload, in order. -/
def pieces : List (List UInt8) := framePieces (s.maxFrameLen - frameHeaderLen) s.payload

/-- The announced total. -/
def total : Nat := frameCount s.payload.length (s.maxFrameLen - frameHeaderLen)

/-- What each produced frame contains. -/
def fragments : List Fragment :=
  s.pieces.mapIdx fun index chunk =>
    ⟨⟨s.format, s.qos, s.streamId, UInt32.ofNat index, UInt32.ofNat s.total⟩, chunk⟩

/-- The limit of the stream leaves room for its payload. -/
theorem room : HasRoom s.payload s.maxFrameLen := (frames_ok s.ok).1

/-- The frames of the stream can be numbered. -/
theorem total_le : s.total ≤ u32Max := (frames_ok s.ok).2.1

/-- A stream has at least one frame. -/
theorem total_pos : 0 < s.total := frameCount_pos s.room

/-- A stream has as many fragments as its header says. -/
@[simp] theorem length_fragments : s.fragments.length = s.total := by
  simp [fragments, pieces, total]

/-- The frames that the framer makes are the fragments of the stream, encoded. -/
theorem produced_eq : s.produced = s.fragments.map Fragment.encode := by
  rw [(frames_ok s.ok).2.2]
  refine List.ext_getElem (by simp [total]) fun i hi hi' => ?_
  simp only [List.getElem_mapIdx, List.getElem_map, fragments]
  rfl

/-- The chunks in order are the payload. -/
theorem flatMap_chunk : s.fragments.flatMap Fragment.chunk = s.payload := by
  have chunks : s.fragments.map Fragment.chunk = s.pieces := by
    refine List.ext_getElem (by simp [pieces, total]) fun i hi hi' => ?_
    simp only [List.getElem_map, fragments, List.getElem_mapIdx]
  rw [List.flatMap_def, chunks, pieces, flatten_framePieces s.room]

/-- The cast of the index to `u32` never wraps. -/
theorem index_getElem {i : Nat} (lt : i < s.fragments.length) : s.fragments[i].index = i := by
  have le := s.total_le
  rw [length_fragments] at lt
  simp only [fragments, Fragment.index, List.getElem_mapIdx]
  exact toNat_ofNat_of_le (by omega)

/-- The fragments are numbered in order. -/
theorem index_increasing : s.fragments.Pairwise fun a b => a.index < b.index := by
  refine List.pairwise_iff_getElem.mpr fun i j hi hj lt => ?_
  rw [s.index_getElem hi, s.index_getElem hj]
  exact lt

/-- All fragments of a stream carry its identifier and its number of frames. -/
theorem header_of_mem {f : Fragment} (mem : f ∈ s.fragments) :
    f.header.streamId = s.streamId ∧ f.header.frameTotal.toNat = s.total ∧ f.index < s.total := by
  obtain ⟨i, hi, rfl⟩ := List.mem_iff_getElem.mp mem
  refine ⟨?_, ?_, ?_⟩
  · simp [fragments]
  · simpa [fragments] using toNat_ofNat_of_le s.total_le
  · rw [s.index_getElem hi]
    simpa using hi

/-- The index determines the fragment. -/
theorem eq_of_index {f g : Fragment} (hf : f ∈ s.fragments) (hg : g ∈ s.fragments)
    (same : f.index = g.index) : f = g := by
  have nodup : (s.fragments.map Fragment.index).Nodup :=
    List.pairwise_map.mpr (s.index_increasing.imp Nat.ne_of_lt)
  exact List.inj_on_of_nodup_map nodup hf hg same

end FramedStream

/-! ### Interleaved streams -/

section Interleaved

variable {streams : List FramedStream} {wire : List (List UInt8)}

/-- The frames of several streams are their fragments, encoded. -/
theorem flatMap_produced (streams : List FramedStream) :
    streams.flatMap FramedStream.produced =
      (streams.flatMap FramedStream.fragments).map Fragment.encode := by
  induction streams with
  | nil => rfl
  | cons s rest ih => simp [ih, s.produced_eq]

/-- Every frame on the wire is the encoding of a fragment of some stream. -/
theorem eq_encode_of_mem (perm : wire.Perm (streams.flatMap FramedStream.produced))
    {bytes : List UInt8} (mem : bytes ∈ wire) :
    ∃ s ∈ streams, ∃ f ∈ s.fragments, bytes = f.encode := by
  have produced := perm.subset mem
  rw [flatMap_produced] at produced
  obtain ⟨f, hf, rfl⟩ := List.mem_map.mp produced
  obtain ⟨s, hs, hfs⟩ := List.mem_flatMap.mp hf
  exact ⟨s, hs, f, hfs, rfl⟩

/-- Grouping by stream id recovers one stream's fragments, in some order. -/
theorem group_perm (distinct : (streams.map FramedStream.streamId).Nodup)
    (perm : wire.Perm (streams.flatMap FramedStream.produced)) {s : FramedStream}
    (mem : s ∈ streams) : (group wire s.streamId).Perm s.fragments := by
  have received : (wire.filterMap receive).Perm (streams.flatMap FramedStream.fragments) := by
    have := perm.filterMap receive
    rwa [flatMap_produced, filterMap_receive_encode] at this
  have own := filter_flatMap_tag (fun f : Fragment => f.header.streamId) FramedStream.streamId
    FramedStream.fragments (fun t _ f hf => (t.header_of_mem hf).1) distinct mem
  rw [← own]
  exact received.filter _

/-- Whatever the order on the wire, the fragments of one stream are picked out of the others'
and put in order, and give its payload. -/
theorem reassemble_eq (distinct : (streams.map FramedStream.streamId).Nodup)
    (perm : wire.Perm (streams.flatMap FramedStream.produced)) {s : FramedStream}
    (mem : s ∈ streams) : reassemble wire s.streamId = s.payload := by
  rw [reassemble, mergeSort_eq_of_perm Fragment.index s.index_increasing
    (group_perm distinct perm mem), s.flatMap_chunk]

/-- Among received frames, the group of a stream holds exactly the fragments of
that stream whose frame has been received. -/
theorem mem_group_iff (distinct : (streams.map FramedStream.streamId).Nodup)
    (perm : wire.Perm (streams.flatMap FramedStream.produced)) {s : FramedStream}
    (mem : s ∈ streams) {received : List (List UInt8)} (sub : received ⊆ wire) {f : Fragment} :
    f ∈ group received s.streamId ↔ f ∈ s.fragments ∧ f.encode ∈ received := by
  simp only [group, List.mem_filter, List.mem_filterMap, decide_eq_true_eq]
  constructor
  · rintro ⟨⟨bytes, arrived, decoded⟩, stream⟩
    obtain ⟨t, -, g, -, rfl⟩ := eq_encode_of_mem perm (sub arrived)
    obtain rfl : g = f := by simpa using decoded
    have inGroup : g ∈ group wire s.streamId := by
      simp only [group, List.mem_filter, List.mem_filterMap, decide_eq_true_eq]
      exact ⟨⟨g.encode, sub arrived, receive_encode g⟩, stream⟩
    exact ⟨(group_perm distinct perm mem).subset inGroup, arrived⟩
  · rintro ⟨inStream, arrived⟩
    exact ⟨⟨f.encode, arrived, receive_encode f⟩, (s.header_of_mem inStream).1⟩

/-- A stream looks complete exactly when all of its frames have been received. -/
theorem isComplete_iff (distinct : (streams.map FramedStream.streamId).Nodup)
    (perm : wire.Perm (streams.flatMap FramedStream.produced)) {s : FramedStream}
    (mem : s ∈ streams) {received : List (List UInt8)} (sub : received ⊆ wire) :
    isComplete received s.streamId = true ↔ s.produced ⊆ received := by
  have members := fun f => mem_group_iff distinct perm mem sub (f := f)
  have all : s.produced ⊆ received ↔ ∀ f ∈ s.fragments, f ∈ group received s.streamId := by
    rw [s.produced_eq]
    constructor
    · intro arrived f hf
      exact (members f).mpr ⟨hf, arrived (List.mem_map_of_mem hf)⟩
    · intro inGroup bytes hbytes
      obtain ⟨f, hf, rfl⟩ := List.mem_map.mp hbytes
      exact ((members f).mp (inGroup f hf)).2
  have bound : ∀ i ∈ (group received s.streamId).map Fragment.index, i < s.total := by
    intro i hi
    obtain ⟨f, hf, rfl⟩ := List.mem_map.mp hi
    exact (s.header_of_mem ((members f).mp hf).1).2.2
  have counted : (∀ i < s.total, i ∈ (group received s.streamId).map Fragment.index) ↔
      ∀ f ∈ s.fragments, f ∈ group received s.streamId := by
    constructor
    · intro arrived f hf
      obtain ⟨g, hg, same⟩ := List.mem_map.mp (arrived f.index (s.header_of_mem hf).2.2)
      have eq : g = f := s.eq_of_index ((members g).mp hg).1 hf same
      exact eq ▸ hg
    · intro inGroup i hi
      have lt : i < s.fragments.length := by simpa using hi
      refine List.mem_map.mpr ⟨s.fragments[i], inGroup _ (List.getElem_mem lt), s.index_getElem lt⟩
  rw [all, ← counted, ← dedup_length_eq_iff bound, isComplete]
  cases arrived : group received s.streamId with
  | nil =>
      -- an empty group announces nothing, and the total is never zero
      have pos := s.total_pos
      simp only [List.map_nil, List.dedup_nil, List.length_nil, Bool.false_eq_true, false_iff]
      omega
  | cons g rest =>
      have mine : g ∈ group received s.streamId := by rw [arrived]; exact List.mem_cons_self
      have total := (s.header_of_mem ((members g).mp mine).1).2.1
      simp only [beq_iff_eq, total]

/-- No frame of a stream occurs twice. -/
theorem nodup_produced (s : FramedStream) : s.produced.Nodup := by
  have injective : Function.Injective Fragment.encode := by
    intro f g same
    simpa using congrArg receive same
  rw [s.produced_eq]
  refine List.Nodup.map injective ?_
  exact s.index_increasing.imp fun lt same => Nat.ne_of_lt lt (congrArg Fragment.index same)

end Interleaved

/-- **Reassembly.** Frames of any finite family of streams with distinct ids,
arriving in any order: every frame decodes, sorting a stream's chunks by index
gives its payload back, and a stream looks complete exactly when all of its
frames have arrived, never for a strict part of them. -/
theorem frames_reassemble (streams : List FramedStream)
    (distinct : (streams.map FramedStream.streamId).Nodup) (wire : List (List UInt8))
    (perm : wire.Perm (streams.flatMap FramedStream.produced)) :
    (∀ bytes ∈ wire, (FrameHeader.decode bytes).isSome = true) ∧
      ∀ s ∈ streams, reassemble wire s.streamId = s.payload ∧
        (∀ received ⊆ wire, isComplete received s.streamId = true ↔ s.produced ⊆ received) ∧
        ∀ part : List (List UInt8), part.Subperm s.produced →
          (isComplete part s.streamId = true ↔ part.Perm s.produced) := by
  refine ⟨fun bytes mem => ?_, fun s mem => ⟨reassemble_eq distinct perm mem,
    fun received sub => isComplete_iff distinct perm mem sub, fun part small => ?_⟩⟩
  · obtain ⟨s, -, f, -, rfl⟩ := eq_encode_of_mem perm mem
    rw [Fragment.encode, FrameHeader.decode_encode]
    rfl
  · have sub : part ⊆ wire := by
      intro bytes hbytes
      exact perm.mem_iff.mpr (List.mem_flatMap.mpr ⟨s, mem, small.subset hbytes⟩)
    rw [isComplete_iff distinct perm mem sub]
    constructor
    · intro all
      exact small.antisymm ((nodup_produced s).subperm all)
    · intro same
      exact same.symm.subset

/-- Two streams, one of them empty, arriving out of order. -/
theorem frames_reassemble_two :
    let long : FramedStream := {
      payload := [1, 2, 3], format := .cbor, qos := 2, streamId := 7, maxFrameLen := 23
      produced := [
        [0x46, 0x52, 1, 2, 2, 0, 0, 0, 0, 0, 0, 0, 7, 0, 0, 0, 0, 0, 0, 0, 2, 1, 2],
        [0x46, 0x52, 1, 2, 2, 0, 0, 0, 0, 0, 0, 0, 7, 0, 0, 0, 1, 0, 0, 0, 2, 3]]
      ok := by decide }
    let none : FramedStream := {
      payload := [], format := .json, qos := 0, streamId := 9, maxFrameLen := 21
      produced := [[0x46, 0x52, 1, 0, 0, 0, 0, 0, 0, 0, 0, 0, 9, 0, 0, 0, 0, 0, 0, 0, 1]]
      ok := by decide }
    let wire := ([long, none].flatMap FramedStream.produced).reverse
    (∀ bytes ∈ wire, (FrameHeader.decode bytes).isSome = true) ∧
      ∀ s ∈ [long, none], reassemble wire s.streamId = s.payload ∧
        (∀ received ⊆ wire, isComplete received s.streamId = true ↔ s.produced ⊆ received) ∧
        ∀ part : List (List UInt8), part.Subperm s.produced →
          (isComplete part s.streamId = true ↔ part.Perm s.produced) := by
  intro long none wire
  exact frames_reassemble [long, none] (by decide) wire (List.reverse_perm _)

end BlazeBee.Transport
