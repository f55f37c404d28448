import BlazeBee.Lib.System
import BlazeBee.Transport.Queueing
import BlazeBee.Transport.Reassembly

/-!
The stream ids of several publishers of one transport.

`Publishing` runs any number of publishers side by side. A call takes its stream id in
one atomic step and then queues its frames one by one, so calls interleave between any
two frames; what else happens to the queue is arbitrary. Every publisher counts from 1
on its own: `stream_ids_distinct_iff` says that the ids given in a run are distinct
exactly when one publisher gave them all, and `frames_unmixed` what that means for a
consumer.
-/

namespace BlazeBee.Transport

open BlazeBee.Lib BlazeBee.Lib.Num BlazeBee.Rumqttc

/-! ### The id of a call -/

namespace Publisher

variable {Value : Type} {codecs : Codecs Value} {self : Publisher} {value : Value}
  {metadata : EndpointMetadata}

/-- The payload that a call puts under a stream id of its own, if it gets that far. -/
def streamPayload (codecs : Codecs Value) (self : Publisher) (value : Value)
    (metadata : EndpointMetadata) : Option (List UInt8) :=
  match qosOfU8 metadata.qos, self.serializer.encode codecs value self.sizeHint with
  | some qos, .ok payload =>
      if self.framing ∧ publishOverhead (joinTopic self.baseTopic metadata.topic) qos +
          frameHeaderLen ≤ self.maxPacketSize then some payload
      else none
  | _, _ => none

/-- A call moves the counter on exactly when it takes an id. -/
theorem nextStreamId_publish (client : AsyncClient) (codecs : Codecs Value) (self : Publisher)
    (queue : RequestChannel) (value : Value) (metadata : EndpointMetadata) :
    (self.publish client codecs queue value metadata).publisher.nextStreamId =
      if (self.streamPayload codecs value metadata).isSome then self.nextStreamId + 1
      else self.nextStreamId := by
  unfold publish streamPayload
  cases qosOfU8 metadata.qos with
  | none => rfl
  | some qos =>
      cases self.serializer.encode codecs value self.sizeHint with
      | error e => rfl
      | ok payload =>
          simp only
          cases room : checkedSub self.maxPacketSize
              (publishOverhead (joinTopic self.baseTopic metadata.topic) qos) with
          | none =>
              have large := checkedSub_eq_none_iff.mp room
              have tight : ¬ publishOverhead (joinTopic self.baseTopic metadata.topic) qos +
                  frameHeaderLen ≤ self.maxPacketSize := by omega
              simp [tight]
          | some maxPayload =>
              obtain ⟨fits, rfl⟩ := checkedSub_eq_some_iff.mp room
              simp only
              cases mode : self.framing with
              | false =>
                  simp only [Bool.not_false, if_true, Bool.false_eq_true, false_and, if_false,
                    Option.isSome_none]
                  split_ifs
                  · rfl
                  · cases client.tryPublish queue ⟨joinTopic self.baseTopic metadata.topic, qos,
                      metadata.retain, payload⟩ <;> rfl
              | true =>
                  simp only [Bool.not_true, Bool.false_eq_true, if_false, true_and]
                  by_cases header : publishOverhead (joinTopic self.baseTopic metadata.topic) qos +
                      frameHeaderLen ≤ self.maxPacketSize
                  · rw [if_pos header, if_neg (by omega), Option.isSome_some, if_pos rfl]
                    cases frames payload self.serializer.format metadata.qos self.nextStreamId
                        (self.maxPacketSize -
                          publishOverhead (joinTopic self.baseTopic metadata.topic) qos) with
                    | error e => rfl
                    | ok bodies =>
                        simp only
                        rcases queueFrames client (joinTopic self.baseTopic metadata.topic) qos
                          metadata.retain queue bodies with ⟨outcome, left⟩
                        cases outcome <;> rfl
                  · rw [if_neg header, if_pos (by omega)]
                    rfl

/-- A framed plan consists of the frames of that payload, under the id of the call. -/
theorem streamPayload_of_plan {p : Plan} (planned : self.plan codecs value metadata = .ok p)
    (framing : self.framing = true) :
    self.streamPayload codecs value metadata = some p.payload ∧
      ∃ maxFrameLen, frames p.payload self.serializer.format metadata.qos self.nextStreamId
        maxFrameLen = .ok p.bodies := by
  have spec := planned_of_plan planned
  have framed := spec.framed framing
  refine ⟨?_, _, framed⟩
  have header : frameHeaderLen ≤ self.maxPacketSize - publishOverhead p.topic p.qos :=
    (frames_ok framed).1.1
  have overhead := spec.overhead
  rw [streamPayload, spec.qos, spec.payload]
  simp only
  rw [if_pos ⟨framing, by rw [← spec.topic]; omega⟩]

end Publisher

/-! ### Publishers side by side -/

/-- The publishers of one transport, its request queue, and for each call so far the messages
that it has yet to queue. Each publisher counts its own stream ids, and calls of different
publishers may take turns between two messages. -/
structure Publishing where
  config : Config
  publishers : List Publisher
  queue : RequestChannel
  calls : List (List Publish)

namespace Publishing

/-- What can happen next: publishers are created at any time, and their calls take turns at
the queue, one `try_publish` after the other. -/
inductive Action (Value : Type) where
  /-- `Transport::publisher`. -/
  | publisher
  /-- A call on a publisher, up to its first `try_publish`. -/
  | publish (publisher : Nat) (value : Value) (metadata : EndpointMetadata)
  /-- The next `try_publish` of a call. -/
  | send (call : Nat)
  /-- Anything else that happens to the queue. -/
  | queue (next : RequestChannel)

/-- Stream ids given to payloads, and frames queued, each with the call it belongs to. -/
inductive Event where
  | given (call publisher : Nat) (streamId : UInt64) (payload : List UInt8)
  | queued (call : Nat) (message : Publish)
deriving DecidableEq

variable {Value : Type} (client : AsyncClient) (codecs : Codecs Value)

/-- The state after a call on a publisher has taken its id. -/
def called (s : Publishing) (index : Nat) (p : Publisher) (value : Value)
    (metadata : EndpointMetadata) : Publishing :=
  { s with
    publishers := s.publishers.set index
      (p.publish client codecs s.queue value metadata).publisher
    calls := s.calls ++ [match p.plan codecs value metadata with
      | .ok plan => plan.messages
      | .error _ => []] }

/-- The id that a call takes. -/
def taken (s : Publishing) (index : Nat) (p : Publisher) (value : Value)
    (metadata : EndpointMetadata) : List Event :=
  match p.streamPayload codecs value metadata with
  | some payload => [.given s.calls.length index p.nextStreamId payload]
  | none => []

/-- One step of the publishers. A call takes its id and plans its messages at once, and
queues them one at a time. -/
def step (s : Publishing) : Action Value → Option (Publishing × List Event)
  | .publisher => some ({ s with publishers := s.publishers ++ [Publisher.new s.config] }, [])
  | .publish index value metadata =>
      s.publishers[index]?.map fun p =>
        (s.called client codecs index p value metadata, s.taken codecs index p value metadata)
  | .send call =>
      match s.calls[call]? with
      | some (message :: rest) =>
          match client.tryPublish s.queue message with
          | .ok queue => some ({ s with queue, calls := s.calls.set call rest },
              [.queued call message])
          -- An error ends the call.
          | .error _ => some ({ s with calls := s.calls.set call [] }, [])
      | _ => none
  | .queue next => some ({ s with queue := next }, [])

/-- A transport, before any publisher is created. -/
def system : System Publishing (Action Value) Event where
  start s := s.publishers = [] ∧ s.calls = []
  step := step client codecs

variable {client codecs} {s t : Publishing} {out outs : List Event}

/-- What each action does, guards included. -/
theorem step_cases {a : Action Value} (stepped : (system client codecs).step s a = some (t, out)) :
    (a = .publisher ∧ t = { s with publishers := s.publishers ++ [Publisher.new s.config] } ∧
      out = []) ∨
    (∃ index p value metadata, a = .publish index value metadata ∧
      s.publishers[index]? = some p ∧ t = s.called client codecs index p value metadata ∧
      out = s.taken codecs index p value metadata) ∨
    (∃ call message rest, a = .send call ∧ s.calls[call]? = some (message :: rest) ∧
      ((∃ queue, t = { s with queue, calls := s.calls.set call rest } ∧
        out = [.queued call message]) ∨
      (t = { s with calls := s.calls.set call [] } ∧ out = []))) ∨
    ∃ next, a = .queue next ∧ t = { s with queue := next } ∧ out = [] := by
  cases a with
  | publisher =>
      simp only [system, step, Option.some.injEq, Prod.mk.injEq] at stepped
      exact Or.inl ⟨rfl, stepped.1.symm, stepped.2.symm⟩
  | publish index value metadata =>
      simp only [system, step, Option.map_eq_some_iff, Prod.mk.injEq] at stepped
      obtain ⟨p, known, rfl, rfl⟩ := stepped
      exact Or.inr (Or.inl ⟨index, p, value, metadata, rfl, known, rfl, rfl⟩)
  | send call =>
      simp only [system, step] at stepped
      split at stepped
      · rename_i message rest pending
        refine Or.inr (Or.inr (Or.inl ⟨call, message, rest, rfl, pending, ?_⟩))
        split at stepped
        · rename_i queue _
          obtain ⟨rfl, rfl⟩ := Prod.mk.inj (Option.some.inj stepped)
          exact Or.inl ⟨queue, rfl, rfl⟩
        · obtain ⟨rfl, rfl⟩ := Prod.mk.inj (Option.some.inj stepped)
          exact Or.inr ⟨rfl, rfl⟩
      · cases stepped
  | queue next =>
      simp only [system, step, Option.some.injEq, Prod.mk.injEq] at stepped
      exact Or.inr (Or.inr (Or.inr ⟨next, rfl, stepped.1.symm, stepped.2.symm⟩))

/-! ### The ids of a run -/

/-- The id that an event gives, if it gives one. -/
def Event.streamId? : Event → Option UInt64
  | .given _ _ streamId _ => some streamId
  | .queued _ _ => none

/-- The stream ids given in a run, one for each payload. -/
def streamIds (outs : List Event) : List UInt64 := outs.filterMap Event.streamId?

/-- The id that an event gives for the publisher `index`, if it does. -/
def Event.idBy (index : Nat) : Event → Option UInt64
  | .given _ publisher streamId _ => if publisher = index then some streamId else none
  | .queued _ _ => none

/-- The stream ids that one publisher gave. -/
def idsBy (index : Nat) (outs : List Event) : List UInt64 := outs.filterMap (Event.idBy index)

/-- The first `n` values of a counter that starts at 1. -/
def firstIds (n : Nat) : List UInt64 := (List.range n).map fun k => UInt64.ofNat (k + 1)

/-- Whether an action is a call on a publisher. -/
def Action.isPublish : Action Value → Bool
  | .publish _ _ _ => true
  | _ => false

/-- A `u64` counter does not repeat itself within 2^64 values. -/
theorem nodup_firstIds {n : Nat} (few : n < 2 ^ 64) : (firstIds n).Nodup := by
  refine (List.nodup_map_iff_inj_on List.nodup_range).mpr fun i hi j hj same => ?_
  have values := congrArg UInt64.toNat same
  have small := List.mem_range.mp hi
  have small' := List.mem_range.mp hj
  rw [UInt64.toNat_ofNat_of_lt' (by simp only [UInt64.size]; omega),
    UInt64.toNat_ofNat_of_lt' (by simp only [UInt64.size]; omega)] at values
  omega

theorem firstIds_succ (n : Nat) : firstIds (n + 1) = firstIds n ++ [UInt64.ofNat (n + 1)] := by
  simp [firstIds, List.range_succ]

/-- The ids of a publisher, in the order of the run. -/
theorem idsBy_append (index : Nat) (outs out : List Event) :
    idsBy index (outs ++ out) = idsBy index outs ++ idsBy index out := List.filterMap_append

/-- A message that is queued gives no id. -/
theorem idsBy_of_queued (index : Nat) {out : List Event}
    (queued : ∀ x ∈ out, ∃ call message, x = .queued call message) : idsBy index out = [] := by
  refine List.filterMap_eq_nil_iff.mpr fun x mem => ?_
  obtain ⟨call, message, rfl⟩ := queued x mem
  rfl

/-- Every publisher has given the first ids of its own counter. -/
structure Numbered (actions : List (Action Value)) (outs : List Event) (s : Publishing) :
    Prop where
  counter : ∀ index p, s.publishers[index]? = some p →
    p.nextStreamId = UInt64.ofNat ((idsBy index outs).length + 1)
  counted : ∀ index, idsBy index outs = firstIds (idsBy index outs).length
  known : ∀ index, s.publishers.length ≤ index → idsBy index outs = []
  few : (streamIds outs).length ≤ actions.countP Action.isPublish

/-- A call gives at most one id, on behalf of its own publisher. -/
theorem idsBy_taken (index : Nat) (s : Publishing) (publisher : Nat) (p : Publisher)
    (value : Value) (metadata : EndpointMetadata) :
    idsBy index (s.taken codecs publisher p value metadata) =
      if publisher = index ∧ (p.streamPayload codecs value metadata).isSome then [p.nextStreamId]
      else [] := by
  unfold taken
  cases p.streamPayload codecs value metadata with
  | none => simp [idsBy]
  | some payload =>
      by_cases own : publisher = index
      · simp [idsBy, Event.idBy, own]
      · simp [idsBy, Event.idBy, own]

variable (codecs) in
/-- A call gives at most one id. -/
theorem length_streamIds_taken (s : Publishing) (publisher : Nat) (p : Publisher)
    (value : Value) (metadata : EndpointMetadata) :
    (streamIds (s.taken codecs publisher p value metadata)).length ≤ 1 := by
  unfold taken
  cases p.streamPayload codecs value metadata <;> simp [streamIds, Event.streamId?]

/-- A step that gives no id and leaves the publishers alone. -/
theorem Numbered.keep {actions : List (Action Value)} (numbered : Numbered actions outs s)
    (a : Action Value) (publishers : t.publishers = s.publishers)
    (queued : ∀ x ∈ out, ∃ call message, x = .queued call message) :
    Numbered (actions ++ [a]) (outs ++ out) t := by
  have same : ∀ index, idsBy index (outs ++ out) = idsBy index outs := fun index => by
    rw [idsBy_append, idsBy_of_queued index queued, List.append_nil]
  have silent : streamIds out = [] := by
    refine List.filterMap_eq_nil_iff.mpr fun x mem => ?_
    obtain ⟨call, message, rfl⟩ := queued x mem
    rfl
  refine ⟨fun index p known => ?_, fun index => ?_, fun index large => ?_, ?_⟩
  · rw [same]
    exact numbered.counter index p (publishers ▸ known)
  · rw [same]
    exact numbered.counted index
  · rw [same]
    exact numbered.known index (publishers ▸ large)
  · have bound := numbered.few
    rw [streamIds, List.filterMap_append, List.length_append, List.countP_append]
    rw [streamIds] at silent bound
    rw [silent, List.length_nil]
    omega

/-- Taking an id moves the counter of the publisher on, and no other. -/
theorem Numbered.publish {actions : List (Action Value)} (numbered : Numbered actions outs s)
    {index : Nat} {p : Publisher} (known : s.publishers[index]? = some p) (value : Value)
    (metadata : EndpointMetadata) :
    Numbered (actions ++ [.publish index value metadata])
      (outs ++ s.taken codecs index p value metadata)
      (s.called client codecs index p value metadata) := by
  have present := (List.getElem?_eq_some_iff.mp known).1
  have others : ∀ j, index ≠ j →
      idsBy j (outs ++ s.taken codecs index p value metadata) = idsBy j outs := fun j other => by
    rw [idsBy_append, idsBy_taken, if_neg fun own => other own.1, List.append_nil]
  have own : idsBy index (outs ++ s.taken codecs index p value metadata) =
      idsBy index outs ++
        if (p.streamPayload codecs value metadata).isSome then [p.nextStreamId] else [] := by
    rw [idsBy_append, idsBy_taken]
    simp only [true_and]
  have counter := numbered.counter index p known
  refine ⟨fun j q known' => ?_, fun j => ?_, fun j large => ?_, ?_⟩
  · by_cases same : index = j
    · subst same
      simp only [called, List.getElem?_set_self present, Option.some.injEq] at known'
      rw [← known', Publisher.nextStreamId_publish, own, counter]
      split_ifs
      · apply UInt64.toNat_inj.mp
        simp
      · rw [List.append_nil]
    · simp only [called, List.getElem?_set_ne same] at known'
      rw [others j same]
      exact numbered.counter j q known'
  · by_cases same : index = j
    · subst same
      rw [own]
      split_ifs
      · rw [List.length_append, List.length_singleton, firstIds_succ, ← numbered.counted, counter]
      · rw [List.append_nil]
        exact numbered.counted index
    · rw [others j same]
      exact numbered.counted j
  · have large : s.publishers.length ≤ j := by simpa [called] using large
    rw [others j (by omega)]
    exact numbered.known j large
  · have bound := numbered.few
    have one := length_streamIds_taken codecs s index p value metadata
    rw [streamIds] at bound one
    rw [streamIds, List.filterMap_append, List.length_append, List.countP_append]
    exact Nat.add_le_add bound one

/-- Every step keeps the counters in line with the ids that were given. -/
theorem Numbered.step {actions : List (Action Value)} (numbered : Numbered actions outs s)
    {a : Action Value} (stepped : (system client codecs).step s a = some (t, out)) :
    Numbered (actions ++ [a]) (outs ++ out) t := by
  rcases step_cases stepped with ⟨rfl, rfl, rfl⟩ |
    ⟨index, p, value, metadata, rfl, known, rfl, rfl⟩ |
    ⟨call, message, rest, rfl, -, ⟨queue, rfl, rfl⟩ | ⟨rfl, rfl⟩⟩ | ⟨next, rfl, rfl, rfl⟩
  · -- The new publisher starts to count.
    rw [List.append_nil]
    refine ⟨fun index p known => ?_, numbered.counted, fun index large => ?_, ?_⟩
    · by_cases old : index < s.publishers.length
      · rw [List.getElem?_append_left old] at known
        exact numbered.counter index p known
      · have new : p = Publisher.new s.config := by
          rw [List.getElem?_append_right (by omega)] at known
          exact (List.mem_singleton.mp (List.mem_of_getElem? known))
        rw [new, numbered.known index (by omega)]
        rfl
    · exact numbered.known index (by simp at large; omega)
    · have bound := numbered.few
      rw [List.countP_append]
      omega
  · exact numbered.publish known value metadata
  · exact numbered.keep _ rfl (by simp)
  · exact numbered.keep _ rfl (by simp)
  · exact numbered.keep _ rfl (by simp)

/-! ### The frames of a run -/

/-- The frames of a call carry its id. -/
theorem streamId_of_mem_frames {payload : List UInt8} {format : SerializationFormat} {qos : UInt8}
    {streamId : UInt64} {maxFrameLen : Nat} {produced : List (List UInt8)}
    (ok : frames payload format qos streamId maxFrameLen = .ok produced) {body : List UInt8}
    (mem : body ∈ produced) :
    ∃ header, FrameHeader.decode body = some header ∧ header.streamId = streamId := by
  let stream : FramedStream := ⟨payload, format, qos, streamId, maxFrameLen, produced, ok⟩
  have encoded : body ∈ stream.fragments.map Fragment.encode := stream.produced_eq ▸ mem
  obtain ⟨f, of_stream, rfl⟩ := List.mem_map.mp encoded
  exact ⟨f.header, FrameHeader.decode_encode _ _, (stream.header_of_mem of_stream).1⟩

/-- A message of a call whose header carries the id given to the call. -/
def Carries (outs : List Event) (call : Nat) (message : Publish) : Prop :=
  ∃ publisher streamId payload header, .given call publisher streamId payload ∈ outs ∧
    FrameHeader.decode message.payload = some header ∧ header.streamId = streamId

/-- An id that was given stays given. -/
theorem Carries.mono {call : Nat} {message : Publish} (carries : Carries outs call message)
    (out : List Event) : Carries (outs ++ out) call message := by
  obtain ⟨publisher, streamId, payload, header, given, decoded, same⟩ := carries
  exact ⟨publisher, streamId, payload, header, List.mem_append_left _ given, decoded, same⟩

/-- With framing on, whatever a call has queued or will queue carries its id. -/
structure Attributed (outs : List Event) (s : Publishing) : Prop where
  framing : ∀ p ∈ s.publishers, p.framing = true
  config : s.config.framing.enabled = true
  pending : ∀ call messages, s.calls[call]? = some messages →
    ∀ message ∈ messages, Carries outs call message
  queued : ∀ call message, .queued call message ∈ outs → Carries outs call message

variable (s) in
/-- The messages of a call carry the id that it has just taken. -/
theorem carries_of_plan (index : Nat) {p : Publisher} {value : Value} {metadata : EndpointMetadata}
    (framing : p.framing = true) {plan : Publisher.Plan}
    (planned : p.plan codecs value metadata = .ok plan) {message : Publish}
    (mem : message ∈ plan.messages) :
    Carries (s.taken codecs index p value metadata) s.calls.length message := by
  obtain ⟨payload, maxFrameLen, produced⟩ := Publisher.streamPayload_of_plan planned framing
  obtain ⟨body, of_plan, rfl⟩ := List.mem_map.mp mem
  obtain ⟨header, decoded, same⟩ := streamId_of_mem_frames produced of_plan
  refine ⟨index, p.nextStreamId, plan.payload, header, ?_, decoded, same⟩
  rw [taken, payload]
  exact List.mem_singleton_self _

/-- The messages of a call after one of them is gone, or all. -/
theorem Attributed.keep (attributed : Attributed outs s) {call : Nat} {messages rest : List Publish}
    (pending : s.calls[call]? = some messages) (fewer : rest ⊆ messages) (queue : RequestChannel)
    {out : List Event} (queued : ∀ x ∈ out, ∃ message ∈ messages, x = .queued call message) :
    Attributed (outs ++ out) { s with queue, calls := s.calls.set call rest } := by
  have present := (List.getElem?_eq_some_iff.mp pending).1
  refine ⟨attributed.framing, attributed.config, fun c ms known m mem => ?_, fun c m mem => ?_⟩
  · by_cases same : call = c
    · subst same
      rw [List.getElem?_set_self present] at known
      obtain rfl := Option.some.inj known
      exact (attributed.pending call messages pending m (fewer mem)).mono out
    · rw [List.getElem?_set_ne same] at known
      exact (attributed.pending c ms known m mem).mono out
  · rcases List.mem_append.mp mem with earlier | now
    · exact (attributed.queued c m earlier).mono out
    · obtain ⟨m', of_call, same⟩ := queued _ now
      obtain ⟨rfl, rfl⟩ := Event.queued.inj same
      exact (attributed.pending c messages pending m of_call).mono out

/-- Every step keeps every message attributed to the call that it belongs to. -/
theorem Attributed.step (attributed : Attributed outs s) {a : Action Value}
    (stepped : (system client codecs).step s a = some (t, out)) :
    Attributed (outs ++ out) t := by
  rcases step_cases stepped with ⟨rfl, rfl, rfl⟩ |
    ⟨index, p, value, metadata, rfl, known, rfl, rfl⟩ |
    ⟨call, message, rest, rfl, pending, ⟨queue, rfl, rfl⟩ | ⟨rfl, rfl⟩⟩ | ⟨next, rfl, rfl, rfl⟩
  · rw [List.append_nil]
    refine ⟨fun p mem => ?_, attributed.config, attributed.pending, attributed.queued⟩
    rcases List.mem_append.mp mem with old | new
    · exact attributed.framing p old
    · rw [List.mem_singleton.mp new]
      exact attributed.config
  · have framing := attributed.framing p (List.mem_of_getElem? known)
    refine ⟨fun q mem => ?_, attributed.config, fun c ms known' m mem => ?_, fun c m mem => ?_⟩
    · rcases List.mem_or_eq_of_mem_set mem with old | rfl
      · exact attributed.framing q old
      · rw [(Publisher.publish_publisher client codecs s.queue p value metadata).framing]
        exact framing
    · simp only [called] at known'
      by_cases old : c < s.calls.length
      · rw [List.getElem?_append_left old] at known'
        exact (attributed.pending c ms known' m mem).mono _
      · have large := (List.getElem?_eq_some_iff.mp known').1
        rw [List.length_append, List.length_singleton] at large
        obtain rfl : c = s.calls.length := by omega
        rw [List.getElem?_append_right (Nat.le_refl _), Nat.sub_self, List.getElem?_cons_zero,
          Option.some.injEq] at known'
        cases planned : p.plan codecs value metadata with
        | error e => simp [planned, ← known'] at mem
        | ok plan =>
            rw [planned] at known'
            obtain ⟨publisher, streamId, payload, header, given, carried⟩ :=
              carries_of_plan s index framing planned (known' ▸ mem)
            exact ⟨publisher, streamId, payload, header, List.mem_append_right _ given, carried⟩
    · rcases List.mem_append.mp mem with earlier | now
      · exact (attributed.queued c m earlier).mono _
      · unfold taken at now
        cases payload : p.streamPayload codecs value metadata with
        | none => simp [payload] at now
        | some bytes => simp [payload] at now
  · apply attributed.keep pending (List.subset_cons_self _ _) queue
    intro x mem
    exact ⟨message, List.mem_cons_self, List.mem_singleton.mp mem⟩
  · exact attributed.keep pending (List.nil_subset _) s.queue (by simp)
  · rw [List.append_nil]
    exact ⟨attributed.framing, attributed.config, attributed.pending, attributed.queued⟩

/-! ### Distinct ids -/

/-- Frames of different calls never carry the same id. -/
def Unmixed (outs : List Event) : Prop :=
  ∀ call call' message message' header header',
    .queued call message ∈ outs → .queued call' message' ∈ outs →
    FrameHeader.decode message.payload = some header →
    FrameHeader.decode message'.payload = some header' →
    header.streamId = header'.streamId → call = call'

/-- A call that takes an id is made on the publisher `index`. -/
def OnlyBy (codecs : Codecs Value) (index : Nat) (s : Publishing) : Action Value → Prop
  | .publish publisher value metadata => ∀ p, s.publishers[publisher]? = some p →
      (p.streamPayload codecs value metadata).isSome = true → publisher = index
  | _ => True

/-- An id was given by the publisher `index`. -/
def Event.GivenBy (index : Nat) (x : Event) : Prop :=
  ∀ call publisher streamId payload, x = .given call publisher streamId payload → publisher = index

/-- A step gives ids for the publisher `index` alone exactly when it is a call on it or takes
no id. -/
theorem onlyBy_iff (index : Nat) {a : Action Value}
    (stepped : (system client codecs).step s a = some (t, out)) :
    OnlyBy codecs index s a ↔ ∀ x ∈ out, x.GivenBy index := by
  rcases step_cases stepped with ⟨rfl, rfl, rfl⟩ | ⟨i, p, value, metadata, rfl, known, rfl, rfl⟩ |
    ⟨call, message, rest, rfl, -, ⟨queue, rfl, rfl⟩ | ⟨rfl, rfl⟩⟩ | ⟨next, rfl, rfl, rfl⟩
  · simp [OnlyBy]
  · simp only [OnlyBy, known, Option.some.injEq, forall_eq', taken]
    cases p.streamPayload codecs value metadata with
    | none => simp
    | some payload =>
        rw [Option.isSome_some, List.forall_mem_singleton]
        constructor
        · intro own call publisher streamId payload same
          exact (Event.given.inj same).2.1 ▸ own rfl
        · intro given _
          exact given _ _ _ _ rfl
  · simp [OnlyBy, Event.GivenBy]
  · simp [OnlyBy]
  · simp [OnlyBy]

/-- Ids that one publisher gave alone are the first ids of its counter. -/
theorem streamIds_of_givenBy {index : Nat} (alone : ∀ x ∈ outs, x.GivenBy index) :
    streamIds outs = idsBy index outs := by
  refine List.filterMap_congr fun x mem => ?_
  cases x with
  | given call publisher streamId payload =>
      rw [Event.idBy, if_pos (alone _ mem call publisher streamId payload rfl)]
      rfl
  | queued call message => rfl

/-- A publisher that gave an id gave the id 1. -/
theorem Numbered.gave_one {actions : List (Action Value)} (numbered : Numbered actions outs s)
    {call publisher : Nat} {streamId : UInt64} {payload : List UInt8}
    (mem : .given call publisher streamId payload ∈ outs) :
    ∃ call' payload', .given call' publisher 1 payload' ∈ outs := by
  have some_id : streamId ∈ idsBy publisher outs :=
    List.mem_filterMap.mpr ⟨_, mem, by simp [Event.idBy]⟩
  have first : (1 : UInt64) ∈ idsBy publisher outs := by
    rw [numbered.counted, firstIds, List.mem_map]
    exact ⟨0, List.mem_range.mpr (List.length_pos_of_mem some_id), rfl⟩
  obtain ⟨x, present, one⟩ := List.mem_filterMap.mp first
  cases x with
  | given call' publisher' streamId' payload' =>
      by_cases own : publisher' = publisher
      · simp only [Event.idBy, own, if_true, Option.some.injEq] at one
        exact ⟨call', payload', own ▸ one ▸ present⟩
      · simp [Event.idBy, own] at one
  | queued call' message => cases one

/-- One id is given at most once: two events that give it are the same event. -/
theorem eq_of_streamId (distinct : (streamIds outs).Nodup) {x y : Event} (hx : x ∈ outs)
    (hy : y ∈ outs) {streamId : UInt64} (idx : x.streamId? = some streamId)
    (idy : y.streamId? = some streamId) : x = y := by
  by_contra other
  have apart := List.pairwise_filterMap.mp distinct
  have symmetric : Std.Symm fun a b : Event =>
      ∀ u, a.streamId? = some u → ∀ v, b.streamId? = some v → u ≠ v :=
    ⟨fun a b different u hu v hv same => different v hv u hu same.symm⟩
  exact apart.forall hx hy other streamId idx streamId idy rfl

/-- The ids of a run are distinct exactly when one publisher gave them all: two of them would
both have given the id 1. -/
theorem nodup_streamIds_iff {actions : List (Action Value)} (numbered : Numbered actions outs s)
    (few : actions.countP Action.isPublish < 2 ^ 64) :
    (streamIds outs).Nodup ↔ ∃ index, ∀ x ∈ outs, x.GivenBy index := by
  constructor
  · intro distinct
    by_cases none_given : ∃ call publisher streamId payload,
        Event.given call publisher streamId payload ∈ outs
    · obtain ⟨call, index, streamId, payload, mem⟩ := none_given
      refine ⟨index, fun x hx call' publisher streamId' payload' same => ?_⟩
      -- Both publishers gave the id 1.
      obtain ⟨c, b, first⟩ := numbered.gave_one mem
      obtain ⟨c', b', first'⟩ := numbered.gave_one (same ▸ hx)
      exact (Event.given.inj (eq_of_streamId distinct first' first rfl rfl)).2.1
    · refine ⟨0, fun x hx call publisher streamId payload same => ?_⟩
      exact absurd ⟨call, publisher, streamId, payload, same ▸ hx⟩ none_given
  · rintro ⟨index, alone⟩
    have bound := numbered.few
    rw [streamIds_of_givenBy alone] at bound ⊢
    rw [numbered.counted]
    exact nodup_firstIds (by omega)

/-- Where no id is given twice, frames of different calls are told apart by their ids. -/
theorem unmixed_of_nodup (attributed : Attributed outs s) (distinct : (streamIds outs).Nodup) :
    Unmixed outs := by
  intro call call' message message' header header' queued queued' decoded decoded' same
  obtain ⟨publisher, streamId, payload, h, given, read, own⟩ := attributed.queued _ _ queued
  obtain ⟨publisher', streamId', payload', h', given', read', own'⟩ :=
    attributed.queued _ _ queued'
  obtain rfl := Option.some.inj (decoded.symm.trans read)
  obtain rfl := Option.some.inj (decoded'.symm.trans read')
  have one_id : streamId' = streamId := own' ▸ own ▸ same.symm
  exact (Event.given.inj (eq_of_streamId distinct given given' rfl (congrArg some one_id))).1

/-- The ids of a run are distinct exactly when one publisher gives them all; with framing
on, frames of different calls can then be told apart. -/
theorem stream_ids_distinct_iff (client : AsyncClient) (codecs : Codecs Value)
    {s t : Publishing} {actions : List (Action Value)} {outs : List Event}
    (started : (system client codecs).start s)
    (ran : (system client codecs).run s actions = some (t, outs))
    (few : actions.countP Action.isPublish < 2 ^ 64) :
    ((streamIds outs).Nodup ↔
      ∃ index, (system client codecs).Meets (OnlyBy codecs index) s actions) ∧
    (s.config.framing.enabled = true → (streamIds outs).Nodup → Unmixed outs) := by
  have numbered : Numbered actions outs t := by
    apply System.run_trace (fun _ _ _ _ _ _ numbered stepped => numbered.step stepped) _ ran
    refine ⟨fun index p known => ?_, fun index => rfl, fun index _ => rfl, Nat.zero_le _⟩
    simp [started.1] at known
  refine ⟨?_, fun framing => ?_⟩
  · rw [nodup_streamIds_iff numbered few]
    refine exists_congr fun index => ?_
    apply Iff.symm
    exact System.run_meets_iff (I := fun _ => True)
      (fun _ _ _ _ _ stepped => ⟨trivial, onlyBy_iff index stepped⟩) trivial ran
  · apply unmixed_of_nodup (s := t)
    apply System.run_trace (R := fun _ => Attributed)
      (fun _ _ _ _ _ _ attributed stepped => attributed.step stepped) _ ran
    refine ⟨fun p mem => ?_, framing, fun call messages known => ?_, fun call message mem => ?_⟩
    · simp [started.1] at mem
    · simp [started.2] at known
    · simp at mem

end Publishing

/-- A fresh transport with small packets. -/
def freshPublishing : Publishing := ⟨smallPackets, [], Channel.empty 64, []⟩

open Publishing in
/-- One publisher, two calls whose frames are queued in turn. -/
theorem stream_ids_distinct_one :
    let actions : List (Action (List UInt8)) :=
      [.publisher, .publish 0 [0x61] { topic := "t" }, .publish 0 [0x62] { topic := "t" },
        .send 1, .send 0]
    ∃ t outs, (system .documented letterCodecs).run freshPublishing actions = some (t, outs) ∧
      streamIds outs = [1, 2] ∧
      ((streamIds outs).Nodup ↔ ∃ index,
        (system .documented letterCodecs).Meets (OnlyBy letterCodecs index) freshPublishing
          actions) ∧
      (freshPublishing.config.framing.enabled = true → (streamIds outs).Nodup → Unmixed outs) := by
  refine ⟨_, _, rfl, rfl, ?_⟩
  exact stream_ids_distinct_iff .documented letterCodecs ⟨rfl, rfl⟩ rfl (by decide)

open Publishing in
/-- Two publishers of one accepted transport both give the id 1, and a consumer of their
topic cannot tell the frames of their payloads apart. -/
theorem two_publishers_share_an_id :
    let header : List UInt8 := [0x46, 0x52, 1, 0, 0, 0, 0, 0, 0, 0, 0, 0, 1, 0, 0, 0, 0, 0, 0, 0, 1]
    let outs : List Publishing.Event :=
      [.given 0 0 1 [0x22, 0x61, 0x22], .given 1 1 1 [0x22, 0x62, 0x22],
        .queued 0 ⟨"base/t", .atMostOnce, false, header ++ [0x22, 0x61, 0x22]⟩,
        .queued 1 ⟨"base/t", .atMostOnce, false, header ++ [0x22, 0x62, 0x22]⟩]
    Config.validate (fun _ => true) freshPublishing.config = .ok () ∧
      (system .documented letterCodecs).start freshPublishing ∧
      (∃ t, (system .documented letterCodecs).run freshPublishing
        [.publisher, .publisher, .publish 0 [0x61] { topic := "t" },
          .publish 1 [0x62] { topic := "t" }, .send 0, .send 1] = some (t, outs)) ∧
      ¬ (streamIds outs).Nodup ∧ ¬ Unmixed outs := by
  refine ⟨rfl, ⟨rfl, rfl⟩, ⟨_, rfl⟩, by simp [streamIds, Event.streamId?], fun unmixed => ?_⟩
  have same := unmixed 0 1 _ _ _ _
    (List.mem_cons_of_mem _ (List.mem_cons_of_mem _ List.mem_cons_self))
    (List.mem_cons_of_mem _ (List.mem_cons_of_mem _ (List.mem_cons_of_mem _ List.mem_cons_self)))
    rfl rfl rfl
  cases same

end BlazeBee.Transport
