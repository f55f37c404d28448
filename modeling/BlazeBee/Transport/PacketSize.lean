import BlazeBee.Transport.Queueing

/-!
Size accounting of a publish, against the MQTT 3.1.1 encoding of the packet.

* `Planned.size_le`: every planned message fits into the largest packet.
* `plan_refused_for_size`: a value is refused for its size only when no packet,
  or no sequence of frames, could carry it.
* `publish_size_exact` puts the two together for an accepted configuration.
-/

namespace BlazeBee.Transport

open BlazeBee.Lib BlazeBee.Lib.Num BlazeBee.Lib.Mqtt BlazeBee.Rumqttc

/-- The overhead allows for the widest Remaining Length. -/
theorem publishOverhead_eq (topic : String) (qos : QoS) :
    publishOverhead topic qos = 5 + publishRemaining topic.utf8ByteSize qos.hasPacketId 0 := by
  cases qos <;> simp only [publishOverhead, publishRemaining, QoS.hasPacketId] <;> simp <;> omega

/-- A message within the overhead and the limit: the packet fits, and its
Remaining Length has at most four bytes. -/
theorem size_le_of_overhead {p : Publish} {limit : Nat} (allowed : limit ≤ 268435455)
    (fits : publishOverhead p.topic p.qos + p.payload.length ≤ limit) :
    p.size ≤ limit ∧ (remainingLength
      (publishRemaining p.topic.utf8ByteSize p.qos.hasPacketId p.payload.length)).length ≤ 4 := by
  have remaining : publishRemaining p.topic.utf8ByteSize p.qos.hasPacketId p.payload.length =
      publishRemaining p.topic.utf8ByteSize p.qos.hasPacketId 0 + p.payload.length := by
    simp [publishRemaining]
  rw [publishOverhead_eq] at fits
  have bound : publishRemaining p.topic.utf8ByteSize p.qos.hasPacketId p.payload.length <
      268435456 := by omega
  constructor
  · have size := packetSize_le bound
    unfold Publish.size
    omega
  · exact (length_remainingLength_le_iff _ 3).mpr (by omega)

namespace Publisher

variable {Value : Type} {client : AsyncClient} {codecs : Codecs Value} {self : Publisher}
  {queue : RequestChannel} {value : Value} {metadata : EndpointMetadata}

/-- Room for the overhead, for the frame header, and for every body. -/
theorem Planned.body_fits {p : Plan} (planned : Planned codecs self value metadata p)
    {body : List UInt8} (mem : body ∈ p.bodies) :
    publishOverhead p.topic p.qos + body.length ≤ self.maxPacketSize := by
  have overhead := planned.overhead
  cases mode : self.framing with
  | false =>
      obtain ⟨fits, bodies⟩ := planned.unframed mode
      obtain rfl : body = p.payload := by simpa [bodies] using mem
      omega
  | true =>
      obtain ⟨⟨header, -⟩, -, bodies⟩ := frames_ok (planned.framed mode)
      rw [bodies] at mem
      obtain ⟨index, inside, rfl⟩ := List.mem_mapIdx.mp mem
      have piece := length_le_of_mem_framePieces (List.getElem_mem inside)
      rw [length_frame]
      omega

/-- A framed plan leaves room for the frame header in every packet. -/
theorem Planned.header_fits {p : Plan} (planned : Planned codecs self value metadata p)
    (framing : self.framing = true) :
    frameHeaderLen ≤ self.maxPacketSize - publishOverhead p.topic p.qos :=
  (frames_ok (planned.framed framing)).1.1

/-- What a call queues: messages of its plan, from the first on. -/
theorem publish_queues (client : AsyncClient) (codecs : Codecs Value) (self : Publisher)
    (queue : RequestChannel) (value : Value) (metadata : EndpointMetadata) :
    let published := self.publish client codecs queue value metadata
    published.queue.items = queue.items ∨
      ∃ p, self.plan codecs value metadata = .ok p ∧
        published.queue.items = queue.items ++ (p.messages.take queue.free).map .publish := by
  cases planned : self.plan codecs value metadata with
  | error e => exact Or.inl (by rw [(publish_of_plan_error client codecs queue planned).2])
  | ok p =>
      cases valid : validTopic p.topic with
      | false => exact Or.inl (by rw [(publish_refusing client queue planned (Or.inl valid)).2])
      | true =>
          cases alive : queue.receiverAlive with
          | false => exact Or.inl (by rw [(publish_refusing client queue planned (Or.inr alive)).2])
          | true =>
              obtain ⟨items, -⟩ := publish_accepting client planned valid alive
              exact Or.inr ⟨p, rfl, by rw [items, List.map_take]⟩

/-! ### Refusals -/

/-- A refusal for size is decided before the queue is touched. -/
theorem plan_of_refused {e : TransferError}
    (failed : (self.publish client codecs queue value metadata).result = .error e)
    (size : e.refusesSize = true) : self.plan codecs value metadata = .error e := by
  cases planned : self.plan codecs value metadata with
  | error e' =>
      rw [(publish_of_plan_error client codecs queue planned).1] at failed
      rw [Except.error.inj failed]
  | ok p =>
      exfalso
      rw [(publish_of_plan client codecs queue planned).1] at failed
      cases sent : (queueFrames client p.topic p.qos p.retain queue p.bodies).1 with
      | ok u => simp [sent] at failed
      | error e' =>
          obtain ⟨request, rfl⟩ := queueFrames_error sent
          simp only [sent, TransferError.ofClientError, Except.error.injEq] at failed
          rw [← failed] at size
          exact Bool.false_ne_true size

/-- A value refused for its size has a valid QoS and was encoded. -/
theorem encoded_of_refused {e : TransferError} (failed : self.plan codecs value metadata = .error e)
    (size : e.refusesSize = true) :
    ∃ qos payload, qosOfU8 metadata.qos = some qos ∧
      self.serializer.encode codecs value self.sizeHint = .ok payload := by
  cases failed_of_plan failed with
  | qos valid => simp [TransferError.refusesSize] at size
  | encoding valid encoded =>
      rcases Serializer.encode_error _ _ encoded with ⟨message, rfl⟩ | ⟨source, rfl⟩
      · simp [TransferError.refusesSize] at size
      · simp [TransferError.refusesSize] at size
  | size valid encoded large => exact ⟨_, _, valid, encoded⟩
  | framing valid encoded mode framed => exact ⟨_, _, valid, encoded⟩

/-- No packet of at most `maxPacketSize` bytes, counted with the widest Remaining
Length, can carry the payload; or, with framing, no sequence of frames can. -/
def TooLarge (self : Publisher) (topic : String) (qos : QoS) (payload : List UInt8) : Prop :=
  let overhead := 7 + topic.utf8ByteSize + (if qos.hasPacketId then 2 else 0)
  if self.framing then
    payload ≠ [] → self.maxPacketSize < overhead + 22 ∨
      u32Max < divCeil payload.length (self.maxPacketSize - overhead - frameHeaderLen)
  else self.maxPacketSize < overhead + payload.length

/-- A refusal for size means the payload is too large. -/
theorem plan_refused_for_size {e : TransferError}
    (failed : self.plan codecs value metadata = .error e) (size : e.refusesSize = true) :
    ∃ qos payload, qosOfU8 metadata.qos = some qos ∧
      self.serializer.encode codecs value self.sizeHint = .ok payload ∧
      self.TooLarge (joinTopic self.baseTopic metadata.topic) qos payload := by
  obtain ⟨qos, payload, valid, encoded⟩ := encoded_of_refused failed size
  refine ⟨qos, payload, valid, encoded, ?_⟩
  -- Nothing is queued for a refused value, whatever the queue: the count says why.
  have needed := requestsNeeded_of_plan_error failed
  simp only [requestsNeeded, valid, encoded] at needed
  have overhead : publishOverhead (joinTopic self.baseTopic metadata.topic) qos =
      7 + (joinTopic self.baseTopic metadata.topic).utf8ByteSize +
        (if qos.hasPacketId then 2 else 0) := by
    rw [publishOverhead_eq, publishRemaining]
    omega
  simp only [TooLarge, ← overhead]
  cases mode : self.framing with
  | false =>
      simp only [mode, Bool.false_eq_true, if_false] at needed ⊢
      split_ifs at needed with fits
      exact Nat.lt_of_not_le fits
  | true =>
      simp only [mode, if_true] at needed ⊢
      intro some
      by_contra fits
      rw [not_or, Nat.not_lt, Nat.not_lt] at fits
      obtain ⟨large, few⟩ := fits
      have room : HasRoom payload (self.maxPacketSize -
          publishOverhead (joinTopic self.baseTopic metadata.topic) qos) := by
        unfold HasRoom
        simp only [frameHeaderLen]
        omega
      have count := frameCount_pos room
      have pieces : frameCount payload.length (self.maxPacketSize -
          publishOverhead (joinTopic self.baseTopic metadata.topic) qos - frameHeaderLen) ≤
          u32Max := by
        rw [frameCount, if_neg (fun empty => some (List.eq_nil_of_length_eq_zero empty))]
        exact few
      rw [if_pos ⟨room, pieces⟩] at needed
      omega

/-! ### Sizes under an accepted configuration -/

/-- Every request queued under an accepted configuration fits into the largest
packet, and a value is refused for its size only when it does not fit. -/
theorem publish_size_exact {isFile : String → Bool} {config : Config}
    (accepted : config.validate isFile = .ok ()) (client : AsyncClient) (codecs : Codecs Value)
    (nextStreamId : UInt64) (sizeHint : Nat) (queue : RequestChannel) (value : Value)
    (metadata : EndpointMetadata) :
    let self := { Publisher.new config with nextStreamId, sizeHint }
    let published := self.publish client codecs queue value metadata
    (∃ added : List Publish, published.queue.items = queue.items ++ added.map .publish ∧
      ∀ p ∈ added, p.size ≤ config.maxPacketSize.toNat ∧
        (remainingLength (publishRemaining p.topic.utf8ByteSize p.qos.hasPacketId
          p.payload.length)).length ≤ 4 ∧
        publishOverhead p.topic p.qos ≤ config.maxPacketSize.toNat ∧
        (config.framing.enabled = true → frameHeaderLen ≤
          config.maxPacketSize.toNat - publishOverhead p.topic p.qos)) ∧
    (∀ e, published.result = .error e → e.refusesSize = true →
      ∃ qos payload, qosOfU8 metadata.qos = some qos ∧
        self.serializer.encode codecs value self.sizeHint = .ok payload ∧
        self.TooLarge (joinTopic config.baseTopic metadata.topic) qos payload) := by
  intro self published
  have limit := (Config.accepted_of_validate accepted).packet_max
  constructor
  · rcases publish_queues client codecs self queue value metadata with
      unchanged | ⟨p, planned, items⟩
    · exact ⟨[], by simpa using unchanged, by simp⟩
    · have planned := planned_of_plan planned
      refine ⟨_, items, fun m mem => ?_⟩
      obtain ⟨body, inside, rfl⟩ := List.mem_map.mp (List.mem_of_mem_take mem)
      obtain ⟨size, width⟩ := size_le_of_overhead (p := ⟨p.topic, p.qos, p.retain, body⟩) limit
        (planned.body_fits inside)
      exact ⟨size, width, planned.overhead, planned.header_fits⟩
  · intro e failed size
    exact plan_refused_for_size (plan_of_refused failed size) size

/-- The accepted configuration with the smallest packets, on a value that needs
two frames. -/
theorem publish_size_exact_small :
    Config.validate (fun _ => true) smallPackets = .ok () ∧
      let published := (Publisher.new smallPackets).publish .documented letterCodecs
        (Channel.empty 64) (List.replicate 38 0x61) { topic := "t" }
      ∃ added : List Publish, published.queue.items = added.map .publish ∧
        ∀ p ∈ added, p.size ≤ 64 := by
  refine ⟨rfl, ?_⟩
  have accepted : Config.validate (fun _ => true) smallPackets = .ok () := rfl
  obtain ⟨⟨added, items, sizes⟩, -⟩ := publish_size_exact accepted .documented letterCodecs 1 256
    (Channel.empty 64) (List.replicate 38 0x61) { topic := "t" }
  exact ⟨added, items, fun p mem => (sizes p mem).1⟩

end Publisher

end BlazeBee.Transport
