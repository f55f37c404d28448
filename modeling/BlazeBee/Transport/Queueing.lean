import BlazeBee.Transport.Publisher

/-!
What a publish leaves in the request queue.

* `publish_accepting`: against a live driver and a topic the client takes, the
  queue receives the longest prefix of the planned messages that fits, and the
  call succeeds exactly when that is all of them.
* `publish_refusing`: otherwise nothing is queued.
* `requestsNeeded`: the number of requests a call needs, from its inputs alone.
* `publish_all_or_nothing_iff`: a framed publish can be cut short by a queue with
  some free slots, and this is the only way it is left half done.
-/

namespace BlazeBee.Transport

open BlazeBee.Lib BlazeBee.Lib.Num BlazeBee.Rumqttc

/-! ### The loop of sends -/

section QueueFrames

variable (client : AsyncClient) (topic : String) (qos : QoS) (retain : Bool)
  (queue : RequestChannel)

/-- On a topic the client takes, the loop is the channel's own loop of sends. -/
theorem queueFrames_of_valid {topic : String} (valid : validTopic topic = true)
    (bodies : List (List UInt8)) :
    let sent := queue.trySendAll (bodies.map fun body => Request.publish ⟨topic, qos, retain, body⟩)
    (queueFrames client topic qos retain queue bodies).2 = sent.2 ∧
      ((queueFrames client topic qos retain queue bodies).1 = .ok () ↔ sent.1 = .ok ()) := by
  induction bodies generalizing queue with
  | nil => simp [queueFrames, Channel.trySendAll]
  | cons body bodies ih =>
      cases send : queue.trySend (.publish ⟨topic, qos, retain, body⟩) with
      | error e =>
          have refused := client.publish_refused queue ⟨topic, qos, retain, body⟩ e send
          simp [queueFrames, Channel.trySendAll, send, refused]
      | ok queue' =>
          have accepted :=
            client.publish_accepted queue queue' ⟨topic, qos, retain, body⟩ valid send
          simpa only [queueFrames, List.map_cons, Channel.trySendAll, send, accepted] using
            ih queue'

/-- Every failure of the loop is the client handing a request back. -/
theorem queueFrames_error {client : AsyncClient} {topic : String} {qos : QoS} {retain : Bool}
    {queue : RequestChannel} {bodies : List (List UInt8)} {e : ClientError}
    (failed : (queueFrames client topic qos retain queue bodies).1 = .error e) :
    ∃ request, e = .tryRequest request := by
  induction bodies generalizing queue with
  | nil => simp [queueFrames] at failed
  | cons body bodies ih =>
      let message : Publish := ⟨topic, qos, retain, body⟩
      cases valid : validTopic topic with
      | false =>
          have refused := client.publish_wildcard queue message valid
          simp only [queueFrames, refused, message, Except.error.injEq] at failed
          exact ⟨_, failed.symm⟩
      | true =>
          cases send : queue.trySend (.publish message) with
          | error e' =>
              have refused := client.publish_refused queue message e' send
              simp only [queueFrames, refused, message, Except.error.injEq] at failed
              exact ⟨_, failed.symm⟩
          | ok queue' =>
              have accepted := client.publish_accepted queue queue' message valid send
              simp only [queueFrames, accepted, message] at failed
              exact ih failed

/-- A wildcard topic or a driver that is gone: the first send fails. -/
theorem queueFrames_refusing {topic : String} {queue : RequestChannel}
    (refusing : validTopic topic = false ∨ queue.receiverAlive = false)
    (body : List UInt8) (bodies : List (List UInt8)) :
    queueFrames client topic qos retain queue (body :: bodies) =
      (.error (.tryRequest (.publish ⟨topic, qos, retain, body⟩)), queue) := by
  have refused : client.tryPublish queue ⟨topic, qos, retain, body⟩ =
      .error (.tryRequest (.publish ⟨topic, qos, retain, body⟩)) := by
    rcases refusing with wildcard | gone
    · exact client.publish_wildcard queue _ wildcard
    · exact client.publish_refused queue _ _ (Channel.trySend_gone gone)
  simp [queueFrames, refused]

/-- Queueing frames leaves the capacity of the queue alone. -/
theorem capacity_queueFrames (bodies : List (List UInt8)) :
    (queueFrames client topic qos retain queue bodies).2.capacity = queue.capacity := by
  induction bodies generalizing queue with
  | nil => rfl
  | cons body bodies ih =>
      unfold queueFrames
      cases taken : client.tryPublish queue ⟨topic, qos, retain, body⟩ with
      | error e => rfl
      | ok queue' => exact (ih queue').trans (client.capacity_tryPublish taken)

end QueueFrames

namespace Publisher

variable {Value : Type} (client : AsyncClient) {codecs : Codecs Value}
  {self : Publisher} (queue : RequestChannel) {value : Value} {metadata : EndpointMetadata}

/-! ### What a plan consists of -/

/-- Where the messages of a plan go, and that each of them was cut to size. -/
structure Planned (codecs : Codecs Value) (publisher : Publisher) (value : Value)
    (metadata : EndpointMetadata) (p : Plan) : Prop where
  qos : qosOfU8 metadata.qos = some p.qos
  topic : p.topic = joinTopic publisher.baseTopic metadata.topic
  retain : p.retain = metadata.retain
  payload : publisher.serializer.encode codecs value publisher.sizeHint = .ok p.payload
  overhead : publishOverhead p.topic p.qos ≤ publisher.maxPacketSize
  unframed : publisher.framing = false →
    p.payload.length ≤ publisher.maxPacketSize - publishOverhead p.topic p.qos ∧
      p.bodies = [p.payload]
  framed : publisher.framing = true →
    frames p.payload publisher.serializer.format metadata.qos publisher.nextStreamId
      (publisher.maxPacketSize - publishOverhead p.topic p.qos) = .ok p.bodies

/-- Everything a plan can fail on: the QoS, the encoder, the size of the payload or
of the topic, and the framer. -/
inductive PlanFailed (codecs : Codecs Value) (publisher : Publisher) (value : Value)
    (metadata : EndpointMetadata) : TransferError → Prop where
  | qos : qosOfU8 metadata.qos = none →
      PlanFailed codecs publisher value metadata (.invalidQos metadata.qos)
  | encoding {qos : QoS} {e : TransferError} : qosOfU8 metadata.qos = some qos →
      publisher.serializer.encode codecs value publisher.sizeHint = .error e →
      PlanFailed codecs publisher value metadata e
  | size {qos : QoS} {payload : List UInt8} : qosOfU8 metadata.qos = some qos →
      publisher.serializer.encode codecs value publisher.sizeHint = .ok payload →
      publisher.maxPacketSize < publishOverhead (joinTopic publisher.baseTopic metadata.topic) qos +
        (if publisher.framing then frameHeaderLen else payload.length) →
      PlanFailed codecs publisher value metadata
        (.payloadTooLarge payload.length publisher.maxPacketSize)
  | framing {qos : QoS} {payload : List UInt8} {e : TransferError} :
      qosOfU8 metadata.qos = some qos →
      publisher.serializer.encode codecs value publisher.sizeHint = .ok payload →
      publisher.framing = true →
      frames payload publisher.serializer.format metadata.qos publisher.nextStreamId
        (publisher.maxPacketSize -
          publishOverhead (joinTopic publisher.baseTopic metadata.topic) qos) = .error e →
      PlanFailed codecs publisher value metadata e

variable (codecs self value metadata) in
/-- What a call has decided before it touches the queue, whether it goes on or not. -/
theorem plan_spec :
    match self.plan codecs value metadata with
    | .error e => PlanFailed codecs self value metadata e
    | .ok p => Planned codecs self value metadata p := by
  unfold plan
  cases valid : qosOfU8 metadata.qos with
  | none => exact .qos valid
  | some qos =>
      simp only
      cases encoded : self.serializer.encode codecs value self.sizeHint with
      | error e => exact .encoding valid encoded
      | ok payload =>
          simp only
          cases room : checkedSub self.maxPacketSize
              (publishOverhead (joinTopic self.baseTopic metadata.topic) qos) with
          | none =>
              have large := checkedSub_eq_none_iff.mp room
              exact .size valid encoded (Nat.lt_add_right _ large)
          | some maxPayload =>
              obtain ⟨fits, rfl⟩ := checkedSub_eq_some_iff.mp room
              simp only
              cases mode : self.framing with
              | false =>
                  simp only [Bool.not_false, if_true]
                  split_ifs with large
                  · refine .size valid encoded ?_
                    simp only [mode, Bool.false_eq_true, if_false]
                    omega
                  · refine ⟨valid, by simp only, rfl, encoded, by simpa only using fits,
                      fun _ => ⟨?_, rfl⟩, fun framing => ?_⟩
                    · simpa only [Nat.not_lt] using large
                    · simp [mode] at framing
              | true =>
                  simp only [Bool.not_true, Bool.false_eq_true, if_false]
                  split_ifs with small
                  · refine .size valid encoded ?_
                    simp only [mode, if_true]
                    omega
                  · cases framed : frames payload self.serializer.format metadata.qos
                        self.nextStreamId (self.maxPacketSize -
                          publishOverhead (joinTopic self.baseTopic metadata.topic) qos) with
                    | error e => exact .framing valid encoded mode framed
                    | ok bodies =>
                        refine ⟨valid, by simp only, rfl, encoded, by simpa only using fits,
                          fun framing => ?_, fun _ => by simpa only using framed⟩
                        simp [mode] at framing

/-- What is known of a plan: its topic, its QoS and bodies that were cut to size. -/
theorem planned_of_plan {p : Plan} (planned : self.plan codecs value metadata = .ok p) :
    Planned codecs self value metadata p := by
  have spec := plan_spec codecs self value metadata
  rwa [planned] at spec

/-- A call without a plan has failed in one of the listed ways. -/
theorem failed_of_plan {e : TransferError} (failed : self.plan codecs value metadata = .error e) :
    PlanFailed codecs self value metadata e := by
  have spec := plan_spec codecs self value metadata
  rwa [failed] at spec

/-- The number of messages of a plan. -/
theorem Planned.length_bodies {p : Plan} (planned : Planned codecs self value metadata p) :
    p.bodies.length = if self.framing then
      frameCount p.payload.length
        (self.maxPacketSize - publishOverhead p.topic p.qos - frameHeaderLen) else 1 := by
  cases mode : self.framing with
  | false => simp [(planned.unframed mode).2]
  | true =>
      obtain ⟨-, -, bodies⟩ := frames_ok (planned.framed mode)
      simp [bodies]

/-- A plan has at least one message. -/
theorem Planned.bodies_pos {p : Plan} (planned : Planned codecs self value metadata p) :
    0 < p.bodies.length := by
  rw [planned.length_bodies]
  cases mode : self.framing with
  | false => simp
  | true => exact frameCount_pos (frames_ok (planned.framed mode)).1

/-! ### What a publish leaves in the queue -/

/-- Against a live driver and on a topic the client takes, the longest prefix that
fits is queued, and the call succeeds exactly when that is everything. -/
theorem publish_accepting {queue : RequestChannel} {p : Plan}
    (planned : self.plan codecs value metadata = .ok p)
    (valid : validTopic p.topic = true) (alive : queue.receiverAlive = true) :
    let published := self.publish client codecs queue value metadata
    published.queue.items = queue.items ++ (p.messages.map .publish).take queue.free ∧
      published.queue.capacity = queue.capacity ∧ published.queue.receiverAlive = true ∧
      published.result =
        if p.bodies.length ≤ queue.free then .ok p.payload.length else .error .queueFull := by
  obtain ⟨result, left⟩ := publish_of_plan client codecs queue planned
  obtain ⟨items, outcome⟩ := queueFrames_of_valid client p.qos p.retain queue valid p.bodies
  obtain ⟨sentItems, sentCapacity, sentAlive, sentAll⟩ := Channel.trySendAll_spec
    (p.bodies.map fun body => Request.publish ⟨p.topic, p.qos, p.retain, body⟩) alive
  have messages : p.messages.map Request.publish =
      p.bodies.map fun body => Request.publish ⟨p.topic, p.qos, p.retain, body⟩ := by
    simp [Plan.messages]
  refine ⟨?_, ?_, ?_, ?_⟩
  · rw [left, items, sentItems, messages]
  · rw [left, items, sentCapacity]
  · rw [left, items, sentAlive]
  · rw [List.length_map] at sentAll
    rw [result]
    split_ifs with fits
    · rw [outcome.mpr (sentAll.mpr fits)]
    · cases sent : (queueFrames client p.topic p.qos p.retain queue p.bodies).1 with
      | ok u => exact absurd (sentAll.mp (outcome.mp sent)) fits
      | error e =>
          obtain ⟨request, rfl⟩ := queueFrames_error sent
          rfl

/-- On a wildcard topic, or once the driver is gone, nothing is queued. -/
theorem publish_refusing {p : Plan} (planned : self.plan codecs value metadata = .ok p)
    (refusing : validTopic p.topic = false ∨ queue.receiverAlive = false) :
    let published := self.publish client codecs queue value metadata
    published.result = .error .queueFull ∧ published.queue = queue := by
  obtain ⟨result, left⟩ := publish_of_plan client codecs queue planned
  cases bodies : p.bodies with
  | nil =>
      have pos := (planned_of_plan planned).bodies_pos
      simp [bodies] at pos
  | cons body rest =>
      have refused := queueFrames_refusing client p.qos p.retain refusing body rest
      rw [bodies, refused] at result left
      exact ⟨result, left⟩

/-- A call keeps the capacity of the queue. -/
theorem capacity_publish (codecs : Codecs Value) (self : Publisher) (value : Value)
    (metadata : EndpointMetadata) :
    (self.publish client codecs queue value metadata).queue.capacity = queue.capacity := by
  cases planned : self.plan codecs value metadata with
  | error e => rw [(publish_of_plan_error client codecs queue planned).2]
  | ok p =>
      rw [(publish_of_plan client codecs queue planned).2]
      exact capacity_queueFrames client p.topic p.qos p.retain queue p.bodies

/-! ### How many requests a call needs -/

/-- The number of requests a call queues when nothing stands in its way: the
frames of the encoded value, or one, or none when the value is refused. -/
def requestsNeeded (codecs : Codecs Value) (self : Publisher) (value : Value)
    (metadata : EndpointMetadata) : Nat :=
  match qosOfU8 metadata.qos, self.serializer.encode codecs value self.sizeHint with
  | some qos, .ok payload =>
      let overhead := publishOverhead (joinTopic self.baseTopic metadata.topic) qos
      if self.framing then
        let count := frameCount payload.length (self.maxPacketSize - overhead - frameHeaderLen)
        if HasRoom payload (self.maxPacketSize - overhead) ∧ count ≤ u32Max then count else 0
      else if overhead + payload.length ≤ self.maxPacketSize then 1 else 0
  | _, _ => 0

/-- A plan needs a slot for each of its bodies. -/
theorem requestsNeeded_of_plan {p : Plan} (planned : self.plan codecs value metadata = .ok p) :
    self.requestsNeeded codecs value metadata = p.bodies.length := by
  have planned := planned_of_plan planned
  rw [planned.length_bodies]
  simp only [requestsNeeded, planned.qos, planned.payload, ← planned.topic]
  cases mode : self.framing with
  | false =>
      have fits := (planned.unframed mode).1
      have overhead := planned.overhead
      have small : publishOverhead p.topic p.qos + p.payload.length ≤ self.maxPacketSize := by
        omega
      simp [small]
  | true =>
      obtain ⟨room, few, -⟩ := frames_ok (planned.framed mode)
      simp [room, few]

/-- A call without a plan makes no request. -/
theorem requestsNeeded_of_plan_error {e : TransferError}
    (failed : self.plan codecs value metadata = .error e) :
    self.requestsNeeded codecs value metadata = 0 := by
  cases failed_of_plan failed with
  | qos valid => simp only [requestsNeeded, valid]
  | encoding valid encoded => simp only [requestsNeeded, valid, encoded]
  | size valid encoded large =>
      simp only [requestsNeeded, valid, encoded]
      cases mode : self.framing with
      | false =>
          simp only [mode, Bool.false_eq_true, if_false] at large ⊢
          rw [if_neg (Nat.not_le.mpr large)]
      | true =>
          simp only [mode, if_true] at large ⊢
          -- There is no room for a frame header, let alone for a frame.
          refine if_neg fun ⟨room, _⟩ => ?_
          have header : 21 ≤ _ := room.1
          simp only [frameHeaderLen] at large
          omega
  | framing valid encoded mode framed =>
      simp only [requestsNeeded, valid, encoded, mode, if_true]
      refine if_neg fun ⟨room, few⟩ => ?_
      rw [frames_eq room few] at framed
      cases framed

/-- Without framing a call needs at most one request. -/
theorem requestsNeeded_le_one (unframed : self.framing = false) :
    self.requestsNeeded codecs value metadata ≤ 1 := by
  unfold requestsNeeded
  split
  · simp only [unframed, Bool.false_eq_true, if_false]
    split_ifs <;> simp
  · exact Nat.zero_le _

/-- The stream counter and the size hint do not matter. -/
theorem requestsNeeded_of_settings (codecs : Codecs Value) {p q : Publisher}
    (same : SameSettings p q) (value : Value) (metadata : EndpointMetadata) :
    p.requestsNeeded codecs value metadata = q.requestsNeeded codecs value metadata := by
  simp only [requestsNeeded, same.baseTopic, same.serializer, same.framing, same.maxPacketSize,
    Serializer.encode]

/-- No error found before the queue is touched claims that the queue is full. -/
theorem plan_ne_queueFull : self.plan codecs value metadata ≠ .error .queueFull := by
  intro failed
  generalize full : TransferError.queueFull = e at failed
  cases failed_of_plan failed with
  | qos valid => cases full
  | encoding valid encoded =>
      rcases Serializer.encode_error _ _ encoded with ⟨message, rfl⟩ | ⟨source, rfl⟩
      · cases full
      · cases full
  | size valid encoded large => cases full
  | framing valid encoded mode framed =>
      obtain ⟨message, rfl⟩ := frames_error framed
      cases full

/-- On a topic the client takes and against a live driver, the queue is reported
as full exactly when it has fewer free slots than the call needs; otherwise it
grows by what the call needs. -/
theorem publish_accounting (codecs : Codecs Value) {queue : RequestChannel} (self : Publisher)
    (value : Value) (metadata : EndpointMetadata)
    (valid : validTopic (joinTopic self.baseTopic metadata.topic) = true)
    (alive : queue.receiverAlive = true) :
    let published := self.publish client codecs queue value metadata
    published.queue.capacity = queue.capacity ∧ published.queue.receiverAlive = true ∧
      (published.result = .error .queueFull ↔
        queue.free < self.requestsNeeded codecs value metadata) ∧
      (self.requestsNeeded codecs value metadata ≤ queue.free →
        published.queue.items.length =
          queue.items.length + self.requestsNeeded codecs value metadata) := by
  cases planned : self.plan codecs value metadata with
  | error e =>
      obtain ⟨result, left⟩ := publish_of_plan_error client codecs queue planned
      have other : e ≠ .queueFull := fun full => plan_ne_queueFull (full ▸ planned)
      rw [requestsNeeded_of_plan_error planned]
      simp [result, left, alive, other]
  | ok p =>
      have valid : validTopic p.topic = true := (planned_of_plan planned).topic ▸ valid
      obtain ⟨items, capacity, alive', result⟩ := publish_accepting client planned valid alive
      rw [requestsNeeded_of_plan planned]
      refine ⟨capacity, alive', ?_, ?_⟩
      · rw [result]
        split_ifs with fits
        · simp [fits]
        · simp [Nat.lt_of_not_le fits]
      · intro fits
        rw [items, List.take_of_length_le (by simpa [Plan.messages] using fits), List.length_append]
        simp [Plan.messages]

/-! ### All or nothing -/

/-- On an error the queue is what it was; on success it has received every message
of the value, in order. -/
def AllOrNothing (client : AsyncClient) (codecs : Codecs Value) (self : Publisher)
    (queue : RequestChannel) (value : Value) (metadata : EndpointMetadata) : Prop :=
  match (self.publish client codecs queue value metadata).result with
  | .error _ => (self.publish client codecs queue value metadata).queue.items = queue.items
  | .ok _ => ∃ p, self.plan codecs value metadata = .ok p ∧
      (self.publish client codecs queue value metadata).queue.items =
        queue.items ++ p.messages.map .publish

/-- The queue has room for some, but not all, of the requests a call needs. -/
def CutShort (codecs : Codecs Value) (self : Publisher) (queue : RequestChannel) (value : Value)
    (metadata : EndpointMetadata) : Prop :=
  queue.receiverAlive = true ∧ validTopic (joinTopic self.baseTopic metadata.topic) = true ∧
    0 < queue.free ∧ queue.free < self.requestsNeeded codecs value metadata

/-- Against a live driver, on a topic the client takes: the number of free slots
decides. -/
theorem allOrNothing_of_accepting {queue : RequestChannel} {p : Plan}
    (planned : self.plan codecs value metadata = .ok p)
    (valid : validTopic p.topic = true) (alive : queue.receiverAlive = true) :
    AllOrNothing client codecs self queue value metadata ↔
      ¬ (0 < queue.free ∧ queue.free < p.bodies.length) := by
  obtain ⟨items, -, -, result⟩ := publish_accepting client planned valid alive
  have count : (p.messages.map Request.publish).length = p.bodies.length := by
    simp [Plan.messages]
  by_cases fits : p.bodies.length ≤ queue.free
  · have all : (p.messages.map Request.publish).take queue.free =
        p.messages.map Request.publish := List.take_of_length_le (count ▸ fits)
    rw [if_pos fits] at result
    rw [all] at items
    simp only [AllOrNothing, result]
    exact iff_of_true ⟨p, planned, items⟩ fun cut => absurd cut.2 (Nat.not_lt.mpr fits)
  · rw [if_neg fits] at result
    simp only [AllOrNothing, result, items]
    have short := Nat.lt_of_not_le fits
    constructor
    · rintro unchanged ⟨room, -⟩
      have taken : ((p.messages.map Request.publish).take queue.free).length = 0 := by
        rw [List.append_right_eq_self.mp unchanged, List.length_nil]
      rw [List.length_take, count] at taken
      omega
    · intro uncut
      have full : queue.free = 0 := by
        by_contra some_free
        exact uncut ⟨Nat.pos_of_ne_zero some_free, short⟩
      simp [full]

/-- A call is all or nothing exactly when the queue does not run out of slots
between two of its requests. -/
theorem publish_all_or_nothing_iff (client : AsyncClient) (codecs : Codecs Value)
    (self : Publisher) (queue : RequestChannel) (value : Value) (metadata : EndpointMetadata) :
    AllOrNothing client codecs self queue value metadata ↔
      ¬ CutShort codecs self queue value metadata := by
  cases planned : self.plan codecs value metadata with
  | error e =>
      obtain ⟨result, left⟩ := publish_of_plan_error client codecs queue planned
      have needed := requestsNeeded_of_plan_error planned
      simp [AllOrNothing, CutShort, result, left, needed]
  | ok p =>
      have topic := (planned_of_plan planned).topic
      have needed := requestsNeeded_of_plan planned
      cases valid : validTopic p.topic with
      | false =>
          obtain ⟨result, left⟩ := publish_refusing client queue planned (Or.inl valid)
          simp [AllOrNothing, CutShort, result, left, ← topic, valid]
      | true =>
          cases alive : queue.receiverAlive with
          | false =>
              obtain ⟨result, left⟩ := publish_refusing client queue planned (Or.inr alive)
              simp [AllOrNothing, CutShort, result, left, alive]
          | true =>
              rw [allOrNothing_of_accepting client planned valid alive]
              simp [CutShort, ← topic, valid, alive, needed]

end Publisher

/-! ### A frame left behind -/

/-- The smallest accepted packet size, with framing on. -/
def smallPackets : Config :=
  { clientId := "agent", baseTopic := "base", maxPacketSize := 64, framing := { enabled := true } }

/-- The codecs for strings of plain letters: JSON puts them between quotes; the
other encoders are not used. -/
def letterCodecs : Codecs (List UInt8) where
  json letters := .ok (0x22 :: letters ++ [0x22])
  messagePack _ := .error "unsupported"
  cbor _ := .error "unsupported"
  gzip data := .ok data
  zstd _ data := .ok data

/-- A value of two frames against a queue with one free slot: the first frame is
queued and the call fails. -/
theorem publish_leaves_a_frame_behind :
    Config.validate (fun _ => true) smallPackets = .ok () ∧
      ¬ Publisher.AllOrNothing .documented letterCodecs (Publisher.new smallPackets)
        (Channel.empty 1) (List.replicate 38 0x61) { topic := "t" } := by
  refine ⟨rfl, fun unchanged => ?_⟩
  have queued : (Publisher.publish .documented letterCodecs (Publisher.new smallPackets)
      (Channel.empty 1) (List.replicate 38 0x61) { topic := "t" }).queue.items = [] := unchanged
  have frames : (Publisher.publish .documented letterCodecs (Publisher.new smallPackets)
      (Channel.empty 1) (List.replicate 38 0x61) { topic := "t" }).queue.items.length = 1 := by
    decide
  rw [queued] at frames
  exact absurd frames (by decide)

end BlazeBee.Transport
