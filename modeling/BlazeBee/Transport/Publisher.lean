import BlazeBee.Transport.Framer
import BlazeBee.Transport.Serializer

/-!
Encoding values and handing them to the event loop without blocking
(`publisher.rs`).

`Publisher.publish` follows the source. `Publisher.plan` is what the call intends:
either an error found before anything is queued, or the messages to queue; it
does not look at the queue. `publish_eq_plan` connects the two, so that results
about `publish` reduce to a pure plan and one loop of sends.
-/

namespace BlazeBee.Transport

open BlazeBee.Lib BlazeBee.Lib.Text BlazeBee.Lib.Num BlazeBee.Rumqttc

/-! ### Topics and overhead -/

/-- `base/topic` with duplicate slashes at the join removed; an empty base yields
the topic unchanged (minus leading slashes). -/
def joinTopic (base topic : String) : String :=
  let topic := trimStartMatches topic '/'
  let base := trimEndMatches base '/'
  if base.isEmpty then topic else base ++ "/" ++ topic

/-- Worst-case MQTT 3.1.1 PUBLISH overhead: fixed header (1 + up to 4 bytes),
topic length prefix and topic, packet identifier for QoS 1/2. -/
def publishOverhead (topic : String) (qos : QoS) : Nat :=
  let pid := match qos with
    | .atMostOnce => 0
    | .atLeastOnce | .exactlyOnce => 2
  1 + 4 + 2 + topic.utf8ByteSize + pid

/-- The `match` on `meta.qos`. -/
def qosOfU8 : UInt8 → Option QoS
  | 0 => some .atMostOnce
  | 1 => some .atLeastOnce
  | 2 => some .exactlyOnce
  | _ => none

/-! ### Publishing -/

/-- A publisher: its settings, the next stream identifier, and the size of the largest
payload so far. -/
structure Publisher where
  baseTopic : String
  serializer : Serializer
  framing : Bool
  maxPacketSize : Nat
  nextStreamId : UInt64
  sizeHint : Nat
deriving DecidableEq, Repr

/-- A fresh publisher of a configuration; every one counts its streams from 1. -/
def Publisher.new (config : Config) : Publisher where
  baseTopic := config.baseTopic
  serializer := Serializer.new config.serialization
  framing := config.framing.enabled
  maxPacketSize := config.maxPacketSize.toNat
  nextStreamId := 1
  sizeHint := 256

/-- What a call returns and leaves behind. -/
structure Published where
  result : Except TransferError Nat
  publisher : Publisher
  queue : RequestChannel

/-- `for frame in frames { self.client.try_publish(..)?; }` -/
def queueFrames (client : AsyncClient) (topic : String) (qos : QoS) (retain : Bool) :
    RequestChannel → List (List UInt8) → Except ClientError Unit × RequestChannel
  | queue, [] => (.ok (), queue)
  | queue, frame :: rest =>
      match client.tryPublish queue ⟨topic, qos, retain, frame⟩ with
      | .error e => (.error e, queue)
      | .ok queue => queueFrames client topic qos retain queue rest

namespace Publisher

variable {Value : Type} (client : AsyncClient) (codecs : Codecs Value)

/-- Encodes `value` and queues it for `base_topic/meta.topic`. Returns the number of payload
bytes queued. Without framing a sample is one message or an error; with framing it is cut
into frames that are queued one by one, and the first one that is refused ends the call where
it is. -/
def publish (self : Publisher) (queue : RequestChannel) (value : Value)
    (metadata : EndpointMetadata) : Published :=
  match qosOfU8 metadata.qos with
  | none => ⟨.error (.invalidQos metadata.qos), self, queue⟩
  | some qos =>
      let topic := joinTopic self.baseTopic metadata.topic
      match self.serializer.encode codecs value self.sizeHint with
      | .error e => ⟨.error e, self, queue⟩
      | .ok payload =>
          let self := { self with sizeHint := max self.sizeHint payload.length }
          match checkedSub self.maxPacketSize (publishOverhead topic qos) with
          | none => ⟨.error (.payloadTooLarge payload.length self.maxPacketSize), self, queue⟩
          | some maxPayload =>
              if !self.framing then
                if payload.length > maxPayload then
                  ⟨.error (.payloadTooLarge payload.length self.maxPacketSize), self, queue⟩
                else
                  match client.tryPublish queue ⟨topic, qos, metadata.retain, payload⟩ with
                  | .error e => ⟨.error (.ofClientError e), self, queue⟩
                  | .ok queue => ⟨.ok payload.length, self, queue⟩
              else if maxPayload < frameHeaderLen then
                ⟨.error (.payloadTooLarge payload.length self.maxPacketSize), self, queue⟩
              else
                let streamId := self.nextStreamId
                let self := { self with nextStreamId := streamId + 1 }
                match frames payload self.serializer.format metadata.qos streamId maxPayload with
                | .error e => ⟨.error e, self, queue⟩
                | .ok frames =>
                    match queueFrames client topic qos metadata.retain queue frames with
                    | (.error e, queue) => ⟨.error (.ofClientError e), self, queue⟩
                    | (.ok (), queue) => ⟨.ok payload.length, self, queue⟩

/-! ### The plan of a call -/

/-- The messages a call intends to queue: where they go and what they carry. -/
structure Plan where
  topic : String
  qos : QoS
  retain : Bool
  /-- The encoded sample. -/
  payload : List UInt8
  /-- The payload itself, or its frames. -/
  bodies : List (List UInt8)

/-- The messages of a plan, one for each body. -/
def Plan.messages (p : Plan) : List Publish :=
  p.bodies.map fun body => ⟨p.topic, p.qos, p.retain, body⟩

/-- Everything `publish` decides before it touches the queue. A call is this and then a loop
of sends, which is where two publishers or a driver can come in between. -/
def plan (self : Publisher) (value : Value) (metadata : EndpointMetadata) :
    Except TransferError Plan :=
  match qosOfU8 metadata.qos with
  | none => .error (.invalidQos metadata.qos)
  | some qos =>
      let topic := joinTopic self.baseTopic metadata.topic
      match self.serializer.encode codecs value self.sizeHint with
      | .error e => .error e
      | .ok payload =>
          match checkedSub self.maxPacketSize (publishOverhead topic qos) with
          | none => .error (.payloadTooLarge payload.length self.maxPacketSize)
          | some maxPayload =>
              if !self.framing then
                if payload.length > maxPayload then
                  .error (.payloadTooLarge payload.length self.maxPacketSize)
                else .ok ⟨topic, qos, metadata.retain, payload, [payload]⟩
              else if maxPayload < frameHeaderLen then
                .error (.payloadTooLarge payload.length self.maxPacketSize)
              else
                match frames payload self.serializer.format metadata.qos self.nextStreamId
                    maxPayload with
                | .error e => .error e
                | .ok frames => .ok ⟨topic, qos, metadata.retain, payload, frames⟩

variable {self : Publisher} (queue : RequestChannel) {value : Value} {metadata : EndpointMetadata}

/-- Carries a plan out: the loop of sends, and what the call returns for it. -/
def Plan.send (p : Plan) : Except TransferError Nat × RequestChannel :=
  let sent := queueFrames client p.topic p.qos p.retain queue p.bodies
  (match sent.1 with
    | .error e => .error (.ofClientError e)
    | .ok () => .ok p.payload.length,
    sent.2)

/-- A call is its plan, carried out. -/
theorem publish_eq_plan (self : Publisher) (value : Value) (metadata : EndpointMetadata) :
    let published := self.publish client codecs queue value metadata
    (published.result, published.queue) =
      match self.plan codecs value metadata with
      | .error e => (.error e, queue)
      | .ok p => p.send client queue := by
  unfold publish plan
  cases qosOfU8 metadata.qos with
  | none => rfl
  | some qos =>
      simp only
      cases self.serializer.encode codecs value self.sizeHint with
      | error e => rfl
      | ok payload =>
          simp only
          cases checkedSub self.maxPacketSize
              (publishOverhead (joinTopic self.baseTopic metadata.topic) qos) with
          | none => rfl
          | some maxPayload =>
              simp only
              split_ifs with unframed large small
              · rfl
              · -- The single message of an unframed plan is a loop of one send.
                simp only [Plan.send, queueFrames]
                cases client.tryPublish queue
                  ⟨joinTopic self.baseTopic metadata.topic, qos, metadata.retain, payload⟩ <;> rfl
              · rfl
              · cases frames payload self.serializer.format metadata.qos self.nextStreamId
                    maxPayload with
                | error e => rfl
                | ok bodies =>
                    simp only [Plan.send]
                    rcases queueFrames client (joinTopic self.baseTopic metadata.topic) qos
                      metadata.retain queue bodies with ⟨outcome, left⟩
                    cases outcome <;> rfl

/-- A failed plan is reported and the queue is left alone. -/
theorem publish_of_plan_error {e : TransferError}
    (failed : self.plan codecs value metadata = .error e) :
    (self.publish client codecs queue value metadata).result = .error e ∧
      (self.publish client codecs queue value metadata).queue = queue := by
  have carried := publish_eq_plan client codecs queue self value metadata
  rw [failed] at carried
  exact Prod.mk.inj carried

/-- A plan is carried out by one loop of sends. -/
theorem publish_of_plan {p : Plan} (planned : self.plan codecs value metadata = .ok p) :
    (self.publish client codecs queue value metadata).result =
        (match (queueFrames client p.topic p.qos p.retain queue p.bodies).1 with
        | .error e => .error (.ofClientError e)
        | .ok () => .ok p.payload.length) ∧
      (self.publish client codecs queue value metadata).queue =
        (queueFrames client p.topic p.qos p.retain queue p.bodies).2 := by
  have carried := publish_eq_plan client codecs queue self value metadata
  rw [planned] at carried
  exact Prod.mk.inj carried

/-- Two publishers that differ at most in the stream counter and the size hint. -/
structure SameSettings (p q : Publisher) : Prop where
  baseTopic : p.baseTopic = q.baseTopic
  serializer : p.serializer = q.serializer
  framing : p.framing = q.framing
  maxPacketSize : p.maxPacketSize = q.maxPacketSize

theorem SameSettings.trans {p q r : Publisher} (first : SameSettings p q)
    (second : SameSettings q r) : SameSettings p r :=
  ⟨first.1.trans second.1, first.2.trans second.2, first.3.trans second.3, first.4.trans second.4⟩

/-- A call moves the stream counter and the size hint on; its settings stay. -/
theorem publish_publisher (self : Publisher) (value : Value) (metadata : EndpointMetadata) :
    SameSettings (self.publish client codecs queue value metadata).publisher self := by
  simp only [publish]
  repeat' split
  all_goals exact ⟨rfl, rfl, rfl, rfl⟩

end Publisher

end BlazeBee.Transport
