import BlazeBee.Lib.System
import BlazeBee.Transport.Queueing
import BlazeBee.Transport.Reassembly
import Mathlib.Logic.Function.Basic

/-!
What a late subscriber gets from the retained messages of a topic.

The broker keeps the last retained message of each topic. `Retaining.lateSubscriber` is
what a consumer that arrives only now decodes of it; draining the queue does not change
that. A sample of several frames leaves only its last frame behind:
`retained_suffices_iff` says that the subscriber gets the latest sample exactly when
each sample was sent in one message.
-/

namespace BlazeBee.Transport

open BlazeBee.Lib BlazeBee.Lib.Num BlazeBee.Rumqttc

/-! ### The broker -/

/-- The payload of the last retained message of each topic. -/
abbrev Broker := String → Option (List UInt8)

/-- A retained message replaces the one before it on its topic; every other request leaves
the retained messages alone. -/
def Broker.accept (broker : Broker) : Request → Broker
  | .publish p => if p.retain then Function.update broker p.topic (some p.payload) else broker
  | .disconnect => broker

/-- Requests arrive in the order in which they were queued. -/
def Broker.acceptAll (broker : Broker) (requests : List Request) : Broker :=
  requests.foldl accept broker

theorem Broker.acceptAll_append (broker : Broker) (first second : List Request) :
    broker.acceptAll (first ++ second) = (broker.acceptAll first).acceptAll second :=
  List.foldl_append

/-- The last retained message of a topic replaces all before it. -/
theorem Broker.acceptAll_last (broker : Broker) (before : List Request) {p : Publish}
    (retain : p.retain = true) :
    broker.acceptAll (before ++ [.publish p]) p.topic = some p.payload := by
  rw [acceptAll_append]
  simp [acceptAll, accept, retain]

/-! ### One frame on its own -/

/-- A consumer that reassembles frames, given a single message. -/
def decodeFrame (bytes : List UInt8) : Option (List UInt8) :=
  (receive bytes).bind fun f =>
    if isComplete [bytes] f.header.streamId then some (reassemble [bytes] f.header.streamId)
    else none

/-- A consumer, given a single message. -/
def decodeMessage (framing : Bool) (bytes : List UInt8) : Option (List UInt8) :=
  if framing then decodeFrame bytes else some bytes

/-- A single frame is a whole stream exactly when its header says that it is the only one. -/
theorem decodeFrame_encode (f : Fragment) :
    decodeFrame f.encode = if f.header.frameTotal.toNat = 1 then some f.chunk else none := by
  have own : group [f.encode] f.header.streamId = [f] := by simp [group]
  simp [decodeFrame, isComplete, reassemble, own, eq_comm (a := 1)]

/-- The last frame of a stream is the whole sample exactly when it is the only one. -/
theorem decodeFrame_last (s : FramedStream) {bytes : List UInt8}
    (last : s.produced.getLast? = some bytes) :
    decodeFrame bytes = some s.payload ↔ s.total = 1 := by
  rw [s.produced_eq, List.getLast?_map, Option.map_eq_some_iff] at last
  obtain ⟨f, last, rfl⟩ := last
  obtain ⟨-, total, -⟩ := s.header_of_mem (List.mem_of_getLast? last)
  rw [decodeFrame_encode, total]
  constructor
  · intro decoded
    by_contra several
    rw [if_neg several] at decoded
    cases decoded
  · intro one
    have alone : s.fragments = [f] := by
      have length := s.length_fragments
      rw [one, List.length_eq_one_iff] at length
      obtain ⟨g, fragments⟩ := length
      rw [fragments] at last ⊢
      simpa using last
    have chunk := s.flatMap_chunk
    rw [alone] at chunk
    rw [if_pos one, ← chunk]
    simp

/-! ### Calls, the queue and the broker -/

/-- A publisher, the request queue and what the broker has retained. -/
structure Retaining where
  publisher : Publisher
  queue : RequestChannel
  broker : Broker

/-- What can happen next: a call is made, or the event loop works on the queue. -/
inductive RetainingLabel (Value : Type) where
  /-- A successful call with `retain` set. -/
  | publish (value : Value) (metadata : EndpointMetadata)
  /-- The event loop passes the oldest requests on to the broker. -/
  | deliver (taken : Nat)

/-- After a call: what a subscriber that arrives only now decodes, and the sample. -/
structure Arrival where
  decoded : Option (List UInt8)
  sample : List UInt8
deriving DecidableEq, Repr

namespace Retaining

variable {Value : Type} (client : AsyncClient) (codecs : Codecs Value)

/-- What a subscriber decodes of a topic once the broker has what is queued so far. It gets
the last retained message of the topic and nothing that came before. -/
def lateSubscriber (s : Retaining) (topic : String) : Option (List UInt8) :=
  (s.broker.acceptAll s.queue.items topic).bind (decodeMessage s.publisher.framing)

/-- The event loop passes requests on. -/
def deliver (s : Retaining) (taken : Nat) : Retaining :=
  { s with
    queue := s.queue.drop taken
    broker := s.broker.acceptAll (s.queue.items.take taken) }

/-- One step. Only calls that succeed with `retain` set are steps of this system; each tells
what a subscriber would find afterwards. -/
def step (s : Retaining) (label : RetainingLabel Value) : Option (Retaining × List Arrival) :=
  match label with
  | .publish value metadata =>
      let published := s.publisher.publish client codecs s.queue value metadata
      let topic := joinTopic s.publisher.baseTopic metadata.topic
      match metadata.retain, published.result,
          s.publisher.serializer.encode codecs value s.publisher.sizeHint with
      | true, .ok _, .ok sample =>
          let s := { s with publisher := published.publisher, queue := published.queue }
          some (s, [⟨s.lateSubscriber topic, sample⟩])
      | _, _, _ => none
  | .deliver taken => some (s.deliver taken, [])

/-- Any publisher of some configuration, with any queue and any retained messages. -/
def system : System Retaining (RetainingLabel Value) Arrival where
  start s := ∃ config, s.publisher = Publisher.new config
  step := step client codecs

variable {client codecs} {publisher : Publisher} {queue : RequestChannel} {value : Value}
  {metadata : EndpointMetadata}

/-- A successful call has queued its whole plan. -/
theorem publish_ok {length : Nat}
    (ok : (publisher.publish client codecs queue value metadata).result = .ok length) :
    ∃ p, publisher.plan codecs value metadata = .ok p ∧
      (publisher.publish client codecs queue value metadata).queue.items =
        queue.items ++ p.messages.map .publish := by
  cases planned : publisher.plan codecs value metadata with
  | error e =>
      rw [(Publisher.publish_of_plan_error client codecs queue planned).1] at ok
      cases ok
  | ok p =>
      refine ⟨p, rfl, ?_⟩
      by_cases refusing : validTopic p.topic = false ∨ queue.receiverAlive = false
      · rw [(Publisher.publish_refusing client queue planned refusing).1] at ok
        cases ok
      · obtain ⟨valid, alive⟩ : validTopic p.topic = true ∧ queue.receiverAlive = true := by
          simpa using refusing
        obtain ⟨items, -, -, result⟩ := Publisher.publish_accepting client planned valid alive
        rw [result] at ok
        split_ifs at ok with fits
        rw [items, List.take_of_length_le (by simpa [Publisher.Plan.messages] using fits)]

/-- Everything a step can do. -/
theorem cases_of_step {s : Retaining} {label : RetainingLabel Value}
    {next : Retaining × List Arrival} (stepped : s.step client codecs label = some next) :
    (∃ value metadata p, label = .publish value metadata ∧ metadata.retain = true ∧
      s.publisher.plan codecs value metadata = .ok p ∧
      next.1.publisher.framing = s.publisher.framing ∧
      next.1.broker = s.broker ∧
      next.1.queue.items = s.queue.items ++ p.messages.map .publish ∧
      next.2 = [⟨next.1.lateSubscriber p.topic, p.payload⟩]) ∨
    ∃ taken, label = .deliver taken ∧ next = (s.deliver taken, []) := by
  cases label with
  | deliver taken => exact Or.inr ⟨taken, rfl, (Option.some.inj stepped).symm⟩
  | publish value metadata =>
      left
      simp only [step] at stepped
      split at stepped
      · next length sample retain ok encoded =>
          obtain ⟨p, planned, items⟩ := publish_ok ok
          have spec := Publisher.planned_of_plan planned
          have payload : sample = p.payload := Except.ok.inj (encoded.symm.trans spec.payload)
          obtain rfl := Option.some.inj stepped
          refine ⟨value, metadata, p, rfl, retain, planned, ?_, rfl, items, ?_⟩
          · exact (Publisher.publish_publisher client codecs s.queue s.publisher value
              metadata).framing
          · rw [payload, spec.topic]
      · cases stepped

/-! ### The exact condition -/

/-- The encoded sample, the frame header and the overhead of the packet fit into one
packet. -/
def FitsOneFrame (codecs : Codecs Value) (publisher : Publisher) (value : Value)
    (metadata : EndpointMetadata) : Prop :=
  ∀ qos payload, qosOfU8 metadata.qos = some qos →
    publisher.serializer.encode codecs value publisher.sizeHint = .ok payload →
    publishOverhead (joinTopic publisher.baseTopic metadata.topic) qos + frameHeaderLen +
      payload.length ≤ publisher.maxPacketSize

/-- With framing on, a call publishes a sample of one frame. -/
def OneMessage (codecs : Codecs Value) (s : Retaining) (label : RetainingLabel Value) : Prop :=
  ∀ value metadata, label = .publish value metadata → s.publisher.framing = true →
    FitsOneFrame codecs s.publisher value metadata

/-- The last message of a plan, and what a consumer makes of it alone. -/
theorem decodeMessage_last {p : Publisher.Plan}
    (planned : publisher.plan codecs value metadata = .ok p) :
    ∃ before last, p.bodies = before ++ [last] ∧
      (decodeMessage publisher.framing last = some p.payload ↔
        (publisher.framing = true → FitsOneFrame codecs publisher value metadata)) := by
  have spec := Publisher.planned_of_plan planned
  have nonempty : p.bodies ≠ [] := List.ne_nil_of_length_pos spec.bodies_pos
  refine ⟨p.bodies.dropLast, p.bodies.getLast nonempty,
    (List.dropLast_append_getLast nonempty).symm, ?_⟩
  cases mode : publisher.framing with
  | false =>
      have bodies := (spec.unframed mode).2
      simp [decodeMessage, bodies]
  | true =>
      have framed := spec.framed mode
      let stream : FramedStream := ⟨_, _, _, _, _, _, framed⟩
      have last : stream.produced.getLast? = some (p.bodies.getLast nonempty) :=
        List.getLast?_eq_some_getLast nonempty
      have whole := decodeFrame_last stream last
      have one := frameCount_eq_one_iff stream.room
      have room := stream.room.1
      have fits : FitsOneFrame codecs publisher value metadata ↔
          p.payload.length ≤
            publisher.maxPacketSize - publishOverhead p.topic p.qos - frameHeaderLen := by
        constructor
        · intro fits
          have enough := fits p.qos p.payload spec.qos spec.payload
          rw [← spec.topic] at enough
          omega
        · intro enough qos payload valid encoded
          obtain rfl : p.qos = qos := Option.some.inj (spec.qos.symm.trans valid)
          obtain rfl : p.payload = payload := Except.ok.inj (spec.payload.symm.trans encoded)
          rw [← spec.topic]
          simp only [stream, frameHeaderLen] at room enough ⊢
          omega
      simp only [decodeMessage, if_true, forall_const]
      rw [fits, ← one]
      exact whole

/-- After a call the subscriber decodes the sample exactly when the call published one
message. -/
theorem suffices_step {s : Retaining} {label : RetainingLabel Value}
    {next : Retaining × List Arrival} (stepped : s.step client codecs label = some next) :
    OneMessage codecs s label ↔ ∀ a ∈ next.2, a.decoded = some a.sample := by
  rcases cases_of_step stepped with
    ⟨value, metadata, p, rfl, retain, planned, framing, broker, items, arrival⟩ |
      ⟨taken, rfl, rfl⟩
  · obtain ⟨before, last, bodies, decoded⟩ := decodeMessage_last planned
    have spec := Publisher.planned_of_plan planned
    have retained : next.1.broker.acceptAll next.1.queue.items p.topic = some last := by
      have kept := Broker.acceptAll_last s.broker
        (s.queue.items ++ before.map fun body => .publish ⟨p.topic, p.qos, p.retain, body⟩)
        (p := ⟨p.topic, p.qos, p.retain, last⟩) (spec.retain.trans retain)
      rw [broker, items]
      simpa [Publisher.Plan.messages, bodies, Function.comp_def] using kept
    have one : OneMessage codecs s (.publish value metadata) ↔
        (s.publisher.framing = true → FitsOneFrame codecs s.publisher value metadata) := by
      constructor
      · intro one
        exact one value metadata rfl
      · rintro fits _ _ ⟨⟩
        exact fits
    rw [one, ← decoded, arrival]
    simp [lateSubscriber, retained, framing]
  · refine iff_of_true ?_ (by simp)
    rintro value metadata ⟨⟩

/-- Over any sequence of successful calls with `retain` set, however the queue is drained
between them: after each call a new subscriber decodes the latest sample exactly when,
with framing on, every sample fitted into one frame. -/
theorem retained_suffices_iff (client : AsyncClient) (codecs : Codecs Value) (s : Retaining)
    {labels : List (RetainingLabel Value)} {t : Retaining} {arrivals : List Arrival}
    (ran : (system client codecs).run s labels = some (t, arrivals)) :
    (∀ a ∈ arrivals, a.decoded = some a.sample) ↔
      (system client codecs).Meets (OneMessage codecs) s labels :=
  (System.run_meets_iff (I := fun _ => True)
    (fun _ _ _ _ _ stepped => ⟨trivial, suffices_step stepped⟩) trivial ran).symm

/-- A publisher of small packets, with framing on. -/
def smallFrames : Retaining := ⟨Publisher.new smallPackets, Channel.empty 2, fun _ => none⟩

/-- A sample of two frames: a new subscriber is left with the second one. -/
theorem smallFrames_leave_a_fragment :
    (system .documented letterCodecs).start smallFrames ∧
      ∃ t arrivals, (system .documented letterCodecs).run smallFrames
          [.publish (List.replicate 38 0x61) { topic := "t", retain := true }] =
            some (t, arrivals) ∧
        arrivals.map Arrival.decoded = [none] ∧
        ¬ ∀ a ∈ arrivals, a.decoded = some a.sample := by
  have left : ((system .documented letterCodecs).run smallFrames
      [.publish (List.replicate 38 0x61) { topic := "t", retain := true }]).map
        (fun run => run.2.map Arrival.decoded) = some [none] := by decide
  obtain ⟨⟨t, arrivals⟩, ran, decoded⟩ := Option.map_eq_some_iff.mp left
  refine ⟨⟨smallPackets, rfl⟩, t, arrivals, ran, decoded, fun suffices_all => ?_⟩
  obtain ⟨a, rfl, nothing⟩ := List.map_eq_singleton_iff.mp decoded
  rw [suffices_all a (List.mem_singleton_self a)] at nothing
  cases nothing

/-- A sample of one frame, which a late subscriber decodes. -/
theorem retained_suffices_iff_small :
    ∃ t arrivals, (system .documented letterCodecs).run smallFrames
        [.publish [] { topic := "t", retain := true }] = some (t, arrivals) ∧
      arrivals.map Arrival.sample = [[0x22, 0x22]] ∧
      ∀ a ∈ arrivals, a.decoded = some a.sample := by
  have sent : ((system .documented letterCodecs).run smallFrames
      [.publish [] { topic := "t", retain := true }]).map
        (fun run => run.2.map Arrival.sample) = some [[0x22, 0x22]] := by decide
  obtain ⟨⟨t, arrivals⟩, ran, samples⟩ := Option.map_eq_some_iff.mp sent
  refine ⟨t, arrivals, ran, samples, (retained_suffices_iff _ _ _ ran).mpr ⟨?_, ?_⟩⟩
  · rintro value metadata ⟨⟩ -
    intro qos payload valid encoded
    cases valid
    cases encoded
    decide
  · intro _ _ _
    trivial

end Retaining

end BlazeBee.Transport
