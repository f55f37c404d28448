import BlazeBee.Agent.Requests
import BlazeBee.Transport.Magic
import BlazeBee.Transport.StreamIds

/-!
A sample's way from a collector to a consumer, with framing on.

The queue may take only the first frames of a sample, requests are sent again after a lost
connection, and messages may be lost. So a consumer meets any frames of any samples, in
any order and any number of times, and status messages between them.

* `reassembleOnce_eq`: a consumer that drops what it has twice recovers a stream from all of
  its frames.
* `samples_recovered`: along any run, what looks complete to it is a sample, and becomes the
  serialized value; and the frames of a publish that succeeded look complete.
-/

namespace BlazeBee.Transport

open BlazeBee.Lib BlazeBee.Lib.Fragments BlazeBee.Rumqttc

/-! ### A consumer that meets frames again -/

/-- The bytes of one stream, whose frames may have been received more than once. -/
def reassembleOnce (received : List (List UInt8)) (streamId : UInt64) : List UInt8 :=
  ((group received streamId).dedup.mergeSort fun a b => decide (a.index ≤ b.index)).flatMap
    Fragment.chunk

section Consumer

variable {streams : List FramedStream} {received : List (List UInt8)}

/-- Once all frames of a stream have been received, its payload is recovered. -/
theorem reassembleOnce_eq (distinct : (streams.map FramedStream.streamId).Nodup)
    {stream : FramedStream} (mem : stream ∈ streams)
    (sub : received ⊆ streams.flatMap FramedStream.produced)
    (all : stream.produced ⊆ received) :
    reassembleOnce received stream.streamId = stream.payload := by
  have members := fun f => mem_group_iff distinct (List.Perm.refl _) mem sub (f := f)
  have fragments : stream.fragments.Nodup :=
    stream.index_increasing.imp fun lt same => Nat.ne_of_lt lt (congrArg Fragment.index same)
  have same : (group received stream.streamId).dedup.Perm stream.fragments := by
    refine (List.perm_ext_iff_of_nodup (List.nodup_dedup _) fragments).mpr fun f => ?_
    rw [List.mem_dedup, members f, and_iff_left_iff_imp]
    intro own
    refine all ?_
    rw [stream.produced_eq]
    exact List.mem_map_of_mem own
  rw [reassembleOnce, mergeSort_eq_of_perm Fragment.index stream.index_increasing same,
    stream.flatMap_chunk]

/-- What is not a frame does not count. -/
theorem group_filter (received : List (List UInt8)) (streamId : UInt64) :
    group (received.filter fun body => (receive body).isSome) streamId =
      group received streamId := by
  have same : (received.filter fun body => (receive body).isSome).filterMap receive =
      received.filterMap receive := by
    rw [List.filterMap_filter]
    refine List.filterMap_congr fun body _ => ?_
    cases receive body <;> rfl
  rw [group, same, group]

/-- A stream that looks complete has a frame. -/
theorem exists_of_isComplete {streamId : UInt64}
    (complete : isComplete received streamId = true) :
    ∃ body ∈ received, ∃ f, receive body = some f ∧ f.header.streamId = streamId := by
  unfold isComplete at complete
  cases arrived : group received streamId with
  | nil =>
      rw [arrived] at complete
      cases complete
  | cons f rest =>
      have mem : f ∈ group received streamId := by
        rw [arrived]
        exact List.mem_cons_self
      obtain ⟨of_wire, own⟩ := List.mem_filter.mp mem
      obtain ⟨body, there, decoded⟩ := List.mem_filterMap.mp of_wire
      exact ⟨body, there, f, decoded, of_decide_eq_true own⟩

/-- Whatever looks complete is one of the streams, and is recovered. -/
theorem stream_of_isComplete (distinct : (streams.map FramedStream.streamId).Nodup)
    (sub : received ⊆ streams.flatMap FramedStream.produced) {streamId : UInt64}
    (complete : isComplete received streamId = true) :
    ∃ stream ∈ streams, stream.streamId = streamId ∧
      reassembleOnce received streamId = stream.payload := by
  obtain ⟨body, there, f, decoded, own⟩ := exists_of_isComplete complete
  obtain ⟨stream, mem, g, of_stream, rfl⟩ := eq_encode_of_mem (List.Perm.refl _) (sub there)
  obtain rfl : g = f := Option.some.inj ((receive_encode g).symm.trans decoded)
  have id : stream.streamId = streamId := (stream.header_of_mem of_stream).1.symm.trans own
  subst id
  have all := (isComplete_iff distinct (List.Perm.refl _) mem sub).mp complete
  exact ⟨stream, mem, rfl, reassembleOnce_eq distinct mem sub all⟩

end Consumer

/-- A consumer has what was serialized. -/
theorem recovered_of_encode {Value : Type} {codecs : Codecs Value} {consumer : Decompressors}
    (sound : codecs.Sound consumer) {self : Serializer} {value : Value} {hint : Nat}
    {payload : List UInt8} (encoded : self.encode codecs value hint = .ok payload) :
    ∃ data, self.serialize codecs value = .ok data ∧
      consumer.recover self.compression payload = .ok data := by
  unfold Serializer.encode at encoded
  cases serialized : self.serialize codecs value with
  | error message =>
      rw [serialized] at encoded
      cases encoded
  | ok data =>
      simp only [serialized] at encoded
      refine ⟨data, rfl, ?_⟩
      by_cases plain : self.compression = .none ∨ data.length < self.threshold
      · rw [if_pos plain] at encoded
        obtain rfl := Except.ok.inj encoded
        exact recover_plain consumer fun compresses =>
          not_magic compresses (wellFormed_of_serialize sound serialized)
      · rw [if_neg plain] at encoded
        exact (recover_compressed sound (not_or.mp plain).1 encoded).2

/-! ### One call -/

namespace Publisher

variable {Value : Type} {self : Publisher}

/-- What a call comes to with framing on. -/
inductive Streamed (codecs : Codecs Value) (self : Publisher) (queue : RequestChannel)
    (value : Value) (published : Published) : Prop where
  /-- Nothing is queued; an id may have been taken. -/
  | nothing (e : TransferError) : published.result = .error e →
      published.queue.items = queue.items →
      published.publisher.nextStreamId = self.nextStreamId ∨
        published.publisher.nextStreamId = self.nextStreamId + 1 →
      Streamed codecs self queue value published
  /-- Frames of the encoded value are queued, from the first on, and all of them by a call
  that succeeds. -/
  | stream (stream : FramedStream) (accepted : List Publish) :
      stream.streamId = self.nextStreamId →
      published.publisher.nextStreamId = self.nextStreamId + 1 →
      self.serializer.encode codecs value self.sizeHint = .ok stream.payload →
      published.queue.items = queue.items ++ accepted.map .publish →
      accepted.map (·.payload) <+: stream.produced →
      (∀ n, published.result = .ok n → accepted.map (·.payload) = stream.produced) →
      Streamed codecs self queue value published

/-- A call with framing queues frames of one stream under the id that it takes, from the
first on, or queues nothing. -/
theorem publish_streamed (client : AsyncClient) (codecs : Codecs Value) (queue : RequestChannel)
    (value : Value) (metadata : EndpointMetadata) (framing : self.framing = true) :
    Streamed codecs self queue value (self.publish client codecs queue value metadata) := by
  have counter := nextStreamId_publish client codecs self queue value metadata
  cases planned : self.plan codecs value metadata with
  | error e =>
      obtain ⟨result, left⟩ := publish_of_plan_error client codecs queue planned
      refine .nothing e result (by rw [left]) ?_
      rw [counter]
      split_ifs
      · exact Or.inr rfl
      · exact Or.inl rfl
  | ok p =>
      have spec := planned_of_plan planned
      obtain ⟨taken, -⟩ := streamPayload_of_plan planned framing
      let stream : FramedStream := ⟨p.payload, _, _, _, _, p.bodies, spec.framed framing⟩
      rw [taken, Option.isSome_some, if_pos rfl] at counter
      -- A call that is refused queues none of the frames.
      have refused : validTopic p.topic = false ∨ queue.receiverAlive = false →
          Streamed codecs self queue value (self.publish client codecs queue value metadata) := by
        intro refusing
        obtain ⟨result, left⟩ := publish_refusing client queue planned refusing
        exact .nothing _ result (by rw [left]) (Or.inr counter)
      cases valid : validTopic p.topic with
      | false => exact refused (Or.inl valid)
      | true =>
          cases alive : queue.receiverAlive with
          | false => exact refused (Or.inr alive)
          | true =>
              obtain ⟨items, -, -, result⟩ := publish_accepting client planned valid alive
              have payloads : p.messages.map (·.payload) = p.bodies := by
                simp [Plan.messages, Function.comp_def]
              refine .stream stream (p.messages.take queue.free) rfl counter spec.payload
                (by rw [items, List.map_take]) ?_ fun n ok => ?_
              · rw [List.map_take, payloads]
                exact List.take_prefix _ _
              · rw [result] at ok
                split_ifs at ok with fits
                rw [List.map_take, payloads, List.take_of_length_le fits]

end Publisher

end BlazeBee.Transport

namespace BlazeBee.Agent

open BlazeBee.Lib BlazeBee.Transport BlazeBee.Rumqttc

/-- A call of `publish` for a sample. -/
structure Call (Value : Type) where
  value : Value
  /-- The id that is the next one. -/
  streamId : UInt64
  result : Except TransferError Nat
  /-- What the queue has accepted, the first frame first. -/
  bodies : List (List UInt8)

namespace Process

variable {Memory Value : Type}

/-- The call that a step makes. -/
def calls (client : AsyncClient) (codecs : Codecs Value) (s : Process Memory) :
    ProcessLabel Value → List (Call Value)
  | .sampled value =>
      match s.scheduler.awaited with
      | none => []
      | some entry =>
          let published := s.publisher.publish client codecs s.driver.queue value entry.metadata
          [⟨value, s.publisher.nextStreamId, published.result,
            (published.queue.items.drop s.driver.queue.items.length).filterMap fun
              | .publish p => some p.payload
              | .disconnect => none⟩]
  | _ => []

/-- All runs of the process that a configuration starts, with the calls for its samples. -/
def sampling (eventLoop : EventLoop Memory) (client : AsyncClient)
    (rootCause : ConnectionError → String) (codecs : Codecs Value) (config : Config) :
    System (Process Memory) (ProcessLabel Value) (Call Value) where
  start := (system eventLoop client rootCause codecs config).start
  step s label := (s.step eventLoop client rootCause codecs label).map fun t =>
    (t, calls client codecs s label)

variable {eventLoop : EventLoop Memory} {client : AsyncClient}
  {rootCause : ConnectionError → String} {codecs : Codecs Value} {config : Config}
  {s t : Process Memory}

/-- Whether a step of the process is the call for a sample. -/
def IsSampled : ProcessLabel Value → Bool
  | .sampled _ => true
  | _ => false

/-- A payload of the value under the configured serialization. -/
def Encodes (codecs : Codecs Value) (config : Config) (value : Value) (payload : List UInt8) :
    Prop :=
  ∃ hint, (Serializer.new config.transport.serialization).encode codecs value hint = .ok payload

/-- The streams of a run so far: their ids, their frames, and the calls they belong to. The
ids are the first of one counter, so they are distinct as long as it does not wrap. -/
structure Traced (codecs : Codecs Value) (config : Config) (n : Nat)
    (streams : List FramedStream) (made : List (Call Value)) (s : Process Memory) : Prop where
  settings : Publisher.SameSettings s.publisher (Publisher.new config.transport)
  counter : s.publisher.nextStreamId = UInt64.ofNat (n + 1)
  ids : (streams.map FramedStream.streamId).Sublist (Publishing.firstIds n)
  bodies : ∀ call ∈ made, ∀ body ∈ call.bodies, ∃ stream ∈ streams, body ∈ stream.produced
  origin : ∀ stream ∈ streams, ∃ call ∈ made, call.streamId = stream.streamId ∧
    Encodes codecs config call.value stream.payload
  succeeded : ∀ call ∈ made, ∀ length, call.result = .ok length → ∃ stream ∈ streams,
    stream.streamId = call.streamId ∧ stream.produced = call.bodies ∧
      Encodes codecs config call.value stream.payload

/-- Steps that leave the publisher alone keep the trace. -/
theorem Traced.keep {n : Nat} {streams : List FramedStream} {made : List (Call Value)}
    (traced : Traced codecs config n streams made s) (same : t.publisher = s.publisher) :
    Traced codecs config n streams made t :=
  { traced with settings := same ▸ traced.settings, counter := same ▸ traced.counter }

/-- Only a sample is published. -/
theorem publisher_of_step {label : ProcessLabel Value} (other : IsSampled label = false)
    (stepped : s.step eventLoop client rootCause codecs label = some t) :
    t.publisher = s.publisher ∧ calls client codecs s label = [] := by
  cases cases_of_step stepped with
  | sampled _ _ => cases other
  | connAck _ _ _ => exact ⟨rfl, rfl⟩
  | failed _ => exact ⟨rfl, rfl⟩
  | transmitted _ _ => exact ⟨rfl, rfl⟩
  | event _ _ => exact ⟨rfl, rfl⟩
  | driver _ _ => exact ⟨rfl, rfl⟩
  | scheduler _ _ => exact ⟨rfl, rfl⟩

/-- The payloads of accepted messages, in order. -/
theorem payloads_of_publishes (accepted : List Publish) :
    ((accepted.map Request.publish).filterMap fun
      | .publish p => some p.payload
      | .disconnect => none) = accepted.map (·.payload) := by
  rw [List.filterMap_map]
  exact congrFun List.filterMap_eq_map accepted

/-- A counter that goes on has given the earlier ids first. -/
theorem firstIds_sublist {n m : Nat} (le : n ≤ m) :
    (Publishing.firstIds n).Sublist (Publishing.firstIds m) := by
  obtain ⟨k, rfl⟩ := Nat.exists_eq_add_of_le le
  rw [Publishing.firstIds, Publishing.firstIds, List.range_add, List.map_append]
  exact List.sublist_append_left _ _

/-- The id after the `n`-th is the next one, also where the counter wraps. -/
theorem counter_succ {n : Nat} {streamId : UInt64} (counter : streamId = UInt64.ofNat (n + 1)) :
    streamId + 1 = UInt64.ofNat (n + 1 + 1) := by
  rw [counter]
  apply UInt64.toNat_inj.mp
  simp

/-- A sample is published by one call, whose messages are what the step makes. -/
theorem sampled_call {value : Value}
    (stepped : s.step eventLoop client rootCause codecs (.sampled value) = some t) :
    ∃ metadata, let published := s.publisher.publish client codecs s.driver.queue value metadata
      t.publisher = published.publisher ∧
      calls client codecs s (.sampled value) = [⟨value, s.publisher.nextStreamId,
        published.result, (published.queue.items.drop s.driver.queue.items.length).filterMap fun
          | .publish p => some p.payload
          | .disconnect => none⟩] := by
  simp only [step] at stepped
  split at stepped
  · cases stepped
  · next entry awaited =>
      obtain ⟨_, -, rfl⟩ := Option.map_eq_some_iff.mp stepped
      exact ⟨entry.metadata, rfl, by simp only [calls, awaited]⟩

/-- A sample adds at most one stream, under the next id. -/
theorem traced_sampled (framed : config.transport.framing.enabled = true) {n : Nat}
    {streams : List FramedStream} {made : List (Call Value)}
    (traced : Traced codecs config n streams made s) {value : Value}
    (stepped : s.step eventLoop client rootCause codecs (.sampled value) = some t) :
    ∃ n' streams', n' ≤ n + 1 ∧
      Traced codecs config n' streams' (made ++ calls client codecs s (.sampled value)) t := by
  obtain ⟨settings, counter, ids, bodies, origin, succeeded⟩ := traced
  obtain ⟨metadata, published, call⟩ := sampled_call stepped
  have framing : s.publisher.framing = true := settings.framing.trans framed
  have settings' : Publisher.SameSettings t.publisher (Publisher.new config.transport) := by
    rw [published]
    exact (Publisher.publish_publisher client codecs _ _ _ _).trans settings
  rw [call]
  cases Publisher.publish_streamed client codecs s.driver.queue value metadata framing with
  | nothing e failed items next =>
      -- The call has no frames, and did not succeed.
      have kept : ∀ {n'}, n ≤ n' → t.publisher.nextStreamId = UInt64.ofNat (n' + 1) →
          Traced codecs config n' streams
            (made ++ [⟨value, s.publisher.nextStreamId, .error e, []⟩]) t := by
        intro n' le counter'
        refine ⟨settings', counter', ids.trans (firstIds_sublist le), ?_, ?_, ?_⟩
        · intro call mem
          rcases List.mem_append.mp mem with before | now
          · exact bodies call before
          · obtain rfl := List.mem_singleton.mp now
            exact fun _ none_there => nomatch none_there
        · intro stream mem
          obtain ⟨call, before, own⟩ := origin stream mem
          exact ⟨call, List.mem_append_left _ before, own⟩
        · intro call mem
          rcases List.mem_append.mp mem with before | now
          · exact succeeded call before
          · obtain rfl := List.mem_singleton.mp now
            exact fun _ ok => nomatch ok
      rw [failed, items, List.drop_length]
      rcases next with same | moved
      · exact ⟨n, streams, Nat.le_succ n,
          kept (Nat.le_refl n) (by rw [published, same, counter])⟩
      · exact ⟨n + 1, streams, Nat.le_refl _,
          kept (Nat.le_succ n) (by rw [published, moved]; exact counter_succ counter)⟩
  | stream stream accepted id next encoded items frames all =>
      have own : Encodes codecs config value stream.payload := by
        rw [settings.serializer] at encoded
        exact ⟨_, encoded⟩
      rw [items, List.drop_left, payloads_of_publishes]
      refine ⟨n + 1, streams ++ [stream], Nat.le_refl _, settings', ?_, ?_, ?_, ?_, ?_⟩
      · rw [published, next]
        exact counter_succ counter
      · rw [List.map_append, Publishing.firstIds_succ, ← counter, ← id]
        exact ids.append (List.Sublist.refl _)
      · intro call mem body there
        rcases List.mem_append.mp mem with before | now
        · obtain ⟨stream', mem', of_stream⟩ := bodies call before body there
          exact ⟨stream', List.mem_append_left _ mem', of_stream⟩
        · obtain rfl := List.mem_singleton.mp now
          exact ⟨stream, List.mem_append_right _ List.mem_cons_self, frames.subset there⟩
      · intro stream' mem
        rcases List.mem_append.mp mem with before | now
        · obtain ⟨call, mem', of_call⟩ := origin stream' before
          exact ⟨call, List.mem_append_left _ mem', of_call⟩
        · obtain rfl := List.mem_singleton.mp now
          exact ⟨_, List.mem_append_right _ List.mem_cons_self, id.symm, own⟩
      · intro call mem length ok
        rcases List.mem_append.mp mem with before | now
        · obtain ⟨stream', mem', of_call⟩ := succeeded call before length ok
          exact ⟨stream', List.mem_append_left _ mem', of_call⟩
        · obtain rfl := List.mem_singleton.mp now
          exact ⟨stream, List.mem_append_right _ List.mem_cons_self, id, (all length ok).symm, own⟩

/-- Every run with framing is traced: what it made are frames of streams whose ids the
counter gave in order. -/
theorem traced_of_run (framed : config.transport.framing.enabled = true)
    (started : (sampling eventLoop client rootCause codecs config).start s)
    {labels : List (ProcessLabel Value)} {made : List (Call Value)}
    (ran : (sampling eventLoop client rootCause codecs config).run s labels = some (t, made)) :
    ∃ n streams, n ≤ labels.countP IsSampled ∧ Traced codecs config n streams made t := by
  refine System.run_trace (R := fun labels made t => ∃ n streams, n ≤ labels.countP IsSampled ∧
    Traced codecs config n streams made t) ?_ ?_ ran
  · rintro labels made s label t out ⟨n, streams, few, traced⟩ stepped
    obtain ⟨t', moved, same⟩ := Option.map_eq_some_iff.mp stepped
    obtain ⟨rfl, rfl⟩ := Prod.mk.inj same
    rw [List.countP_append]
    cases sampled : IsSampled label with
    | false =>
        obtain ⟨publisher, silent⟩ := publisher_of_step sampled moved
        rw [silent, List.append_nil]
        exact ⟨n, streams, Nat.le_add_right_of_le few, traced.keep publisher⟩
    | true =>
        cases label with
        | sampled value =>
            obtain ⟨n', streams', le, traced'⟩ := traced_sampled framed traced moved
            exact ⟨n', streams', le.trans (Nat.add_le_add_right few 1), traced'⟩
        | _ => cases sampled
  · obtain ⟨_, _, _, _, _, -, -, publisher, -⟩ := started
    refine ⟨0, [], Nat.le_refl _, ?_, ?_, List.nil_sublist _, ?_, ?_, ?_⟩
    · rw [publisher]
      exact ⟨rfl, rfl, rfl, rfl⟩
    · rw [publisher]
      rfl
    · exact fun _ none_made => nomatch none_made
    · exact fun _ none_there => nomatch none_there
    · exact fun _ none_made => nomatch none_made

/-- The consumer gets the serialized value of a call out of what it has received. -/
def Recovered (codecs : Codecs Value) (config : Config) (consumer : Decompressors)
    (received : List (List UInt8)) (call : Call Value) : Prop :=
  let serializer := Serializer.new config.transport.serialization
  ∃ data, serializer.serialize codecs call.value = .ok data ∧
    consumer.recover serializer.compression (reassembleOnce received call.streamId) = .ok data

/-- Of a whole run, a consumer has received any frames that the queue accepted, in any order
and any number of times, and status messages. What looks complete to it is the sample of a
call, and it recovers the serialized value; and it has the sample of every call that
succeeded once all of its frames have arrived. -/
theorem samples_recovered {consumer : Decompressors} (sound : codecs.Sound consumer)
    (framed : config.transport.framing.enabled = true)
    (started : (sampling eventLoop client rootCause codecs config).start s)
    {labels : List (ProcessLabel Value)} {made : List (Call Value)}
    (ran : (sampling eventLoop client rootCause codecs config).run s labels = some (t, made))
    (few : labels.countP IsSampled < 2 ^ 64) {received : List (List UInt8)}
    (sent : ∀ body ∈ received, (∃ call ∈ made, body ∈ call.bodies) ∨
      body = bytesOf statusOnline ∨ body = bytesOf statusOffline) :
    (∀ streamId, isComplete received streamId = true → ∃ call ∈ made,
      call.streamId = streamId ∧ Recovered codecs config consumer received call) ∧
    ∀ call ∈ made, ∀ length, call.result = .ok length → call.bodies ⊆ received →
      isComplete received call.streamId = true ∧
        Recovered codecs config consumer received call := by
  obtain ⟨n, streams, bound, traced⟩ := traced_of_run framed started ran
  have distinct : (streams.map FramedStream.streamId).Nodup :=
    traced.ids.nodup (Publishing.nodup_firstIds (Nat.lt_of_le_of_lt bound few))
  let proper := received.filter fun body => (receive body).isSome
  have sub : proper ⊆ streams.flatMap FramedStream.produced := by
    intro body mem
    obtain ⟨there, decodes⟩ := List.mem_filter.mp mem
    rcases sent body there with ⟨call, made, of_call⟩ | rfl | rfl
    · obtain ⟨stream, mem', of_stream⟩ := traced.bodies call made body of_call
      exact List.mem_flatMap.mpr ⟨stream, mem', of_stream⟩
    · cases decodes
    · cases decodes
  have complete : ∀ streamId, isComplete received streamId = isComplete proper streamId :=
    fun streamId => by rw [isComplete, isComplete, group_filter]
  have whole : ∀ streamId, reassembleOnce received streamId = reassembleOnce proper streamId :=
    fun streamId => by rw [reassembleOnce, reassembleOnce, group_filter]
  have recovered : ∀ {call : Call Value} {stream : FramedStream},
      Encodes codecs config call.value stream.payload →
      reassembleOnce proper call.streamId = stream.payload →
      Recovered codecs config consumer received call := by
    rintro call stream ⟨hint, encoded⟩ same
    obtain ⟨data, serialized, back⟩ := recovered_of_encode sound encoded
    exact ⟨data, serialized, by rwa [whole, same]⟩
  refine ⟨fun streamId looks => ?_, fun call made length ok arrived => ?_⟩
  · rw [complete] at looks
    obtain ⟨stream, mem, rfl, same⟩ := stream_of_isComplete distinct sub looks
    obtain ⟨call, of_run, id, encodes⟩ := traced.origin stream mem
    exact ⟨call, of_run, id, recovered encodes (by rw [id, same])⟩
  · obtain ⟨stream, mem, id, produced, encodes⟩ := traced.succeeded call made length ok
    have all : stream.produced ⊆ proper := by
      intro body there
      refine List.mem_filter.mpr ⟨arrived (produced ▸ there), ?_⟩
      rw [stream.produced_eq] at there
      obtain ⟨f, -, rfl⟩ := List.mem_map.mp there
      rw [receive_encode]
      rfl
    rw [complete, ← id]
    refine ⟨(isComplete_iff distinct (List.Perm.refl _) mem sub).mpr all, recovered encodes ?_⟩
    rw [← id]
    exact reassembleOnce_eq distinct mem sub all

/-- Compressed samples in small packets. -/
def framedCollector : Config :=
  { cleanCollector with
    transport := { cleanCollector.transport with
      maxPacketSize := 64
      serialization := { compression := .gzip, compressionThreshold := 0 }
      framing := { enabled := true } } }

/-- The process that this configuration starts. -/
def framedProcess : Process Unit :=
  { cleanProcess with
    options := ((buildOptions (fun _ => .ok []) framedCollector.transport).toOption.get rfl)
    publisher := Publisher.new framedCollector.transport }

/-- The process of the examples is one that the system starts in. -/
theorem framedProcess_starts (client : AsyncClient) (rootCause : ConnectionError → String) :
    (sampling .documented client rootCause boolCodecs framedCollector).start framedProcess :=
  ⟨fun _ => true, fun _ => .ok [], 1, by decide, 0, rfl, rfl, rfl, rfl⟩

/-- The frames of a compressed sample, each received twice, with a status between. -/
theorem samples_recovered_twice :
    ∃ t call, (sampling .documented .documented (fun _ => "timeout") boolCodecs framedCollector).run
        framedProcess [.connAck false, .scheduler .tick, .sampled true] = some (t, [call]) ∧
      call.bodies.length = 3 ∧
      Recovered boolCodecs framedCollector boolConsumer
        (call.bodies.reverse ++ bytesOf statusOnline :: call.bodies) call := by
  have made : ∃ t call, (sampling .documented .documented (fun _ => "timeout") boolCodecs
      framedCollector).run framedProcess [.connAck false, .scheduler .tick, .sampled true] =
        some (t, [call]) ∧ call.bodies.length = 3 ∧ call.result = .ok 24 := ⟨_, _, rfl, rfl, rfl⟩
  obtain ⟨t, call, ran, three, ok⟩ := made
  refine ⟨t, call, ran, three, ?_⟩
  refine ((samples_recovered sound_bool rfl (framedProcess_starts _ _) ran (by decide) ?_).2 call
    List.mem_cons_self 24 ok ?_).2
  · intro body mem
    rcases List.mem_append.mp mem with own | mem
    · exact Or.inl ⟨call, List.mem_cons_self, List.mem_reverse.mp own⟩
    · rcases List.mem_cons.mp mem with rfl | own
      · exact Or.inr (Or.inl rfl)
      · exact Or.inl ⟨call, List.mem_cons_self, own⟩
  · intro body own
    exact List.mem_append_right _ (List.mem_cons_of_mem _ own)

end Process

end BlazeBee.Agent
