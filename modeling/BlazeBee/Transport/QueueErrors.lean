import BlazeBee.Transport.FinalState
import BlazeBee.Transport.Queueing

/-!
What the error of a publish tells about the queue.

`TransferError.queueFull` stands for a bounded queue that is full, and
`TransferError.closed` for a driver that has stopped. The client hands a request back
in one way only, so both reach the publisher as the same error.

* `Driver.receiver_gone_iff`: the queue has lost its receiver exactly when the driver has
  returned.
* `Publisher.errors_tell_iff`: the error is the right one exactly when the driver still
  runs and the topic is one that the client takes, or the queue happens to be full.
-/

namespace BlazeBee.Transport

open BlazeBee.Lib BlazeBee.Rumqttc

/-! ### The receiver of the queue -/

namespace Driver

variable {client : AsyncClient} {rootCause : ConnectionError → String} {self : Driver}

/-- A publish does not end the receiver of the queue. -/
theorem receiverAlive_tryPublish {queue next : RequestChannel} {p : Publish}
    (taken : client.tryPublish queue p = .ok next) : next.receiverAlive = queue.receiverAlive :=
  (Channel.trySend_ok (client.tryPublish_ok taken).2).2.2.2

theorem receiverAlive_queueStatus (client : AsyncClient) (self : Driver) (text : String) :
    (self.queueStatus client text).1.queue.receiverAlive = self.queue.receiverAlive := by
  simp only [queueStatus]
  cases taken : client.tryPublish self.queue (statusMessage self.statusTopic text) with
  | ok queue => exact receiverAlive_tryPublish taken
  | error e => rfl

theorem receiverAlive_otherPublishes (client : AsyncClient) (self : Driver)
    (others : List Publish) :
    (self.otherPublishes client others).queue.receiverAlive = self.queue.receiverAlive := by
  induction others generalizing self with
  | nil => rfl
  | cons p rest ih =>
      unfold otherPublishes
      cases taken : client.tryPublish self.queue p with
      | ok queue => exact (ih { self with queue }).trans (receiverAlive_tryPublish taken)
      | error e => exact ih self

theorem receiverAlive_queueDisconnect (client : AsyncClient) (self : Driver) :
    (self.queueDisconnect client).1.queue.receiverAlive = self.queue.receiverAlive := by
  unfold queueDisconnect
  cases taken : client.tryDisconnect self.queue with
  | ok queue => exact (Channel.trySend_ok (client.tryDisconnect_ok taken)).2.2.2
  | error e => rfl

/-- The receiver is dropped by `finish`, and by nothing else. -/
def Matches (self : Driver) : Prop :=
  self.queue.receiverAlive = false ↔ ∃ result, self.control = .returned result

/-- A driver that finishes drops the receiver with its event loop. -/
theorem matches_finish (self : Driver) (result : Except TransferError Unit) :
    (self.finish result).Matches :=
  ⟨fun _ => ⟨result, rfl⟩, fun _ => rfl⟩

/-- A driver that has not returned and still has a receiver. -/
theorem matches_of_alive (alive : self.queue.receiverAlive = true)
    (running : ∀ result, self.control ≠ .returned result) : self.Matches := by
  refine iff_of_false (by simp [alive]) ?_
  rintro ⟨result, returned⟩
  exact running result returned

/-- A driver that has not returned can still take requests. -/
theorem Matches.alive (same : self.Matches) (running : ∀ result, self.control ≠ .returned result) :
    self.queue.receiverAlive = true := by
  by_contra gone
  obtain ⟨result, returned⟩ := same.mp (Bool.eq_false_iff.mpr gone)
  exact running result returned

/-- Handling a poll drops the receiver exactly on the way to a fatal end. -/
theorem matches_handle (alive : self.queue.receiverAlive = true) (polling : self.control = .polling)
    (outcome : Except ConnectionError Event) :
    (self.handle client rootCause outcome).1.Matches := by
  cases outcome_cases outcome with
  | success present =>
      let greeted : Driver :=
        { self with backoff := self.backoff.reset, state := self.state.setState .connected }
      obtain ⟨queue, -, after⟩ := queueStatus_frame client greeted statusOnline
      rw [handle_success]
      apply matches_of_alive
      · rw [receiverAlive_queueStatus]
        exact alive
      · rw [after]
        simp [greeted, polling]
  | other other =>
      rw [handle_other _ other]
      exact matches_of_alive alive (by simp [polling])
  | fatal fatal =>
      rw [handle_fatal _ fatal]
      exact matches_finish _ _
  | recoverable recoverable =>
      rw [handle_recoverable _ recoverable]
      exact matches_of_alive alive (by simp)

/-- The shutdown drops the receiver exactly when there is no DISCONNECT to wait for. -/
theorem matches_disconnect (alive : self.queue.receiverAlive = true) (between : List Publish) :
    (self.disconnect client between).1.Matches := by
  cases connected : self.state.value.isConnected with
  | true =>
      apply matches_of_alive
      · simp only [disconnect, connected, if_true]
        rw [receiverAlive_queueDisconnect, receiverAlive_otherPublishes, receiverAlive_queueStatus]
        exact alive
      · obtain ⟨queue, -, after⟩ := disconnect_connected client between connected
        simp [after]
  | false =>
      rw [disconnect_unconnected client between connected]
      exact matches_finish _ _

/-- Every step keeps the two in line. -/
theorem matches_step {label : DriverLabel} {next : Driver × List DriverOutput}
    (same : self.Matches) (stepped : self.step client rootCause label = some next) :
    next.1.Matches := by
  cases cases_of_step stepped with
  | signal _ _ => exact same
  | otherPublish queue sent =>
      rcases sent with taken | ⟨rfl, -⟩
      · simp only [Matches, receiverAlive_tryPublish taken]
        exact same
      · exact same
  | poll taken outcome polling _ =>
      have alive : (self.take taken).queue.receiverAlive = true := same.alive (by simp [polling])
      exact matches_handle alive polling outcome
  | flush taken outcome flushing =>
      have alive := same.alive (by simp [flushing])
      unfold flush
      split
      · exact matches_finish _ _
      · exact matches_of_alive alive (by simp [take, flushing])
      · exact matches_finish _ _
  | shutdown between polling _ => exact matches_disconnect (same.alive (by simp [polling])) between
  | shutdownAsleep _ _ _ => exact matches_finish _ _
  | woken asleep _ => exact matches_of_alive (same.alive (by simp [asleep])) (by simp)
  | graceOver _ => exact matches_finish _ _

/-- The queue has lost its receiver exactly when the driver has returned. -/
theorem receiver_gone_iff (reachable : (system client rootCause).Reachable self) :
    self.queue.receiverAlive = false ↔ ∃ result, self.control = .returned result := by
  refine reachable.invariant (I := Matches) (fun s started => ?_) fun s label t out same stepped =>
    matches_step same stepped
  obtain ⟨_, _, _, _, _, connected⟩ := started
  obtain ⟨-, -, rfl⟩ := connect_eq_ok connected
  exact matches_of_alive rfl (by simp)

end Driver

/-! ### The error of a publish -/

namespace Publisher

variable {Value : Type} {client : AsyncClient} {codecs : Codecs Value} {self : Publisher}
  {queue : RequestChannel} {value : Value} {metadata : EndpointMetadata}

/-- A full queue is reported when the queue was full at the refused request, and a gone
driver whenever a request is made of it. -/
structure ErrorsTell (client : AsyncClient) (codecs : Codecs Value) (publisher : Publisher)
    (queue : RequestChannel) (value : Value) (metadata : EndpointMetadata) : Prop where
  queueFull : (publisher.publish client codecs queue value metadata).result = .error .queueFull →
    (publisher.publish client codecs queue value metadata).queue.items.length = queue.capacity
  closed : queue.receiverAlive = false → 0 < publisher.requestsNeeded codecs value metadata →
    (publisher.publish client codecs queue value metadata).result = .error .closed

/-- The driver still runs, and the client takes the topic or the queue is full anyway. -/
def Transient (publisher : Publisher) (queue : RequestChannel) (metadata : EndpointMetadata) :
    Prop :=
  queue.receiverAlive = true ∧
    (validTopic (joinTopic publisher.baseTopic metadata.topic) = true ∨ queue.free = 0)

/-- The queue has no free slot exactly when it holds as many requests as it can. -/
theorem full_iff (queue : RequestChannel) :
    queue.free = 0 ↔ queue.items.length = queue.capacity := by
  have bounded := queue.bounded
  unfold Channel.free
  omega

/-- Refused at once, the call leaves the queue as it was. -/
theorem errorsTell_refusing {p : Plan} (planned : self.plan codecs value metadata = .ok p)
    (refusing : validTopic p.topic = false ∨ queue.receiverAlive = false) :
    ErrorsTell client codecs self queue value metadata ↔
      queue.receiverAlive = true ∧ queue.free = 0 := by
  obtain ⟨result, left⟩ := publish_refusing client queue planned refusing
  have needed : 0 < self.requestsNeeded codecs value metadata := by
    rw [requestsNeeded_of_plan planned]
    exact (planned_of_plan planned).bodies_pos
  rw [full_iff]
  constructor
  · intro tell
    have full := tell.queueFull result
    rw [left] at full
    refine ⟨?_, full⟩
    by_contra gone
    have closed := tell.closed (Bool.eq_false_iff.mpr gone) needed
    rw [result] at closed
    cases closed
  · rintro ⟨alive, full⟩
    refine ⟨fun _ => ?_, fun gone => ?_⟩
    · rw [left]
      exact full
    · rw [alive] at gone
      cases gone

/-- Cut short by a live queue, the call has filled it. -/
theorem errorsTell_accepting {p : Plan} (planned : self.plan codecs value metadata = .ok p)
    (valid : validTopic p.topic = true) (alive : queue.receiverAlive = true) :
    ErrorsTell client codecs self queue value metadata := by
  obtain ⟨items, capacity, -, result⟩ := publish_accepting client planned valid alive
  refine ⟨fun full => ?_, fun gone => ?_⟩
  · rw [result] at full
    split_ifs at full with fits
    have bounded := queue.bounded
    have count : (p.messages.map Request.publish).length = p.bodies.length := by
      simp [Plan.messages]
    rw [items, List.length_append, List.length_take, count]
    unfold Channel.free at fits ⊢
    omega
  · rw [alive] at gone
    cases gone

/-- The error of a call tells what is wrong exactly when the call makes no request of the
queue, or what is wrong is transient. -/
theorem errors_tell_iff (client : AsyncClient) (codecs : Codecs Value) (self : Publisher)
    (queue : RequestChannel) (value : Value) (metadata : EndpointMetadata) :
    ErrorsTell client codecs self queue value metadata ↔
      (0 < self.requestsNeeded codecs value metadata → Transient self queue metadata) := by
  cases planned : self.plan codecs value metadata with
  | error e =>
      have result := (publish_of_plan_error client codecs queue planned).1
      have needed := requestsNeeded_of_plan_error planned
      refine iff_of_true ⟨fun full => ?_, fun _ => by simp [needed]⟩ (by simp [needed])
      rw [result] at full
      exact absurd (Except.error.inj full ▸ planned) plan_ne_queueFull
  | ok p =>
      have needed : 0 < self.requestsNeeded codecs value metadata := by
        rw [requestsNeeded_of_plan planned]
        exact (planned_of_plan planned).bodies_pos
      simp only [needed, forall_const, Transient, ← (planned_of_plan planned).topic]
      by_cases refusing : validTopic p.topic = false ∨ queue.receiverAlive = false
      · rw [errorsTell_refusing planned refusing]
        refine and_congr_right fun alive => ?_
        have wildcard : validTopic p.topic = false :=
          refusing.resolve_right (by simp [alive])
        simp [wildcard]
      · obtain ⟨valid, alive⟩ : validTopic p.topic = true ∧ queue.receiverAlive = true := by
          simpa using refusing
        exact iff_of_true (errorsTell_accepting planned valid alive) ⟨alive, Or.inl valid⟩

/-- A driver that is told to stop before it ever connects returns. A publish then finds an
empty queue without a receiver, and reports it as full. -/
theorem stopped_driver_reports_queueFull :
    ∃ driver, (Driver.system .documented fun _ => "timeout").Reachable driver ∧
      driver.control = .returned (.ok ()) ∧ driver.queue.items.length < driver.queue.capacity ∧
      ((Publisher.new Driver.localBroker).publish .documented letterCodecs driver.queue [0x61]
        { topic := "t" }).result = .error .queueFull ∧
      ¬ ErrorsTell .documented letterCodecs (Publisher.new Driver.localBroker) driver.queue [0x61]
        { topic := "t" } := by
  have ran : (Driver.system .documented fun _ => "timeout").run Driver.localDriver
      [.signal .dropped, .shutdown []] = some (_, []) := rfl
  have reachable :=
    (System.Reachable.start (Driver.localDriver_starts .documented fun _ => "timeout")).run ran
  refine ⟨_, reachable, rfl, by decide, rfl, fun tell => ?_⟩
  have closed := tell.closed rfl (by decide)
  cases closed

end Publisher

end BlazeBee.Transport
