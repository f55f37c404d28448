import BlazeBee.Agent.Topics
import BlazeBee.Agent.WakeUp
import BlazeBee.Transport.EventLoop
import BlazeBee.Transport.Farewell
import BlazeBee.Transport.Queueing

/-!
The requests that a process holds over connection drops and reconnects.

`Process` puts the sampling loop, the driver and the third-party event loop together: they
share the link and the request queue. What the event loop does to requests is the parameter
`EventLoop`: it sends the oldest ones and keeps them until they are acknowledged; when a
connection breaks, the unacknowledged and the queued ones are to be sent again, from a list
without a bound; a CONNACK empties that list exactly when the broker has no session, and
otherwise the list goes first.

* `within_step`: with a clean session everything held is bounded, because nothing
  starts a cycle while the connection is down.
* `flapping`: without one, every drop adds the `online` of its CONNACK to the list.
* `held_bounded_iff`: so the setting decides.
-/

namespace BlazeBee.Agent

open BlazeBee.Lib BlazeBee.Transport BlazeBee.Rumqttc

/-- The entry whose collector is awaited. -/
def Scheduler.awaited (self : Scheduler) : Option Entry :=
  match self.control with
  | .collecting c => self.entries[c.index]?
  | _ => none

/-- The scheduler, the driver, and what the event loop holds. The two tasks share the
request queue and the link; the event loop keeps what it has taken from the queue and
not got rid of. -/
structure Process (Memory : Type) extends Backlog Memory where
  options : MqttOptions
  scheduler : Scheduler
  publisher : Publisher
  driver : Driver

/-- What may happen next to a process: the event loop resolves a poll, or one of the two
tasks goes on by itself. -/
inductive ProcessLabel (Value : Type) where
  /-- The broker accepts the connection. -/
  | connAck (sessionPresent : Bool)
  /-- The connection, or an attempt to connect, fails. -/
  | failed (e : ConnectionError)
  /-- The oldest request is sent. -/
  | transmitted
  /-- Any other event of the event loop; an acknowledgement is one for the request at the
  index. -/
  | event (event : Event) (index : Nat)
  /-- A step of the driver that is no poll. -/
  | driver (label : DriverLabel)
  /-- The awaited collector returns a sample. -/
  | sampled (value : Value)
  /-- Any other step of the scheduler. -/
  | scheduler (label : SchedulerLabel Value)

/-- A broker has no session to present to a client that asks for a clean one. -/
def SessionPresented (options : MqttOptions) (present : Bool) : Prop :=
  present = true → options.cleanSession = false

instance (options : MqttOptions) (present : Bool) : Decidable (SessionPresented options present) :=
  inferInstanceAs (Decidable (_ → _))

namespace Process

variable {Memory Value : Type}

/-- Everything that is held for sending. -/
def held (s : Process Memory) : Nat :=
  s.driver.queue.items.length + s.pending.length + s.inflight.length

/-- The driver moves; the scheduler sees its link. -/
def withDriver (s : Process Memory) (driver : Driver) : Process Memory :=
  { s with driver, scheduler := { s.scheduler with link := driver.state } }

/-- The scheduler moves; what it has seen of the link is seen. -/
def withScheduler (s : Process Memory) (scheduler : Scheduler) : Process Memory :=
  { s with scheduler, driver := { s.driver with state := scheduler.link } }

/-- What the event loop reports for a request it sends. -/
def outgoing : Request → Outgoing
  | .publish _ => .publish
  | .disconnect => .disconnect

/-- The driver's steps that involve neither the event loop nor another handle. -/
def DriverOnly : DriverLabel → Bool
  | .signal _ | .woken | .graceOver => true
  | .shutdown between => between.isEmpty
  | _ => false

/-- The scheduler's steps that involve neither the driver nor a publish. -/
def SchedulerOnly : SchedulerLabel Value → Bool
  | .advance _ | .tick | .changed | .collected (.error _) | .collected .timeout => true
  | _ => false

variable (eventLoop : EventLoop Memory) (client : AsyncClient)
  (rootCause : ConnectionError → String) (codecs : Codecs Value)

/-- A poll of the event loop, with what that holds afterwards, and the driver's reaction. -/
def polled (s : Process Memory) (taken : Nat) (outcome : Except ConnectionError Event)
    (left : Backlog Memory) : Option (Process Memory) :=
  (s.driver.step client rootCause (.poll taken outcome)).map fun (driver, _) =>
    { s.withDriver driver with toBacklog := left }

/-- One step of the process. The event loop connects only without a connection, and the
driver reacts to whatever it reports; a sample is published at once, into the queue that the
driver shares. What the event loop keeps after a report is its own choice within its laws. -/
def step (s : Process Memory) (label : ProcessLabel Value) : Option (Process Memory) :=
  match label with
  | .connAck present =>
      if s.network = false ∧ SessionPresented s.options present then
        s.polled client rootCause 0 (.ok (.connAck .success present))
          (eventLoop.connAck s.toBacklog present)
      else none
  | .failed e =>
      let failed := eventLoop.failed s.toBacklog s.driver.queue.items e
      s.polled client rootCause failed.1 (.error e) failed.2
  | .transmitted =>
      match eventLoop.transmit s.options s.toBacklog s.driver.queue.items with
      | none => none
      | some (r, taken, left) =>
          s.polled client rootCause taken (.ok (.outgoing (outgoing r))) left
  | .event event index =>
      if ∀ present, event ≠ .connAck .success present then
        s.polled client rootCause 0 (.ok event) (eventLoop.reported s.toBacklog event index)
      else none
  | .driver label =>
      if DriverOnly label then
        (s.driver.step client rootCause label).map fun (driver, _) => s.withDriver driver
      else none
  | .sampled value =>
      match s.scheduler.awaited with
      | none => none
      | some entry =>
          let published := s.publisher.publish client codecs s.driver.queue value entry.metadata
          (s.scheduler.step (.collected (.sample value published.result))).map
            fun (scheduler, _) => { s.withScheduler scheduler with
              publisher := published.publisher
              driver := { s.driver with state := scheduler.link, queue := published.queue } }
  | .scheduler label =>
      if SchedulerOnly label then
        (s.scheduler.step label).map fun (scheduler, _) => s.withScheduler scheduler
      else none

/-- The collection interval in nanoseconds. -/
def period (config : Config) : Nat := config.metrics.collectionInterval.toNat * 1000000000

/-- All runs of the process that a configuration starts. -/
def system (config : Config) : System (Process Memory) (ProcessLabel Value) Unit where
  start s := ∃ isFile readFile seed pos now,
    Driver.connect isFile readFile seed config.transport = .ok (s.options, s.driver) ∧
    s.scheduler = Scheduler.new
      (config.metrics.enabled.map fun entry => (entry.name, entry.metadata)) s.driver.state
      (Interval.start (period config) pos now) now ∧
    s.publisher = Publisher.new config.transport ∧
    s.toBacklog = ⟨false, [], [], eventLoop.new s.options⟩
  step s label := (s.step eventLoop client rootCause codecs label).map fun t => (t, [])

/-! ### What the steps do -/

section Steps

variable {eventLoop client rootCause codecs} {s : Process Memory}

/-- Everything a step can do. -/
inductive Stepped (eventLoop : EventLoop Memory) (client : AsyncClient)
    (rootCause : ConnectionError → String) (codecs : Codecs Value) (s : Process Memory) :
    ProcessLabel Value → Process Memory → Prop where
  | connAck {present : Bool} {driver : Driver} {out : List DriverOutput} : s.network = false →
      SessionPresented s.options present →
      s.driver.step client rootCause (.poll 0 (.ok (.connAck .success present))) =
        some (driver, out) →
      Stepped eventLoop client rootCause codecs s (.connAck present)
        { s.withDriver driver with toBacklog := eventLoop.connAck s.toBacklog present }
  | failed {e : ConnectionError} {driver : Driver} {out : List DriverOutput} :
      s.driver.step client rootCause
        (.poll (eventLoop.failed s.toBacklog s.driver.queue.items e).1 (.error e)) =
          some (driver, out) →
      Stepped eventLoop client rootCause codecs s (.failed e)
        { s.withDriver driver with
          toBacklog := (eventLoop.failed s.toBacklog s.driver.queue.items e).2 }
  | transmitted {r : Request} {taken : Nat} {left : Backlog Memory} {driver : Driver}
      {out : List DriverOutput} :
      Sends s.options s.toBacklog left s.driver.queue.items r taken →
      s.driver.step client rootCause (.poll taken (.ok (.outgoing (outgoing r)))) =
        some (driver, out) →
      Stepped eventLoop client rootCause codecs s .transmitted
        { s.withDriver driver with toBacklog := left }
  | event {event : Event} {index : Nat} {driver : Driver} {out : List DriverOutput} :
      (∀ present, event ≠ .connAck .success present) →
      s.driver.step client rootCause (.poll 0 (.ok event)) = some (driver, out) →
      Stepped eventLoop client rootCause codecs s (.event event index)
        { s.withDriver driver with toBacklog := eventLoop.reported s.toBacklog event index }
  | driver {label : DriverLabel} {driver : Driver} {out : List DriverOutput} :
      DriverOnly label = true → s.driver.step client rootCause label = some (driver, out) →
      Stepped eventLoop client rootCause codecs s (.driver label) (s.withDriver driver)
  | sampled {value : Value} {entry : Entry} {published : Published} {scheduler : Scheduler}
      {out : List (SchedulerOutput Value)} :
      published = s.publisher.publish client codecs s.driver.queue value entry.metadata →
      s.scheduler.step (.collected (.sample value published.result)) = some (scheduler, out) →
      Stepped eventLoop client rootCause codecs s (.sampled value)
        { s.withScheduler scheduler with
          publisher := published.publisher
          driver := { s.driver with state := scheduler.link, queue := published.queue } }
  | scheduler {label : SchedulerLabel Value} {scheduler : Scheduler}
      {out : List (SchedulerOutput Value)} : SchedulerOnly label = true →
      s.scheduler.step label = some (scheduler, out) →
      Stepped eventLoop client rootCause codecs s (.scheduler label) (s.withScheduler scheduler)

/-- What a poll does: the driver handles its outcome, and the event loop keeps the rest. -/
theorem polled_eq_some {taken : Nat} {outcome : Except ConnectionError Event}
    {left : Backlog Memory} {t : Process Memory} :
    s.polled client rootCause taken outcome left = some t ↔
      ∃ driver out, s.driver.step client rootCause (.poll taken outcome) = some (driver, out) ∧
        { s.withDriver driver with toBacklog := left } = t := by
  simp [polled, Option.map_eq_some_iff]

/-- Each step is one of these, with the guards that allowed it. -/
theorem cases_of_step {label : ProcessLabel Value} {t : Process Memory}
    (stepped : s.step eventLoop client rootCause codecs label = some t) :
    Stepped eventLoop client rootCause codecs s label t := by
  cases label with
  | connAck present =>
      simp only [step] at stepped
      split_ifs at stepped with fresh
      obtain ⟨driver, out, reacted, rfl⟩ := polled_eq_some.mp stepped
      exact .connAck fresh.1 fresh.2 reacted
  | failed e =>
      simp only [step] at stepped
      obtain ⟨driver, out, reacted, rfl⟩ := polled_eq_some.mp stepped
      exact .failed reacted
  | transmitted =>
      simp only [step] at stepped
      split at stepped
      · cases stepped
      · next r taken left sent =>
          obtain ⟨driver, out, reacted, rfl⟩ := polled_eq_some.mp stepped
          exact .transmitted (eventLoop.transmit_sends _ _ _ _ _ _ sent) reacted
  | event event index =>
      simp only [step] at stepped
      split_ifs at stepped with other
      obtain ⟨driver, out, reacted, rfl⟩ := polled_eq_some.mp stepped
      exact .event other reacted
  | driver label =>
      simp only [step] at stepped
      split_ifs at stepped with own
      obtain ⟨⟨driver, out⟩, reacted, rfl⟩ := Option.map_eq_some_iff.mp stepped
      exact .driver own reacted
  | sampled value =>
      simp only [step] at stepped
      split at stepped
      · cases stepped
      · obtain ⟨⟨scheduler, out⟩, moved, rfl⟩ := Option.map_eq_some_iff.mp stepped
        exact .sampled rfl moved
  | scheduler label =>
      simp only [step] at stepped
      split_ifs at stepped with own
      obtain ⟨⟨scheduler, out⟩, moved, rfl⟩ := Option.map_eq_some_iff.mp stepped
      exact .scheduler own moved

end Steps

/-! ### A connection that is down -/

section Down

variable {client rootCause} {driver : Driver} {next : Driver × List DriverOutput}

/-- After an error the link is not `Connected`, and what was taken is gone. -/
theorem failed_spec {taken : Nat} {e : ConnectionError}
    (stepped : driver.step client rootCause (.poll taken (.error e)) = some next) :
    next.1.state.value ≠ .connected ∧ next.1.queue.items = driver.queue.items.drop taken := by
  cases Driver.cases_of_step stepped with
  | poll _ _ control waiting =>
      cases fatal : isFatal e with
      | true =>
          rw [Driver.handle_fatal _ fatal]
          have last := Watch.setState_value (driver.take taken).state (.fatalExit (rootCause e))
          refine ⟨?_, rfl⟩
          intro connected
          cases last.symm.trans connected
      | false =>
          rw [Driver.handle_recoverable _ fatal]
          have last := Watch.setState_value
            ((driver.take taken).state.setState (.disconnected (rootCause e)))
            (.reconnecting (driver.take taken).backoff.nextDelay.1)
          refine ⟨?_, rfl⟩
          intro connected
          cases last.symm.trans connected
  | flush _ _ control =>
      refine ⟨?_, rfl⟩
      have last := Watch.setState_value (driver.take taken).state (.disconnected "shutdown")
      intro connected
      cases last.symm.trans connected

/-- The end of the driver shows that it is gone. -/
theorem closed_spec (driver : Driver) :
    driver.closed.state.value ≠ .connected ∧ driver.closed.queue.items = driver.queue.items := by
  have last := Watch.setState_value driver.state (.disconnected "shutdown")
  refine ⟨?_, rfl⟩
  intro connected
  cases last.symm.trans connected

/-- While it is not `Connected`, the driver on its own queues nothing and stays so. -/
theorem driverOnly_spec (down : driver.state.value ≠ .connected) {label : DriverLabel}
    (own : DriverOnly label = true) (stepped : driver.step client rootCause label = some next) :
    next.1.state.value ≠ .connected ∧ next.1.queue.items = driver.queue.items := by
  cases Driver.cases_of_step stepped with
  | signal _ _ => exact ⟨down, rfl⟩
  | shutdown between _ _ =>
      cases connected : driver.state.value.isConnected with
      | true => exact absurd (ConnectionState.eq_connected connected) down
      | false =>
          rw [Driver.disconnect_unconnected client between connected]
          exact closed_spec driver
  | shutdownAsleep between _ _ => exact ⟨down, rfl⟩
  | woken _ _ => exact ⟨down, rfl⟩
  | graceOver _ => exact closed_spec driver
  | otherPublish queue _ => cases own
  | poll taken outcome _ _ => cases own
  | flush taken outcome _ => cases own

/-- The same for an event that is no CONNACK. -/
theorem event_spec (down : driver.state.value ≠ .connected) {event : Event}
    (other : ∀ present, event ≠ .connAck .success present)
    (stepped : driver.step client rootCause (.poll 0 (.ok event)) = some next) :
    next.1.state.value ≠ .connected ∧ next.1.queue.items = driver.queue.items := by
  cases Driver.cases_of_step stepped with
  | poll _ _ control waiting =>
      rw [Driver.handle_other _ other]
      exact ⟨down, List.drop_zero⟩
  | flush _ _ control =>
      simp only [Driver.flush]
      split
      · exact closed_spec (driver.take 0)
      · exact ⟨down, List.drop_zero⟩
      · exact closed_spec (driver.take 0)

end Down

end Process

namespace Scheduler

variable {Value : Type} {self : Scheduler}

/-- The entries that the cycle in progress has still to publish for. -/
def remaining (self : Scheduler) : Nat :=
  match self.control with
  | .collecting c => self.entries.length - c.index
  | _ => 0

/-- A cycle in progress waits for one of its entries. -/
def InCycleBounds (self : Scheduler) : Prop :=
  ∀ c, self.control = .collecting c → self.paused = false ∧ c.index < self.entries.length

/-- At most the enabled collectors are still to come. -/
theorem remaining_le (self : Scheduler) : self.remaining ≤ self.entries.length := by
  unfold remaining
  split
  · exact Nat.sub_le _ _
  · exact Nat.zero_le _

/-- After the link is read, a cycle waits for one of its entries. -/
theorem inCycleBounds_observe (self : Scheduler) :
    InCycleBounds (self.observe : Scheduler × List (SchedulerOutput Value)).1 := by
  intro c control
  obtain ⟨unpaused, -, bound⟩ := (alert_observe self).collecting c control
  exact ⟨unpaused, bound⟩

/-- With the link down no cycle is started. -/
theorem remaining_observe (self : Scheduler) (down : self.link.value ≠ .connected) :
    (self.observe : Scheduler × List (SchedulerOutput Value)).1.remaining = 0 := by
  have settled : (self.observe : Scheduler × List (SchedulerOutput Value)).1.control = .returned ∨
      (self.observe : Scheduler × List (SchedulerOutput Value)).1.control = .select :=
    observe_of_dead down
  rcases settled with control | control
  · simp [remaining, control]
  · simp [remaining, control]

/-- A collector's result takes one entry off the cycle. -/
theorem collected_remaining (bounds : InCycleBounds self) {outcome : Collected Value}
    {next : Scheduler × List (SchedulerOutput Value)}
    (stepped : self.step (.collected outcome) = some next) :
    next.1.entries.length = self.entries.length ∧ InCycleBounds next.1 ∧
      next.1.link = self.link ∧ next.1.remaining + 1 ≤ self.remaining := by
  cases cases_of_step stepped with
  | collected c entry _ control found may =>
      obtain ⟨unpaused, bound⟩ := bounds c control
      obtain ⟨entry', control', after, kind⟩ := collected_spec unpaused c entry outcome
      have before : self.remaining = self.entries.length - c.index := by
        simp [remaining, control]
      rw [after, before]
      rcases kind with ⟨c', rfl, index, more⟩ | ⟨rfl, ended⟩
      · refine ⟨List.length_set, ?_, rfl, ?_⟩
        · intro c'' same
          obtain rfl : c' = c'' := by simpa using same
          exact ⟨unpaused, by simpa [index] using more⟩
        · simp only [remaining, List.length_set, index]
          omega
      · refine ⟨List.length_set, ?_, rfl, ?_⟩
        · intro c'' same
          cases same
        · simp only [remaining]
          omega

/-- The other steps of the loop: with the link down they start nothing. -/
theorem schedulerOnly_spec (bounds : InCycleBounds self) {label : SchedulerLabel Value}
    (own : Process.SchedulerOnly label = true) {next : Scheduler × List (SchedulerOutput Value)}
    (stepped : self.step label = some next) :
    next.1.entries.length = self.entries.length ∧ InCycleBounds next.1 ∧
      next.1.link.value = self.link.value ∧
      (self.link.value ≠ .connected → next.1.remaining ≤ self.remaining) := by
  cases cases_of_step stepped with
  | write state _ => cases own
  | senderDropped _ => cases own
  | advance duration => exact ⟨rfl, bounds, rfl, fun _ => Nat.le_refl _⟩
  | tick waits ready =>
      have frame : Observed self.tickFired
          (self.tickFired.observe : Scheduler × List (SchedulerOutput Value)).1 :=
        observe_frame _
      refine ⟨congrArg List.length frame.entries, inCycleBounds_observe _,
        (congrArg Watch.value frame.link).trans rfl, fun down => ?_⟩
      rw [remaining_observe self.tickFired down]
      exact Nat.zero_le _
  | changed control unseen =>
      have frame : Observed (self.wokenEarly self.link.markSeen)
          ((self.wokenEarly self.link.markSeen).observe :
            Scheduler × List (SchedulerOutput Value)).1 :=
        observe_frame _
      refine ⟨congrArg List.length frame.entries, inCycleBounds_observe _,
        (congrArg Watch.value frame.link).trans rfl, fun down => ?_⟩
      rw [remaining_observe (self.wokenEarly self.link.markSeen) down]
      exact Nat.zero_le _
  | closed control seen gone =>
      refine ⟨rfl, ?_, rfl, fun _ => Nat.zero_le _⟩
      intro c same
      cases same
  | collected c entry outcome control found may =>
      obtain ⟨entries, bounds, link, remaining⟩ := collected_remaining bounds stepped
      exact ⟨entries, bounds, congrArg Watch.value link, fun _ => Nat.le_of_succ_le remaining⟩

end Scheduler

namespace Process

variable {Memory Value : Type}

/-! ### A clean session -/

/-- What is held with the connection down: the rest of the cycle in progress may still
add a queue's worth for each entry. -/
structure Down (capacity inflight entries : Nat) (s : Process Memory) : Prop where
  link : s.driver.state.value ≠ .connected
  budget : s.held + s.scheduler.remaining * capacity ≤ inflight + (entries + 1) * capacity

/-- What holds throughout with a clean session: the queue and the in-flight window keep to
their limits, nothing is to be sent again over a live connection, and without one there is a
bound on what is. -/
structure Within (capacity inflight entries : Nat) (s : Process Memory) : Prop where
  clean : s.options.cleanSession = true
  limit : s.options.inflight.toNat = inflight
  queue : s.driver.queue.capacity = capacity
  sent : s.inflight.length ≤ inflight
  collectors : s.scheduler.entries.length = entries
  cycle : s.scheduler.InCycleBounds
  link : s.scheduler.link = s.driver.state
  up : s.network = true → s.pending = []
  down : s.network = false → Down capacity inflight entries s

section Within

variable {eventLoop : EventLoop Memory} {client : AsyncClient}
  {rootCause : ConnectionError → String} {codecs : Codecs Value}
  {capacity inflight entries : Nat} {s t : Process Memory}

/-- The queue never holds more than its capacity. -/
theorem queued_le (within : Within capacity inflight entries s) :
    s.driver.queue.items.length ≤ capacity :=
  within.queue ▸ s.driver.queue.bounded

/-- Everything held is bounded by the in-flight window and, for each collector and the
status, a queue's worth. -/
theorem held_le (within : Within capacity inflight entries s) :
    s.held ≤ inflight + (entries + 1) * capacity := by
  cases network : s.network with
  | true =>
      have queued := queued_le within
      have sent := within.sent
      have total : (entries + 1) * capacity = entries * capacity + capacity := Nat.succ_mul _ _
      unfold held
      rw [within.up network, List.length_nil]
      omega
  | false =>
      have budget := (within.down network).budget
      omega

/-- While the connection lasts, the cycle in progress has its budget as well. -/
theorem budget_le (within : Within capacity inflight entries s) :
    s.held + s.scheduler.remaining * capacity ≤ inflight + (entries + 1) * capacity := by
  cases network : s.network with
  | true =>
      have queued := queued_le within
      have sent := within.sent
      have cycle : s.scheduler.remaining * capacity ≤ entries * capacity :=
        Nat.mul_le_mul_right _ (within.collectors ▸ s.scheduler.remaining_le)
      have total : (entries + 1) * capacity = entries * capacity + capacity := Nat.succ_mul _ _
      unfold held
      rw [within.up network, List.length_nil]
      omega
  | false => exact (within.down network).budget

/-- What the event loop holds and what is in the channel, counted. -/
theorem held_eq (s : Process Memory) :
    s.held = (s.toBacklog.requests s.driver.queue.items).length := by
  unfold held Backlog.requests
  rw [List.length_append, List.length_append]
  omega

/-- A step of the event loop that makes up no request leaves no more than there was. -/
theorem down_of_fewer {driver : Driver} {left : Backlog Memory}
    (link : driver.state.value ≠ .connected)
    (fewer : (left.requests driver.queue.items).Subperm
      (s.toBacklog.requests s.driver.queue.items))
    (budget : s.held + s.scheduler.remaining * capacity ≤ inflight + (entries + 1) * capacity) :
    Down capacity inflight entries { s.withDriver driver with toBacklog := left } := by
  refine ⟨link, Nat.le_trans ?_ budget⟩
  rw [held_eq, held_eq]
  exact Nat.add_le_add_right fewer.length_le _

/-- A driver that queues nothing changes nothing. -/
theorem down_of_driver (down : Down capacity inflight entries s) {driver : Driver}
    (lost : driver.state.value ≠ .connected)
    (same : driver.queue.items = s.driver.queue.items) :
    Down capacity inflight entries (s.withDriver driver) := by
  refine ⟨lost, ?_⟩
  have held : (s.withDriver driver).held = s.held := by
    unfold Process.held withDriver
    rw [same]
  rw [held]
  exact down.budget

/-- Nor does a scheduler that starts nothing. -/
theorem down_of_scheduler (down : Down capacity inflight entries s) {scheduler : Scheduler}
    (lost : scheduler.link.value ≠ .connected)
    (less : scheduler.remaining ≤ s.scheduler.remaining) :
    Down capacity inflight entries (s.withScheduler scheduler) := by
  refine ⟨lost, Nat.le_trans ?_ down.budget⟩
  exact Nat.add_le_add_left (Nat.mul_le_mul_right capacity less) _

/-- A sample published with the connection down is paid for by its entry. -/
theorem down_of_sampled (down : Down capacity inflight entries s) {scheduler : Scheduler}
    {publisher : Publisher} {queue : RequestChannel} (same : queue.capacity = capacity)
    (link : scheduler.link.value ≠ .connected)
    (paid : scheduler.remaining + 1 ≤ s.scheduler.remaining) :
    Down capacity inflight entries
      { s.withScheduler scheduler with
        publisher
        driver := { s.driver with state := scheduler.link, queue } } := by
  have queued : queue.items.length ≤ capacity := same ▸ queue.bounded
  have budget := down.budget
  have cost : (scheduler.remaining + 1) * capacity ≤ s.scheduler.remaining * capacity :=
    Nat.mul_le_mul_right _ paid
  refine ⟨link, ?_⟩
  change queue.items.length + s.pending.length + s.inflight.length +
    scheduler.remaining * capacity ≤ _
  unfold held at budget
  rw [Nat.succ_mul] at cost
  omega

/-- Every step keeps what holds with a clean session. -/
theorem within_step {label : ProcessLabel Value} (within : Within capacity inflight entries s)
    (stepped : s.step eventLoop client rootCause codecs label = some t) :
    Within capacity inflight entries t := by
  obtain ⟨clean, limit, sameCapacity, sent, sameEntries, cycle, link, up, down⟩ := within
  have within : Within capacity inflight entries s :=
    ⟨clean, limit, sameCapacity, sent, sameEntries, cycle, link, up, down⟩
  have kept : ∀ {label : DriverLabel} {driver : Driver} {out : List DriverOutput},
      s.driver.step client rootCause label = some (driver, out) →
      driver.queue.capacity = capacity :=
    fun reacted => (Driver.sameSetup_step reacted).capacity.trans sameCapacity
  cases cases_of_step stepped with
  | @connAck present driver out _ fresh reacted =>
      have no_session : present = false := by
        by_contra present
        rw [Bool.not_eq_false] at present
        rw [fresh present] at clean
        cases clean
      subst no_session
      refine ⟨clean, limit, kept reacted, ?_, sameEntries, cycle, rfl, fun _ => ?_, fun off => ?_⟩
      · exact (congrArg List.length (eventLoop.connAck_inflight _ _)).trans_le sent
      · exact eventLoop.connAck_pending s.toBacklog false
      · cases (eventLoop.connAck_network s.toBacklog false).symm.trans off
  | @failed e driver out reacted =>
      obtain ⟨lost, items⟩ := failed_spec reacted
      have sent' := (eventLoop.failed_inflight s.toBacklog s.driver.queue.items e).length_le
      refine ⟨clean, limit, kept reacted, sent'.trans sent, sameEntries, cycle, rfl,
        fun on => ?_, fun _ => down_of_fewer lost ?_ (budget_le within)⟩
      · cases (eventLoop.failed_network s.toBacklog s.driver.queue.items e).symm.trans on
      · rw [items]
        exact eventLoop.failed_requests _ _ _
  | @transmitted r taken left driver out sends reacted =>
      have sent' : left.inflight.length ≤ inflight := by
        rw [← limit] at sent ⊢
        exact sends.window sent
      refine ⟨clean, limit, kept reacted, sent', sameEntries, cycle, rfl, fun _ => ?_,
        fun off => (nomatch sends.network.2.symm.trans off)⟩
      rcases sends.oldest with ⟨pending, -⟩ | ⟨-, none_left, -⟩
      · rw [up sends.network.1] at pending
        cases pending
      · exact none_left
  | @event event index driver out other reacted =>
      have network := eventLoop.reported_network s.toBacklog event index
      have sent' := (eventLoop.reported_inflight s.toBacklog event index).length_le
      refine ⟨clean, limit, kept reacted, sent'.trans sent, sameEntries, cycle, rfl,
        fun on => (eventLoop.reported_pending _ _ _).trans (up (network.symm.trans on)),
        fun off => ?_⟩
      have off := down (network.symm.trans off)
      obtain ⟨lost, items⟩ := event_spec off.link other reacted
      refine down_of_fewer lost ?_ off.budget
      rw [items]
      exact eventLoop.reported_requests _ _ _ _
  | driver own reacted =>
      refine ⟨clean, limit, kept reacted, sent, sameEntries, cycle, rfl, up, fun off => ?_⟩
      obtain ⟨lost, items⟩ := driverOnly_spec (down off).link own reacted
      exact down_of_driver (down off) lost items
  | @sampled value entry published scheduler out called moved =>
      obtain ⟨entries', cycle', link', paid⟩ := Scheduler.collected_remaining cycle moved
      have capacity' : published.queue.capacity = capacity := by
        rw [called, Publisher.capacity_publish]
        exact sameCapacity
      refine ⟨clean, limit, capacity', sent, entries'.trans sameEntries, cycle', rfl, up,
        fun off => down_of_sampled (down off) capacity' ?_ paid⟩
      rw [show scheduler.link = s.scheduler.link from link', link]
      exact (down off).link
  | scheduler own moved =>
      obtain ⟨entries', cycle', link', less⟩ := Scheduler.schedulerOnly_spec cycle own moved
      refine ⟨clean, limit, sameCapacity, sent, entries'.trans sameEntries, cycle', rfl, up,
        fun off => ?_⟩
      have lost : s.scheduler.link.value ≠ .connected := link ▸ (down off).link
      exact down_of_scheduler (down off) (fun connected => lost (link'.symm.trans connected))
        (less lost)

end Within

/-- At the start nothing is held. -/
theorem within_start {eventLoop : EventLoop Memory} {client : AsyncClient}
    {rootCause : ConnectionError → String} {codecs : Codecs Value} {config : Config}
    (clean : config.transport.cleanSession = true) {s : Process Memory}
    (started : (system eventLoop client rootCause codecs config).start s) :
    Within config.transport.requestChannelCapacity.toNat config.transport.maxInflight.toNat
      config.metrics.enabled.length s := by
  obtain ⟨isFile, readFile, seed, pos, now, connected, scheduler, -, backlog⟩ := started
  obtain ⟨-, built, driver⟩ := Driver.connect_eq_ok connected
  obtain ⟨session, limit⟩ := Driver.session_of_buildOptions built
  have sent : s.inflight = [] := congrArg Backlog.inflight backlog
  have pending : s.pending = [] := congrArg Backlog.pending backlog
  refine ⟨session.trans clean, congrArg UInt16.toNat limit, ?_, ?_, ?_, ?_, ?_, ?_, ?_⟩
  · rw [driver]
    rfl
  · rw [sent]
    exact Nat.zero_le _
  · rw [scheduler]
    simp [Scheduler.new]
  · rw [scheduler]
    intro c control
    cases control
  · rw [scheduler]
    rfl
  · intro _
    exact pending
  · intro _
    refine ⟨?_, ?_⟩
    · rw [driver]
      intro connected
      cases connected
    · rw [held, sent, pending, driver, scheduler]
      simp [Channel.empty, Scheduler.remaining, Scheduler.new]

/-! ### A session that outlives the connection -/

/-- Between two connections, with `n` requests to be sent again. -/
structure Flapped (n : Nat) (s : Process Memory) : Prop where
  session : s.options.cleanSession = false
  network : s.network = false
  sent : s.inflight = []
  pending : s.pending.length = n
  topic : validTopic s.driver.statusTopic = true
  polling : s.driver.control = .polling
  waiting : s.driver.shutdown = .waiting
  alive : s.driver.queue.receiverAlive = true
  empty : s.driver.queue.items = []
  capacity : 0 < s.driver.queue.capacity

section Flapped

variable {eventLoop : EventLoop Memory} {client : AsyncClient}
  {rootCause : ConnectionError → String} {codecs : Codecs Value} {config : Config} {n : Nat}
  {s : Process Memory}

/-- The driver connects, fails before anything is sent, and waits: the `online` it
queued is left in the replay list. -/
theorem flap (reachable : (system eventLoop client rootCause codecs config).Reachable s)
    (flapped : Flapped n s) :
    ∃ t, (system eventLoop client rootCause codecs config).Reachable t ∧ Flapped (n + 1) t := by
  obtain ⟨session, network, sent, pending, topic, polling, waiting, alive, empty, capacity⟩ :=
    flapped
  let online := Driver.online s.driver.statusTopic
  -- The CONNACK queues `online`.
  let up : Driver := { s.driver.take 0 with
    backoff := s.driver.backoff.reset
    state := s.driver.state.setState .connected
    queue := (s.driver.queue.drop 0).offer online }
  have connects : s.driver.step client rootCause (.poll 0 (.ok (.connAck .success true))) =
      some (up, _) :=
    (Driver.step_poll polling waiting 0 _).trans
      (congrArg some (Driver.handle_success_spec client rootCause (s.driver.take 0) true topic))
  let live := eventLoop.connAck s.toBacklog true
  let connected : Process Memory := { s.withDriver up with toBacklog := live }
  have first : (system eventLoop client rootCause codecs config).step s (.connAck true) =
      some (connected, []) := by
    have fresh : s.network = false ∧ SessionPresented s.options true := ⟨network, fun _ => session⟩
    simp only [system, step, if_pos fresh, polled]
    rw [connects]
    rfl
  obtain ⟨items, -, alive'⟩ := Channel.offer_spec (s.driver.queue.drop 0) online
  have room : (s.driver.queue.drop 0).room = s.driver.queue.capacity := by
    simp [Channel.room, Channel.drop, Channel.free, alive, empty]
  have queued : up.queue.items = [online] := by
    have untouched : (s.driver.queue.drop 0).items = [] := by simp [Channel.drop, empty]
    rw [room, untouched, List.take_of_length_le (Nat.succ_le_of_lt capacity)] at items
    exact items
  -- The connection is lost before it is sent.
  obtain ⟨taken, none_sent, moved⟩ := eventLoop.failed_connection live up.queue.items
    .networkTimeout (eventLoop.connAck_network _ _)
  let left := (eventLoop.failed live up.queue.items .networkTimeout).2
  let lost : Driver := { up.take up.queue.items.length with
    backoff := up.backoff.nextDelay.2
    state := (up.state.setState (.disconnected (rootCause .networkTimeout))).setState
      (.reconnecting up.backoff.nextDelay.1)
    control := .sleeping up.backoff.nextDelay.1 }
  have up_polling : up.control = .polling := polling
  have fails : up.step client rootCause
      (.poll up.queue.items.length (.error .networkTimeout)) = some (lost, _) :=
    (Driver.step_poll up_polling waiting _ _).trans
      (congrArg some (Driver.handle_recoverable (up.take up.queue.items.length) rfl))
  let asleep : Process Memory := { connected.withDriver lost with toBacklog := left }
  have second : (system eventLoop client rootCause codecs config).step connected
      (.failed .networkTimeout) = some (asleep, []) := by
    simp only [system, step, polled]
    rw [show connected.driver = up from rfl, show connected.toBacklog = live from rfl, taken, fails]
    rfl
  -- The wait is over.
  have wakes : lost.step client rootCause .woken = some ({ lost with control := .polling }, []) :=
    Driver.step_woken rfl waiting
  let awake : Process Memory := asleep.withDriver { lost with control := .polling }
  have third : (system eventLoop client rootCause codecs config).step asleep (.driver .woken) =
      some (awake, []) := by
    simp only [system, step, DriverOnly, if_true]
    rw [show asleep.driver = lost from rfl, wakes]
    rfl
  refine ⟨awake, ((reachable.step first).step second).step third, ?_⟩
  refine ⟨session, eventLoop.failed_network _ _ _, none_sent, ?_, topic, rfl, waiting,
    alive'.trans alive, ?_, ?_⟩
  · have all : left.pending.length = (live.pending ++ live.inflight ++ up.queue.items).length :=
      moved.length_eq
    have again : live.pending = s.pending := eventLoop.connAck_pending s.toBacklog true
    have unsent : live.inflight = [] := (eventLoop.connAck_inflight s.toBacklog true).trans sent
    change left.pending.length = n + 1
    rw [all, again, unsent, queued, List.append_nil, List.length_append, pending,
      List.length_singleton]
  · change up.queue.items.drop up.queue.items.length = []
    exact List.drop_length
  · change 0 < up.queue.capacity
    have kept : up.queue.capacity = s.driver.queue.capacity :=
      (Driver.sameSetup_step connects).capacity
    rw [kept]
    exact capacity

/-- An accepted configuration starts a process, so the runs spoken of exist. -/
theorem exists_start (eventLoop : EventLoop Memory) (client : AsyncClient)
    (rootCause : ConnectionError → String) (codecs : Codecs Value) {env : Environment}
    (accepted : config.validate env = .ok ()) :
    ∃ s : Process Memory, (system eventLoop client rootCause codecs config).start s := by
  have valid : config.transport.validate env.isFile = .ok () := by
    simp only [Config.validate, bind_unit_eq_ok_iff, mapError_eq_ok_iff] at accepted
    exact accepted.2.2.2.1
  obtain ⟨options, driver, connected⟩ := Driver.connect_of_readable valid 1
  have pos : 0 < period config := by
    have interval := (Config.accepted_of_validate accepted).interval
    have positive : 0 < config.metrics.collectionInterval.toNat := by
      refine Nat.pos_of_ne_zero fun zero => interval (UInt64.toNat_inj.mp zero)
    unfold period
    omega
  let scheduler := Scheduler.new
    (config.metrics.enabled.map fun entry => (entry.name, entry.metadata)) driver.state
    (Interval.start (period config) pos 0) 0
  exact ⟨⟨⟨false, [], [], eventLoop.new options⟩, options, scheduler,
    Publisher.new config.transport, driver⟩, env.isFile, _, 1, pos, 0, connected, rfl, rfl, rfl⟩

/-- At the start nothing has flapped. -/
theorem flapped_start (unclean : config.transport.cleanSession = false)
    (started : (system eventLoop client rootCause codecs config).start s) : Flapped 0 s := by
  obtain ⟨isFile, readFile, seed, pos, now, connected, -, -, backlog⟩ := started
  obtain ⟨valid, built, driver⟩ := Driver.connect_eq_ok connected
  have accepted := Transport.Config.accepted_of_validate valid
  have topic := Driver.validTopic_of_connect connected
  refine ⟨(Driver.session_of_buildOptions built).1.trans unclean, congrArg Backlog.network backlog,
    congrArg Backlog.inflight backlog, ?_, topic, ?_, ?_, ?_, ?_, ?_⟩
  · rw [congrArg Backlog.pending backlog]
    rfl
  · rw [driver]
  · rw [driver]
  · rw [driver]
    rfl
  · rw [driver]
    rfl
  · rw [driver]
    exact accepted.capacity_pos

/-- After any number of drops the process holds that many requests. -/
theorem flapping (eventLoop : EventLoop Memory) (client : AsyncClient)
    (rootCause : ConnectionError → String) (codecs : Codecs Value) {env : Environment}
    (accepted : config.validate env = .ok ()) (unclean : config.transport.cleanSession = false)
    (n : Nat) :
    ∃ s, (system eventLoop client rootCause codecs config).Reachable s ∧ Flapped n s := by
  induction n with
  | zero =>
      obtain ⟨s, started⟩ := exists_start eventLoop client rootCause codecs accepted
      exact ⟨s, .start started, flapped_start unclean started⟩
  | succ n ih =>
      obtain ⟨s, reachable, flapped⟩ := ih
      exact flap reachable flapped

/-- Each flap has left a request behind. -/
theorem le_held_of_flapped (flapped : Flapped n s) : n ≤ s.held := by
  unfold held
  rw [flapped.pending]
  omega

end Flapped

/-! ### The exact condition -/

/-- For an accepted configuration, what the process holds is bounded over all its runs
exactly when the session is clean. Then the bound is a matter of the in-flight window,
the capacity of the queue and the number of collectors. -/
theorem held_bounded_iff (eventLoop : EventLoop Memory) (client : AsyncClient)
    (rootCause : ConnectionError → String) (codecs : Codecs Value) {config : Config}
    {env : Environment} (accepted : config.validate env = .ok ()) :
    ((∃ bound, ∀ s, (system eventLoop client rootCause codecs config).Reachable s →
        s.held ≤ bound) ↔ config.transport.cleanSession = true) ∧
    (config.transport.cleanSession = true →
      ∀ s, (system eventLoop client rootCause codecs config).Reachable s →
        s.held ≤ config.transport.maxInflight.toNat +
          (config.metrics.enabled.length + 1) * config.transport.requestChannelCapacity.toNat) := by
  have bounded : config.transport.cleanSession = true →
      ∀ s, (system eventLoop client rootCause codecs config).Reachable s →
        s.held ≤ config.transport.maxInflight.toNat +
          (config.metrics.enabled.length + 1) * config.transport.requestChannelCapacity.toNat := by
    intro clean s reachable
    refine held_le (reachable.invariant (I := Within
      config.transport.requestChannelCapacity.toNat config.transport.maxInflight.toNat
      config.metrics.enabled.length) (fun s started => by exact within_start clean started) ?_)
    intro s label t out within stepped
    obtain ⟨t', stepped', same⟩ := Option.map_eq_some_iff.mp stepped
    obtain ⟨rfl, -⟩ := Prod.mk.inj same
    exact within_step within stepped'
  refine ⟨⟨?_, fun clean => ⟨_, bounded clean⟩⟩, bounded⟩
  rintro ⟨bound, all⟩
  by_contra unclean
  rw [Bool.not_eq_true] at unclean
  obtain ⟨s, reachable, flapped⟩ :=
    flapping eventLoop client rootCause codecs accepted unclean (bound + 1)
  have more := le_held_of_flapped flapped
  have less := all s reachable
  omega

/-- One collector and all defaults: no bound holds. -/
theorem oneCollector_unbounded :
    (oneCollector "blazebee" "metrics/cpu").validate fullEnvironment = .ok () ∧
      ¬ ∃ bound, ∀ s, (system .documented .documented (fun _ => "timeout") letterCodecs
        (oneCollector "blazebee" "metrics/cpu")).Reachable s → s.held ≤ bound := by
  have accepted : (oneCollector "blazebee" "metrics/cpu").validate fullEnvironment = .ok () := rfl
  refine ⟨accepted, ?_⟩
  rintro ⟨bound, all⟩
  obtain ⟨s, reachable, flapped⟩ :=
    flapping .documented .documented (fun _ => "timeout") letterCodecs accepted rfl (bound + 1)
  have more := le_held_of_flapped flapped
  have less := all s reachable
  omega

/-- The same collector with a clean session, and the default window and capacity. -/
def cleanCollector : Config :=
  { oneCollector "blazebee" "metrics/cpu" with
    transport := { clientId := "agent", cleanSession := true } }

/-- With clean sessions, a queue of 64 slots and 10 packets in flight, an agent with one
collector never holds more than 138 requests. -/
theorem held_bounded_iff_clean :
    cleanCollector.validate fullEnvironment = .ok () ∧
      ∀ s, (system .documented .documented (fun _ => "timeout") letterCodecs
        cleanCollector).Reachable s → s.held ≤ 138 := by
  have accepted : cleanCollector.validate fullEnvironment = .ok () := rfl
  exact ⟨accepted,
    (held_bounded_iff .documented .documented (fun _ => "timeout") letterCodecs accepted).2 rfl⟩

end Process

end BlazeBee.Agent
