import BlazeBee.Agent.Isolation
import BlazeBee.Agent.Replay
import BlazeBee.Transport.PacketSize

/-!
The requests of a process, from the call that queues them to the broker.

`Moves` says once what every step does to the requests held and to what decides about
them: the two requests of the farewell and the `online` of a CONNACK are the driver's,
everything else is a sample's, and the event loop, whatever it is, only moves requests on
or gives them up.

* `moves_of_step`: every step of a process whose driver has a topic that the client
  takes is one of these moves.
* `requests_known`: whatever is held, in any reachable state, has one of these origins, and
  DISCONNECT is held only after the main loop.
-/

namespace BlazeBee.Transport.Driver

open BlazeBee.Lib BlazeBee.Lib.Mqtt BlazeBee.Rumqttc

variable {client : AsyncClient} {rootCause : ConnectionError → String} {self : Driver}
  {next : Driver × List DriverOutput}

/-- The driver has not left its main loop. -/
def Looping (self : Driver) : Prop :=
  self.control = .polling ∨ ∃ delay, self.control = .sleeping delay

/-- A driver that waits for the flush has left its main loop. -/
theorem not_looping_of_flushing (flushing : self.control = .flushing) : ¬ self.Looping := by
  rintro (polling | ⟨delay, asleep⟩)
  · cases flushing.symm.trans polling
  · cases flushing.symm.trans asleep

/-- A driver that has returned has left its main loop. -/
theorem not_looping_of_returned {result : Except TransferError Unit}
    (returned : self.control = .returned result) : ¬ self.Looping := by
  rintro (polling | ⟨delay, asleep⟩)
  · cases returned.symm.trans polling
  · cases returned.symm.trans asleep

/-- The driver may leave the main loop, the flush and a connection, but enters none. -/
structure Onward (s t : Driver) : Prop where
  looping : t.Looping → s.Looping
  asleep : ∀ delay, t.control = .sleeping delay → s.control = .sleeping delay
  flushing : t.control = .flushing → s.control = .flushing
  connected : t.state.value = .connected → s.state.value = .connected

/-- Staying where it is, the driver goes onward. -/
theorem onward_of_same {t : Driver} (control : t.control = self.control)
    (state : t.state.value = self.state.value) : Onward self t where
  looping looping := by
    unfold Looping at looping ⊢
    rwa [← control]
  asleep _ asleep := control.symm.trans asleep
  flushing flushing := control.symm.trans flushing
  connected connected := state.symm.trans connected

/-- A driver that has returned does nothing any more. -/
theorem onward_of_returned {t : Driver} {result : Except TransferError Unit}
    (returned : t.control = .returned result)
    (state : t.state.value = .connected → self.state.value = .connected) : Onward self t where
  looping looping := absurd looping (not_looping_of_returned returned)
  asleep _ asleep := by cases returned.symm.trans asleep
  flushing flushing := by cases returned.symm.trans flushing
  connected := state

/-- A driver that closes has nothing before it. -/
theorem onward_closed (s t : Driver) : Onward s t.closed := by
  refine onward_of_returned rfl ?_
  intro connected
  exact absurd connected (Agent.Process.closed_spec t).1

/-- The driver is woken for the next attempt. -/
theorem onward_woken {delay : ℚ} (asleep : self.control = .sleeping delay) :
    Onward self { self with control := .polling } where
  looping _ := Or.inr ⟨delay, asleep⟩
  asleep _ still := by cases still
  flushing flushing := by cases flushing
  connected connected := connected

/-- A poll without an error and without a success moves nothing but what was taken. -/
theorem step_other {taken : Nat} {event : Event}
    (other : ∀ present, event ≠ .connAck .success present)
    (stepped : self.step client rootCause (.poll taken (.ok event)) = some next) :
    next.1.queue.items = self.queue.items.drop taken ∧ Onward self next.1 ∧
      (next.1.control = .polling → self.control = .polling) := by
  cases cases_of_step stepped with
  | poll _ _ control waiting =>
      rw [handle_other _ other]
      exact ⟨rfl, onward_of_same rfl rfl, fun polling => polling⟩
  | flush _ _ control =>
      unfold flush
      split
      · exact ⟨rfl, onward_closed _ _, fun polling => nomatch polling⟩
      · exact ⟨rfl, onward_of_same rfl rfl, fun polling => polling⟩
      · exact ⟨rfl, onward_closed _ _, fun polling => nomatch polling⟩

/-- A CONNACK is answered with `online` in the main loop, and ignored in the flush. -/
theorem step_connAck (valid : validTopic self.statusTopic = true) {present : Bool}
    (stepped : self.step client rootCause (.poll 0 (.ok (.connAck .success present))) =
      some next) :
    self.control = .polling ∧ self.shutdown = .waiting ∧ next.1.control = .polling ∧
        next.1.queue = self.queue.offer (online self.statusTopic) ∨
      self.control = .flushing ∧ next.1.control = .flushing ∧
        next.1.queue.items = self.queue.items := by
  cases cases_of_step stepped with
  | poll _ _ control waiting =>
      rw [handle_success_spec client rootCause (self.take 0) present valid]
      refine Or.inl ⟨control, waiting, control, ?_⟩
      simp only [take, Channel.drop_zero]
  | flush _ _ control => exact Or.inr ⟨control, control, rfl⟩

/-- An error ends every wait for the network. -/
theorem step_failed {taken : Nat} {e : ConnectionError}
    (stepped : self.step client rootCause (.poll taken (.error e)) = some next) :
    next.1.queue.items = self.queue.items.drop taken ∧ next.1.state.value ≠ .connected ∧
      next.1.control ≠ .flushing ∧ next.1.control ≠ .polling ∧
      (next.1.Looping → self.Looping) := by
  obtain ⟨lost, items⟩ := Agent.Process.failed_spec stepped
  refine ⟨items, lost, ?_⟩
  cases cases_of_step stepped with
  | poll _ _ control waiting =>
      cases fatal : isFatal e with
      | true =>
          rw [handle_fatal _ fatal]
          exact ⟨by simp [finish], by simp [finish], fun _ => Or.inl control⟩
      | false =>
          rw [handle_recoverable _ fatal]
          exact ⟨by simp, by simp, fun _ => Or.inl control⟩
  | flush _ _ control =>
      have onward : Onward self (self.take taken).closed := onward_closed _ _
      exact ⟨by simp [flush, closed, finish], by simp [flush, closed, finish], onward.looping⟩

/-- On its own the driver queues the farewell of a live connection, and nothing else. -/
theorem step_driverOnly (valid : validTopic self.statusTopic = true) {label : DriverLabel}
    (own : Agent.Process.DriverOnly label = true)
    (stepped : self.step client rootCause label = some next) :
    (self.control = .polling ∧ self.state.value = .connected ∧ next.1.control = .flushing ∧
        next.1.queue.items = self.queue.items ++
          [offline self.statusTopic, .disconnect].take self.queue.room) ∨
      (next.1.queue.items = self.queue.items ∧ Onward self next.1 ∧
        (next.1.control = .polling → self.Looping)) := by
  cases cases_of_step stepped with
  | signal _ _ => exact Or.inr ⟨rfl, onward_of_same rfl rfl, Or.inl⟩
  | otherPublish queue _ => cases own
  | poll taken outcome _ _ => cases own
  | flush taken outcome _ => cases own
  | shutdown between control _ =>
      cases connected : self.state.value.isConnected with
      | false =>
          rw [disconnect_unconnected client between connected]
          exact Or.inr ⟨rfl, onward_closed self self, fun polling => nomatch polling⟩
      | true =>
          obtain rfl : between = [] := List.isEmpty_iff.mp own
          have connected := ConnectionState.eq_connected connected
          rw [disconnect_spec client self [] valid connected]
          refine Or.inl ⟨control, connected, rfl, ?_⟩
          exact (Channel.offerAll_spec self.queue [offline self.statusTopic, .disconnect]).1
  | shutdownAsleep between control _ =>
      exact Or.inr ⟨rfl, onward_of_returned rfl id, fun polling => nomatch polling⟩
  | woken control _ =>
      exact Or.inr ⟨rfl, onward_woken control, fun _ => Or.inr ⟨_, control⟩⟩
  | graceOver _ => exact Or.inr ⟨rfl, onward_closed self self, fun polling => nomatch polling⟩

end BlazeBee.Transport.Driver

namespace BlazeBee.Agent

open BlazeBee.Lib BlazeBee.Transport BlazeBee.Rumqttc

namespace Scheduler

variable {Value : Type} {self : Scheduler}

/-- What every step but a write of the driver leaves alone. -/
structure SameEndpoints (s t : Scheduler) : Prop where
  metadata : t.entries.map (·.metadata) = s.entries.map (·.metadata)
  period : t.ticker.period = s.ticker.period
  link : t.link.value = s.link.value
  alive : t.link.senderAlive = s.link.senderAlive

/-- The result of a collector changes no endpoint. -/
theorem sameEndpoints_collected {c : InCycle} {entry : Entry}
    (found : self.entries[c.index]? = some entry) (outcome : Collected Value) :
    SameEndpoints self (self.collected c entry outcome).1 := by
  let finished : Entry × Option Nat × List (SchedulerOutput Value) :=
    finishEntry c.index entry (runEntry c.index entry outcome).1
  let updated : Scheduler := { self with entries := self.entries.set c.index finished.1 }
  have entries : updated.entries = self.entries.set c.index (resolved entry outcome) :=
    congrArg (self.entries.set c.index) (finishEntry_runEntry c.index entry outcome)
  have next : (self.collected c entry outcome).1 =
      (updated.nextEntry (c.count finished.2.1) : Scheduler × List (SchedulerOutput Value)).1 := rfl
  have link : (updated.nextEntry (c.count finished.2.1) :
      Scheduler × List (SchedulerOutput Value)).1.link = self.link := by
    unfold nextEntry completeCycle loopTop
    split_ifs <;> rfl
  have ticker : (updated.nextEntry (c.count finished.2.1) :
      Scheduler × List (SchedulerOutput Value)).1.ticker = self.ticker := by
    unfold nextEntry completeCycle loopTop
    split_ifs <;> rfl
  rw [next]
  refine ⟨?_, congrArg Interval.period ticker, congrArg Watch.value link,
    congrArg Watch.senderAlive link⟩
  rw [entries_nextEntry, entries]
  exact metadata_resolved found outcome

/-- No step of the scheduler alone changes an endpoint. -/
theorem sameEndpoints_step {label : SchedulerLabel Value}
    (own : Process.SchedulerOnly label = true) {next : Scheduler × List (SchedulerOutput Value)}
    (stepped : self.step label = some next) : SameEndpoints self next.1 := by
  cases cases_of_step stepped with
  | write state _ => cases own
  | senderDropped _ => cases own
  | advance duration => exact ⟨rfl, rfl, rfl, rfl⟩
  | tick waits ready =>
      have frame : Observed self.tickFired
          (self.tickFired.observe : Scheduler × List (SchedulerOutput Value)).1 :=
        observe_frame _
      exact ⟨congrArg (List.map (·.metadata)) frame.entries,
        (congrArg Interval.period frame.ticker).trans rfl,
        (congrArg Watch.value frame.link).trans rfl,
        (congrArg Watch.senderAlive frame.link).trans rfl⟩
  | changed control unseen =>
      have frame : Observed (self.wokenEarly self.link.markSeen)
          ((self.wokenEarly self.link.markSeen).observe :
            Scheduler × List (SchedulerOutput Value)).1 :=
        observe_frame _
      exact ⟨congrArg (List.map (·.metadata)) frame.entries,
        (congrArg Interval.period frame.ticker).trans rfl,
        (congrArg Watch.value frame.link).trans rfl,
        (congrArg Watch.senderAlive frame.link).trans rfl⟩
  | closed control seen gone => exact ⟨rfl, rfl, rfl, rfl⟩
  | collected c entry outcome control found may => exact sameEndpoints_collected found outcome

end Scheduler

namespace Process

variable {Memory Value : Type} {eventLoop : EventLoop Memory} {client : AsyncClient}
  {rootCause : ConnectionError → String} {codecs : Codecs Value} {config : Config}
  {s t : Process Memory}

/-! ### What a step does to the requests -/

/-- What is still to be sent, in the order in which it will be. -/
def toSend (s : Process Memory) : List Request := s.pending ++ s.driver.queue.items

/-- Everything held. -/
def requests (s : Process Memory) : List Request := s.toBacklog.requests s.driver.queue.items

/-- A request that is held is in flight, pending or queued. -/
theorem mem_requests {r : Request} :
    r ∈ s.requests ↔ r ∈ s.inflight ∨ r ∈ s.pending ∨ r ∈ s.driver.queue.items := by
  simp only [requests, Backlog.requests, List.mem_append]

/-- What is to be sent is held. -/
theorem mem_requests_of_toSend {r : Request} (mem : r ∈ s.toSend) : r ∈ s.requests :=
  List.mem_append_right _ mem

/-- The status topic, the options and the publisher's settings never change; neither do
the collectors' endpoints and the interval. -/
structure SameIdentity (s t : Process Memory) : Prop where
  options : t.options = s.options
  statusTopic : t.driver.statusTopic = s.driver.statusTopic
  publisher : Publisher.SameSettings t.publisher s.publisher
  metadata : t.scheduler.entries.map (·.metadata) = s.scheduler.entries.map (·.metadata)
  period : t.scheduler.ticker.period = s.scheduler.ticker.period

/-- The steps that neither send nor queue a request, unless it is a farewell. -/
def Calm : ProcessLabel Value → Bool
  | .event _ _ | .driver _ | .scheduler _ => true
  | _ => false

/-- What a step does to the requests, and to what decides about them. -/
inductive Moves (codecs : Codecs Value) (s t : Process Memory) : ProcessLabel Value → Prop where
  /-- A new connection: without a session nothing is sent again, and `online` is offered. -/
  | connects {present : Bool} : s.network = false → t.network = true →
      s.driver.control = .polling → t.driver.control = .polling →
      s.driver.shutdown = .waiting → t.inflight = s.inflight →
      t.pending = (if present then s.pending else []) →
      t.driver.queue.items = s.driver.queue.items ++
        [Driver.online s.driver.statusTopic].take s.driver.queue.room →
      Moves codecs s t (.connAck present)
  /-- The flush takes no notice of one. -/
  | ignores {present : Bool} : s.network = false → t.network = true →
      s.driver.control = .flushing → t.driver.control = .flushing → t.inflight = s.inflight →
      t.pending = (if present then s.pending else []) →
      t.driver.queue.items = s.driver.queue.items → Moves codecs s t (.connAck present)
  /-- No more is held than before. -/
  | fails {e : ConnectionError} : t.network = false → t.driver.state.value ≠ .connected →
      t.driver.control ≠ .flushing → t.driver.control ≠ .polling →
      (t.driver.Looping → s.driver.Looping) → t.requests.Subperm s.requests →
      Moves codecs s t (.failed e)
  | sends {r : Request} : s.network = true → t.network = true → s.toSend = r :: t.toSend →
      t.requests.Subperm s.requests → s.driver.Onward t.driver →
      (t.driver.control = .polling → s.driver.control = .polling) →
      Moves codecs s t .transmitted
  /-- The farewell of a live connection. -/
  | farewell {label : DriverLabel} : t.network = s.network → s.driver.control = .polling →
      s.driver.state.value = .connected → t.driver.control = .flushing →
      t.inflight = s.inflight → t.pending = s.pending →
      t.driver.queue.items = s.driver.queue.items ++
        [Driver.offline s.driver.statusTopic, .disconnect].take s.driver.queue.room →
      Moves codecs s t (.driver label)
  /-- A sample of an entry: messages of its plan, from the first on. -/
  | samples {value : Value} {metadata : EndpointMetadata} {added : List Publish} :
      t.network = s.network → t.driver.control = s.driver.control →
      t.driver.state.value = s.driver.state.value → t.inflight = s.inflight →
      t.pending = s.pending → metadata ∈ s.scheduler.entries.map (·.metadata) →
      (added = [] ∨ ∃ p, s.publisher.plan codecs value metadata = .ok p ∧ added <+: p.messages) →
      t.driver.queue.items = s.driver.queue.items ++ added.map .publish →
      Moves codecs s t (.sampled value)
  /-- Any other step; an acknowledgement may end a wait. -/
  | quiet {label : ProcessLabel Value} : Calm label = true → t.network = s.network →
      t.pending = s.pending → t.driver.queue.items = s.driver.queue.items →
      t.inflight.Sublist s.inflight → s.driver.Onward t.driver →
      (t.driver.control = .polling → s.driver.Looping) → Moves codecs s t label

/-- A collector's result is published under the metadata of its entry, which keeps it. -/
theorem sampled_spec {value : Value}
    (stepped : s.step eventLoop client rootCause codecs (.sampled value) = some t) :
    ∃ entry scheduler out, entry ∈ s.scheduler.entries ∧
      Scheduler.SameEndpoints s.scheduler scheduler ∧
      let published := s.publisher.publish client codecs s.driver.queue value entry.metadata
      s.scheduler.step (.collected (.sample value published.result)) = some (scheduler, out) ∧
      t = { s.withScheduler scheduler with
        publisher := published.publisher
        driver := { s.driver with state := scheduler.link, queue := published.queue } } := by
  simp only [step] at stepped
  split at stepped
  · cases stepped
  · next entry awaited =>
      obtain ⟨⟨scheduler, out⟩, moved, rfl⟩ := Option.map_eq_some_iff.mp stepped
      have inside : ∃ c, s.scheduler.control = .collecting c ∧
          s.scheduler.entries[c.index]? = some entry := by
        unfold Scheduler.awaited at awaited
        split at awaited
        · next c control => exact ⟨c, control, awaited⟩
        · cases awaited
      obtain ⟨c, control, found⟩ := inside
      refine ⟨entry, scheduler, out, List.mem_of_getElem? found, ?_, moved, rfl⟩
      cases Scheduler.cases_of_step moved with
      | collected c' entry' _ _ found' _ =>
          exact Scheduler.sameEndpoints_collected found'
            (.sample value (s.publisher.publish client codecs s.driver.queue value
              entry.metadata).result)

/-- A step of the driver leaves everything of the process alone but what it shows. -/
theorem sameIdentity_withDriver {driver : Driver}
    (topic : driver.statusTopic = s.driver.statusTopic) : SameIdentity s (s.withDriver driver) :=
  ⟨rfl, topic, ⟨rfl, rfl, rfl, rfl⟩, rfl, rfl⟩

/-- No step changes who the process is. -/
theorem sameIdentity_step {label : ProcessLabel Value}
    (stepped : s.step eventLoop client rootCause codecs label = some t) : SameIdentity s t := by
  have driven : ∀ {l : DriverLabel} {driver : Driver} {out : List DriverOutput},
      s.driver.step client rootCause l = some (driver, out) →
      SameIdentity s (s.withDriver driver) :=
    fun reacted => sameIdentity_withDriver (Driver.sameSetup_step reacted).statusTopic
  cases cases_of_step stepped with
  | connAck _ _ reacted => exact { driven reacted with }
  | failed reacted => exact { driven reacted with }
  | transmitted _ reacted => exact { driven reacted with }
  | event _ reacted => exact { driven reacted with }
  | driver _ reacted => exact driven reacted
  | sampled called moved =>
      obtain ⟨entry, scheduler, -, -, same, -, made⟩ := sampled_spec stepped
      rw [made]
      exact ⟨rfl, rfl, Publisher.publish_publisher client codecs _ _ _ _, same.metadata,
        same.period⟩
  | scheduler own moved =>
      have same := Scheduler.sameEndpoints_step own moved
      exact ⟨rfl, rfl, ⟨rfl, rfl, rfl, rfl⟩, same.metadata, same.period⟩

/-- What a sample adds to the queue. -/
theorem publish_adds (client : AsyncClient) (codecs : Codecs Value) (publisher : Publisher)
    (queue : RequestChannel) (value : Value) (metadata : EndpointMetadata) :
    ∃ added : List Publish,
      (publisher.publish client codecs queue value metadata).queue.items =
        queue.items ++ added.map .publish ∧
      (added = [] ∨ ∃ p, publisher.plan codecs value metadata = .ok p ∧ added <+: p.messages) := by
  rcases Publisher.publish_queues client codecs publisher queue value metadata with
    unchanged | ⟨p, planned, items⟩
  · exact ⟨[], by simpa using unchanged, Or.inl rfl⟩
  · exact ⟨_, items, Or.inr ⟨p, planned, List.take_prefix _ _⟩⟩

/-- The driver and the scheduler share one link, after every step. -/
theorem shared_step {label : ProcessLabel Value}
    (stepped : s.step eventLoop client rootCause codecs label = some t) :
    t.scheduler.link = t.driver.state := by
  cases cases_of_step stepped <;> rfl

/-- Everything a step does to the requests. -/
theorem moves_of_step (valid : validTopic s.driver.statusTopic = true)
    (shared : s.scheduler.link = s.driver.state) {label : ProcessLabel Value}
    (stepped : s.step eventLoop client rootCause codecs label = some t) :
    Moves codecs s t label := by
  cases label with
  | connAck present =>
      cases cases_of_step stepped with
      | connAck fresh _ reacted =>
          have network := eventLoop.connAck_network s.toBacklog present
          have inflight := eventLoop.connAck_inflight s.toBacklog present
          have pending := eventLoop.connAck_pending s.toBacklog present
          rcases Driver.step_connAck valid reacted with
            ⟨polling, waiting, stays, queue⟩ | ⟨flushing, stays, items⟩
          · refine .connects fresh network polling stays waiting inflight pending ?_
            exact (congrArg Channel.items queue).trans (Channel.offer_spec _ _).1
          · exact .ignores fresh network flushing stays inflight pending items
  | failed e =>
      cases cases_of_step stepped with
      | failed reacted =>
          obtain ⟨items, lost, flushing, polling, looping⟩ := Driver.step_failed reacted
          refine .fails (eventLoop.failed_network _ _ _) lost flushing polling looping ?_
          have fewer := eventLoop.failed_requests s.toBacklog s.driver.queue.items e
          rwa [← items] at fewer
  | transmitted =>
      cases cases_of_step stepped with
      | @transmitted r taken left driver out sends reacted =>
          have other : ∀ present, Event.outgoing (outgoing r) ≠ .connAck .success present :=
            fun present same => nomatch same
          obtain ⟨items, onward, polling⟩ := Driver.step_other other reacted
          have oldest := sends.toSend
          have fewer := sends.requests
          rw [← items] at oldest fewer
          exact .sends sends.network.1 sends.network.2 oldest fewer onward polling
  | event event index =>
      cases cases_of_step stepped with
      | event other reacted =>
          obtain ⟨items, onward, polling⟩ := Driver.step_other other reacted
          exact .quiet rfl (eventLoop.reported_network _ _ _) (eventLoop.reported_pending _ _ _)
            items (eventLoop.reported_inflight _ _ _) onward fun back => Or.inl (polling back)
  | driver label =>
      cases cases_of_step stepped with
      | driver own reacted =>
          rcases Driver.step_driverOnly valid own reacted with
            ⟨polling, connected, flushing, items⟩ | ⟨items, onward, looping⟩
          · exact .farewell rfl polling connected flushing rfl rfl items
          · exact .quiet rfl rfl rfl items (List.Sublist.refl _) onward looping
  | sampled value =>
      obtain ⟨entry, scheduler, -, inside, same, -, made⟩ := sampled_spec stepped
      obtain ⟨added, items, planned⟩ := publish_adds client codecs s.publisher s.driver.queue value
        entry.metadata
      rw [made]
      exact .samples rfl rfl (same.link.trans (congrArg Watch.value shared)) rfl rfl
        (List.mem_map_of_mem inside) planned items
  | scheduler label =>
      cases cases_of_step stepped with
      | scheduler own moved =>
          have link := (Scheduler.sameEndpoints_step own moved).link
          exact .quiet rfl rfl rfl rfl (List.Sublist.refl _)
            (Driver.onward_of_same rfl (link.trans (congrArg Watch.value shared))) Or.inl

/-! ### What a configuration fixes -/

/-- The process runs under the settings of its configuration. -/
structure Configured (config : Config) (s : Process Memory) : Prop where
  accepted : config.transport.Accepted
  statusTopic : s.driver.statusTopic = config.statusTopic
  valid : validTopic s.driver.statusTopic = true
  will : s.options.lastWill =
    ⟨config.statusTopic, bytesOf statusOffline, .atLeastOnce, true⟩
  publisher : Publisher.SameSettings s.publisher (Publisher.new config.transport)
  metadata : s.scheduler.entries.map (·.metadata) = config.metrics.enabled.map (·.metadata)
  interval : s.scheduler.ticker.period = period config
  shared : s.scheduler.link = s.driver.state

/-- The process starts as the configuration has it. -/
theorem configured_start (started : (system eventLoop client rootCause codecs config).start s) :
    Configured config s := by
  obtain ⟨isFile, readFile, seed, pos, now, connected, scheduler, publisher, -⟩ := started
  obtain ⟨valid, built, -⟩ := Driver.connect_eq_ok connected
  refine ⟨Transport.Config.accepted_of_validate valid, (statusTopic_of_connect connected).2,
    Driver.validTopic_of_connect connected, Driver.lastWill_of_buildOptions built, ?_, ?_, ?_, ?_⟩
  · rw [publisher]
    exact ⟨rfl, rfl, rfl, rfl⟩
  · rw [scheduler]
    simp [Scheduler.new, Function.comp_def]
  · rw [scheduler]
    rfl
  · rw [scheduler]
    rfl

/-- Every step leaves the process as the configuration has it. -/
theorem configured_step (configured : Configured config s) {label : ProcessLabel Value}
    (stepped : s.step eventLoop client rootCause codecs label = some t) : Configured config t := by
  obtain ⟨options, topic, publisher, metadata, period⟩ := sameIdentity_step stepped
  exact {
    accepted := configured.accepted
    statusTopic := topic.trans configured.statusTopic
    valid := by rw [topic]; exact configured.valid
    will := by rw [options]; exact configured.will
    publisher := publisher.trans configured.publisher
    metadata := metadata.trans configured.metadata
    interval := period.trans configured.interval
    shared := shared_step stepped }

/-! ### Where the requests come from -/

/-- A message of some sample of the entry: the encoded value, or one of its frames, on
the entry's topic and within the largest packet. -/
structure SampleMessage (codecs : Codecs Value) (config : Config) (entry : CollectorConfig)
    (m : Publish) : Prop where
  topic : m.topic = config.topicOf entry
  retain : m.retain = entry.metadata.retain
  qos : qosOfU8 entry.metadata.qos = some m.qos
  size : m.size ≤ config.transport.maxPacketSize.toNat
  body : ∃ value hint payload,
    (Serializer.new config.transport.serialization).encode codecs value hint = .ok payload ∧
    if config.transport.framing.enabled then
      ∃ streamId limit bodies, frames payload
        (Serializer.new config.transport.serialization).format entry.metadata.qos streamId limit =
          .ok bodies ∧ m.payload ∈ bodies
    else m.payload = payload

/-- Where a request can come from: the driver's own three, and the frames or the payload of a
sample. -/
inductive Origin (codecs : Codecs Value) (config : Config) : Request → Prop where
  | online : Origin codecs config (Driver.online config.statusTopic)
  | offline : Origin codecs config (Driver.offline config.statusTopic)
  | disconnect : Origin codecs config .disconnect
  | sample {entry : CollectorConfig} {m : Publish} : entry ∈ config.metrics.enabled →
      SampleMessage codecs config entry m → Origin codecs config (.publish m)

/-- What the process holds is known: where it comes from, and when. -/
structure Known (codecs : Codecs Value) (config : Config) (s : Process Memory) : Prop where
  requests : ∀ r ∈ s.requests, Origin codecs config r
  disconnect : .disconnect ∈ s.requests → ¬ s.driver.Looping

/-- A message of a sample's plan is what the configuration makes of the sample. -/
theorem sampleMessage_of_plan (configured : Configured config s) {entry : CollectorConfig}
    {value : Value} {p : Publisher.Plan}
    (planned : s.publisher.plan codecs value entry.metadata = .ok p) {m : Publish}
    (mem : m ∈ p.messages) : SampleMessage codecs config entry m := by
  have planned := Publisher.planned_of_plan planned
  obtain ⟨baseTopic, serializer, framing, packets⟩ := configured.publisher
  obtain ⟨body, inside, rfl⟩ := List.mem_map.mp mem
  have limit : s.publisher.maxPacketSize ≤ 268435455 := by
    rw [packets]
    exact configured.accepted.packet_max
  refine ⟨?_, planned.retain, planned.qos, ?_, value, s.publisher.sizeHint, p.payload, ?_, ?_⟩
  · rw [planned.topic, baseTopic, Publisher.new, Config.topicOf]
  · have fits := (size_le_of_overhead (p := ⟨p.topic, p.qos, p.retain, body⟩) limit
      (planned.body_fits inside)).1
    rwa [packets] at fits
  · rw [← planned.payload, serializer]
    rfl
  · have mode : config.transport.framing.enabled = s.publisher.framing := framing.symm
    rw [mode]
    split_ifs with framed
    · have made := planned.framed framed
      rw [serializer] at made
      exact ⟨_, _, p.bodies, made, inside⟩
    · have made := (planned.unframed (Bool.eq_false_iff.mpr framed)).2
      rw [made] at inside
      exact List.mem_singleton.mp inside

/-- A request that is new in the queue comes from the driver or from a sample. -/
theorem origin_of_added (configured : Configured config s) {value : Value}
    {metadata : EndpointMetadata} {added : List Publish}
    (inside : metadata ∈ s.scheduler.entries.map (·.metadata))
    (planned : added = [] ∨
      ∃ p, s.publisher.plan codecs value metadata = .ok p ∧ added <+: p.messages)
    {r : Request} (mem : r ∈ added.map Request.publish) : Origin codecs config r := by
  rw [configured.metadata] at inside
  obtain ⟨entry, enabled, rfl⟩ := List.mem_map.mp inside
  obtain ⟨m, added_m, rfl⟩ := List.mem_map.mp mem
  rcases planned with rfl | ⟨p, planned, before⟩
  · cases added_m
  · exact .sample enabled (sampleMessage_of_plan configured planned (before.subset added_m))

/-- A move that only takes requests on, or gives them up. -/
theorem Known.mono (known : Known codecs config s) (requests : t.requests ⊆ s.requests)
    (looping : t.driver.Looping → s.driver.Looping) : Known codecs config t where
  requests r mem := known.requests r (requests mem)
  disconnect mem loops := known.disconnect (requests mem) (looping loops)

/-- What is pending after a CONNACK was pending before. -/
theorem mem_of_connAck {present : Bool} {r : Request}
    (pending : t.pending = if present then s.pending else []) (mem : r ∈ t.pending) :
    r ∈ s.pending := by
  rw [pending] at mem
  cases present with
  | true => exact mem
  | false => cases mem

/-- Every move keeps what is known: a request that is new in the queue has its origin. -/
theorem known_moves (configured : Configured config s) (known : Known codecs config s)
    {label : ProcessLabel Value} (moves : Moves codecs s t label) : Known codecs config t := by
  cases moves with
  | connects _ _ polling _ _ inflight pending items =>
      have kept : ∀ r ∈ t.requests,
          r ∈ s.requests ∨ r = Driver.online s.driver.statusTopic := by
        intro r mem
        rw [mem_requests, inflight, items, List.mem_append] at mem
        rw [mem_requests]
        rcases mem with sent | next | queued | own
        · exact Or.inl (Or.inl sent)
        · exact Or.inl (Or.inr (Or.inl (mem_of_connAck pending next)))
        · exact Or.inl (Or.inr (Or.inr queued))
        · exact Or.inr (List.mem_singleton.mp (List.mem_of_mem_take own))
      refine ⟨fun r mem => ?_, fun mem _ => ?_⟩
      · rcases kept r mem with before | rfl
        · exact known.requests r before
        · rw [configured.statusTopic]
          exact .online
      · rcases kept _ mem with before | same
        · exact known.disconnect before (Or.inl polling)
        · cases same
  | ignores _ _ _ flushing inflight pending items =>
      refine known.mono (fun r mem => ?_) fun loops => ?_
      · rw [mem_requests, inflight, items] at mem
        rw [mem_requests]
        exact mem.imp_right (Or.imp_left (mem_of_connAck pending))
      · exact absurd loops (Driver.not_looping_of_flushing flushing)
  | fails _ _ _ _ looping fewer => exact known.mono fewer.subset looping
  | sends _ _ _ fewer onward _ => exact known.mono fewer.subset onward.looping
  | farewell _ _ _ flushing inflight pending items =>
      refine ⟨fun r mem => ?_, fun _ loops => ?_⟩
      · rw [mem_requests, inflight, pending, items, List.mem_append, ← or_assoc, ← or_assoc,
          or_assoc (a := r ∈ s.inflight), ← mem_requests] at mem
        rcases mem with before | own
        · exact known.requests r before
        · rcases List.mem_cons.mp (List.mem_of_mem_take own) with rfl | last
          · rw [configured.statusTopic]
            exact .offline
          · rw [List.mem_singleton.mp last]
            exact .disconnect
      · exact absurd loops (Driver.not_looping_of_flushing flushing)
  | @samples _ _ added _ control _ inflight pending inside planned items =>
      have kept : ∀ r ∈ t.requests, r ∈ s.requests ∨ r ∈ added.map Request.publish := by
        intro r mem
        rwa [mem_requests, inflight, pending, items, List.mem_append, ← or_assoc, ← or_assoc,
          or_assoc (a := r ∈ s.inflight), ← mem_requests] at mem
      refine ⟨fun r mem => ?_, fun mem loops => ?_⟩
      · rcases kept r mem with before | new
        · exact known.requests r before
        · exact origin_of_added configured inside planned new
      · have before : s.driver.Looping := by
          unfold Driver.Looping at loops ⊢
          rwa [← control]
        rcases kept _ mem with held | new
        · exact known.disconnect held before
        · obtain ⟨m, -, same⟩ := List.mem_map.mp new
          cases same
  | quiet _ _ pending items fewer onward _ =>
      refine known.mono (fun r mem => ?_) onward.looping
      rw [mem_requests, pending, items] at mem
      rw [mem_requests]
      exact mem.imp_left fun sent => fewer.subset sent

/-- At the start nothing is held whose origin could be unknown. -/
theorem known_start (started : (system eventLoop client rootCause codecs config).start s) :
    Known codecs config s := by
  obtain ⟨isFile, readFile, seed, pos, now, connected, -, -, backlog⟩ := started
  obtain ⟨-, -, driver⟩ := Driver.connect_eq_ok connected
  have nothing : s.requests = [] := by
    rw [requests, backlog, driver]
    rfl
  refine ⟨?_, ?_⟩
  · simp [nothing]
  · simp [nothing]

/-- Both hold in every reachable state. -/
theorem known_of_reachable
    (reachable : (system eventLoop client rootCause codecs config).Reachable s) :
    Configured config s ∧ Known codecs config s := by
  refine reachable.invariant (I := fun s => Configured config s ∧ Known codecs config s)
    (fun s started => ⟨configured_start started, known_start started⟩) ?_
  rintro s label t out ⟨configured, known⟩ stepped
  obtain ⟨t', stepped', same⟩ := Option.map_eq_some_iff.mp stepped
  obtain ⟨rfl, -⟩ := Prod.mk.inj same
  exact ⟨configured_step configured stepped', known_moves configured known
    (moves_of_step configured.valid configured.shared stepped')⟩

/-- In every reachable state, under every event loop that holds only what it has taken from
the channel, whatever is held for sending is a status message on the status topic, the
DISCONNECT of a driver that has left its main loop, or a message of a sample of an enabled
collector. -/
theorem requests_known
    (reachable : (system eventLoop client rootCause codecs config).Reachable s) :
    Known codecs config s :=
  (known_of_reachable reachable).2

/-- The options of one collector with a clean session. -/
def cleanOptions : MqttOptions :=
  ((buildOptions (fun _ => .ok []) cleanCollector.transport).toOption.get rfl)

/-- The process that this configuration starts. -/
def cleanProcess : Process Unit where
  network := false
  inflight := []
  pending := []
  memory := ()
  options := cleanOptions
  scheduler := Scheduler.new [("cpu", { topic := "metrics/cpu" })] (Watch.init .connecting)
    (Interval.start (period cleanCollector) (by decide) 0) 0
  publisher := Publisher.new cleanCollector.transport
  driver := Driver.localDriver

/-- The process of the examples is one that the system starts in. -/
theorem cleanProcess_starts (client : AsyncClient) (rootCause : ConnectionError → String) :
    (system .documented client rootCause letterCodecs cleanCollector).start cleanProcess :=
  ⟨fun _ => true, fun _ => .ok [], 1, by decide, 0, rfl, rfl, rfl, rfl⟩

/-- A sample is queued behind the `online` of the first CONNACK, which is sent. -/
theorem requests_known_sampled :
    ∃ s, (system .documented .documented (fun _ => "timeout") letterCodecs cleanCollector).run
        cleanProcess [.connAck false, .scheduler .tick, .sampled [1, 2, 3], .transmitted] =
          some (s, []) ∧
      s.requests.length = 2 ∧ Known letterCodecs cleanCollector s := by
  have ran : (system .documented .documented (fun _ => "timeout") letterCodecs
      cleanCollector).run cleanProcess
        [.connAck false, .scheduler .tick, .sampled [1, 2, 3], .transmitted] = some (_, []) := rfl
  exact ⟨_, ran, rfl, requests_known ((System.Reachable.start (cleanProcess_starts _ _)).run ran)⟩

end Process

end BlazeBee.Agent
