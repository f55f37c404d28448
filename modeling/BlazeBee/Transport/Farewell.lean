import BlazeBee.Transport.FinalState
import BlazeBee.Transport.Topics

/-!
The requests that the driver itself queues, and its farewell.

Both requests of `disconnect` are offered without waiting, and refusals are ignored.
Only publishes of other handles can come between the two, and they only take room.

* `disconnect_spec`: what a shutdown of a connected driver queues, from the room left.
* `own_requests`: over a whole run, `online` any number of times, then `offline`, then
  DISCONNECT, each of the last two at most once and only after the one before.
* `farewell_iff_room`: how much room the two requests need.
* `dropped_silent_iff`: a dropped handle is answered with a farewell just like a
  shutdown.
-/

namespace BlazeBee.Transport

open BlazeBee.Lib BlazeBee.Lib.Text BlazeBee.Lib.Mqtt BlazeBee.Rumqttc

namespace Driver

variable {client : AsyncClient} {rootCause : ConnectionError → String} {self : Driver}

/-- The two status requests. -/
def online (statusTopic : String) : Request := .publish (statusMessage statusTopic statusOnline)
def offline (statusTopic : String) : Request := .publish (statusMessage statusTopic statusOffline)

/-- The two status texts differ, so the two requests do, on any topics. -/
theorem offline_ne_online (a b : String) : offline a ≠ online b := by
  intro same
  have texts : bytesOf statusOffline = bytesOf statusOnline :=
    congrArg Publish.payload (Request.publish.inj same)
  exact absurd texts (by decide)

/-- The requests that the driver itself got into the queue. -/
def queuedBy (outs : List DriverOutput) : List Request :=
  outs.filterMap fun out =>
    match out with
    | .queued r => some r
    | _ => none

@[simp] theorem queuedBy_nil : queuedBy [] = [] := rfl

@[simp] theorem queuedBy_append (outs rest : List DriverOutput) :
    queuedBy (outs ++ rest) = queuedBy outs ++ queuedBy rest :=
  List.filterMap_append

/-- The requests that the client makes of other handles' publishes. -/
def requests (others : List Publish) : List Request :=
  (others.filter fun p => validTopic p.topic).map .publish

/-- What becomes of an offered request. -/
def answer (queue : RequestChannel) (r : Request) : DriverOutput :=
  if 0 < queue.room then .queued r else .refused r

@[simp] theorem answer_eq_queued {queue : RequestChannel} {r r' : Request} :
    answer queue r = .queued r' ↔ 0 < queue.room ∧ r = r' := by
  unfold answer
  split_ifs with room <;> simp [room]

/-- What two answers say was queued. -/
theorem queued_mem_answers {queue later : RequestChannel} {r first second : Request} :
    .queued r ∈ [answer queue first, answer later second] ↔
      0 < queue.room ∧ first = r ∨ 0 < later.room ∧ second = r := by
  simp only [List.mem_cons, List.not_mem_nil, or_false, eq_comm (a := DriverOutput.queued r),
    answer_eq_queued]

/-! ### The client calls -/

/-- On a topic that the client takes, a status message is queued exactly when there is
room. -/
theorem queueStatus_spec (client : AsyncClient) (self : Driver) (text : String)
    (valid : validTopic self.statusTopic = true) :
    let r := Request.publish (statusMessage self.statusTopic text)
    self.queueStatus client text =
      ({ self with queue := self.queue.offer r }, [answer self.queue r]) := by
  simp only [queueStatus]
  cases taken : client.tryPublish self.queue (statusMessage self.statusTopic text) with
  | ok queue =>
      obtain ⟨-, sent⟩ := client.tryPublish_ok taken
      obtain ⟨room, -⟩ := Channel.trySend_ok sent
      simp [Channel.offer_of_ok sent, answer, room]
  | error e =>
      have no_room := (client.tryPublish_refused taken).resolve_left (by simp [valid])
      simp [Channel.offer_of_no_room _ no_room, answer, no_room]

/-- What a successful CONNACK does to the driver, with `online` offered to the queue. -/
theorem handle_success_spec (client : AsyncClient) (rootCause : ConnectionError → String)
    (self : Driver) (present : Bool) (valid : validTopic self.statusTopic = true) :
    self.handle client rootCause (.ok (.connAck .success present)) =
      ({ self with
          backoff := self.backoff.reset
          state := self.state.setState .connected
          queue := self.queue.offer (online self.statusTopic) },
        [answer self.queue (online self.statusTopic)]) := by
  rw [handle_success]
  exact queueStatus_spec client
    { self with backoff := self.backoff.reset, state := self.state.setState .connected } _ valid

/-- A DISCONNECT is queued exactly when there is room. -/
theorem queueDisconnect_spec (client : AsyncClient) (self : Driver) :
    self.queueDisconnect client =
      ({ self with queue := self.queue.offer .disconnect }, [answer self.queue .disconnect]) := by
  simp only [queueDisconnect]
  cases taken : client.tryDisconnect self.queue with
  | ok queue =>
      have sent := client.tryDisconnect_ok taken
      obtain ⟨room, -⟩ := Channel.trySend_ok sent
      simp [Channel.offer_of_ok sent, answer, room]
  | error e =>
      have no_room := client.tryDisconnect_refused taken
      simp [Channel.offer_of_no_room _ no_room, answer, no_room]

/-- Other handles offer their messages one after the other; those without room are lost. -/
theorem otherPublishes_spec (client : AsyncClient) (self : Driver) (others : List Publish) :
    self.otherPublishes client others =
      { self with queue := self.queue.offerAll (requests others) } := by
  induction others generalizing self with
  | nil => rfl
  | cons p rest ih =>
      unfold otherPublishes
      cases valid : validTopic p.topic with
      | false =>
          have skipped : requests (p :: rest) = requests rest := by simp [requests, valid]
          rw [client.publish_wildcard self.queue p valid, skipped]
          exact ih self
      | true =>
          have counted : requests (p :: rest) = .publish p :: requests rest := by
            simp [requests, valid]
          rw [counted, Channel.offerAll]
          cases sent : self.queue.trySend (.publish p) with
          | ok queue =>
              rw [client.publish_accepted self.queue queue p valid sent, Channel.offer_of_ok sent]
              exact ih { self with queue }
          | error e =>
              have no_room := Channel.trySend_refused_iff.mp ⟨e, sent⟩
              rw [client.publish_refused self.queue p e sent, Channel.offer_of_no_room _ no_room]
              exact ih self

/-- A connected driver offers `offline`, and DISCONNECT behind whatever other handles
publish in between; then it waits for the flush. -/
theorem disconnect_spec (client : AsyncClient) (self : Driver) (between : List Publish)
    (valid : validTopic self.statusTopic = true) (connected : self.state.value = .connected) :
    let first := offline self.statusTopic
    let queue := self.queue
    let later := (queue.offer first).offerAll (requests between)
    self.disconnect client between =
      ({ self with queue := later.offer .disconnect, control := .flushing },
        [answer queue first, answer later .disconnect]) := by
  have isConnected : self.state.value.isConnected = true := by rw [connected]; rfl
  simp [disconnect, isConnected, queueStatus_spec client self statusOffline valid,
    otherPublishes_spec, queueDisconnect_spec, offline]

/-! ### The shape of a whole run -/

/-- `online` any number of times, then perhaps `offline`, then perhaps DISCONNECT. -/
def OwnRequests (topic : String) (own : List Request) : Prop :=
  ∃ n tail, own = List.replicate n (online topic) ++ tail ∧ tail <+: [offline topic, .disconnect]

/-- A driver that queues nothing keeps to the shape. -/
theorem ownRequests_nil (topic : String) : OwnRequests topic [] :=
  ⟨0, [], rfl, List.nil_prefix⟩

/-- One more `online` in front keeps to the shape. -/
theorem OwnRequests.cons_online {topic : String} {own : List Request}
    (rest : OwnRequests topic own) : OwnRequests topic (online topic :: own) := by
  obtain ⟨n, tail, rfl, farewell⟩ := rest
  exact ⟨n + 1, tail, rfl, farewell⟩

/-- What the driver may still queue: nothing once it waits for the flush. -/
def StillToQueue (self : Driver) (outs : List DriverOutput) : Prop :=
  match self.control with
  | .polling | .sleeping _ => OwnRequests self.statusTopic (queuedBy outs)
  | .flushing | .returned _ => queuedBy outs = []

section StillToQueue

variable {outs : List DriverOutput}

/-- Before the shutdown everything of the shape may still come. -/
theorem stillToQueue_running (running : self.control = .polling ∨ ∃ d, self.control = .sleeping d) :
    StillToQueue self outs ↔ OwnRequests self.statusTopic (queuedBy outs) := by
  rcases running with control | ⟨delay, control⟩ <;> simp [StillToQueue, control]

/-- After the shutdown nothing more comes. -/
theorem stillToQueue_ending (ending : self.control = .flushing ∨ ∃ r, self.control = .returned r) :
    StillToQueue self outs ↔ queuedBy outs = [] := by
  rcases ending with control | ⟨result, control⟩ <;> simp [StillToQueue, control]

/-- A driver may always stop here. -/
theorem stillToQueue_nil : StillToQueue self [] := by
  unfold StillToQueue
  split
  · exact ownRequests_nil _
  · exact ownRequests_nil _
  · rfl
  · rfl

/-- A step that queues nothing and stays where it is. -/
theorem stillToQueue_same {t : Driver} (topic : t.statusTopic = self.statusTopic)
    (control : t.control = self.control) (rest : StillToQueue t outs) : StillToQueue self outs := by
  unfold StillToQueue at rest ⊢
  rwa [← control, ← topic]

end StillToQueue

/-- The farewell itself: nothing, `offline`, or both. -/
theorem queuedBy_farewell (queue : RequestChannel) (topic : String) (others : List Request) :
    queuedBy [answer queue (offline topic),
      answer ((queue.offer (offline topic)).offerAll others) .disconnect] <+:
      [offline topic, .disconnect] := by
  obtain ⟨-, afterFirst, -⟩ := Channel.offer_spec queue (offline topic)
  obtain ⟨-, later⟩ := Channel.offerAll_spec (queue.offer (offline topic)) others
  by_cases room : 0 < queue.room
  · by_cases left : 0 < ((queue.offer (offline topic)).offerAll others).room
    · simp [answer, room, left, queuedBy]
    · simp [answer, room, left, queuedBy]
  · -- Without room for `offline` there is none for DISCONNECT either.
    have none_left : ¬ 0 < ((queue.offer (offline topic)).offerAll others).room := by omega
    simp [answer, room, none_left, queuedBy]

/-- Handling a poll queues nothing out of place: at most an `online`, and nothing at all on
the way to a fatal end. -/
theorem stillToQueue_handle (self : Driver) (valid : validTopic self.statusTopic = true)
    (control : self.control = .polling) (outcome : Except ConnectionError Event)
    {rest : List DriverOutput}
    (later : StillToQueue (self.handle client rootCause outcome).1 rest) :
    StillToQueue self ((self.handle client rootCause outcome).2 ++ rest) := by
  rw [stillToQueue_running (Or.inl control)]
  cases outcome_cases outcome with
  | success present =>
      rw [handle_success_spec client rootCause self present valid] at later ⊢
      have own : OwnRequests self.statusTopic (queuedBy rest) := by
        simpa [StillToQueue, control] using later
      by_cases room : 0 < self.queue.room
      · simpa [answer, room, queuedBy] using own.cons_online
      · simpa [answer, room, queuedBy] using own
  | other other =>
      rw [handle_other self other] at later ⊢
      rwa [stillToQueue_running (Or.inl control)] at later
  | fatal fatal =>
      rw [handle_fatal self fatal] at later ⊢
      rw [stillToQueue_ending (Or.inr ⟨_, rfl⟩)] at later
      rw [List.nil_append, later]
      exact ownRequests_nil _
  | recoverable recoverable =>
      rw [handle_recoverable self recoverable] at later ⊢
      rwa [stillToQueue_running (Or.inr ⟨_, rfl⟩)] at later

/-- The shutdown queues the end of the shape and nothing after it. -/
theorem stillToQueue_disconnect (valid : validTopic self.statusTopic = true)
    (control : self.control = .polling) (between : List Publish) {rest : List DriverOutput}
    (later : StillToQueue (self.disconnect client between).1 rest) :
    StillToQueue self ((self.disconnect client between).2 ++ rest) := by
  rw [stillToQueue_running (Or.inl control)]
  cases connected : self.state.value.isConnected with
  | true =>
      have connected := ConnectionState.eq_connected connected
      rw [disconnect_spec client self between valid connected] at later ⊢
      rw [stillToQueue_ending (Or.inl rfl)] at later
      rw [queuedBy_append, later, List.append_nil]
      exact ⟨0, _, rfl, queuedBy_farewell self.queue self.statusTopic (requests between)⟩
  | false =>
      rw [disconnect_unconnected client between connected] at later ⊢
      rw [stillToQueue_ending (Or.inr ⟨_, rfl⟩)] at later
      rw [List.nil_append, later]
      exact ownRequests_nil _

/-- A driver that waits for the flush goes on waiting or returns. -/
theorem ending_flush (self : Driver) (control : self.control = .flushing)
    (outcome : Except ConnectionError Event) :
    (self.flush outcome).control = .flushing ∨
      ∃ result, (self.flush outcome).control = .returned result := by
  unfold flush
  split
  · exact Or.inr ⟨_, rfl⟩
  · exact Or.inl control
  · exact Or.inr ⟨_, rfl⟩

/-- Every step queues in front of a run of the right shape such that the whole keeps to
it. -/
theorem stillToQueue_step {label : DriverLabel} {next : Driver × List DriverOutput}
    (valid : validTopic self.statusTopic = true)
    (stepped : self.step client rootCause label = some next) {rest : List DriverOutput}
    (later : StillToQueue next.1 rest) : StillToQueue self (next.2 ++ rest) := by
  cases cases_of_step stepped with
  | signal _ _ => exact stillToQueue_same rfl rfl later
  | otherPublish queue _ => exact stillToQueue_same rfl rfl later
  | poll taken outcome control _ =>
      exact stillToQueue_same rfl rfl
        (stillToQueue_handle (self.take taken) valid control outcome later)
  | flush taken outcome control =>
      rw [stillToQueue_ending (Or.inl control)]
      exact (stillToQueue_ending (ending_flush (self.take taken) control outcome)).mp later
  | shutdown between control _ => exact stillToQueue_disconnect valid control between later
  | shutdownAsleep between control _ =>
      rw [stillToQueue_running (Or.inr ⟨_, control⟩)]
      rw [stillToQueue_ending (Or.inr ⟨_, rfl⟩)] at later
      rw [List.nil_append, later]
      exact ownRequests_nil _
  | woken control _ =>
      rw [stillToQueue_running (Or.inr ⟨_, control⟩)]
      rwa [stillToQueue_running (Or.inl rfl)] at later
  | graceOver control =>
      rw [stillToQueue_ending (Or.inl control)]
      rwa [stillToQueue_ending (Or.inr ⟨_, rfl⟩)] at later

/-! ### Whole runs -/

/-- The status topic is one that the client takes. -/
theorem validTopic_of_connect {isFile : String → Bool}
    {readFile : String → Except IoError (List UInt8)} {seed : UInt64} {config : Config}
    {options : MqttOptions}
    (connected : connect isFile readFile seed config = .ok (options, self)) :
    validTopic self.statusTopic = true := by
  obtain ⟨valid, -, rfl⟩ := connect_eq_ok connected
  dsimp only
  exact validTopic_joinTopic (Config.accepted_of_validate valid).base_topic topicText_status

/-- The status topic of a started driver is one that the client takes. -/
theorem validTopic_of_start (started : (system client rootCause).start self) :
    validTopic self.statusTopic = true := by
  obtain ⟨_, _, _, _, _, connected⟩ := started
  exact validTopic_of_connect connected

/-- Every step leaves the driver on a topic that the client takes. -/
theorem validTopic_step {label : DriverLabel} {t : Driver} {out : List DriverOutput}
    (valid : validTopic self.statusTopic = true)
    (stepped : self.step client rootCause label = some (t, out)) :
    validTopic t.statusTopic = true := by
  rw [(sameSetup_step stepped).statusTopic]
  exact valid

/-- The driver publishes on a topic that the client takes, for good. -/
def OnTopic (topic : String) (self : Driver) : Prop :=
  self.statusTopic = topic ∧ validTopic topic = true

/-- The topic is kept by every step, which makes it an invariant of runs. -/
theorem onTopic_step {topic : String} (s : Driver) (label : DriverLabel) (t : Driver)
    (out : List DriverOutput) (on : OnTopic topic s)
    (stepped : (system client rootCause).step s label = some (t, out)) : OnTopic topic t :=
  ⟨(sameSetup_step stepped).statusTopic.trans on.1, on.2⟩

/-- Only the handling of a successful CONNACK queues `online`. -/
theorem connects_of_online {label : DriverLabel} {next : Driver × List DriverOutput}
    (valid : validTopic self.statusTopic = true)
    (stepped : self.step client rootCause label = some next) {topic : String}
    (queued : .queued (online topic) ∈ next.2) : Connects label := by
  cases cases_of_step stepped with
  | poll taken outcome control _ =>
      cases outcome_cases outcome with
      | success present => exact ⟨taken, present, rfl⟩
      | other other => simp [handle_other _ other] at queued
      | fatal fatal => simp [handle_fatal _ fatal] at queued
      | recoverable recoverable => simp [handle_recoverable _ recoverable] at queued
  | shutdown between control _ =>
      cases connected : self.state.value.isConnected with
      | false => simp [disconnect_unconnected client between connected] at queued
      | true =>
          have value := ConnectionState.eq_connected connected
          rw [disconnect_spec client self between valid value] at queued
          rcases queued_mem_answers.mp queued with ⟨-, same⟩ | ⟨-, same⟩
          · exact absurd same (offline_ne_online _ _)
          · cases same
  | signal _ _ => cases queued
  | otherPublish queue _ => cases queued
  | flush taken outcome _ => cases queued
  | shutdownAsleep between _ _ => cases queued
  | woken _ _ => cases queued
  | graceOver _ => cases queued

/-- Over any run, with any queue to begin with: the driver's own requests are `online`s
of successful CONNACKs, then at most one `offline`, then at most one DISCONNECT, which
never goes without `offline`. -/
theorem own_requests (started : (system client rootCause).start self) (queue : RequestChannel)
    {labels : List DriverLabel} {t : Driver} {outs : List DriverOutput}
    (ran : (system client rootCause).run { self with queue } labels = some (t, outs)) :
    OwnRequests self.statusTopic (queuedBy outs) ∧
      (system client rootCause).Meets
        (fun s label => ∀ u out, s.step client rootCause label = some (u, out) →
          .queued (online self.statusTopic) ∈ out → Connects label)
        { self with queue } labels := by
  have on : OnTopic self.statusTopic { self with queue } := ⟨rfl, validTopic_of_start started⟩
  have polling : self.control = .polling := by
    obtain ⟨_, _, _, _, _, connected⟩ := started
    obtain ⟨-, -, rfl⟩ := connect_eq_ok connected
    rfl
  constructor
  · have still := System.run_outputs (Q := StillToQueue) (fun _ _ => stillToQueue_nil)
      (fun s label u out (on : OnTopic self.statusTopic s) stepped =>
        ⟨onTopic_step s label u out on stepped, fun rest later =>
          stillToQueue_step (on.1.symm ▸ on.2) stepped later⟩) on ran
    exact (stillToQueue_running (Or.inl polling)).mp still
  · refine System.meets_of_invariant (I := OnTopic self.statusTopic) ?_ onTopic_step on labels
    intro s label on u out stepped queued
    exact connects_of_online (on.1.symm ▸ on.2) stepped queued

/-- A connection, and a clean shutdown. -/
def cleanShutdown : List DriverLabel :=
  [.poll 0 (.ok (.connAck .success false)), .signal .sent, .shutdown [], .graceOver]

/-- A session that connects, is shut down and flushes its DISCONNECT. -/
theorem own_requests_cleanShutdown :
    ∃ t outs, (system .documented fun _ => "timeout").run localDriver cleanShutdown =
        some (t, outs) ∧
      queuedBy outs = [online localDriver.statusTopic, offline localDriver.statusTopic,
        .disconnect] ∧
      OwnRequests localDriver.statusTopic (queuedBy outs) := by
  have ran : (system .documented fun _ => "timeout").run { localDriver with queue := .empty 64 }
      cleanShutdown = some (_, _) := rfl
  exact ⟨_, _, ran, rfl, (own_requests (localDriver_starts _ _) (.empty 64) ran).1⟩

/-! ### The room that the farewell needs -/

/-- Every reachable driver has a status topic that the client takes. -/
theorem validTopic_of_reachable (reachable : (system client rootCause).Reachable self) :
    validTopic self.statusTopic = true := by
  refine reachable.invariant (fun s started => validTopic_of_start started) ?_
  intro s label t out valid stepped
  exact validTopic_step valid stepped

/-- Once the shutdown is requested, the polling driver runs `disconnect`. -/
theorem step_shutdown (client : AsyncClient) (rootCause : ConnectionError → String)
    (self : Driver) (control : self.control = .polling) (requested : self.shutdown ≠ .waiting)
    (between : List Publish) :
    self.step client rootCause (.shutdown between) = some (self.disconnect client between) := by
  simp [step, control, requested]

/-- A shutdown while connected, with any queue: `offline` is accepted exactly when there
is room for a request, and DISCONNECT behind it exactly when room is left after what
other handles publish in between. -/
theorem farewell_iff_room (reachable : (system client rootCause).Reachable self)
    (polling : self.control = .polling) (requested : self.shutdown ≠ .waiting)
    (connected : self.state.value = .connected) (queue : RequestChannel)
    (between : List Publish) :
    ∃ t out, (system client rootCause).step { self with queue } (.shutdown between) =
        some (t, out) ∧
      t.queue.items = queue.items ++
        (offline self.statusTopic :: requests between ++ [Request.disconnect]).take queue.room ∧
      (.queued (offline self.statusTopic) ∈ out ↔ 1 ≤ queue.room) ∧
      (.queued .disconnect ∈ out ↔ (requests between).length + 2 ≤ queue.room) := by
  have valid := validTopic_of_reachable reachable
  let driver : Driver := { self with queue }
  let first := offline self.statusTopic
  let later := (queue.offer first).offerAll (requests between)
  have farewell := disconnect_spec client driver between valid connected
  have stepped := step_shutdown client rootCause driver polling requested between
  refine ⟨_, _, stepped.trans (congrArg some farewell), ?_, ?_, ?_⟩
  · -- The three offers in a row are one loop of offers.
    have loop : later.offer .disconnect =
        queue.offerAll (first :: requests between ++ [Request.disconnect]) := by
      rw [Channel.offerAll_append]
      rfl
    exact (congrArg Channel.items loop).trans (Channel.offerAll_spec queue _).1
  · have other : Request.disconnect ≠ first := by simp [first, offline]
    rw [queued_mem_answers]
    simp [other, first, driver, Nat.one_le_iff_ne_zero, Nat.pos_iff_ne_zero]
  · obtain ⟨-, afterFirst, -⟩ := Channel.offer_spec queue first
    obtain ⟨-, room⟩ := Channel.offerAll_spec (queue.offer first) (requests between)
    have left : 0 < later.room ↔ (requests between).length + 2 ≤ queue.room := by
      rw [show later.room = _ from room, afterFirst]
      omega
    have other : first ≠ Request.disconnect := by simp [first, offline]
    rw [queued_mem_answers]
    exact ⟨fun queued => left.mp (queued.resolve_left fun same => other same.2).1,
      fun enough => Or.inr ⟨left.mpr enough, rfl⟩⟩

/-- A driver that has just reached the broker, and is to stop. -/
theorem localDriver_connects :
    ∃ self, (system .documented fun _ => "timeout").run localDriver
        [.poll 0 (.ok (.connAck .success false)), .signal .sent] =
          some (self, [.queued (online localDriver.statusTopic)]) ∧
      self.control = .polling ∧ self.shutdown = .sent ∧ self.state.value = .connected ∧
      self.queue.room = 63 :=
  ⟨_, rfl, rfl, rfl, rfl, rfl⟩

/-- A connected driver whose queue has 63 slots left has room for both requests. -/
theorem farewell_iff_room_connected :
    ∃ self t out, (system .documented fun _ => "timeout").Reachable self ∧
      self.shutdown = .sent ∧ self.state.value = .connected ∧ self.queue.room = 63 ∧
      (system .documented fun _ => "timeout").step self (.shutdown []) = some (t, out) ∧
      .queued (offline self.statusTopic) ∈ out ∧ .queued .disconnect ∈ out := by
  obtain ⟨self, ran, polling, requested, connected, room⟩ := localDriver_connects
  have reachable := (System.Reachable.start (localDriver_starts .documented _)).run ran
  obtain ⟨t, out, stepped, -, first, last⟩ :=
    farewell_iff_room reachable polling (by simp [requested]) connected self.queue []
  exact ⟨self, t, out, reachable, requested, connected, room, stepped,
    first.mpr (by simp [room]), last.mpr (by simp [room, requests])⟩

/-! ### A dropped handle -/

/-- The shutdown branch of the main `select!`, with a live connection and room for a
request. -/
def SaysFarewell (self : Driver) (label : DriverLabel) : Prop :=
  self.control = .polling ∧ self.state.value = .connected ∧ 0 < self.queue.room ∧
    ∃ between, label = .shutdown between

/-- Neither `offline` nor DISCONNECT. -/
def Silent (out : DriverOutput) : Prop :=
  (∀ topic, out ≠ .queued (offline topic)) ∧ out ≠ .queued .disconnect

/-- An `online` is no farewell, whether queued or refused. -/
theorem silent_online (queue : RequestChannel) (topic : String) :
    Silent (answer queue (online topic)) := by
  constructor
  · intro other same
    exact offline_ne_online other topic (answer_eq_queued.mp same).2.symm
  · intro same
    cases (answer_eq_queued.mp same).2

/-- Without room nothing is queued, so nothing is said. -/
theorem silent_without_room {queue : RequestChannel} (no_room : ¬ 0 < queue.room) (r : Request) :
    Silent (answer queue r) := by
  constructor
  · intro topic same
    exact no_room (answer_eq_queued.mp same).1
  · intro same
    exact no_room (answer_eq_queued.mp same).1

/-- Only a connected driver with room says farewell, and then it always does. -/
theorem silent_disconnect (client : AsyncClient) (self : Driver) (between : List Publish)
    (valid : validTopic self.statusTopic = true) :
    (self.state.value = .connected → ¬ 0 < self.queue.room) ↔
      ∀ out ∈ (self.disconnect client between).2, Silent out := by
  cases connected : self.state.value.isConnected with
  | false =>
      rw [disconnect_unconnected client between connected]
      refine iff_of_true ?_ (by simp)
      intro value
      rw [value] at connected
      cases connected
  | true =>
      have value := ConnectionState.eq_connected connected
      rw [disconnect_spec client self between valid value]
      constructor
      · intro quiet
        have no_room := quiet value
        obtain ⟨-, afterFirst, -⟩ := Channel.offer_spec self.queue (offline self.statusTopic)
        obtain ⟨-, later⟩ := Channel.offerAll_spec
          (self.queue.offer (offline self.statusTopic)) (requests between)
        simp only [List.mem_cons, List.not_mem_nil, or_false]
        rintro out (rfl | rfl)
        · exact silent_without_room no_room _
        · exact silent_without_room (by omega) _
      · intro silent _ room
        have queued : .queued (offline self.statusTopic) ∈
            [answer self.queue (offline self.statusTopic),
              answer ((self.queue.offer (offline self.statusTopic)).offerAll (requests between))
                .disconnect] :=
          queued_mem_answers.mpr (Or.inl ⟨room, rfl⟩)
        exact (silent _ queued).1 _ rfl

/-- A step says farewell exactly when it is the shutdown branch of a connected driver with
room. -/
theorem silent_step {label : DriverLabel} {next : Driver × List DriverOutput}
    (valid : validTopic self.statusTopic = true)
    (stepped : self.step client rootCause label = some next) :
    ¬ SaysFarewell self label ↔ ∀ out ∈ next.2, Silent out := by
  have other : (∀ between, label ≠ .shutdown between) → ¬ SaysFarewell self label := by
    rintro other ⟨-, -, -, between, same⟩
    exact other between same
  cases cases_of_step stepped with
  | poll taken outcome control _ =>
      refine iff_of_true (other (by simp)) ?_
      cases outcome_cases outcome with
      | success present =>
          rw [handle_success_spec client rootCause (self.take taken) present valid]
          intro out mem
          rw [List.mem_singleton.mp mem]
          exact silent_online _ _
      | other ignored => simp [handle_other _ ignored]
      | fatal fatal => simp [handle_fatal _ fatal]
      | recoverable recoverable => simp [handle_recoverable _ recoverable, Silent]
  | shutdown between control _ =>
      rw [← silent_disconnect client self between valid]
      constructor
      · intro quiet value room
        exact quiet ⟨control, value, room, between, rfl⟩
      · rintro quiet ⟨-, value, room, -⟩
        exact quiet value room
  | shutdownAsleep between control _ =>
      refine iff_of_true ?_ (by simp)
      rintro ⟨polling, -⟩
      simp [control] at polling
  | signal _ _ => exact iff_of_true (other (by simp)) (by simp)
  | otherPublish queue _ => exact iff_of_true (other (by simp)) (by simp)
  | flush taken outcome _ => exact iff_of_true (other (by simp)) (by simp)
  | woken _ _ => exact iff_of_true (other (by simp)) (by simp)
  | graceOver _ => exact iff_of_true (other (by simp)) (by simp)

/-- From the moment the handle is dropped without a shutdown, the driver queues neither
`offline` nor DISCONNECT exactly when it never takes the shutdown branch of its main
`select!` with a live connection and room in the queue. -/
theorem dropped_silent_iff (reachable : (system client rootCause).Reachable self)
    {labels : List DriverLabel} {t : Driver} {outs : List DriverOutput}
    (ran : (system client rootCause).run self (.signal .dropped :: labels) = some (t, outs)) :
    (∀ out ∈ outs, Silent out) ↔
      (system client rootCause).Meets (fun s label => ¬ SaysFarewell s label) self
        (.signal .dropped :: labels) := by
  have valid := validTopic_of_reachable reachable
  have step : ∀ s label u out, validTopic s.statusTopic = true →
      (system client rootCause).step s label = some (u, out) →
      validTopic u.statusTopic = true ∧ (¬ SaysFarewell s label ↔ ∀ x ∈ out, Silent x) := by
    intro s label u out valid stepped
    exact ⟨validTopic_step valid stepped, silent_step valid stepped⟩
  exact (System.run_meets_iff step valid ran).symm

/-- A connected driver whose handle is dropped says farewell. -/
theorem dropped_says_farewell :
    ∃ self t outs, (system .documented fun _ => "timeout").Reachable self ∧
      (system .documented fun _ => "timeout").run self [.signal .dropped, .shutdown []] =
        some (t, outs) ∧
      .queued (offline self.statusTopic) ∈ outs ∧ .queued .disconnect ∈ outs ∧
      ¬ ∀ out ∈ outs, Silent out := by
  have connects : (system .documented fun _ => "timeout").run localDriver
      [.poll 0 (.ok (.connAck .success false))] = some (_, _) := rfl
  have reachable := (System.Reachable.start (localDriver_starts .documented _)).run connects
  have last : DriverOutput.queued .disconnect ∈
      [.queued (offline localDriver.statusTopic), .queued .disconnect] := by simp
  refine ⟨_, _, _, reachable, rfl, List.mem_cons_self, last, fun silent => ?_⟩
  exact (silent _ last).2 rfl

/-- A handle dropped before the first CONNACK. -/
theorem dropped_silent_iff_connecting :
    ∃ t outs, (system .documented fun _ => "timeout").run localDriver
        [.signal .dropped, .shutdown []] = some (t, outs) ∧ ∀ out ∈ outs, Silent out := by
  have ran : (system .documented fun _ => "timeout").run localDriver
      [.signal .dropped, .shutdown []] = some (_, []) := rfl
  have reachable := System.Reachable.start (localDriver_starts .documented fun _ => "timeout")
  refine ⟨_, _, ran, (dropped_silent_iff reachable ran).mpr ?_⟩
  have unconnected : ∀ s label, s.state.value = .connecting → ¬ SaysFarewell s label := by
    rintro s label connecting ⟨-, connected, -⟩
    cases connecting.symm.trans connected
  refine ⟨unconnected _ _ rfl, fun s out stepped => ⟨?_, fun _ _ _ => trivial⟩⟩
  obtain ⟨rfl, -⟩ := Prod.mk.inj (Option.some.inj stepped)
  exact unconnected _ _ rfl

end Driver

end BlazeBee.Transport
