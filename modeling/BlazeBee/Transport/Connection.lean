import BlazeBee.Lib.System
import BlazeBee.Lib.Watch
import BlazeBee.Transport.Backoff
import BlazeBee.Transport.Publisher

/-!
Connection lifecycle (`connection.rs`): client options, and the event-loop driver
with its reconnection policy and graceful shutdown.

The driver is a transition system. Its `await` points are the states of
`Control`; what resolves them (an event of the event loop, the shutdown signal, a
timer) are the labels, so a run is any interleaving of these with publishes of
other client handles. The texts of third-party errors are a parameter,
`rootCause`.
-/

namespace BlazeBee.Transport

open BlazeBee.Lib BlazeBee.Lib.Text BlazeBee.Rumqttc

/-! ### Connection state -/

/-- Payload published on `{base_topic}/status`. -/
def statusOnline : String := "online"
def statusOffline : String := "offline"

/-- Observable state of the broker connection. -/
inductive ConnectionState where
  /-- Initial state until the first CONNACK. -/
  | connecting
  | connected
  /-- The connection was lost or refused. -/
  | disconnected (reason : String)
  /-- Waiting for the given number of seconds before the next attempt. -/
  | reconnecting (secs : ℚ)
  /-- An unrecoverable error; the driver has stopped. -/
  | fatalExit (reason : String)
deriving DecidableEq

/-- Whether a CONNACK was accepted and the connection has not been lost since. -/
def ConnectionState.isConnected : ConnectionState → Bool
  | .connected => true
  | _ => false

/-- Only one state counts as connected. -/
theorem ConnectionState.eq_connected {state : ConnectionState}
    (connected : state.isConnected = true) : state = .connected := by
  cases state with
  | connected => rfl
  | connecting => cases connected
  | disconnected reason => cases connected
  | reconnecting secs => cases connected
  | fatalExit reason => cases connected

/-- A state that does not count as connected is another one. -/
theorem ConnectionState.ne_connected_of_down {state : ConnectionState}
    (down : state.isConnected = false) : state ≠ .connected := by
  rintro rfl
  cases down

/-- Whether the driver has given up. -/
def ConnectionState.isFatal : ConnectionState → Bool
  | .fatalExit _ => true
  | _ => false

/-- A driver that has given up is not connected. -/
theorem ConnectionState.ne_connected_of_fatal {state : ConnectionState}
    (fatal : state.isFatal = true) : state ≠ .connected := by
  rintro rfl
  cases fatal

/-- Errors that a new connection cannot fix. Everything else is retried. -/
def isFatal : ConnectionError → Bool
  | .tls _ => true
  | .notConnAck _ => true
  | .requestsDone => true
  | .connectionRefused code => match code with
      | .refusedProtocolVersion | .badClientId | .badUserNamePassword | .notAuthorized => true
      | _ => false
  | .io e => match e.kind with
      | .addrInUse | .permissionDenied | .invalidInput => true
      | _ => false
  | .mqttState .invalidState | .mqttState .emptySubscription => true
  | _ => false

/-! ### Options -/

/-- The bytes of a string literal used as a payload. -/
def bytesOf (s : String) : List UInt8 := s.toUTF8.data.toList

@[simp] theorem length_bytesOf (s : String) : (bytesOf s).length = s.utf8ByteSize := rfl

/-- The message that the broker publishes when the connection ends without a DISCONNECT. -/
structure LastWill where
  topic : String
  message : List UInt8
  qos : QoS
  retain : Bool
deriving DecidableEq, Repr

/-- How the connection is secured: not at all, by the platform's certificates, or by a
certificate authority of the user, then perhaps with a client certificate and its key. -/
inductive TransportKind where
  | tcp
  | tlsDefault
  | tls (ca : List UInt8) (clientAuth : Option (List UInt8 × List UInt8))
deriving DecidableEq, Repr

/-- The options handed to the client, one field for each setter that `build_options`
calls. -/
structure MqttOptions where
  clientId : String
  host : String
  port : UInt16
  keepAlive : UInt16
  cleanSession : Bool
  inflight : UInt16
  maxIncomingPacketSize : Nat
  maxOutgoingPacketSize : Nat
  lastWill : LastWill
  credentials : Option (String × String)
  transport : TransportKind
deriving DecidableEq, Repr

/-- `fs::read`, with the path in the error. -/
def readPath (readFile : String → Except IoError (List UInt8)) (path : String) :
    Except TransferError (List UInt8) :=
  (readFile path).mapError (.readFile path)

/-- The certificates are read only when TLS is enabled and a certificate authority is set;
the client's pair is read when both halves are there. -/
def buildTransport (readFile : String → Except IoError (List UInt8)) (config : Config) :
    Except TransferError TransportKind :=
  let tls := config.tls
  if !tls.isEnabled then .ok .tcp
  else
    match tls.caCertPath with
    | none => .ok .tlsDefault
    | some caPath => do
        let ca ← readPath readFile caPath
        let clientAuth ← match tls.clientCertPath, tls.clientKeyPath with
          | some cert, some key => do
              let cert ← readPath readFile cert
              let key ← readPath readFile key
              pure (some (cert, key))
          | _, _ => pure none
        return .tls ca clientAuth

/-- The options of a configuration. It fails only when a certificate cannot be read. -/
def buildOptions (readFile : String → Except IoError (List UInt8)) (config : Config) :
    Except TransferError MqttOptions := do
  let credentials := config.username.map fun username =>
    (username, (config.password.map (·.expose)).getD "")
  let transport ← buildTransport readFile config
  return {
    clientId := config.clientId
    host := trim config.host
    port := config.port
    keepAlive := config.keepAlive
    cleanSession := config.cleanSession
    inflight := config.maxInflight
    maxIncomingPacketSize := config.maxPacketSize.toNat
    maxOutgoingPacketSize := config.maxPacketSize.toNat
    lastWill := ⟨joinTopic config.baseTopic "status", bytesOf statusOffline, .atLeastOnce, true⟩
    credentials
    transport }

/-! ### The driver -/

/-- The packets that the event loop reports as written, as far as the driver tells them
apart. -/
inductive Outgoing where
  | publish
  | disconnect
  | other
deriving DecidableEq, Repr

/-- What a successful poll of the event loop reports. -/
inductive Event where
  | connAck (code : ConnectReturnCode) (sessionPresent : Bool)
  | otherIncoming
  | outgoing (o : Outgoing)
deriving DecidableEq, Repr

/-- The `oneshot` channel behind `Transport::shutdown`. -/
inductive ShutdownSignal where
  | waiting
  | sent
  | dropped
deriving DecidableEq, Repr

/-- Where the driver is suspended. -/
inductive Control where
  /-- In the `select!` of the main loop. -/
  | polling
  /-- In the `select!` over the backoff sleep. -/
  | sleeping (delay : ℚ)
  /-- In the loop that waits for the DISCONNECT to be written. -/
  | flushing
  | returned (result : Except TransferError Unit)
deriving DecidableEq

/-- The driver and what it shares with others: the request queue, and the watch channel as
one of its receivers sees it. It is a state machine between two `await`s: everything else
about the task is in `control`. -/
structure Driver where
  statusTopic : String
  backoff : Backoff
  state : Watch ConnectionState
  shutdown : ShutdownSignal
  queue : RequestChannel
  control : Control

/-- What can happen next to the driver, in whatever order the runtime, the broker and the
other tasks choose. -/
inductive DriverLabel where
  /-- The handle resolves the shutdown channel, by a message or by its drop. -/
  | signal (s : ShutdownSignal)
  /-- Another client handle publishes. -/
  | otherPublish (p : Publish)
  /-- The event loop takes `taken` requests from the queue and resolves the poll. -/
  | poll (taken : Nat) (outcome : Except ConnectionError Event)
  /-- A `select!` takes its shutdown branch. On a runtime with several threads other
  client handles may publish `between` the two requests of `disconnect`. -/
  | shutdown (between : List Publish)
  /-- The backoff sleep is over. -/
  | woken
  /-- The time for the final DISCONNECT is over. -/
  | graceOver

/-- What the driver does to the queue, and the sleeps it starts. -/
inductive DriverOutput where
  | queued (r : Request)
  | refused (r : Request)
  | sleeping (delay : ℚ)
deriving DecidableEq

namespace Driver

variable (client : AsyncClient) (rootCause : ConnectionError → String)

/-- The status message with the given text. -/
def statusMessage (statusTopic text : String) : Publish :=
  ⟨statusTopic, .atLeastOnce, true, bytesOf text⟩

@[simp] theorem topic_statusMessage (statusTopic text : String) :
    (statusMessage statusTopic text).topic = statusTopic := rfl

/-- Queues the status `text`; a failure is logged and otherwise ignored. -/
def queueStatus (self : Driver) (text : String) : Driver × List DriverOutput :=
  let message := statusMessage self.statusTopic text
  match client.tryPublish self.queue message with
  | .ok queue => ({ self with queue }, [.queued (.publish message)])
  | .error _ => (self, [.refused (.publish message)])

/-- Queues a DISCONNECT; a failure is logged and otherwise ignored. -/
def queueDisconnect (self : Driver) : Driver × List DriverOutput :=
  match client.tryDisconnect self.queue with
  | .ok queue => ({ self with queue }, [.queued .disconnect])
  | .error _ => (self, [.refused .disconnect])

/-- The event loop takes the oldest requests. -/
def take (self : Driver) (taken : Nat) : Driver := { self with queue := self.queue.drop taken }

/-- Shows a state to the receivers of the watch channel. -/
def setState (self : Driver) (next : ConnectionState) : Driver :=
  { self with state := self.state.setState next }

/-- The driver returns: its watch sender and its event loop are dropped. -/
def finish (self : Driver) (result : Except TransferError Unit) : Driver :=
  { self with
    control := .returned result
    state := self.state.dropSender
    queue := { self.queue with receiverAlive := false } }

/-- The end of `disconnect`, after the flush. -/
def closed (self : Driver) : Driver :=
  (self.setState (.disconnected "shutdown")).finish (.ok ())

/-- Other client handles publish, one after the other. -/
def otherPublishes (self : Driver) : List Publish → Driver
  | [] => self
  | p :: rest =>
      match client.tryPublish self.queue p with
      | .ok queue => otherPublishes { self with queue } rest
      | .error _ => otherPublishes self rest

/-- `disconnect`, up to its first `await`. While connected it tries to queue `offline` and
DISCONNECT, in this order and without a look at the results, and then waits for the flush;
otherwise it returns at once. -/
def disconnect (self : Driver) (between : List Publish) : Driver × List DriverOutput :=
  if self.state.value.isConnected then
    let (self, offline) := self.queueStatus client statusOffline
    let self := self.otherPublishes client between
    let (self, disconnect) := self.queueDisconnect client
    ({ self with control := .flushing }, offline ++ disconnect)
  else (self.closed, [])

/-- The body of the main loop for one event. A CONNACK of success resets the backoff and
announces the agent; a fatal error returns from the loop; any other error is followed by a
sleep. -/
def handle (self : Driver) : Except ConnectionError Event → Driver × List DriverOutput
  | .ok (.connAck code _) =>
      if code = .success then
        let self := { self with backoff := self.backoff.reset }
        let self := self.setState .connected
        self.queueStatus client statusOnline
      else (self, [])
  | .ok _ => (self, [])
  | .error e =>
      let reason := rootCause e
      if isFatal e then ((self.setState (.fatalExit reason)).finish (.error (.connection e)), [])
      else
        let (delay, backoff) := self.backoff.nextDelay
        let self := { self with backoff }
        let self := self.setState (.disconnected reason)
        let self := self.setState (.reconnecting delay)
        ({ self with control := .sleeping delay }, [.sleeping delay])

/-- One turn of the wait for the DISCONNECT. -/
def flush (self : Driver) : Except ConnectionError Event → Driver
  | .ok (.outgoing .disconnect) => self.closed
  | .ok _ => self
  | .error _ => self.closed

/-- One step of the driver: the branch that its `select!` takes, or what another task does to
the queue and to the shutdown channel meanwhile. A label that cannot happen in the state is
refused. The two `select!`s are biased, so a requested shutdown comes before a poll. -/
def step (self : Driver) (label : DriverLabel) : Option (Driver × List DriverOutput) :=
  match label, self.control with
  | .signal s, _ =>
      -- The sender is used at most once.
      if self.shutdown = .waiting ∧ s ≠ .waiting then some ({ self with shutdown := s }, [])
      else none
  | .otherPublish p, _ =>
      match client.tryPublish self.queue p with
      | .ok queue => some ({ self with queue }, [])
      | .error _ => some (self, [])
  | .poll taken outcome, .polling =>
      -- `biased`: the shutdown branch goes first.
      if self.shutdown = .waiting then
        some ((self.take taken).handle client rootCause outcome)
      else none
  | .poll taken outcome, .flushing =>
      some ((self.take taken).flush outcome, [])
  | .shutdown between, .polling =>
      if self.shutdown = .waiting then none else some (self.disconnect client between)
  | .shutdown _, .sleeping _ =>
      if self.shutdown = .waiting then none else some (self.finish (.ok ()), [])
  | .woken, .sleeping _ =>
      if self.shutdown = .waiting then some ({ self with control := .polling }, []) else none
  | .graceOver, .flushing => some (self.closed, [])
  | _, _ => none

/-- A poll that reports a successful CONNACK. -/
def Connects (label : DriverLabel) : Prop :=
  ∃ taken present, label = .poll taken (.ok (.connAck .success present))

/-! ### What the steps do -/

section Steps

variable {client rootCause} {self : Driver}

/-- Everything a step can do. Proofs about the driver go through this and do not look into
`step` again. -/
inductive Stepped (client : AsyncClient) (rootCause : ConnectionError → String) (driver : Driver) :
    DriverLabel → Driver × List DriverOutput → Prop where
  | signal {s : ShutdownSignal} : driver.shutdown = .waiting → s ≠ .waiting →
      Stepped client rootCause driver (.signal s) ({ driver with shutdown := s }, [])
  | otherPublish {p : Publish} (queue : RequestChannel) :
      (client.tryPublish driver.queue p = .ok queue ∨
        queue = driver.queue ∧ ∃ e, client.tryPublish driver.queue p = .error e) →
      Stepped client rootCause driver (.otherPublish p) ({ driver with queue }, [])
  | poll (taken : Nat) (outcome : Except ConnectionError Event) : driver.control = .polling →
      driver.shutdown = .waiting →
      Stepped client rootCause driver (.poll taken outcome)
        ((driver.take taken).handle client rootCause outcome)
  | flush (taken : Nat) (outcome : Except ConnectionError Event) : driver.control = .flushing →
      Stepped client rootCause driver (.poll taken outcome)
        ((driver.take taken).flush outcome, [])
  | shutdown (between : List Publish) : driver.control = .polling → driver.shutdown ≠ .waiting →
      Stepped client rootCause driver (.shutdown between) (driver.disconnect client between)
  | shutdownAsleep {delay : ℚ} (between : List Publish) : driver.control = .sleeping delay →
      driver.shutdown ≠ .waiting →
      Stepped client rootCause driver (.shutdown between) (driver.finish (.ok ()), [])
  | woken {delay : ℚ} : driver.control = .sleeping delay → driver.shutdown = .waiting →
      Stepped client rootCause driver .woken ({ driver with control := .polling }, [])
  | graceOver : driver.control = .flushing →
      Stepped client rootCause driver .graceOver (driver.closed, [])

/-- Every step is one of the listed ones, with the guards that allowed it. -/
theorem cases_of_step {label : DriverLabel} {next : Driver × List DriverOutput}
    (stepped : self.step client rootCause label = some next) :
    Stepped client rootCause self label next := by
  cases label with
  | signal s =>
      simp only [step] at stepped
      split_ifs at stepped with once
      exact Option.some.inj stepped ▸ .signal once.1 once.2
  | otherPublish p =>
      simp only [step] at stepped
      cases sent : client.tryPublish self.queue p with
      | ok queue =>
          simp only [sent] at stepped
          exact Option.some.inj stepped ▸ .otherPublish queue (Or.inl sent)
      | error e =>
          simp only [sent] at stepped
          exact Option.some.inj stepped ▸ .otherPublish self.queue (Or.inr ⟨rfl, e, sent⟩)
  | poll taken outcome =>
      cases control : self.control with
      | polling =>
          simp only [step, control] at stepped
          split_ifs at stepped with waiting
          exact Option.some.inj stepped ▸ .poll taken outcome control waiting
      | flushing =>
          simp only [step, control] at stepped
          exact Option.some.inj stepped ▸ .flush taken outcome control
      | sleeping delay => simp [step, control] at stepped
      | returned result => simp [step, control] at stepped
  | shutdown between =>
      cases control : self.control with
      | polling =>
          simp only [step, control] at stepped
          split_ifs at stepped with waiting
          exact Option.some.inj stepped ▸ .shutdown between control waiting
      | sleeping delay =>
          simp only [step, control] at stepped
          split_ifs at stepped with waiting
          exact Option.some.inj stepped ▸ .shutdownAsleep between control waiting
      | flushing => simp [step, control] at stepped
      | returned result => simp [step, control] at stepped
  | woken =>
      cases control : self.control with
      | sleeping delay =>
          simp only [step, control] at stepped
          split_ifs at stepped with waiting
          exact Option.some.inj stepped ▸ .woken control waiting
      | polling => simp [step, control] at stepped
      | flushing => simp [step, control] at stepped
      | returned result => simp [step, control] at stepped
  | graceOver =>
      cases control : self.control with
      | flushing =>
          simp only [step, control] at stepped
          exact Option.some.inj stepped ▸ .graceOver control
      | polling => simp [step, control] at stepped
      | sleeping delay => simp [step, control] at stepped
      | returned result => simp [step, control] at stepped

/-- A polling driver without a shutdown signal handles whatever its event loop reports. -/
theorem step_poll (control : self.control = .polling) (waiting : self.shutdown = .waiting)
    (taken : Nat) (outcome : Except ConnectionError Event) :
    self.step client rootCause (.poll taken outcome) =
      some ((self.take taken).handle client rootCause outcome) := by
  simp [step, control, waiting]

/-- A sleeping driver without a shutdown signal goes back to polling. -/
theorem step_woken {delay : ℚ} (control : self.control = .sleeping delay)
    (waiting : self.shutdown = .waiting) :
    self.step client rootCause .woken = some ({ self with control := .polling }, []) := by
  simp [step, control, waiting]

/-- The kinds of outcomes that the main loop tells apart. -/
inductive Outcome : Except ConnectionError Event → Prop where
  | success (present : Bool) : Outcome (.ok (.connAck .success present))
  | other {event : Event} : (∀ present, event ≠ .connAck .success present) → Outcome (.ok event)
  | fatal {e : ConnectionError} : isFatal e = true → Outcome (.error e)
  | recoverable {e : ConnectionError} : isFatal e = false → Outcome (.error e)

/-- Every outcome of a poll is of one of these kinds. -/
theorem outcome_cases (outcome : Except ConnectionError Event) : Outcome outcome := by
  cases outcome with
  | error e =>
      cases fatal : isFatal e with
      | true => exact .fatal fatal
      | false => exact .recoverable fatal
  | ok event =>
      by_cases success : ∃ present, event = .connAck .success present
      · obtain ⟨present, rfl⟩ := success
        exact .success present
      · exact .other fun present same => success ⟨present, same⟩

/-- A successful CONNACK resets the backoff, shows the connection and offers `online`, in
this order. -/
theorem handle_success (self : Driver) (present : Bool) :
    self.handle client rootCause (.ok (.connAck .success present)) =
      queueStatus client
        { self with backoff := self.backoff.reset, state := self.state.setState .connected }
        statusOnline := by
  simp [handle, setState]

/-- Every other event is left to the event loop. -/
theorem handle_other (self : Driver) {event : Event}
    (other : ∀ present, event ≠ .connAck .success present) :
    self.handle client rootCause (.ok event) = (self, []) := by
  cases event with
  | connAck code present =>
      have refused : code ≠ .success := by
        rintro rfl
        exact other present rfl
      simp [handle, refused]
  | otherIncoming => rfl
  | outgoing o => rfl

/-- An error that a new connection cannot fix ends the driver with it. -/
theorem handle_fatal (self : Driver) {e : ConnectionError} (fatal : isFatal e = true) :
    self.handle client rootCause (.error e) =
      ((self.setState (.fatalExit (rootCause e))).finish (.error (.connection e)), []) := by
  simp [handle, fatal]

/-- A recoverable error: the driver announces the delay and sleeps. -/
theorem handle_recoverable (self : Driver) {e : ConnectionError} (recoverable : isFatal e = false) :
    self.handle client rootCause (.error e) =
      ({ self with
          backoff := self.backoff.nextDelay.2
          state := (self.state.setState (.disconnected (rootCause e))).setState
            (.reconnecting self.backoff.nextDelay.1)
          control := .sleeping self.backoff.nextDelay.1 },
        [.sleeping self.backoff.nextDelay.1]) := by
  simp [handle, recoverable, setState]

/-! ### What the client calls leave alone -/

/-- A status message changes the content of the queue at most. -/
theorem queueStatus_frame (client : AsyncClient) (self : Driver) (text : String) :
    ∃ queue, queue.capacity = self.queue.capacity ∧
      (self.queueStatus client text).1 = { self with queue } := by
  simp only [queueStatus]
  cases taken : client.tryPublish self.queue (statusMessage self.statusTopic text) with
  | ok queue => exact ⟨queue, client.capacity_tryPublish taken, rfl⟩
  | error e => exact ⟨self.queue, rfl, rfl⟩

/-- A DISCONNECT changes the content of the queue at most. -/
theorem queueDisconnect_frame (client : AsyncClient) (self : Driver) :
    ∃ queue, queue.capacity = self.queue.capacity ∧
      (self.queueDisconnect client).1 = { self with queue } := by
  unfold queueDisconnect
  cases taken : client.tryDisconnect self.queue with
  | ok queue => exact ⟨queue, client.capacity_tryDisconnect taken, rfl⟩
  | error e => exact ⟨self.queue, rfl, rfl⟩

/-- Other handles change the content of the queue at most. -/
theorem otherPublishes_frame (client : AsyncClient) (self : Driver) (others : List Publish) :
    ∃ queue, queue.capacity = self.queue.capacity ∧
      self.otherPublishes client others = { self with queue } := by
  induction others generalizing self with
  | nil => exact ⟨self.queue, rfl, rfl⟩
  | cons p rest ih =>
      unfold otherPublishes
      cases taken : client.tryPublish self.queue p with
      | ok queue =>
          obtain ⟨queue', capacity, after⟩ := ih { self with queue }
          exact ⟨queue', capacity.trans (client.capacity_tryPublish taken), after⟩
      | error e => exact ih self

/-- With a live connection `disconnect` only queues requests, and waits. -/
theorem disconnect_connected (client : AsyncClient) (between : List Publish)
    (connected : self.state.value.isConnected = true) :
    ∃ queue, queue.capacity = self.queue.capacity ∧
      (self.disconnect client between).1 = { self with queue, control := .flushing } := by
  obtain ⟨first, capacity₁, offline⟩ := queueStatus_frame client self statusOffline
  obtain ⟨second, capacity₂, others⟩ :=
    otherPublishes_frame client { self with queue := first } between
  obtain ⟨third, capacity₃, last⟩ := queueDisconnect_frame client { self with queue := second }
  refine ⟨third, capacity₃.trans (capacity₂.trans capacity₁), ?_⟩
  simp [disconnect, connected, offline, others, last]

/-- Without a connection there is no farewell: the driver just returns. -/
theorem disconnect_unconnected (client : AsyncClient) (between : List Publish)
    (unconnected : self.state.value.isConnected = false) :
    self.disconnect client between = (self.closed, []) := by
  simp [disconnect, unconnected]

/-- What every step leaves alone: the topic of the status, and the capacity of the queue. -/
structure SameSetup (s t : Driver) : Prop where
  statusTopic : t.statusTopic = s.statusTopic
  capacity : t.queue.capacity = s.queue.capacity

/-- No outcome of a poll changes the setup. -/
theorem sameSetup_handle (client : AsyncClient) (rootCause : ConnectionError → String)
    (self : Driver) (outcome : Except ConnectionError Event) :
    SameSetup self (self.handle client rootCause outcome).1 := by
  cases outcome_cases outcome with
  | success present =>
      obtain ⟨queue, capacity, after⟩ := queueStatus_frame client
        { self with backoff := self.backoff.reset, state := self.state.setState .connected }
        statusOnline
      rw [handle_success, after]
      exact ⟨rfl, capacity⟩
  | other other =>
      rw [handle_other _ other]
      exact ⟨rfl, rfl⟩
  | fatal fatal =>
      rw [handle_fatal _ fatal]
      exact ⟨rfl, rfl⟩
  | recoverable recoverable =>
      rw [handle_recoverable _ recoverable]
      exact ⟨rfl, rfl⟩

/-- The shutdown does not change the setup. -/
theorem sameSetup_disconnect (client : AsyncClient) (self : Driver) (between : List Publish) :
    SameSetup self (self.disconnect client between).1 := by
  cases connected : self.state.value.isConnected with
  | true =>
      obtain ⟨queue, capacity, after⟩ := disconnect_connected client between connected
      rw [after]
      exact ⟨rfl, capacity⟩
  | false =>
      rw [disconnect_unconnected client between connected]
      exact ⟨rfl, rfl⟩

/-- No step changes the setup. -/
theorem sameSetup_step {label : DriverLabel} {next : Driver × List DriverOutput}
    (stepped : self.step client rootCause label = some next) : SameSetup self next.1 := by
  cases cases_of_step stepped with
  | signal _ _ => exact ⟨rfl, rfl⟩
  | otherPublish queue sent =>
      rcases sent with taken | ⟨rfl, -⟩
      · exact ⟨rfl, client.capacity_tryPublish taken⟩
      · exact ⟨rfl, rfl⟩
  | poll taken outcome _ _ =>
      obtain ⟨topic, capacity⟩ := sameSetup_handle client rootCause (self.take taken) outcome
      exact ⟨topic, capacity⟩
  | flush taken outcome _ =>
      unfold flush
      split <;> exact ⟨rfl, rfl⟩
  | shutdown between _ _ => exact sameSetup_disconnect client self between
  | shutdownAsleep between _ _ => exact ⟨rfl, rfl⟩
  | woken _ _ => exact ⟨rfl, rfl⟩
  | graceOver _ => exact ⟨rfl, rfl⟩

end Steps

/-- The driver that `Transport::connect` spawns, given a seed for the jitter. Before there is
one the configuration is validated again and the certificates are read. -/
def connect (isFile : String → Bool) (readFile : String → Except IoError (List UInt8))
    (seed : UInt64) (config : Config) : Except TransferError (MqttOptions × Driver) := do
  (config.validate isFile).mapError .config
  let options ← buildOptions readFile config
  return (options, {
    statusTopic := joinTopic config.baseTopic "status"
    backoff := Backoff.default seed
    state := Watch.init .connecting
    shutdown := .waiting
    queue := Channel.empty config.requestChannelCapacity.toNat
    control := .polling })

/-- A transport is only built from an accepted configuration. -/
theorem connect_eq_ok {isFile : String → Bool} {readFile : String → Except IoError (List UInt8)}
    {seed : UInt64} {config : Config} {options : MqttOptions} {self : Driver}
    (connected : connect isFile readFile seed config = .ok (options, self)) :
    config.validate isFile = .ok () ∧ buildOptions readFile config = .ok options ∧
      self = {
        statusTopic := joinTopic config.baseTopic "status"
        backoff := Backoff.default seed
        state := Watch.init .connecting
        shutdown := .waiting
        queue := Channel.empty config.requestChannelCapacity.toNat
        control := .polling } := by
  obtain ⟨valid, rest⟩ := bind_unit_eq_ok_iff.mp connected
  obtain ⟨options', built, made⟩ := bind_eq_ok_iff.mp rest
  obtain ⟨rfl, rfl⟩ := Prod.mk.inj (Except.ok.inj made)
  exact ⟨mapError_eq_ok_iff.mp valid, built, rfl⟩

/-- The last will: `offline`, retained, on the status topic. -/
theorem lastWill_of_buildOptions {readFile : String → Except IoError (List UInt8)}
    {config : Config} {options : MqttOptions} (built : buildOptions readFile config = .ok options) :
    options.lastWill =
      ⟨joinTopic config.baseTopic "status", bytesOf statusOffline, .atLeastOnce, true⟩ := by
  obtain ⟨kind, -, made⟩ := bind_eq_ok_iff.mp built
  obtain rfl := Except.ok.inj made
  rfl

/-- The session settings are passed on. -/
theorem session_of_buildOptions {readFile : String → Except IoError (List UInt8)}
    {config : Config} {options : MqttOptions} (built : buildOptions readFile config = .ok options) :
    options.cleanSession = config.cleanSession ∧ options.inflight = config.maxInflight := by
  obtain ⟨kind, -, made⟩ := bind_eq_ok_iff.mp built
  obtain rfl := Except.ok.inj made
  exact ⟨rfl, rfl⟩

/-- With readable files, every accepted configuration gives a transport. -/
theorem connect_of_readable {isFile : String → Bool} {config : Config}
    (valid : config.validate isFile = .ok ()) (seed : UInt64) :
    ∃ options self, connect isFile (fun _ => .ok []) seed config = .ok (options, self) := by
  have transport : ∃ kind, buildTransport (fun _ => .ok []) config = .ok kind := by
    unfold buildTransport readPath
    cases enabled : config.tls.isEnabled with
    | false => simp [enabled]
    | true =>
        cases ca : config.tls.caCertPath with
        | none => simp [enabled, ca]
        | some path =>
            simp only [enabled, ca, Except.mapError, bind, Except.bind, pure, Except.pure]
            cases config.tls.clientCertPath with
            | none => exact ⟨_, rfl⟩
            | some cert => cases config.tls.clientKeyPath <;> exact ⟨_, rfl⟩
  obtain ⟨kind, transport⟩ := transport
  have built : ∃ options, buildOptions (fun _ => .ok []) config = .ok options := by
    simp [buildOptions, transport, bind, Except.bind, pure, Except.pure]
  obtain ⟨options, built⟩ := built
  unfold connect
  rw [valid, built]
  exact ⟨_, _, rfl⟩

/-- All runs of drivers that some accepted configuration starts, whatever certificates it
reads and whatever its seed is. -/
def system : System Driver DriverLabel DriverOutput where
  start self := ∃ isFile readFile seed config options,
    connect isFile readFile seed config = .ok (options, self)
  step := step client rootCause

end Driver

end BlazeBee.Transport
