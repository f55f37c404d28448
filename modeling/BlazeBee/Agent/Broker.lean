import BlazeBee.Agent.Requests
import BlazeBee.Transport.Retained

/-!
What the retained status of an agent tells the subscribers of a broker.

The process sends its requests in order over the connection that it believes to be open.
The broker accepts connections, receives what is under way, and may find any connection
lost at any time, long before or after the process does. What it makes of its retained
messages then is the parameter `Server`: it keeps the last retained message of a topic, and
publishes the last will of every connection that ends without a DISCONNECT, also of the one
that a new connection takes over.

* `farewell_moves`, `told_step`: a DISCONNECT is never sent before the `offline` of the
  same shutdown.
* `offline_while_closed`: so without an open connection the status is `offline`.
* `online_while_open`: once everything under way has arrived, the status of a connected
  agent is `online`, unless a full queue refused it.
-/

namespace BlazeBee.Agent

open BlazeBee.Lib BlazeBee.Transport BlazeBee.Rumqttc

/-! ### The broker -/

/-- What the broker does to its retained messages, with what MQTT asks of it: a retained
message replaces the one before, a message changes its own topic at most, and a will is
published when its connection is lost or taken over, but not after a DISCONNECT. -/
structure Server where
  /-- It receives a publish. -/
  receives : Transport.Broker → Publish → Transport.Broker
  /-- It finds a connection lost that has registered the will. -/
  loses : Transport.Broker → Publish → Transport.Broker
  /-- The client connects while such a connection is still open. -/
  takesOver : Transport.Broker → Publish → Transport.Broker
  /-- It receives a DISCONNECT. -/
  disconnects : Transport.Broker → Publish → Transport.Broker
  /-- The last retained message stays; an empty one would clear the topic. -/
  receives_retained : ∀ retained p, p.retain = true → p.payload ≠ [] →
    receives retained p p.topic = some p.payload
  receives_other : ∀ retained p topic, topic ≠ p.topic →
    receives retained p topic = retained topic
  loses_will : ∀ retained will, loses retained will = receives retained will
  takesOver_will : ∀ retained will, takesOver retained will = receives retained will
  /-- The will goes with the connection. -/
  disconnects_quietly : ∀ retained will, disconnects retained will = retained

/-- Neither status clears its topic. -/
theorem bytesOf_statusOnline_ne_nil : bytesOf statusOnline ≠ [] := by decide
/-- An empty retained payload would delete the message; the farewell is not empty. -/
theorem bytesOf_statusOffline_ne_nil : bytesOf statusOffline ≠ [] := by decide

namespace Server

/-- The broker that does no more than that. -/
def documented : Server where
  receives retained p := retained.accept (.publish p)
  loses retained will := retained.accept (.publish will)
  takesOver retained will := retained.accept (.publish will)
  disconnects retained _ := retained
  receives_retained retained p retain _ := by simp [Transport.Broker.accept, retain]
  receives_other retained p topic other := by
    simp only [Transport.Broker.accept]
    split_ifs
    · exact Function.update_of_ne other _ _
    · rfl
  loses_will _ _ := rfl
  takesOver_will _ _ := rfl
  disconnects_quietly _ _ := rfl

variable (server : Server)

/-- The requests of a connection that stays open, one after the other. -/
def receivesAll (retained : Transport.Broker) : List Request → Transport.Broker
  | [] => retained
  | .publish p :: rest => receivesAll (server.receives retained p) rest
  | .disconnect :: rest => receivesAll retained rest

/-- The server receives one packet after the other. -/
theorem receivesAll_append (retained : Transport.Broker) (first second : List Request) :
    server.receivesAll retained (first ++ second) =
      server.receivesAll (server.receivesAll retained first) second := by
  induction first generalizing retained with
  | nil => rfl
  | cons r rest ih =>
      cases r with
      | publish p => exact ih _
      | disconnect => exact ih _

/-- A status replaces what was retained on its topic. -/
theorem receives_status (retained : Transport.Broker) (topic : String) {text : String}
    (some_text : bytesOf text ≠ []) :
    server.receives retained (Driver.statusMessage topic text) topic = some (bytesOf text) :=
  server.receives_retained retained (Driver.statusMessage topic text) rfl some_text

/-- It replaces whatever was received before it, too. -/
theorem receivesAll_status (retained : Transport.Broker) (before : List Request) (topic : String)
    {text : String} (some_text : bytesOf text ≠ []) :
    server.receivesAll retained (before ++ [.publish (Driver.statusMessage topic text)]) topic =
      some (bytesOf text) := by
  rw [receivesAll_append]
  exact server.receives_status _ topic some_text

/-- Messages on other topics do not touch what is retained for this one. -/
theorem receivesAll_other {topic : String} {added : List Publish}
    (other : ∀ p ∈ added, p.topic ≠ topic) (retained : Transport.Broker) :
    server.receivesAll retained (added.map Request.publish) topic = retained topic := by
  induction added generalizing retained with
  | nil => rfl
  | cons p rest ih =>
      have here : server.receives retained p topic = retained topic :=
        server.receives_other _ _ _ (other p List.mem_cons_self).symm
      exact (ih (fun q mem => other q (List.mem_cons_of_mem _ mem)) _).trans here

end Server

/-! ### The process and its connection -/

/-- A connection that the broker has accepted and not seen end. -/
structure Connection where
  /-- The process has not received the CONNACK. -/
  answering : Bool
  /-- Sent by the process and not received, the oldest first. -/
  wire : List Request

/-- What a step of the process does to the connection: an error makes it forget an
answer under way, but what it has sent may still arrive. -/
def Connection.after {Memory Value : Type} (c : Connection) (s : Process Memory) :
    ProcessLabel Value → Connection
  | .connAck _ | .failed _ => { c with answering := false }
  | .transmitted => { c with wire := c.wire ++ s.toSend.take 1 }
  | _ => c

/-- The process, and the broker with its connection to the process. What is on the wire has
left the process and may never arrive. -/
structure World (Memory : Type) where
  process : Process Memory
  connection : Option Connection
  retained : Transport.Broker
  /-- The broker has accepted some connection; no party looks at this. -/
  met : Bool

/-- What may happen next: a step of the process, or one of the broker. -/
inductive WorldLabel (Value : Type) where
  | process (label : ProcessLabel Value)
  /-- The broker accepts a connection; one that is still open is taken over. -/
  | accepts
  /-- The broker receives the oldest packet under way. -/
  | receives
  /-- The broker finds the connection lost. -/
  | loses

namespace World

variable {Memory Value : Type}

/-- The will that the process registered. -/
def will (w : World Memory) : Publish :=
  let will := w.process.options.lastWill
  ⟨will.topic, will.qos, will.retain, will.message⟩

/-- A CONNACK comes from a connection that has just been accepted. -/
def Answered (w : World Memory) : ProcessLabel Value → Bool
  | .connAck _ => match w.connection with
      | some c => c.answering
      | none => false
  | _ => true

variable (eventLoop : EventLoop Memory) (server : Server) (client : AsyncClient)
  (rootCause : ConnectionError → String) (codecs : Codecs Value)

/-- One step of the world. The process connects only while it has no connection and polls;
the broker receives what it was sent in order, and may lose the connection at any time. A
connection that ends without a DISCONNECT leaves its will. -/
def step (w : World Memory) (label : WorldLabel Value) : Option (World Memory) :=
  match label with
  | .process label =>
      if w.Answered label then
        (w.process.step eventLoop client rootCause codecs label).map fun process =>
          { w with process, connection := w.connection.map fun c => c.after w.process label }
      else none
  | .accepts =>
      if w.process.network = false ∧ w.process.driver.control = .polling then
        some { w with
          connection := some ⟨true, []⟩
          met := true
          retained := match w.connection with
            | some _ => server.takesOver w.retained w.will
            | none => w.retained }
      else none
  | .receives =>
      match w.connection with
      | some ⟨answering, .publish p :: rest⟩ =>
          some { w with
            connection := some ⟨answering, rest⟩
            retained := server.receives w.retained p }
      | some ⟨_, .disconnect :: _⟩ =>
          some { w with connection := none, retained := server.disconnects w.retained w.will }
      | _ => none
  | .loses =>
      match w.connection with
      | some _ => some { w with connection := none, retained := server.loses w.retained w.will }
      | none => none

/-- All runs of a process that the configuration starts, with a broker that has retained
`initial` from before. -/
def system (config : Config) (initial : Transport.Broker) :
    System (World Memory) (WorldLabel Value) Unit where
  start w := (Process.system eventLoop client rootCause codecs config).start w.process ∧
    w.connection = none ∧ w.retained = initial ∧ w.met = false
  step w label := (w.step eventLoop server client rootCause codecs label).map fun t => (t, [])

/-! ### Farewells -/

/-- Received in order, the first DISCONNECT finds `offline` retained. -/
def FarewellFirst (server : Server) (topic : String) : Transport.Broker → List Request → Prop
  | _, [] => True
  | broker, .disconnect :: _ => broker topic = some (bytesOf statusOffline)
  | broker, .publish p :: rest => FarewellFirst server topic (server.receives broker p) rest

section FarewellFirst

variable {server : Server} {topic : String} {broker : Transport.Broker} {requests : List Request}

/-- Without a DISCONNECT there is nothing for the farewell to precede. -/
theorem farewellFirst_of_notMem (none_left : Request.disconnect ∉ requests) :
    FarewellFirst server topic broker requests := by
  induction requests generalizing broker with
  | nil => trivial
  | cons r rest ih =>
      cases r with
      | disconnect => exact absurd List.mem_cons_self none_left
      | publish p => exact ih fun mem => none_left (List.mem_cons_of_mem _ mem)

/-- What comes later does not change what the farewell precedes. -/
theorem farewellFirst_of_append {more : List Request}
    (first : FarewellFirst server topic broker (requests ++ more)) :
    FarewellFirst server topic broker requests := by
  induction requests generalizing broker with
  | nil => trivial
  | cons r rest ih =>
      cases r with
      | disconnect => exact first
      | publish p => exact ih first

/-- Publishes behind a farewell change nothing. -/
theorem farewellFirst_append_publishes (first : FarewellFirst server topic broker requests)
    (added : List Publish) :
    FarewellFirst server topic broker (requests ++ added.map Request.publish) := by
  induction requests generalizing broker with
  | nil =>
      refine farewellFirst_of_notMem fun mem => ?_
      obtain ⟨p, -, same⟩ := List.mem_map.mp mem
      cases same
  | cons r rest ih =>
      cases r with
      | disconnect => exact first
      | publish p => exact ih first

/-- The farewell of the driver, as far as there is room for it. -/
theorem farewellFirst_farewell (none_before : Request.disconnect ∉ requests) (room : Nat) :
    FarewellFirst server topic broker
      (requests ++ [Driver.offline topic, Request.disconnect].take room) := by
  induction requests generalizing broker with
  | nil =>
      match room with
      | 0 => trivial
      | 1 => trivial
      | n + 2 => exact server.receives_status broker topic bytesOf_statusOffline_ne_nil
  | cons r rest ih =>
      cases r with
      | disconnect => exact absurd List.mem_cons_self none_before
      | publish p => exact ih fun mem => none_before (List.mem_cons_of_mem _ mem)

end FarewellFirst

/-! ### Where the process stands -/

section Process

variable {server codecs} {config : Config} {s t : Process Memory} {label : ProcessLabel Value}

/-- A process that counts on a connection has had its CONNACK. -/
structure OnNetwork (s : Process Memory) : Prop where
  connected : s.driver.state.value = .connected → s.network = true
  flushing : s.driver.control = .flushing → s.network = true
  asleep : ∀ delay, s.driver.control = .sleeping delay → s.network = false

/-- Every step keeps the network in line with where the driver is: up while it is connected
or flushes, down while it sleeps. -/
theorem onNetwork_moves (on : OnNetwork s) (moves : s.Moves codecs t label) : OnNetwork t := by
  cases moves with
  | connects _ network _ polling =>
      exact ⟨fun _ => network, fun _ => network, fun _ asleep => by cases polling.symm.trans asleep⟩
  | ignores _ network _ flushing =>
      exact ⟨fun _ => network, fun _ => network,
        fun _ asleep => by cases flushing.symm.trans asleep⟩
  | fails network lost flushing =>
      exact ⟨fun live => absurd live lost, fun same => absurd same flushing, fun _ _ => network⟩
  | sends before network _ _ onward =>
      refine ⟨fun _ => network, fun _ => network, fun delay asleep => ?_⟩
      cases before.symm.trans (on.asleep delay (onward.asleep delay asleep))
  | farewell network _ connected flushing =>
      have live : t.network = true := network.trans (on.connected connected)
      exact ⟨fun _ => live, fun _ => live, fun _ asleep => by cases flushing.symm.trans asleep⟩
  | samples network control state =>
      exact ⟨fun live => network.trans (on.connected (state.symm.trans live)),
        fun same => network.trans (on.flushing (control.symm.trans same)),
        fun delay asleep => network.trans (on.asleep delay (control.symm.trans asleep))⟩
  | quiet _ network _ _ _ onward =>
      exact ⟨fun live => network.trans (on.connected (onward.connected live)),
        fun same => network.trans (on.flushing (onward.flushing same)),
        fun delay asleep => network.trans (on.asleep delay (onward.asleep delay asleep))⟩

/-- The main loop is never entered again. -/
theorem looping_of_moves (moves : s.Moves codecs t label) (loops : t.driver.Looping) :
    s.driver.Looping := by
  cases moves with
  | connects _ _ polling => exact Or.inl polling
  | ignores _ _ _ flushing => exact absurd loops (Driver.not_looping_of_flushing flushing)
  | fails _ _ _ _ looping => exact looping loops
  | sends _ _ _ _ onward => exact onward.looping loops
  | farewell _ _ _ flushing => exact absurd loops (Driver.not_looping_of_flushing flushing)
  | samples _ control =>
      unfold Driver.Looping at loops ⊢
      rwa [← control]
  | quiet _ _ _ _ _ onward => exact onward.looping loops

/-- What is still to be sent over the connection that the process has. -/
def reaching (s : Process Memory) : List Request := if s.network then s.toSend else []

/-- Before the end of the main loop there is no DISCONNECT anywhere. -/
theorem disconnect_notMem_reaching (known : s.Known codecs config) (loops : s.driver.Looping) :
    Request.disconnect ∉ reaching s := by
  intro mem
  unfold reaching at mem
  split_ifs at mem
  · exact known.disconnect (List.mem_append_right _ mem) loops
  · cases mem

/-- A calm step puts nothing on the wire. -/
theorem wire_after (c : Connection) (s : Process Memory) (calm : Process.Calm label = true) :
    (c.after s label).wire = c.wire := by
  cases label with
  | transmitted => cases calm
  | connAck present => rfl
  | failed e => rfl
  | event event index => rfl
  | driver label => rfl
  | sampled value => rfl
  | scheduler label => rfl

/-- Whatever the process does, its next DISCONNECT comes behind an `offline`. -/
theorem farewell_moves {topic : String} {broker : Transport.Broker} {c : Connection}
    (on : OnNetwork s) (known : s.Known codecs config) (known' : t.Known codecs config)
    (statusTopic : s.driver.statusTopic = topic)
    (none_sent : s.driver.Looping → Request.disconnect ∉ c.wire)
    (first : FarewellFirst server topic broker (c.wire ++ reaching s))
    (moves : s.Moves codecs t label) :
    FarewellFirst server topic broker ((c.after s label).wire ++ reaching t) := by
  cases moves with
  | connects _ _ polling polling' =>
      refine farewellFirst_of_notMem fun mem => ?_
      rcases List.mem_append.mp mem with sent | next
      · exact none_sent (Or.inl polling) sent
      · exact disconnect_notMem_reaching known' (Or.inl polling') next
  | ignores down _ flushing => exact absurd ((on.flushing flushing).symm.trans down) (by simp)
  | fails down =>
      have nothing : reaching t = [] := by simp [reaching, down]
      rw [nothing, List.append_nil]
      exact farewellFirst_of_append first
  | sends up up' oldest =>
      have one : s.toSend.take 1 ++ t.toSend = s.toSend := by rw [oldest]; rfl
      simp only [reaching, up, up', if_true] at first ⊢
      rw [Connection.after, List.append_assoc, one]
      exact first
  | farewell network polling connected _ _ pending items =>
      have up := on.connected connected
      have before : reaching t = reaching s ++
          [Driver.offline topic, Request.disconnect].take s.driver.queue.room := by
        simp only [reaching, network, up, if_true, Process.toSend, pending, items, statusTopic,
          List.append_assoc]
      rw [before, ← List.append_assoc]
      refine farewellFirst_farewell (fun mem => ?_) _
      rcases List.mem_append.mp mem with sent | next
      · exact none_sent (Or.inl polling) sent
      · exact disconnect_notMem_reaching known (Or.inl polling) next
  | @samples _ _ added network _ _ _ pending _ _ items =>
      have more : reaching t = reaching s ∨
          reaching t = reaching s ++ added.map Request.publish := by
        cases up : s.network with
        | false => exact Or.inl (by simp [reaching, network, up])
        | true =>
            refine Or.inr ?_
            simp [reaching, network, up, Process.toSend, pending, items]
      rcases more with same | grown
      · rw [same]
        exact first
      · rw [grown, ← List.append_assoc]
        exact farewellFirst_append_publishes first added
  | quiet calm network pending items =>
      have next : reaching t = reaching s := by
        simp only [reaching, Process.toSend, network, pending, items]
      rw [wire_after c s calm, next]
      exact first

end Process

/-! ### What the steps do -/

variable {eventLoop server client rootCause codecs} {config : Config}
  {initial : Transport.Broker} {w v : World Memory}

/-- Everything a step can do. -/
inductive Stepped (eventLoop : EventLoop Memory) (server : Server) (client : AsyncClient)
    (rootCause : ConnectionError → String) (codecs : Codecs Value) (w : World Memory) :
    WorldLabel Value → World Memory → Prop where
  | process {label : ProcessLabel Value} {process : Process Memory} : w.Answered label = true →
      w.process.step eventLoop client rootCause codecs label = some process →
      Stepped eventLoop server client rootCause codecs w (.process label)
        { w with process, connection := w.connection.map fun c => c.after w.process label }
  | accepts : w.process.network = false → w.process.driver.control = .polling →
      w.connection = none → Stepped eventLoop server client rootCause codecs w .accepts
        { w with connection := some ⟨true, []⟩, met := true }
  | takesOver {c : Connection} : w.process.network = false →
      w.process.driver.control = .polling → w.connection = some c →
      Stepped eventLoop server client rootCause codecs w .accepts
        { w with
          connection := some ⟨true, []⟩
          met := true
          retained := server.takesOver w.retained w.will }
  | receives {answering : Bool} {p : Publish} {rest : List Request} :
      w.connection = some ⟨answering, .publish p :: rest⟩ →
      Stepped eventLoop server client rootCause codecs w .receives
        { w with
          connection := some ⟨answering, rest⟩
          retained := server.receives w.retained p }
  | disconnected {answering : Bool} {rest : List Request} :
      w.connection = some ⟨answering, .disconnect :: rest⟩ →
      Stepped eventLoop server client rootCause codecs w .receives
        { w with connection := none, retained := server.disconnects w.retained w.will }
  | loses {c : Connection} : w.connection = some c →
      Stepped eventLoop server client rootCause codecs w .loses
        { w with connection := none, retained := server.loses w.retained w.will }

/-- Each step is one of these. -/
theorem cases_of_step {label : WorldLabel Value}
    (stepped : w.step eventLoop server client rootCause codecs label = some v) :
    Stepped eventLoop server client rootCause codecs w label v := by
  cases label with
  | process label =>
      simp only [step] at stepped
      split_ifs at stepped with answered
      obtain ⟨process, moved, rfl⟩ := Option.map_eq_some_iff.mp stepped
      exact .process answered moved
  | accepts =>
      simp only [step] at stepped
      split_ifs at stepped with ready
      cases connection : w.connection with
      | none =>
          simp only [connection] at stepped
          exact Option.some.inj stepped ▸ .accepts ready.1 ready.2 connection
      | some c =>
          simp only [connection] at stepped
          exact Option.some.inj stepped ▸ .takesOver ready.1 ready.2 connection
  | receives =>
      simp only [step] at stepped
      split at stepped
      · next connection => exact Option.some.inj stepped ▸ .receives connection
      · next connection => exact Option.some.inj stepped ▸ .disconnected connection
      · cases stepped
  | loses =>
      simp only [step] at stepped
      split at stepped
      · next connection => exact Option.some.inj stepped ▸ .loses connection
      · cases stepped

/-! ### The status of a closed connection -/

/-- What the broker has been told: the status is `offline` whenever no connection is open,
and stays so to the end of whatever is under way. A connection ends with a farewell that came
through, or with the will. -/
structure Told (server : Server) (codecs : Codecs Value) (config : Config)
    (initial : Transport.Broker) (w : World Memory) : Prop where
  configured : w.process.Configured config
  known : w.process.Known codecs config
  onNetwork : OnNetwork w.process
  none_sent : w.process.driver.Looping →
    ∀ c, w.connection = some c → Request.disconnect ∉ c.wire
  first : ∀ c, w.connection = some c →
    FarewellFirst server config.statusTopic w.retained (c.wire ++ reaching w.process)
  met : ∀ c, w.connection = some c → w.met = true
  closed : w.connection = none →
    if w.met then w.retained config.statusTopic = some (bytesOf statusOffline)
    else w.retained = initial

/-- The will says `offline`. -/
theorem receives_will (configured : w.process.Configured config) (retained : Transport.Broker) :
    server.receives retained w.will config.statusTopic = some (bytesOf statusOffline) := by
  have will : w.will = Driver.statusMessage config.statusTopic statusOffline := by
    simp only [World.will, configured.will]
    rfl
  rw [will]
  exact server.receives_status retained config.statusTopic bytesOf_statusOffline_ne_nil

/-- A step of the process keeps what the broker has been told. -/
theorem told_process (told : Told server codecs config initial w) {label : ProcessLabel Value}
    {process : Process Memory}
    (moved : w.process.step eventLoop client rootCause codecs label = some process) :
    Told server codecs config initial { w with
      process, connection := w.connection.map fun c => c.after w.process label } := by
  obtain ⟨configured, known, onNetwork, none_sent, first, met, closed⟩ := told
  have moves := Process.moves_of_step configured.valid configured.shared moved
  have known' := Process.known_moves configured known moves
  refine ⟨Process.configured_step configured moved, known', onNetwork_moves onNetwork moves,
    ?_, ?_, ?_, ?_⟩
  · intro loops c connection mem
    obtain ⟨before, connected, rfl⟩ := Option.map_eq_some_iff.mp connection
    have looping := looping_of_moves moves loops
    cases moves with
    | sends _ _ oldest =>
        rw [Connection.after, oldest, List.take_succ_cons, List.take_zero] at mem
        rcases List.mem_append.mp mem with sent | next
        · exact none_sent looping before connected sent
        · refine known.disconnect (Process.mem_requests_of_toSend ?_) looping
          rw [oldest, List.mem_singleton.mp next]
          exact List.mem_cons_self
    | connects => exact none_sent looping before connected mem
    | ignores => exact none_sent looping before connected mem
    | fails => exact none_sent looping before connected mem
    | farewell => exact none_sent looping before connected mem
    | samples => exact none_sent looping before connected mem
    | quiet calm =>
        rw [wire_after before w.process calm] at mem
        exact none_sent looping before connected mem
  · intro c connection
    obtain ⟨before, connected, rfl⟩ := Option.map_eq_some_iff.mp connection
    exact farewell_moves onNetwork known known' configured.statusTopic
      (fun loops => none_sent loops before connected) (first before connected) moves
  · intro c connection
    obtain ⟨before, connected, -⟩ := Option.map_eq_some_iff.mp connection
    exact met before connected
  · intro connection
    exact closed (Option.map_eq_none_iff.mp connection)

/-- So does every other step. -/
theorem told_step (told : Told server codecs config initial w) {label : WorldLabel Value}
    (stepped : w.step eventLoop server client rootCause codecs label = some v) :
    Told server codecs config initial v := by
  obtain ⟨configured, known, onNetwork, none_sent, first, met, closed⟩ := id told
  -- A connection that has just been accepted has nothing under way, and no network yet.
  have fresh : ∀ {retained : Transport.Broker} {c : Connection}, w.process.network = false →
      some ⟨true, []⟩ = some c →
      FarewellFirst server config.statusTopic retained (c.wire ++ reaching w.process) := by
    intro retained c down same
    obtain rfl := Option.some.inj same
    simp [reaching, down, FarewellFirst]
  have empty : ∀ {c : Connection}, some ⟨true, []⟩ = some c → Request.disconnect ∉ c.wire := by
    intro c same
    obtain rfl := Option.some.inj same
    exact List.not_mem_nil
  cases cases_of_step stepped with
  | process answered moved => exact told_process told moved
  | accepts down polling none_open =>
      exact ⟨configured, known, onNetwork, fun _ _ same => empty same,
        fun _ same => fresh down same, fun _ _ => rfl, fun none_left => nomatch none_left⟩
  | takesOver down polling connection =>
      exact ⟨configured, known, onNetwork, fun _ _ same => empty same,
        fun _ same => fresh down same, fun _ _ => rfl, fun none_left => nomatch none_left⟩
  | @receives answering p rest connection =>
      refine ⟨configured, known, onNetwork, fun loops c same mem => ?_, fun c same => ?_,
        fun _ _ => met _ connection, fun none_left => nomatch none_left⟩
      · obtain rfl := Option.some.inj same
        exact none_sent loops _ connection (List.mem_cons_of_mem _ mem)
      · obtain rfl := Option.some.inj same
        exact first _ connection
  | disconnected connection =>
      refine ⟨configured, known, onNetwork, fun _ _ none_open => (nomatch none_open),
        fun _ none_open => (nomatch none_open), fun _ none_open => (nomatch none_open), fun _ => ?_⟩
      rw [if_pos (met _ connection), server.disconnects_quietly]
      exact first _ connection
  | loses connection =>
      refine ⟨configured, known, onNetwork, fun _ _ none_open => (nomatch none_open),
        fun _ none_open => (nomatch none_open), fun _ none_open => (nomatch none_open), fun _ => ?_⟩
      rw [if_pos (met _ connection), server.loses_will]
      exact receives_will configured w.retained

/-- At the start the server has been told nothing. -/
theorem told_start
    (started : (system eventLoop server client rootCause codecs config initial).start w) :
    Told server codecs config initial w := by
  obtain ⟨process, connection, retained, met⟩ := started
  have none_open : ∀ c, w.connection ≠ some c := by simp [connection]
  obtain ⟨isFile, readFile, seed, pos, now, connected, -⟩ := id process
  obtain ⟨-, -, driver⟩ := Driver.connect_eq_ok connected
  refine ⟨Process.configured_start process, Process.known_start process, ⟨?_, ?_, ?_⟩,
    fun _ c same => absurd same (none_open c), fun c same => absurd same (none_open c),
    fun c same => absurd same (none_open c), fun _ => ?_⟩
  · rw [driver]
    exact fun same => nomatch same
  · rw [driver]
    exact fun same => nomatch same
  · rw [driver]
    exact fun _ same => nomatch same
  · rw [met]
    exact retained

/-- Whatever happened, the server was told of a closed connection by the will or by a
farewell. -/
theorem told_of_reachable
    (reachable : (system eventLoop server client rootCause codecs config initial).Reachable w) :
    Told server codecs config initial w := by
  refine reachable.invariant (I := Told server codecs config initial)
    (fun s started => told_start started) ?_
  intro s label t out told stepped
  obtain ⟨v', stepped', same⟩ := Option.map_eq_some_iff.mp stepped
  obtain ⟨rfl, -⟩ := Prod.mk.inj same
  exact told_step told stepped'

/-- Whenever the broker has no open connection to the agent, the retained status is
`offline`, or no connection was ever accepted and nothing has been touched: a subscriber
never takes an agent that is gone for one that is there. -/
theorem offline_while_closed
    (reachable : (system eventLoop server client rootCause codecs config initial).Reachable w)
    (closed : w.connection = none) :
    if w.met then w.retained config.statusTopic = some (bytesOf statusOffline)
    else w.retained = initial :=
  (told_of_reachable reachable).closed closed

/-- The runs of a process with one collector, and a broker that has retained nothing. -/
abbrev cleanSystem : System (World Unit) (WorldLabel (List UInt8)) Unit :=
  system .documented .documented .documented (fun _ => "timeout") letterCodecs
    Process.cleanCollector fun _ => none

/-- That process, before any connection. -/
def cleanWorld : World Unit := ⟨Process.cleanProcess, none, fun _ => none, false⟩

/-- The world of the examples is one that the system starts in. -/
theorem cleanWorld_starts : cleanSystem.start cleanWorld :=
  ⟨Process.cleanProcess_starts _ _, rfl, rfl, rfl⟩

/-- A connection is accepted, and found lost before its CONNACK arrives. -/
theorem offline_while_closed_lost :
    ∃ v, cleanSystem.run cleanWorld [.accepts, .loses] = some (v, []) ∧
      v.retained Process.cleanCollector.statusTopic = some (bytesOf statusOffline) := by
  have ran : cleanSystem.run cleanWorld [.accepts, .loses] = some (_, []) := rfl
  have reachable := (System.Reachable.start cleanWorld_starts).run ran
  exact ⟨_, ran, offline_while_closed reachable rfl⟩

/-! ### The status of an open connection -/

/-- At a CONNACK the queue has room for one more request. -/
def AnswerFits (w : World Memory) : WorldLabel Value → Prop
  | .process (.connAck _) => 0 < w.process.driver.queue.room
  | _ => True

/-- Once everything under way has arrived, the status is `online`. -/
def Announced (server : Server) (topic : String) (w : World Memory) : Prop :=
  w.process.network = true → w.process.driver.control = .polling →
    ∀ c, w.connection = some c →
      server.receivesAll w.retained (c.wire ++ w.process.toSend) topic =
        some (bytesOf statusOnline)

/-- A step of the process keeps the announcement. -/
theorem announced_process (told : Told server codecs config initial w)
    (apart : ∀ entry ∈ config.metrics.enabled, config.topicOf entry ≠ config.statusTopic)
    (announced : Announced server config.statusTopic w) {label : ProcessLabel Value}
    (fits : w.AnswerFits (.process label)) {process : Process Memory}
    (moved : w.process.step eventLoop client rootCause codecs label = some process) :
    Announced server config.statusTopic { w with
      process, connection := w.connection.map fun c => c.after w.process label } := by
  obtain ⟨configured, -, onNetwork, -⟩ := told
  have topic := configured.statusTopic
  intro network polling c connection
  obtain ⟨before, connected, rfl⟩ := Option.map_eq_some_iff.mp connection
  cases Process.moves_of_step configured.valid configured.shared moved with
  | connects down up _ _ _ _ pending items =>
      obtain ⟨n, room⟩ : ∃ n, w.process.driver.queue.room = n + 1 :=
        ⟨_, (Nat.succ_pred_eq_of_pos fits).symm⟩
      have last : before.wire ++ process.toSend =
          before.wire ++ process.pending ++ w.process.driver.queue.items ++
            [Driver.online config.statusTopic] := by
        simp [Process.toSend, items, room, topic]
      have retained := server.receivesAll_status w.retained
        (before.wire ++ process.pending ++ w.process.driver.queue.items) config.statusTopic
        bytesOf_statusOnline_ne_nil
      exact (congrArg (fun all => server.receivesAll w.retained all config.statusTopic)
        last).trans retained
  | ignores _ _ _ flushing => cases flushing.symm.trans polling
  | fails down => cases down.symm.trans network
  | sends up _ oldest _ _ stays =>
      have same : before.wire ++ w.process.toSend.take 1 ++ process.toSend =
          before.wire ++ w.process.toSend := by
        rw [oldest]
        simp
      exact (congrArg (fun all => server.receivesAll w.retained all config.statusTopic) same).trans
        (announced up (stays polling) before connected)
  | farewell _ _ _ flushing => cases flushing.symm.trans polling
  | @samples _ _ added same control _ _ pending inside planned items =>
      have grown : before.wire ++ process.toSend =
          (before.wire ++ w.process.toSend) ++ added.map Request.publish := by
        simp [Process.toSend, pending, items]
      have other : ∀ p ∈ added, p.topic ≠ config.statusTopic := by
        intro p mem
        rw [configured.metadata] at inside
        obtain ⟨entry, enabled, rfl⟩ := List.mem_map.mp inside
        rcases planned with rfl | ⟨plan, planned, prefix_of⟩
        · cases mem
        · rw [(Process.sampleMessage_of_plan configured planned (prefix_of.subset mem)).topic]
          exact apart entry enabled
      have told := announced (same.symm.trans network) (control.symm.trans polling) before connected
      calc server.receivesAll w.retained (before.wire ++ process.toSend) config.statusTopic
          = server.receivesAll (server.receivesAll w.retained (before.wire ++ w.process.toSend))
              (added.map Request.publish) config.statusTopic := by
            rw [grown, server.receivesAll_append]
        _ = server.receivesAll w.retained (before.wire ++ w.process.toSend) config.statusTopic :=
            server.receivesAll_other other _
        _ = some (bytesOf statusOnline) := told
  | quiet calm same pending items _ onward loops =>
      have toSend : process.toSend = w.process.toSend := by
        rw [Process.toSend, pending, items, Process.toSend]
      have up : w.process.network = true := same.symm.trans network
      have stays : w.process.driver.control = .polling := by
        rcases loops polling with still | ⟨delay, asleep⟩
        · exact still
        · cases (onNetwork.asleep delay asleep).symm.trans up
      rw [wire_after before w.process calm]
      exact (congrArg
        (fun all => server.receivesAll w.retained (before.wire ++ all) config.statusTopic)
        toSend).trans (announced up stays before connected)

/-- Every step keeps the retained status in line with what was announced, as long as the
answers of the server fit and no collector publishes on the status topic. -/
theorem announced_step (told : Told server codecs config initial w)
    (apart : ∀ entry ∈ config.metrics.enabled, config.topicOf entry ≠ config.statusTopic)
    (announced : Announced server config.statusTopic w) {label : WorldLabel Value}
    (fits : w.AnswerFits label)
    (stepped : w.step eventLoop server client rootCause codecs label = some v) :
    Announced server config.statusTopic v := by
  cases cases_of_step stepped with
  | process answered moved => exact announced_process told apart announced fits moved
  | accepts down => exact fun up => by cases down.symm.trans up
  | takesOver down => exact fun up => by cases down.symm.trans up
  | receives connection =>
      intro up polling c same
      obtain rfl := Option.some.inj same
      exact announced up polling _ connection
  | disconnected connection => exact fun _ _ _ none_open => (nomatch none_open)
  | loses connection => exact fun _ _ _ none_open => (nomatch none_open)

/-- In every run in which each CONNACK finds room in the request queue, and no collector
publishes on the status topic: while the agent is connected and the broker has its
connection open, the status becomes `online` as soon as everything under way arrives. -/
theorem online_while_open
    (apart : ∀ entry ∈ config.metrics.enabled, config.topicOf entry ≠ config.statusTopic)
    (started : (system eventLoop server client rootCause codecs config initial).start w)
    {labels : List (WorldLabel Value)} {outs : List Unit}
    (ran : (system eventLoop server client rootCause codecs config initial).run w labels =
      some (v, outs))
    (room : (system eventLoop server client rootCause codecs config initial).Meets AnswerFits w
      labels)
    (connected : v.process.driver.state.value = .connected)
    (polling : v.process.driver.control = .polling) {c : Connection}
    (connection : v.connection = some c) :
    server.receivesAll v.retained (c.wire ++ v.process.toSend) config.statusTopic =
      some (bytesOf statusOnline) := by
  have start : Told server codecs config initial w ∧ Announced server config.statusTopic w := by
    refine ⟨told_start started, fun _ _ c same => ?_⟩
    rw [started.2.1] at same
    cases same
  have kept : ∀ s label t out,
      Told server codecs config initial s ∧ Announced server config.statusTopic s →
      AnswerFits s label →
      (system eventLoop server client rootCause codecs config initial).step s label =
        some (t, out) →
      (Told server codecs config initial t ∧ Announced server config.statusTopic t) ∧
        ∀ x ∈ out, True := by
    rintro s label t out ⟨told, announced⟩ fits stepped
    obtain ⟨t', stepped', same⟩ := Option.map_eq_some_iff.mp stepped
    obtain ⟨rfl, -⟩ := Prod.mk.inj same
    exact ⟨⟨told_step told stepped', announced_step told apart announced fits stepped'⟩,
      fun _ _ => trivial⟩
  obtain ⟨told, announced⟩ := (System.run_invariant kept start room ran).1
  exact announced (told.onNetwork.connected connected) polling c connection

/-- A connection, a sample, and everything received. -/
def sampledOnce : List (WorldLabel (List UInt8)) :=
  [.accepts, .process (.connAck false), .process (.scheduler .tick), .process (.sampled [1, 2, 3]),
    .process .transmitted, .receives]

/-- A session that samples once, with the status read back from the broker while the sample
is still on its way. -/
theorem online_while_open_sampled :
    ∃ v c, cleanSystem.run cleanWorld sampledOnce = some (v, []) ∧ v.connection = some c ∧
      Server.documented.receivesAll v.retained (c.wire ++ v.process.toSend)
        Process.cleanCollector.statusTopic = some (bytesOf statusOnline) := by
  have ran : cleanSystem.run cleanWorld sampledOnce = some (_, []) := rfl
  have room : cleanSystem.Meets AnswerFits cleanWorld sampledOnce := by
    refine (System.meets_cons_iff rfl).mpr ⟨trivial, ?_⟩
    refine (System.meets_cons_iff rfl).mpr ⟨Nat.succ_pos 63, ?_⟩
    refine (System.meets_cons_iff rfl).mpr ⟨trivial, ?_⟩
    refine (System.meets_cons_iff rfl).mpr ⟨trivial, ?_⟩
    refine (System.meets_cons_iff rfl).mpr ⟨trivial, ?_⟩
    exact (System.meets_cons_iff rfl).mpr ⟨trivial, trivial⟩
  have apart : ∀ entry ∈ Process.cleanCollector.metrics.enabled,
      Process.cleanCollector.topicOf entry ≠ Process.cleanCollector.statusTopic := by decide
  refine ⟨_, _, ran, rfl, ?_⟩
  exact online_while_open apart cleanWorld_starts ran room rfl rfl rfl

end World

end BlazeBee.Agent
