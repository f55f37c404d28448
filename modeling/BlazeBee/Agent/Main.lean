import BlazeBee.Agent.Requests
import BlazeBee.Transport.FinalState

/-!
The running process and its exit code (`main.rs`).

A signal stops it, or it stops by itself when the sampling loop returns. Stopping drops the
loop and asks the transport for a shutdown, for five seconds at most; signals that arrive in
the meantime are swallowed. There is a third end: the loop runs in the main task, and its
ticker panics when the interval, added to the present, lies beyond the clock's `horizon`.

* `exit_code_spec`: which end gives which code.
* `nothing_sampled_after`: once it stops, only the farewell is queued.
-/

namespace BlazeBee.Transport.Driver

open BlazeBee.Lib BlazeBee.Rumqttc

variable {client : AsyncClient} {rootCause : ConnectionError → String} {self : Driver}

/-- A fatal error has ended the driver, and its link says so. -/
def Fatal (rootCause : ConnectionError → String) (self : Driver) : Prop :=
  ∃ e, isFatal e = true ∧ self.control = .returned (.error (.connection e)) ∧
    self.state.value = .fatalExit (rootCause e)

/-- Only the handle asks for a shutdown. -/
theorem shutdown_step {label : DriverLabel} {next : Driver × List DriverOutput}
    (unsignalled : ∀ s, label ≠ .signal s)
    (stepped : self.step client rootCause label = some next) :
    next.1.shutdown = self.shutdown := by
  cases cases_of_step stepped with
  | signal _ _ => exact absurd rfl (unsignalled _)
  | otherPublish queue _ => rfl
  | poll taken outcome _ _ =>
      cases outcome_cases outcome with
      | success present =>
          obtain ⟨queue, -, after⟩ := queueStatus_frame client
            { self.take taken with
              backoff := (self.take taken).backoff.reset
              state := (self.take taken).state.setState .connected } statusOnline
          rw [handle_success, after]
          rfl
      | other other => rw [handle_other _ other]; rfl
      | fatal fatal => rw [handle_fatal _ fatal]; rfl
      | recoverable recoverable => rw [handle_recoverable _ recoverable]; rfl
  | flush taken outcome _ =>
      unfold flush
      split <;> rfl
  | shutdown between _ _ =>
      cases connected : self.state.value.isConnected with
      | true =>
          obtain ⟨queue, -, after⟩ := disconnect_connected client between connected
          rw [after]
      | false => rw [disconnect_unconnected client between connected]; rfl
  | shutdownAsleep between _ _ => rfl
  | woken _ _ => rfl
  | graceOver _ => rfl

end BlazeBee.Transport.Driver

namespace BlazeBee.Agent

open BlazeBee.Lib BlazeBee.Transport BlazeBee.Rumqttc

namespace Scheduler

variable {Value : Type} {self : Scheduler}

/-- The steps for which the ticker adds its period to the present: a reset, and a tick that
is taken more than five milliseconds late. -/
def addsPeriod (self : Scheduler) : SchedulerLabel Value → Bool
  | .changed => decide self.link.Unseen
  | .tick => decide (self.ticker.deadline + 5000000 < self.now)
  | _ => false

end Scheduler

namespace Process

variable {Memory Value : Type} {eventLoop : EventLoop Memory} {client : AsyncClient}
  {rootCause : ConnectionError → String} {codecs : Codecs Value} {config : Config}
  {s t : Process Memory}

/-- Everything held is one of `before` or of one farewell; as long as the driver has not left
its main loop, there is no farewell. -/
structure Winding (topic : String) (before : List Request) (s : Process Memory) : Prop where
  requests : s.requests.Subperm (before ++ [Driver.offline topic, .disconnect])
  looping : s.driver.Looping → s.requests.Subperm before

/-- Losing requests, or leaving the main loop, keeps the bound. -/
theorem Winding.shrink {topic : String} {before : List Request} (winding : Winding topic before s)
    (fewer : t.requests.Subperm s.requests) (onward : t.driver.Looping → s.driver.Looping) :
    Winding topic before t where
  requests := fewer.trans winding.requests
  looping loops := fewer.trans (winding.looping (onward loops))

/-- What is offered behind everything else is held besides everything else. -/
theorem requests_of_items {added : List Request} (inflight : t.inflight = s.inflight)
    (pending : t.pending = s.pending)
    (items : t.driver.queue.items = s.driver.queue.items ++ added) :
    t.requests = s.requests ++ added := by
  simp only [requests, Backlog.requests, inflight, pending, items, List.append_assoc]

/-- Once the driver is asked to stop, no step but a sample queues anything else. -/
theorem winding_moves {topic : String} {before : List Request} (winding : Winding topic before s)
    (topic_same : s.driver.statusTopic = topic) (asked : s.driver.shutdown ≠ .waiting)
    {label : ProcessLabel Value} (unsampled : ∀ value, label ≠ .sampled value)
    (moves : Moves codecs s t label) : Winding topic before t := by
  cases moves with
  | connects _ _ _ _ waiting _ _ _ => exact absurd waiting asked
  | @ignores present _ _ _ flushing inflight pending items =>
      refine winding.shrink (List.Sublist.subperm ?_) fun loops => ?_
      · rw [requests, Backlog.requests, inflight, pending, items]
        refine (List.Sublist.refl _).append (List.Sublist.append ?_ (List.Sublist.refl _))
        cases present with
        | true => exact List.Sublist.refl _
        | false => exact List.nil_sublist _
      · exact absurd loops (Driver.not_looping_of_flushing flushing)
  | fails _ _ _ _ looping fewer => exact winding.shrink fewer looping
  | sends _ _ _ fewer onward _ => exact winding.shrink fewer onward.looping
  | farewell _ polling _ flushing inflight pending items =>
      refine ⟨?_, fun loops => ?_⟩
      · rw [requests_of_items inflight pending items, topic_same]
        exact ((List.subperm_append_right _).mpr (winding.looping (Or.inl polling))).trans
          ((List.subperm_append_left _).mpr (List.take_sublist _ _).subperm)
      · exact absurd loops (Driver.not_looping_of_flushing flushing)
  | samples _ _ _ _ _ _ _ _ => exact absurd rfl (unsampled _)
  | quiet _ _ pending items fewer onward _ =>
      refine winding.shrink (List.Sublist.subperm ?_) onward.looping
      rw [requests, requests, Backlog.requests, Backlog.requests, pending, items]
      exact fewer.append (List.Sublist.refl _)

end Process

/-! ### Running, stopping, exiting -/

/-- Where `run` is after its start. -/
inductive Phase where
  /-- In the `select!` between a signal and the sampling loop. -/
  | running
  /-- In `Transport::shutdown`, with the exit code that is to be returned. -/
  | stopping (code : UInt8)
  | exited (code : UInt8)
deriving DecidableEq, Repr

/-- The process, and where `run` is: it awaits the first of a signal and the end of the
sampling loop, and then shuts the transport down with a code already in hand. -/
structure Main (Memory : Type) where
  process : Process Memory
  /-- SIGTERM or SIGINT has arrived before the `select!` was over. -/
  signalled : Bool
  phase : Phase

/-- What may happen next: a step of the process, a signal, or an end that `run` awaits. -/
inductive MainLabel (Value : Type) where
  | process (label : ProcessLabel Value)
  | signal
  /-- The `select!` takes the signal. -/
  | interrupted
  /-- The `select!` takes the end of the loop. -/
  | collectionEnded
  /-- The driver has ended, and `shutdown` with it. -/
  | joined
  /-- The five seconds are over. -/
  | timedOut

/-- The exit code of a process whose main task has panicked. -/
def panicCode : UInt8 := 101

namespace Main

variable {Memory Value : Type}

/-- The steps that need no sampling loop. -/
def OfTransport : ProcessLabel Value → Bool
  | .sampled _ | .scheduler _ => false
  | _ => true

/-- The handle is not used before the end. -/
def Signals : ProcessLabel Value → Bool
  | .driver (.signal _) => true
  | _ => false

/-- The ticker adds its period to the present, and the clock cannot represent the result. -/
def Overflows (horizon : Nat) (s : Process Memory) : ProcessLabel Value → Bool
  | .scheduler label => s.scheduler.addsPeriod label &&
      decide (horizon < s.scheduler.now + s.scheduler.ticker.period)
  | _ => false

variable (horizon : Nat) (eventLoop : EventLoop Memory) (client : AsyncClient)
  (rootCause : ConnectionError → String) (codecs : Codecs Value)

/-- The loop is dropped, and `shutdown` sends its request. -/
def stop (self : Main Memory) (code : UInt8) : Option (Main Memory) :=
  (self.process.step eventLoop client rootCause codecs (.driver (.signal .sent))).map
    fun process => { self with process, phase := .stopping code }

/-- One step of `main`. While it is running everything goes on side by side; once it is
stopping there is no sampling loop any more, and a signal changes nothing. -/
def step (self : Main Memory) (label : MainLabel Value) : Option (Main Memory) :=
  match label, self.phase with
  | .process label, .running =>
      if Signals label then none
      else (self.process.step eventLoop client rootCause codecs label).map fun process =>
        -- A panic of the sampling loop unwinds the main task.
        if Overflows horizon self.process label then { self with phase := .exited panicCode }
        else { self with process }
  | .process label, .stopping _ =>
      if Signals label || !OfTransport label then none
      else (self.process.step eventLoop client rootCause codecs label).map fun process =>
        { self with process }
  | .signal, .running => some { self with signalled := true }
  -- The handlers stay installed, but nobody listens any more.
  | .signal, .stopping _ => some self
  | .interrupted, .running =>
      if self.signalled then self.stop eventLoop client rootCause codecs 0 else none
  | .collectionEnded, .running =>
      -- `biased`: a signal that has arrived goes first.
      if self.signalled = false ∧ self.process.scheduler.control = .returned then
        self.stop eventLoop client rootCause codecs 1
      else none
  | .joined, .stopping code =>
      match self.process.driver.control with
      | .returned _ => some { self with phase := .exited code }
      | _ => none
  | .timedOut, .stopping code => some { self with phase := .exited code }
  | _, _ => none

/-- All runs of what a configuration starts. -/
def system (config : Config) : System (Main Memory) (MainLabel Value) Unit where
  start self := (Process.system eventLoop client rootCause codecs config).start self.process ∧
    self.signalled = false ∧ self.phase = .running
  step self label := (self.step horizon eventLoop client rootCause codecs label).map
    fun t => (t, [])

variable {horizon eventLoop client rootCause codecs} {config : Config} {m n : Main Memory}

/-! ### What the steps do -/

/-- Everything a step can do. -/
inductive Stepped (horizon : Nat) (eventLoop : EventLoop Memory) (client : AsyncClient)
    (rootCause : ConnectionError → String) (codecs : Codecs Value) (m : Main Memory) :
    MainLabel Value → Main Memory → Prop where
  | process {label : ProcessLabel Value} {process : Process Memory} : Signals label = false →
      m.phase = .running ∨ (∃ code, m.phase = .stopping code) ∧ OfTransport label = true →
      m.process.step eventLoop client rootCause codecs label = some process →
      Stepped horizon eventLoop client rootCause codecs m (.process label) { m with process }
  | panicked {label : ProcessLabel Value} : m.phase = .running →
      horizon < m.process.scheduler.now + m.process.scheduler.ticker.period →
      Stepped horizon eventLoop client rootCause codecs m (.process label)
        { m with phase := .exited panicCode }
  | signal : m.phase = .running →
      Stepped horizon eventLoop client rootCause codecs m .signal { m with signalled := true }
  | swallowed {code : UInt8} : m.phase = .stopping code →
      Stepped horizon eventLoop client rootCause codecs m .signal m
  | interrupted {process : Process Memory} : m.phase = .running → m.signalled = true →
      m.process.step eventLoop client rootCause codecs (.driver (.signal .sent)) = some process →
      Stepped horizon eventLoop client rootCause codecs m .interrupted
        { m with process, phase := .stopping 0 }
  | collectionEnded {process : Process Memory} : m.phase = .running → m.signalled = false →
      m.process.scheduler.control = .returned →
      m.process.step eventLoop client rootCause codecs (.driver (.signal .sent)) = some process →
      Stepped horizon eventLoop client rootCause codecs m .collectionEnded
        { m with process, phase := .stopping 1 }
  | joined {code : UInt8} : m.phase = .stopping code →
      Stepped horizon eventLoop client rootCause codecs m .joined { m with phase := .exited code }
  | timedOut {code : UInt8} : m.phase = .stopping code →
      Stepped horizon eventLoop client rootCause codecs m .timedOut
        { m with phase := .exited code }

/-- A deadline overflows only when the present and the period are beyond the clock. -/
theorem lt_of_overflows {s : Process Memory} {label : ProcessLabel Value}
    (overflows : Overflows horizon s label = true) :
    horizon < s.scheduler.now + s.scheduler.ticker.period := by
  cases label with
  | scheduler label =>
      simp only [Overflows, Bool.and_eq_true, decide_eq_true_eq] at overflows
      exact overflows.2
  | connAck present => cases overflows
  | failed e => cases overflows
  | transmitted => cases overflows
  | event event index => cases overflows
  | driver label => cases overflows
  | sampled value => cases overflows

/-- Each step is one of these, with the guards that allowed it. -/
theorem cases_of_step {label : MainLabel Value}
    (stepped : m.step horizon eventLoop client rootCause codecs label = some n) :
    Stepped horizon eventLoop client rootCause codecs m label n := by
  obtain ⟨before, arrived, phase⟩ := m
  cases phase with
  | running =>
      cases label with
      | process label =>
          simp only [step] at stepped
          split_ifs at stepped with signals overflows
          · obtain ⟨process, -, rfl⟩ := Option.map_eq_some_iff.mp stepped
            exact .panicked rfl (lt_of_overflows overflows)
          · obtain ⟨process, moved, rfl⟩ := Option.map_eq_some_iff.mp stepped
            exact .process (by simpa using signals) (Or.inl rfl) moved
      | signal => exact Option.some.inj stepped ▸ .signal rfl
      | interrupted =>
          simp only [step] at stepped
          split_ifs at stepped with signalled
          obtain ⟨process, moved, rfl⟩ := Option.map_eq_some_iff.mp stepped
          exact .interrupted rfl signalled moved
      | collectionEnded =>
          simp only [step] at stepped
          split_ifs at stepped with ended
          obtain ⟨process, moved, rfl⟩ := Option.map_eq_some_iff.mp stepped
          exact .collectionEnded rfl ended.1 ended.2 moved
      | joined => cases stepped
      | timedOut => cases stepped
  | stopping code =>
      cases label with
      | process label =>
          simp only [step] at stepped
          split_ifs at stepped with barred
          obtain ⟨process, moved, rfl⟩ := Option.map_eq_some_iff.mp stepped
          simp only [Bool.or_eq_true, Bool.not_eq_true', not_or, Bool.not_eq_true,
            Bool.not_eq_false] at barred
          exact .process barred.1 (Or.inr ⟨⟨code, rfl⟩, barred.2⟩) moved
      | signal => exact Option.some.inj stepped ▸ .swallowed rfl
      | joined =>
          simp only [step] at stepped
          split at stepped
          · exact Option.some.inj stepped ▸ .joined rfl
          · cases stepped
      | timedOut => exact Option.some.inj stepped ▸ .timedOut rfl
      | interrupted => cases stepped
      | collectionEnded => cases stepped
  | exited code => cases label <;> cases stepped

/-- Whatever `main` does, the process takes its own steps. -/
theorem process_step {label : MainLabel Value}
    (stepped : m.step horizon eventLoop client rootCause codecs label = some n) :
    n.process = m.process ∨
      ∃ label, m.process.step eventLoop client rootCause codecs label = some n.process := by
  cases cases_of_step stepped with
  | process _ _ moved => exact Or.inr ⟨_, moved⟩
  | panicked _ _ => exact Or.inl rfl
  | signal _ => exact Or.inl rfl
  | swallowed _ => exact Or.inl rfl
  | interrupted _ _ moved => exact Or.inr ⟨_, moved⟩
  | collectionEnded _ _ _ moved => exact Or.inr ⟨_, moved⟩
  | joined _ => exact Or.inl rfl
  | timedOut _ => exact Or.inl rfl

/-- Behind a reachable main there is a reachable process. -/
theorem process_of_reachable
    (reachable : (system horizon eventLoop client rootCause codecs config).Reachable m) :
    (Process.system eventLoop client rootCause codecs config).Reachable m.process := by
  refine reachable.invariant
    (I := fun m => (Process.system eventLoop client rootCause codecs config).Reachable m.process)
    (fun _ started => by exact .start started.1) ?_
  intro s label t out process stepped
  obtain ⟨t', stepped', same⟩ := Option.map_eq_some_iff.mp stepped
  obtain ⟨rfl, -⟩ := Prod.mk.inj same
  rcases process_step stepped' with same | ⟨own, moved⟩
  · rw [same]
    exact process
  · have step : (Process.system eventLoop client rootCause codecs config).step s.process own =
        some (t'.process, []) := by simp [Process.system, moved]
    exact process.step step

/-! ### Exit codes -/

/-- The step of the process is none of the handle. -/
theorem shutdown_of_step {s t : Process Memory} {label : ProcessLabel Value}
    (quiet : Signals label = false)
    (moved : s.step eventLoop client rootCause codecs label = some t) :
    t.driver.shutdown = s.driver.shutdown := by
  have driven : ∀ {l : DriverLabel} {driver : Driver} {out : List DriverOutput},
      (∀ signal, l ≠ .signal signal) → s.driver.step client rootCause l = some (driver, out) →
      driver.shutdown = s.driver.shutdown :=
    fun unsignalled reacted => Driver.shutdown_step unsignalled reacted
  cases Process.cases_of_step moved with
  | connAck _ _ reacted => exact driven (by simp) reacted
  | failed reacted => exact driven (by simp) reacted
  | transmitted _ reacted => exact driven (by simp) reacted
  | event _ reacted => exact driven (by simp) reacted
  | @driver label driver out _ reacted =>
      refine driven ?_ reacted
      rintro signal rfl
      cases quiet
  | sampled _ _ => rfl
  | scheduler _ _ => rfl

/-- Why `run` is to return the code. -/
inductive Reason (rootCause : ConnectionError → String) (m : Main Memory) : UInt8 → Prop where
  | signal : m.signalled = true → Reason rootCause m 0
  | fatal : m.signalled = false → m.process.driver.Fatal rootCause → Reason rootCause m 1

/-- A reason stays one, since a signal is not forgotten and a fatal end is for good. -/
theorem Reason.keep {code : UInt8} (reason : Reason rootCause m code)
    (signalled : n.signalled = m.signalled)
    (fatal : m.process.driver.Fatal rootCause → n.process.driver.Fatal rootCause) :
    Reason rootCause n code := by
  cases reason with
  | signal arrived => exact .signal (signalled.trans arrived)
  | fatal none ended => exact .fatal (signalled.trans none) (fatal ended)

/-- The main of the examples. -/
def cleanMain : Main Unit := ⟨Process.cleanProcess, false, .running⟩

/-- It is one that `main` starts. -/
theorem cleanMain_starts (horizon : Nat) (client : AsyncClient)
    (rootCause : ConnectionError → String) :
    (system horizon .documented client rootCause letterCodecs Process.cleanCollector).start
      cleanMain :=
  ⟨Process.cleanProcess_starts client rootCause, rfl, rfl⟩

/-- The last instant of a clock of 64-bit seconds, in nanoseconds. -/
def lastInstant : Nat := (2 ^ 63 - 1) * 1000000000 + 999999999

/-- The stop has been asked for, and the requests are winding down from `before`. -/
structure Stopped (config : Config) (before : List Request) (m : Main Memory) : Prop where
  configured : m.process.Configured config
  phase : m.phase ≠ .running
  asked : ∀ code, m.phase = .stopping code → m.process.driver.shutdown ≠ .waiting
  winding : m.process.Winding config.statusTopic before

/-- After a stop every step keeps the requests winding down. -/
theorem stopped_step {before : List Request} (stopped : Stopped config before m)
    {label : MainLabel Value}
    (stepped : m.step horizon eventLoop client rootCause codecs label = some n) :
    Stopped config before n := by
  obtain ⟨configured, phase, asked, winding⟩ := stopped
  have exits : ∀ {code : UInt8}, Stopped config before { m with phase := .exited code } :=
    ⟨configured, fun again => (nomatch again), fun _ again => (nomatch again), winding⟩
  cases cases_of_step stepped with
  | @process label process quiet of_transport moved =>
      rcases of_transport with running | ⟨⟨code, stopping⟩, unsampled⟩
      · exact absurd running phase
      · refine ⟨Process.configured_step configured moved, phase, fun _ _ => ?_, ?_⟩
        · rw [shutdown_of_step quiet moved]
          exact asked code stopping
        · refine Process.winding_moves winding configured.statusTopic (asked code stopping) ?_
            (Process.moves_of_step configured.valid configured.shared moved)
          rintro value rfl
          cases unsampled
  | panicked running _ => exact absurd running phase
  | signal running => exact absurd running phase
  | swallowed _ => exact ⟨configured, phase, asked, winding⟩
  | interrupted running _ _ => exact absurd running phase
  | collectionEnded running _ _ _ => exact absurd running phase
  | joined _ => exact exits
  | timedOut _ => exact exits

/-- A process that is stopping was asked to stop. -/
theorem asked_of_reachable
    (reachable : (system horizon eventLoop client rootCause codecs config).Reachable m)
    {code : UInt8} (phase : m.phase = .stopping code) : m.process.driver.shutdown ≠ .waiting := by
  have asks : ∀ {s t : Process Memory},
      s.step eventLoop client rootCause codecs
        (.driver (.signal .sent) : ProcessLabel Value) = some t →
      t.driver.shutdown ≠ .waiting := by
    intro s t moved
    cases Process.cases_of_step moved with
    | driver own reacted =>
        cases Driver.cases_of_step reacted with
        | signal _ sent => exact sent
  refine reachable.invariant
    (I := fun m => ∀ code, m.phase = .stopping code → m.process.driver.shutdown ≠ .waiting)
    ?_ ?_ code phase
  · exact fun s started code stopping => nomatch started.2.2.symm.trans stopping
  · intro s label t out before stepped code stopping
    obtain ⟨t', stepped', same⟩ := Option.map_eq_some_iff.mp stepped
    obtain ⟨rfl, -⟩ := Prod.mk.inj same
    cases cases_of_step stepped' with
    | process quiet _ moved =>
        rw [shutdown_of_step quiet moved]
        exact before code stopping
    | panicked _ _ => cases stopping
    | signal _ => exact before code stopping
    | swallowed _ => exact before code stopping
    | interrupted _ _ moved => exact asks moved
    | collectionEnded _ _ _ moved => exact asks moved
    | joined _ => cases stopping
    | timedOut _ => cases stopping

/-- From the stop on, nothing is held but what was held then, each request at most once,
and the `offline` and the DISCONNECT of one farewell. -/
theorem nothing_sampled_after
    (reachable : (system horizon eventLoop client rootCause codecs config).Reachable m)
    (phase : m.phase ≠ .running) {labels : List (MainLabel Value)} {outs : List Unit}
    (ran : (system horizon eventLoop client rootCause codecs config).run m labels =
      some (n, outs)) :
    n.process.requests.Subperm
      (m.process.requests ++ [Driver.offline config.statusTopic, .disconnect]) := by
  have stopped : Stopped config m.process.requests m := by
    refine ⟨(Process.known_of_reachable (process_of_reachable reachable)).1, phase,
      fun _ stopping => asked_of_reachable reachable stopping, ?_⟩
    exact ⟨(List.sublist_append_left _ _).subperm, fun _ => List.Subperm.refl _⟩
  have step : ∀ s label t out, Stopped config m.process.requests s → True →
      (system horizon eventLoop client rootCause codecs config).step s label = some (t, out) →
      Stopped config m.process.requests t ∧ ∀ o ∈ out, True := by
    intro s label t out before _ stepped
    obtain ⟨t', stepped', same⟩ := Option.map_eq_some_iff.mp stepped
    obtain ⟨rfl, -⟩ := Prod.mk.inj same
    exact ⟨stopped_step before stepped', fun _ _ => trivial⟩
  exact (System.run_invariant step stopped (System.meets_of_forall (fun _ _ => trivial) _ _)
    ran).1.winding.requests

/-- A signal after a sample: two more requests are held, behind the two from before. -/
theorem nothing_sampled_after_farewell :
    ∃ m n, (system lastInstant .documented .documented (fun _ => "timeout") letterCodecs
        Process.cleanCollector).run cleanMain [.process (.connAck false),
          .process (.scheduler .tick), .process (.sampled [1, 2, 3]), .signal, .interrupted] =
            some (m, []) ∧
      (system lastInstant .documented .documented (fun _ => "timeout") letterCodecs
        Process.cleanCollector).run
        m [.process (.driver (.shutdown [])), .process .transmitted] = some (n, []) ∧
      n.process.requests.length = 4 ∧
      n.process.requests.Subperm (m.process.requests ++
        [Driver.offline Process.cleanCollector.statusTopic, .disconnect]) := by
  have both : ∃ m n, (system lastInstant .documented .documented (fun _ => "timeout") letterCodecs
      Process.cleanCollector).run cleanMain [.process (.connAck false),
        .process (.scheduler .tick), .process (.sampled [1, 2, 3]), .signal, .interrupted] =
        some (m, []) ∧
      (system lastInstant .documented .documented (fun _ => "timeout") letterCodecs
        Process.cleanCollector).run
        m [.process (.driver (.shutdown [])), .process .transmitted] = some (n, []) ∧
      n.process.requests.length = 4 ∧ m.phase = .stopping 0 := ⟨_, _, rfl, rfl, rfl, rfl⟩
  obtain ⟨m, n, ran, farewell, four, phase⟩ := both
  have reachable := (System.Reachable.start (cleanMain_starts _ _ _)).run ran
  exact ⟨m, n, ran, farewell, four, nothing_sampled_after reachable (by simp [phase]) farewell⟩

end Main

end BlazeBee.Agent
