import BlazeBee.Lib.Interval
import BlazeBee.Lib.System
import BlazeBee.Transport.Connection

/-!
The fixed-interval sampling loop (`core/scheduler.rs`).

`Scheduler.run` suspends at three places: in the tick wait, in the `select!` of
the paused loop, and in a collector's future. They are the states of
`SchedulerControl`; everything between two of them happens in one step. The labels
of a step are what resolves a wait, and what may happen during one: writes to the
link, the loss of its sender, the passing of time. Results of collectors and of
`Publish::publish` come with the label, so a run is any assignment of results.

Instants and durations are in nanoseconds. `skipped` and the counters of one cycle
are plain numbers; `failures` saturates as in the source.
-/

namespace BlazeBee.Agent

open BlazeBee.Lib BlazeBee.Lib.Num BlazeBee.Transport BlazeBee.Rumqttc

/-- The errors of a collector. -/
inductive CollectorError where
  | read (path : String) (source : IoError)
  | parse (path what reason : String)
  | missing (path what : String)
  | command (command reason : String)
  | timeout (limit : Nat)
  | unsupported (reason : String)
deriving DecidableEq, Repr

/-- Upper bound for a single collector call: ten seconds. -/
def collectTimeout : Nat := 10000000000

/-- Every Nth consecutive failure of one collector is logged at `warn`. -/
def failureLogEvery : Nat := 120

/-- An enabled collector and how often it has failed in a row. -/
structure Entry where
  name : String
  metadata : EndpointMetadata
  /-- Consecutive failures since the last success. -/
  failures : Nat
deriving DecidableEq

/-- Why an entry has nothing to show for a cycle. -/
inductive Failure where
  | collect (e : CollectorError)
  | publish (e : TransferError)
deriving DecidableEq

/-- How the wait for a collector ends; a sample is published at once, and the
result of that comes with it. -/
inductive Collected (Value : Type) where
  | sample (value : Value) (published : Except TransferError Nat)
  | error (e : CollectorError)
  | timeout

/-- A cycle on its way: the entry it waits for, and what it has counted. The instants are
those that the overrun and the timeout are measured from. -/
structure InCycle where
  index : Nat
  started : Nat
  entryStarted : Nat
  published : Nat
  bytes : Nat
deriving DecidableEq

/-- On to the next entry, with the bytes published for this one. -/
def InCycle.count (c : InCycle) : Option Nat → InCycle
  | some n => { c with index := c.index + 1, published := c.published + 1, bytes := c.bytes + n }
  | none => { c with index := c.index + 1 }

/-- Every result moves on by one entry. -/
@[simp] theorem InCycle.index_count (c : InCycle) (bytes : Option Nat) :
    (c.count bytes).index = c.index + 1 := by
  cases bytes <;> rfl

/-- Where the loop waits. The tick wait is at the top of an unpaused loop, the `select!` at
that of a paused one. -/
inductive SchedulerControl where
  | tickWait
  | select
  | collecting (c : InCycle)
  | returned
deriving DecidableEq

/-- The state of the sampling loop: its locals, and its receiver of the link. Between two
steps it is suspended in one of four places; the clock and the driver move on in between. -/
structure Scheduler where
  entries : List Entry
  link : Watch ConnectionState
  ticker : Interval
  paused : Bool
  everConnected : Bool
  skipped : Nat
  control : SchedulerControl
  now : Nat
  /-- The last value taken from the link; the source does not keep it. -/
  lastRead : Option ConnectionState

/-- What can happen next, in whatever order the driver, the clock and the collectors
choose. -/
inductive SchedulerLabel (Value : Type) where
  /-- The driver writes the link. -/
  | write (state : ConnectionState)
  | senderDropped
  | advance (duration : Nat)
  /-- A tick resolves the tick wait or the `select!`. -/
  | tick
  /-- `changed` resolves the `select!`. -/
  | changed
  | collected (outcome : Collected Value)

/-- Calls, and what is logged. -/
inductive SchedulerOutput (Value : Type) where
  | paused (lost : Bool)
  | resumed (skippedCycles : Nat)
  | connected
  | cycleStarted
  /-- `Collector::collect` of an entry. -/
  | collect (index : Nat)
  /-- `Publish::publish` for an entry. -/
  | publish (index : Nat) (value : Value) (metadata : EndpointMetadata)
  | recovered (index failures : Nat)
  | failed (index failures : Nat) (failure : Failure) (warn : Bool)
  | cycleComplete (published failed bytes : Nat) (overrun : Bool)

/-- The outputs of a cycle that is under way. -/
def SchedulerOutput.inCycle {Value : Type} : SchedulerOutput Value → Bool
  | .collect _ | .publish _ _ _ | .recovered _ _ | .failed _ _ _ _ | .cycleComplete _ _ _ _ => true
  | .paused _ | .resumed _ | .connected | .cycleStarted => false

namespace Scheduler

variable {Value : Type}

/-- The top of the loop. -/
def loopTop (self : Scheduler) : Scheduler :=
  { self with control := if self.paused then .select else .tickWait }

/-- The end of a cycle. -/
def completeCycle (self : Scheduler) (c : InCycle) : Scheduler × List (SchedulerOutput Value) :=
  (self.loopTop, [.cycleComplete c.published (self.entries.length - c.published) c.bytes
    (decide (self.ticker.period < self.now - c.started))])

/-- Calls the collector of entry `c.index`, or ends the cycle. -/
def nextEntry (self : Scheduler) (c : InCycle) : Scheduler × List (SchedulerOutput Value) :=
  if c.index < self.entries.length then
    ({ self with control := .collecting { c with entryStarted := self.now } }, [.collect c.index])
  else self.completeCycle c

/-- The connected part of the loop body, up to the first `await` of the cycle. -/
def startCycle (self : Scheduler) : Scheduler × List (SchedulerOutput Value) :=
  let log := if self.paused then
      if self.everConnected then [.resumed self.skipped] else [.connected]
    else []
  let self := if self.paused then { self with paused := false, skipped := 0 } else self
  let self := { self with everConnected := true }
  let next := self.nextEntry ⟨0, self.now, self.now, 0, 0⟩
  (next.1, log ++ .cycleStarted :: next.2)

/-- The loop body after a wait: reads the link and acts on it. A fatal state ends the loop,
another one that is not connected starts or goes on with a pause, and a connected one starts
a cycle. -/
def observe (self : Scheduler) : Scheduler × List (SchedulerOutput Value) :=
  let (state, link) := self.link.borrowAndUpdate
  let self := { self with link, lastRead := some state }
  if state.isFatal then ({ self with control := .returned }, [])
  else if !state.isConnected then
    let log := if self.paused then [] else [.paused self.everConnected]
    ({ self with paused := true, skipped := self.skipped + 1 }.loopTop, log)
  else self.startCycle

/-- The tick branch: the ticker moves on to its next deadline. -/
def tickFired (self : Scheduler) : Scheduler := { self with ticker := self.ticker.fire self.now }

/-- The early wake-up: the cadence restarts from this point. -/
def wokenEarly (self : Scheduler) (link : Watch ConnectionState) : Scheduler :=
  { self with link, ticker := self.ticker.reset self.now }

/-- `run_entry` after the collector: the entry, the bytes published, and the log. -/
def finishEntry (index : Nat) (entry : Entry) (result : Except Failure Nat) :
    Entry × Option Nat × List (SchedulerOutput Value) :=
  match result with
  | .ok bytes =>
      if entry.failures > 0 then
        ({ entry with failures := 0 }, some bytes, [.recovered index entry.failures])
      else (entry, some bytes, [])
  | .error failure =>
      let entry := { entry with failures := min (entry.failures + 1) u32Max }
      (entry, none, [.failed index entry.failures failure
        (entry.failures == 1 || entry.failures % failureLogEvery == 0)])

/-- The result of one entry, and the publish it involved. -/
def runEntry (index : Nat) (entry : Entry) :
    Collected Value → Except Failure Nat × List (SchedulerOutput Value)
  | .timeout => (.error (.collect (.timeout collectTimeout)), [])
  | .error e => (.error (.collect e), [])
  | .sample value published =>
      (published.mapError .publish, [.publish index value entry.metadata])

/-- A collector's future resolves. -/
def collected (self : Scheduler) (c : InCycle) (entry : Entry) (outcome : Collected Value) :
    Scheduler × List (SchedulerOutput Value) :=
  let (result, calls) := runEntry c.index entry outcome
  let (entry, bytes, log) := finishEntry c.index entry result
  let self := { self with entries := self.entries.set c.index entry }
  let next := self.nextEntry (c.count bytes)
  (next.1, calls ++ log ++ next.2)

/-- `tokio::time::timeout` gives up only once the limit has passed. -/
def MayResolve (self : Scheduler) (c : InCycle) : Collected Value → Prop
  | .timeout => c.entryStarted + collectTimeout ≤ self.now
  | _ => True

instance (self : Scheduler) (c : InCycle) (outcome : Collected Value) :
    Decidable (self.MayResolve c outcome) :=
  match outcome with
  | .timeout => inferInstanceAs (Decidable (_ ≤ _))
  | .sample _ _ => isTrue trivial
  | .error _ => isTrue trivial

/-- One step of the loop: what resolves its wait, and all that it does up to the next one. A
label that cannot happen in the state is refused. Writes of the driver, time and collectors
come as labels, so a run is any order of them. -/
def step (self : Scheduler) (label : SchedulerLabel Value) :
    Option (Scheduler × List (SchedulerOutput Value)) :=
  match label, self.control with
  | .write state, _ =>
      if self.link.senderAlive then some ({ self with link := self.link.setState state }, [])
      else none
  | .senderDropped, _ =>
      if self.link.senderAlive then some ({ self with link := self.link.dropSender }, []) else none
  | .advance duration, _ => some ({ self with now := self.now + duration }, [])
  | .tick, .tickWait | .tick, .select =>
      if self.ticker.Ready self.now then
        some self.tickFired.observe
      else none
  | .changed, .select =>
      match self.link.changed with
      | .ok link => some (self.wokenEarly link).observe
      | .closed => some ({ self with control := .returned }, [])
      | .pending => none
  | .collected outcome, .collecting c =>
      match self.entries[c.index]? with
      | some entry =>
          if self.MayResolve c outcome then some (self.collected c entry outcome) else none
      | none => none
  | _, _ => none

/-! ### What the steps do -/

/-- Everything a step can do. -/
inductive Stepped (s : Scheduler) :
    SchedulerLabel Value → Scheduler × List (SchedulerOutput Value) → Prop where
  | write (state : ConnectionState) : s.link.senderAlive = true →
      Stepped s (.write state) ({ s with link := s.link.setState state }, [])
  | senderDropped : s.link.senderAlive = true →
      Stepped s .senderDropped ({ s with link := s.link.dropSender }, [])
  | advance (duration : Nat) :
      Stepped s (.advance duration) ({ s with now := s.now + duration }, [])
  | tick : s.control = .tickWait ∨ s.control = .select → s.ticker.Ready s.now →
      Stepped s .tick s.tickFired.observe
  | changed : s.control = .select → s.link.Unseen →
      Stepped s .changed (s.wokenEarly s.link.markSeen).observe
  | closed : s.control = .select → ¬ s.link.Unseen → s.link.senderAlive = false →
      Stepped s .changed ({ s with control := .returned }, [])
  | collected (c : InCycle) (entry : Entry) (outcome : Collected Value) :
      s.control = .collecting c → s.entries[c.index]? = some entry → s.MayResolve c outcome →
      Stepped s (.collected outcome) (s.collected c entry outcome)

/-- Every step is one of the listed ones, with the guards that allowed it. -/
theorem cases_of_step {self : Scheduler} {label : SchedulerLabel Value}
    {next : Scheduler × List (SchedulerOutput Value)} (stepped : self.step label = some next) :
    Stepped self label next := by
  cases label with
  | write state =>
      simp only [step] at stepped
      split_ifs at stepped with alive
      exact Option.some.inj stepped ▸ .write state alive
  | senderDropped =>
      simp only [step] at stepped
      split_ifs at stepped with alive
      exact Option.some.inj stepped ▸ .senderDropped alive
  | advance duration =>
      simp only [step] at stepped
      exact Option.some.inj stepped ▸ .advance duration
  | tick =>
      cases control : self.control with
      | tickWait =>
          simp only [step, control] at stepped
          split_ifs at stepped with ready
          exact Option.some.inj stepped ▸ .tick (Or.inl control) ready
      | select =>
          simp only [step, control] at stepped
          split_ifs at stepped with ready
          exact Option.some.inj stepped ▸ .tick (Or.inr control) ready
      | collecting c => simp [step, control] at stepped
      | returned => simp [step, control] at stepped
  | changed =>
      cases control : self.control with
      | select =>
          simp only [step, control] at stepped
          cases change : self.link.changed with
          | ok link =>
              obtain ⟨unseen, rfl⟩ := Watch.changed_eq_ok change
              simp only [change] at stepped
              exact Option.some.inj stepped ▸ .changed control unseen
          | closed =>
              obtain ⟨seen, gone⟩ := Watch.changed_eq_closed change
              simp only [change] at stepped
              exact Option.some.inj stepped ▸ .closed control seen gone
          | pending => simp [change] at stepped
      | tickWait => simp [step, control] at stepped
      | collecting c => simp [step, control] at stepped
      | returned => simp [step, control] at stepped
  | collected outcome =>
      cases control : self.control with
      | collecting c =>
          simp only [step, control] at stepped
          cases found : self.entries[c.index]? with
          | none => simp [found] at stepped
          | some entry =>
              simp only [found] at stepped
              split_ifs at stepped with may
              exact Option.some.inj stepped ▸ .collected c entry outcome control found may
      | tickWait => simp [step, control] at stepped
      | select => simp [step, control] at stepped
      | returned => simp [step, control] at stepped

section Spec

variable (Value) in
/-- The cycle waits for its next entry, or is over. -/
theorem nextEntry_spec (self : Scheduler) (unpaused : self.paused = false) (c : InCycle) :
    ∃ control,
      (self.nextEntry c : Scheduler × List (SchedulerOutput Value)).1 = { self with control } ∧
      ((∃ c', control = .collecting c' ∧ c'.index = c.index ∧ c.index < self.entries.length) ∨
        control = .tickWait ∧ self.entries.length ≤ c.index) := by
  by_cases more : c.index < self.entries.length
  · refine ⟨.collecting { c with entryStarted := self.now }, ?_, Or.inl ⟨_, rfl, rfl, more⟩⟩
    simp [nextEntry, more]
  · refine ⟨.tickWait, ?_, Or.inr ⟨rfl, Nat.le_of_not_lt more⟩⟩
    simp [nextEntry, more, completeCycle, loopTop, unpaused]

/-- What is logged on the way to the next entry. -/
theorem mem_nextEntry {self : Scheduler} {c : InCycle} {x : SchedulerOutput Value}
    (mem : x ∈ (self.nextEntry c).2) :
    x = .collect c.index ∨ ∃ published failed bytes overrun,
      x = .cycleComplete published failed bytes overrun := by
  unfold nextEntry completeCycle at mem
  split_ifs at mem
  · exact Or.inl (List.mem_singleton.mp mem)
  · exact Or.inr ⟨_, _, _, _, List.mem_singleton.mp mem⟩

/-- What is logged about the result of an entry. -/
theorem mem_finishEntry {index : Nat} {entry : Entry} {result : Except Failure Nat}
    {x : SchedulerOutput Value} (mem : x ∈ (finishEntry index entry result).2.2) :
    (∃ failures, x = .recovered index failures) ∨
      ∃ failures failure warn, x = .failed index failures failure warn := by
  unfold finishEntry at mem
  cases result with
  | ok bytes =>
      simp only at mem
      split_ifs at mem
      · exact Or.inl ⟨_, List.mem_singleton.mp mem⟩
      · cases mem
  | error failure => exact Or.inr ⟨_, _, _, List.mem_singleton.mp mem⟩

/-- Going on to the next entry gives outputs of a cycle under way only. -/
theorem inCycle_of_mem_nextEntry {self : Scheduler} {c : InCycle} {x : SchedulerOutput Value}
    (mem : x ∈ (self.nextEntry c).2) : x.inCycle = true := by
  rcases mem_nextEntry mem with rfl | ⟨_, _, _, _, rfl⟩
  · rfl
  · rfl

/-- A collector's result neither starts a cycle nor ends a pause. -/
theorem inCycle_of_mem_collected {self : Scheduler} {c : InCycle} {entry : Entry}
    {outcome : Collected Value} {x : SchedulerOutput Value}
    (mem : x ∈ (self.collected c entry outcome).2) : x.inCycle = true := by
  simp only [collected, List.mem_append] at mem
  rcases mem with (call | log) | next
  · cases outcome with
    | sample value published => exact List.mem_singleton.mp call ▸ rfl
    | error e => cases call
    | timeout => cases call
  · rcases mem_finishEntry log with ⟨_, rfl⟩ | ⟨_, _, _, rfl⟩
    · rfl
    · rfl
  · exact inCycle_of_mem_nextEntry next

variable (Value) in
/-- A cycle that starts ends the pause, forgets what was skipped, and waits for its first
entry or is over at once. -/
theorem startCycle_spec (self : Scheduler) :
    ∃ control,
      (self.startCycle : Scheduler × List (SchedulerOutput Value)).1 =
        { self with
          paused := false
          skipped := if self.paused then 0 else self.skipped
          everConnected := true
          control } ∧
      ((∃ c, control = .collecting c ∧ c.index = 0 ∧ 0 < self.entries.length) ∨
        control = .tickWait ∧ self.entries.length ≤ 0) := by
  cases paused : self.paused with
  | true =>
      obtain ⟨control, next, kind⟩ := nextEntry_spec Value
        { self with paused := false, skipped := 0, everConnected := true } rfl
        ⟨0, self.now, self.now, 0, 0⟩
      refine ⟨control, ?_, kind⟩
      simpa [startCycle, paused] using next
  | false =>
      obtain ⟨control, next, kind⟩ := nextEntry_spec Value
        { self with everConnected := true } paused ⟨0, self.now, self.now, 0, 0⟩
      refine ⟨control, ?_, kind⟩
      simpa [startCycle, paused] using next

variable {self : Scheduler}

/-- A fatal state ends the loop. -/
theorem observe_of_fatal (fatal : self.link.value.isFatal = true) :
    (self.observe : Scheduler × List (SchedulerOutput Value)) =
      ({ self with
          link := self.link.markSeen
          lastRead := some self.link.value
          control := .returned }, []) := by
  simp [observe, Watch.borrowAndUpdate, fatal]

/-- Any other state but `Connected` pauses it. -/
theorem observe_of_down (lasting : self.link.value.isFatal = false)
    (down : self.link.value.isConnected = false) :
    (self.observe : Scheduler × List (SchedulerOutput Value)) =
      ({ self with
          link := self.link.markSeen
          lastRead := some self.link.value
          paused := true
          skipped := self.skipped + 1
          control := .select },
        if self.paused then [] else [.paused self.everConnected]) := by
  simp [observe, Watch.borrowAndUpdate, lasting, down, loopTop]

/-- `Connected` starts a cycle. -/
theorem observe_of_connected (connected : self.link.value = .connected) :
    (self.observe : Scheduler × List (SchedulerOutput Value)) =
      { self with link := self.link.markSeen, lastRead := some .connected }.startCycle := by
  simp [observe, Watch.borrowAndUpdate, connected, ConnectionState.isFatal,
    ConnectionState.isConnected]

/-- Everything that reading the link can come to. -/
inductive Read (s : Scheduler) : Scheduler × List (SchedulerOutput Value) → Prop where
  | fatal : s.link.value.isFatal = true →
      Read s ({ s with
        link := s.link.markSeen
        lastRead := some s.link.value
        control := .returned }, [])
  | down : s.link.value.isFatal = false → s.link.value.isConnected = false →
      Read s ({ s with
        link := s.link.markSeen
        lastRead := some s.link.value
        paused := true
        skipped := s.skipped + 1
        control := .select }, if s.paused then [] else [.paused s.everConnected])
  | connected : s.link.value = .connected →
      Read s { s with link := s.link.markSeen, lastRead := some .connected }.startCycle

/-- What the loop does with the value it reads: a fatal one, another that is not connected,
or a connected one. -/
theorem cases_of_observe {next : Scheduler × List (SchedulerOutput Value)}
    (read : self.observe = next) : Read self next := by
  subst read
  cases fatal : self.link.value.isFatal with
  | true => exact observe_of_fatal fatal ▸ .fatal fatal
  | false =>
      cases connected : self.link.value.isConnected with
      | false => exact observe_of_down fatal connected ▸ .down fatal connected
      | true =>
          have connected := ConnectionState.eq_connected connected
          exact observe_of_connected connected ▸ .connected connected

/-- A loop that reads a link that is not `Connected` returns, or waits for news. -/
theorem observe_of_dead (dead : self.link.value ≠ .connected) :
    (self.observe : Scheduler × List (SchedulerOutput Value)).1.control = .returned ∨
      (self.observe : Scheduler × List (SchedulerOutput Value)).1.control = .select := by
  generalize read : (self.observe : Scheduler × List (SchedulerOutput Value)) = next
  cases cases_of_observe read with
  | fatal fatal => exact Or.inl rfl
  | down lasting down => exact Or.inr rfl
  | connected connected => exact absurd connected dead

/-- What reading the link leaves alone. -/
structure Observed (s t : Scheduler) : Prop where
  link : t.link = s.link.markSeen
  entries : t.entries = s.entries
  ticker : t.ticker = s.ticker
  now : t.now = s.now

/-- Reading the link marks its value as seen, and leaves the entries, the ticker and the
clock alone. -/
theorem observe_frame (self : Scheduler) :
    Observed self (self.observe : Scheduler × List (SchedulerOutput Value)).1 := by
  generalize read : (self.observe : Scheduler × List (SchedulerOutput Value)) = next
  cases cases_of_observe read with
  | fatal fatal => exact ⟨rfl, rfl, rfl, rfl⟩
  | down lasting down => exact ⟨rfl, rfl, rfl, rfl⟩
  | connected connected =>
      obtain ⟨control, next, -⟩ := startCycle_spec Value
        { self with link := self.link.markSeen, lastRead := some .connected }
      rw [next]
      exact ⟨rfl, rfl, rfl, rfl⟩

/-- A collector's result: one entry is updated, and the cycle goes on. -/
theorem collected_spec (unpaused : self.paused = false) (c : InCycle) (entry : Entry)
    (outcome : Collected Value) :
    ∃ entry' control,
      (self.collected c entry outcome).1 =
        { self with entries := self.entries.set c.index entry', control } ∧
      ((∃ c', control = .collecting c' ∧ c'.index = c.index + 1 ∧
          c.index + 1 < self.entries.length) ∨
        control = .tickWait ∧ self.entries.length ≤ c.index + 1) := by
  unfold collected
  rcases runEntry c.index entry outcome with ⟨result, calls⟩
  simp only
  rcases finishEntry c.index entry result with ⟨entry', bytes, log⟩
  simp only
  obtain ⟨control, next, kind⟩ := nextEntry_spec Value
    { self with entries := self.entries.set c.index entry' } unpaused (c.count bytes)
  refine ⟨entry', control, next, ?_⟩
  simpa using kind

end Spec

/-- `Scheduler::new`. -/
def new (entries : List (String × EndpointMetadata)) (link : Watch ConnectionState)
    (ticker : Interval) (now : Nat) : Scheduler where
  entries := entries.map fun (name, metadata) => ⟨name, metadata, 0⟩
  link := link
  ticker := ticker
  paused := false
  everConnected := false
  skipped := 0
  control := .tickWait
  now := now
  lastRead := none

variable (Value) in
/-- All runs of schedulers, for any entries, link and interval. -/
def system : System Scheduler (SchedulerLabel Value) (SchedulerOutput Value) where
  start self := ∃ entries link period pos now,
    self = new entries link (Interval.start period pos now) now
  step := step

end Scheduler

end BlazeBee.Agent
