import BlazeBee.Transport.FinalState

/-!
The handle of a running transport: `Transport::closed` and `Transport::shutdown`.

Both wait for one task through one `JoinHandle`, which gives its output once and panics
when it is polled again. The system below runs the driver and the calls side by side: a
call can be polled any number of times, and dropped at any of its `await` points; the
driver can return, panic or be cancelled at any moment.

* `reachable_driver`: under the calls, the driver takes its own steps.
* `yielded_iff_returned`: the output is gone once a call has returned it.
* `calls_truthful_iff`: no call panics, and each reports what the driver ended with,
  exactly when nothing is polled after that.
-/

namespace BlazeBee.Transport

open BlazeBee.Lib BlazeBee.Rumqttc

/-! ### The task -/

/-- How a task ends without a result. -/
inductive JoinError where
  | panicked
  | cancelled
deriving DecidableEq, Repr

/-- The output of the `JoinHandle`. -/
abbrev Joined := Except JoinError (Except TransferError Unit)

/-- The call on the handle that is in progress, if any. Both borrow the handle, so there is
at most one. -/
inductive Call where
  | idle
  | closed
  | shutdown
  /-- `shutdown` consumes the handle. -/
  | gone
deriving DecidableEq, Repr

/-- The handle, the task behind it, and the call in progress. A call of `closed` that is
dropped gives the handle back, and the output of the task can be taken once. -/
structure Handle where
  driver : Driver
  /-- The driver's task has ended without a result. -/
  broken : Option JoinError
  /-- The `JoinHandle` has given its output. -/
  yielded : Bool
  call : Call

namespace Handle

/-- What the driver's task ended with, if it has ended. -/
def outcome (self : Handle) : Option Joined :=
  match self.broken, self.driver.control with
  | some e, _ => some (.error e)
  | none, .returned result => some (.ok result)
  | none, _ => none

/-- What a poll of a spent or running task gives; a second poll after the output panics. -/
inductive Poll where
  | pending
  | ready (joined : Joined)
  | panics
deriving DecidableEq

/-- A poll of `&mut self.driver`. -/
def pollDriver (self : Handle) : Poll × Handle :=
  if self.yielded then (.panics, self)
  else
    match self.outcome with
    | none => (.pending, self)
    | some joined => (.ready joined, { self with yielded := true })

/-- How both calls report the end of the task. -/
def report : Joined → Except TransferError Unit
  | .ok result => result
  | .error _ => .error .closed

/-- What a call ends with, beside what the driver had ended with by then. -/
inductive Event where
  | returned (result : Except TransferError Unit) (driver : Option Joined)
  | panicked
deriving DecidableEq

/-- `closed` waits for the task without a limit. -/
def pollClosed (self : Handle) : Handle × List Event :=
  match self.pollDriver with
  | (.pending, self) => (self, [])
  | (.ready joined, self) =>
      ({ self with call := .idle }, [.returned (report joined) self.outcome])
  | (.panics, self) => ({ self with call := .idle }, [.panicked])

/-- `timeout` polls the task first, and looks at the time when it is pending. -/
def pollShutdown (self : Handle) (elapsed : Bool) : Handle × List Event :=
  match self.pollDriver with
  | (.pending, self) =>
      -- `abort` cancels the task when it next waits.
      if elapsed then ({ self with call := .gone }, [.returned (.ok ()) self.outcome])
      else (self, [])
  | (.ready joined, self) =>
      ({ self with call := .gone }, [.returned (report joined) self.outcome])
  | (.panics, self) => ({ self with call := .gone }, [.panicked])

/-- What can happen next to the handle and the task behind it. -/
inductive Action where
  /-- A step of the driver; the handle alone signals the shutdown. -/
  | driver (label : DriverLabel)
  /-- The driver's task panics, or its runtime ends. -/
  | breaks (e : JoinError)
  | closed
  | shutdown
  /-- The call in progress is polled; its time may be over. -/
  | poll (elapsed : Bool)
  /-- The call in progress is dropped. -/
  | cancel

variable (client : AsyncClient) (rootCause : ConnectionError → String)

/-- One step of the handle: the task goes on or breaks, a call starts, is polled or is
dropped. -/
def step (self : Handle) : Action → Option (Handle × List Event)
  | .driver (.signal _) => none
  | .driver label =>
      if self.broken.isSome then none
      else (self.driver.step client rootCause label).map fun next =>
        ({ self with driver := next.1 }, [])
  | .breaks e => if self.outcome.isSome then none else some ({ self with broken := some e }, [])
  | .closed => if self.call = .idle then some ({ self with call := .closed }, []) else none
  | .shutdown =>
      if self.call = .idle then
        some ({ self with
          call := .shutdown
          driver := { self.driver with shutdown := .sent } }, [])
      else none
  | .poll elapsed =>
      match self.call with
      | .closed => some self.pollClosed
      | .shutdown => some (self.pollShutdown elapsed)
      | _ => none
  | .cancel =>
      match self.call with
      | .closed => some ({ self with call := .idle }, [])
      | .shutdown => some ({ self with call := .gone }, [])
      | _ => none

/-- A transport that has just been connected. -/
def system : System Handle Action Event where
  start self := (Driver.system client rootCause).start self.driver ∧ self.broken = none ∧
    self.yielded = false ∧ self.call = .idle
  step := step client rootCause

variable {client rootCause} {self : Handle} {next : Handle × List Event}

/-! ### What the steps do -/

/-- Where a call that waits for the task leaves the handle. -/
inductive Ends : Call → Call → Prop where
  | closed : Ends .closed .idle
  | shutdown : Ends .shutdown .gone

/-- Everything a step can do. -/
inductive Stepped (client : AsyncClient) (rootCause : ConnectionError → String)
    (handle : Handle) : Action → Handle × List Event → Prop where
  | driver {label : DriverLabel} {driver : Driver} {out : List DriverOutput} :
      (∀ s, label ≠ .signal s) →
      handle.driver.step client rootCause label = some (driver, out) →
      Stepped client rootCause handle (.driver label) ({ handle with driver }, [])
  | breaks (e : JoinError) :
      Stepped client rootCause handle (.breaks e) ({ handle with broken := some e }, [])
  | closed : handle.call = .idle →
      Stepped client rootCause handle .closed ({ handle with call := .closed }, [])
  | shutdown : handle.call = .idle →
      Stepped client rootCause handle .shutdown
        ({ handle with call := .shutdown, driver := { handle.driver with shutdown := .sent } }, [])
  | panics (elapsed : Bool) {call : Call} : Ends handle.call call → handle.yielded = true →
      Stepped client rootCause handle (.poll elapsed) ({ handle with call }, [.panicked])
  | ready (elapsed : Bool) {call : Call} {joined : Joined} : Ends handle.call call →
      handle.yielded = false → handle.outcome = some joined →
      Stepped client rootCause handle (.poll elapsed)
        ({ handle with yielded := true, call }, [.returned (report joined) (some joined)])
  | pending (elapsed : Bool) : handle.yielded = false → handle.outcome = none →
      Stepped client rootCause handle (.poll elapsed) (handle, [])
  | timeout : handle.call = .shutdown → handle.yielded = false → handle.outcome = none →
      Stepped client rootCause handle (.poll true)
        ({ handle with call := .gone }, [.returned (.ok ()) none])
  | cancel {call : Call} : Ends handle.call call →
      Stepped client rootCause handle .cancel ({ handle with call }, [])

/-- The outcome does not depend on who has asked for it. -/
theorem outcome_yielded (self : Handle) (yielded : Bool) :
    { self with yielded }.outcome = self.outcome := rfl

/-- A poll of `closed` is one of the listed polls. -/
theorem stepped_pollClosed (elapsed : Bool) (call : self.call = .closed) :
    Stepped client rootCause self (.poll elapsed) self.pollClosed := by
  have ends : Ends self.call .idle := call ▸ .closed
  cases spent : self.yielded with
  | true =>
      have given : self.pollClosed = ({ self with call := .idle }, [.panicked]) := by
        simp [pollClosed, pollDriver, spent]
      exact given ▸ .panics elapsed ends spent
  | false =>
      cases ended : self.outcome with
      | none =>
          have given : self.pollClosed = (self, []) := by
            simp [pollClosed, pollDriver, spent, ended]
          exact given ▸ .pending elapsed spent ended
      | some joined =>
          have given : self.pollClosed = ({ self with yielded := true, call := .idle },
              [.returned (report joined) (some joined)]) := by
            simp [pollClosed, pollDriver, spent, ended, outcome_yielded]
          exact given ▸ .ready elapsed ends spent ended

/-- A poll of `shutdown` is one of the listed polls. -/
theorem stepped_pollShutdown (elapsed : Bool) (call : self.call = .shutdown) :
    Stepped client rootCause self (.poll elapsed) (self.pollShutdown elapsed) := by
  have ends : Ends self.call .gone := call ▸ .shutdown
  cases spent : self.yielded with
  | true =>
      have given : self.pollShutdown elapsed = ({ self with call := .gone }, [.panicked]) := by
        simp [pollShutdown, pollDriver, spent]
      exact given ▸ .panics elapsed ends spent
  | false =>
      cases ended : self.outcome with
      | none =>
          cases elapsed with
          | false =>
              have given : self.pollShutdown false = (self, []) := by
                simp [pollShutdown, pollDriver, spent, ended]
              exact given ▸ .pending false spent ended
          | true =>
              have given : self.pollShutdown true = ({ self with call := .gone },
                  [.returned (.ok ()) none]) := by
                simp [pollShutdown, pollDriver, spent, ended]
              exact given ▸ .timeout call spent ended
      | some joined =>
          have given : self.pollShutdown elapsed = ({ self with yielded := true, call := .gone },
              [.returned (report joined) (some joined)]) := by
            simp [pollShutdown, pollDriver, spent, ended, outcome_yielded]
          exact given ▸ .ready elapsed ends spent ended

/-- Every step is one of the listed ones, with the guards that allowed it. -/
theorem cases_of_step {a : Action} (stepped : self.step client rootCause a = some next) :
    Stepped client rootCause self a next := by
  cases a with
  | driver label =>
      by_cases signal : ∃ s, label = .signal s
      · obtain ⟨s, rfl⟩ := signal
        cases stepped
      · have unsignalled : ∀ s, label ≠ .signal s := fun s same => signal ⟨s, same⟩
        rw [step] at stepped
        · split_ifs at stepped
          obtain ⟨⟨driver, out⟩, own, rfl⟩ := Option.map_eq_some_iff.mp stepped
          exact .driver unsignalled own
        · exact unsignalled
  | breaks e =>
      simp only [step] at stepped
      split_ifs at stepped
      exact Option.some.inj stepped ▸ .breaks e
  | closed =>
      simp only [step] at stepped
      split_ifs at stepped with idle
      exact Option.some.inj stepped ▸ .closed idle
  | shutdown =>
      simp only [step] at stepped
      split_ifs at stepped with idle
      exact Option.some.inj stepped ▸ .shutdown idle
  | poll elapsed =>
      cases call : self.call with
      | idle => simp [step, call] at stepped
      | closed =>
          simp only [step, call] at stepped
          exact Option.some.inj stepped ▸ stepped_pollClosed elapsed call
      | shutdown =>
          simp only [step, call] at stepped
          exact Option.some.inj stepped ▸ stepped_pollShutdown elapsed call
      | gone => simp [step, call] at stepped
  | cancel =>
      cases call : self.call with
      | idle => simp [step, call] at stepped
      | closed =>
          simp only [step, call] at stepped
          exact Option.some.inj stepped ▸ .cancel (call ▸ .closed)
      | shutdown =>
          simp only [step, call] at stepped
          exact Option.some.inj stepped ▸ .cancel (call ▸ .shutdown)
      | gone => simp [step, call] at stepped

/-! ### The driver under the calls -/

/-- Without a signal, nothing ends the wait for one. -/
theorem waiting_step {driver : Driver} {label : DriverLabel} {next : Driver × List DriverOutput}
    (waiting : driver.shutdown = .waiting) (unsignalled : ∀ s, label ≠ .signal s)
    (stepped : driver.step client rootCause label = some next) : next.1.shutdown = .waiting := by
  cases Driver.cases_of_step stepped with
  | signal _ _ => exact absurd rfl (unsignalled _)
  | otherPublish queue _ => exact waiting
  | poll taken outcome _ _ =>
      cases Driver.outcome_cases outcome with
      | success present =>
          obtain ⟨queue, -, after⟩ := Driver.queueStatus_frame client
            { driver.take taken with
              backoff := (driver.take taken).backoff.reset
              state := (driver.take taken).state.setState .connected } statusOnline
          rw [Driver.handle_success, after]
          exact waiting
      | other other =>
          rw [Driver.handle_other _ other]
          exact waiting
      | fatal fatal =>
          rw [Driver.handle_fatal _ fatal]
          exact waiting
      | recoverable recoverable =>
          rw [Driver.handle_recoverable _ recoverable]
          exact waiting
  | flush taken outcome _ =>
      unfold Driver.flush
      split <;> exact waiting
  | shutdown _ _ signalled => exact absurd waiting signalled
  | shutdownAsleep _ _ signalled => exact absurd waiting signalled
  | woken _ _ => exact waiting
  | graceOver _ => exact waiting

/-- The handle has not been consumed, so it still holds the sender of the signal. -/
def HasSender (self : Handle) : Prop := self.call = .idle ∨ self.call = .closed

/-- The driver is in a state of its own system, and has no signal before `shutdown`. -/
structure Driven (client : AsyncClient) (rootCause : ConnectionError → String)
    (handle : Handle) : Prop where
  reachable : (Driver.system client rootCause).Reachable handle.driver
  waiting : handle.HasSender → handle.driver.shutdown = .waiting

/-- The end of a call gives no sender back to a handle that had lost it. -/
theorem Ends.hasSender {t : Handle} (ends : Ends self.call t.call) (has : t.HasSender) :
    self.HasSender := by
  unfold HasSender at has ⊢
  generalize self.call = before at ends ⊢
  generalize t.call = after at ends has
  cases ends with
  | closed => exact Or.inr rfl
  | shutdown => simp at has

/-- Steps that leave the driver alone keep the invariant. -/
theorem Driven.keep (driven : Driven client rootCause self) {t : Handle}
    (driver : t.driver = self.driver) (sender : t.HasSender → self.HasSender) :
    Driven client rootCause t where
  reachable := driver ▸ driven.reachable
  waiting := by
    intro has
    rw [driver]
    exact driven.waiting (sender has)

/-- Every step of the handle keeps the invariant. -/
theorem Driven.step (driven : Driven client rootCause self) {a : Action}
    (stepped : self.step client rootCause a = some next) : Driven client rootCause next.1 := by
  cases cases_of_step stepped with
  | driver unsignalled own =>
      exact ⟨driven.reachable.step own, fun has =>
        waiting_step (driven.waiting has) unsignalled own⟩
  | breaks e => exact driven.keep rfl id
  | closed idle => exact driven.keep rfl fun _ => Or.inl idle
  | shutdown idle =>
      have waiting := driven.waiting (Or.inl idle)
      have signalled : (Driver.system client rootCause).step self.driver (.signal .sent) =
          some ({ self.driver with shutdown := .sent }, []) := by
        simp [Driver.system, Driver.step, waiting]
      exact ⟨driven.reachable.step signalled, by simp [HasSender]⟩
  | panics elapsed ends _ => exact driven.keep rfl ends.hasSender
  | ready elapsed ends _ _ => exact driven.keep rfl ends.hasSender
  | pending elapsed _ _ => exact driven
  | timeout call _ _ => exact driven.keep rfl (by simp [HasSender])
  | cancel ends => exact driven.keep rfl ends.hasSender

/-- Under the calls, the driver takes its own steps. -/
theorem reachable_driver (reachable : (system client rootCause).Reachable self) :
    (Driver.system client rootCause).Reachable self.driver := by
  have driven : Driven client rootCause self := by
    apply reachable.invariant
    · rintro s ⟨started, -⟩
      refine ⟨.start started, fun _ => ?_⟩
      obtain ⟨_, _, _, _, _, connected⟩ := started
      rw [(Driver.connect_eq_ok connected).2.2]
    · exact fun s a t out driven stepped => driven.step stepped
  exact driven.reachable

/-! ### One output -/

/-- The `JoinHandle` is spent exactly when a call has returned what the driver ended
with. -/
theorem yielded_iff_returned {s t : Handle} {actions : List Action} {outs : List Event}
    (started : (system client rootCause).start s)
    (ran : (system client rootCause).run s actions = some (t, outs)) :
    t.yielded = true ↔ ∃ result joined, .returned result (some joined) ∈ outs := by
  apply System.run_trace (R := fun _ outs t =>
    t.yielded = true ↔ ∃ result joined, .returned result (some joined) ∈ outs) _ _ ran
  · intro _ outs s a t out spent stepped
    cases cases_of_step stepped with
    | ready elapsed _ _ _ =>
        exact iff_of_true rfl ⟨_, _, List.mem_append_right _ List.mem_cons_self⟩
    | driver _ _ => simpa using spent
    | breaks e => simpa using spent
    | closed _ => simpa using spent
    | shutdown _ => simpa using spent
    | panics elapsed _ _ => simpa using spent
    | pending elapsed _ _ => simpa using spent
    | timeout _ _ _ => simpa using spent
    | cancel _ => simpa using spent
  · simp [started.2.2.1]

/-- A call that ends after the driver reports what the driver ended with, and no call
panics. -/
def Event.Truthful : Event → Prop
  | .returned result driver => ∀ joined, driver = some joined → result = report joined
  | .panicked => False

/-- No call is polled once the `JoinHandle` is spent. -/
def NotAgain (self : Handle) : Action → Prop
  | .poll _ => self.yielded = false
  | _ => True

/-- The calls tell the truth in a step exactly when it is no second poll of a spent
handle. -/
theorem notAgain_iff {a : Action} (stepped : self.step client rootCause a = some next) :
    NotAgain self a ↔ ∀ x ∈ next.2, x.Truthful := by
  cases cases_of_step stepped with
  | driver _ _ => simp [NotAgain]
  | breaks e => simp [NotAgain]
  | closed _ => simp [NotAgain]
  | shutdown _ => simp [NotAgain]
  | panics elapsed _ spent => simp [NotAgain, Event.Truthful, spent]
  | ready elapsed _ fresh _ => simp [NotAgain, Event.Truthful, fresh]
  | pending elapsed fresh _ => simp [NotAgain, fresh]
  | timeout _ fresh _ => simp [NotAgain, Event.Truthful, fresh]
  | cancel _ => simp [NotAgain]

/-- In every run of the driver and of calls on its handle: no call panics, and every call
that ends after the driver reports what the driver ended with, exactly when no call is
polled after one of them has reported it. -/
theorem calls_truthful_iff (client : AsyncClient) (rootCause : ConnectionError → String)
    {s t : Handle} {actions : List Action} {outs : List Event}
    (ran : (system client rootCause).run s actions = some (t, outs)) :
    (∀ x ∈ outs, x.Truthful) ↔ (system client rootCause).Meets NotAgain s actions := by
  apply Iff.symm
  exact System.run_meets_iff (I := fun _ => True)
    (fun _ _ _ _ _ stepped => ⟨trivial, notAgain_iff stepped⟩) trivial ran

end Handle

/-- The handle of a transport that has just been connected. -/
def localHandle : Handle := ⟨Driver.localDriver, none, false, .idle⟩

open Handle in
/-- The handle of the example is one that `connect` returns. -/
theorem localHandle_starts : (system .documented fun _ => "timeout").start localHandle :=
  ⟨Driver.localDriver_starts _ _, rfl, rfl, rfl⟩

open Handle in
/-- `closed` is dropped once and then `shutdown` waits for the driver. -/
theorem calls_truthful_shutdown :
    let actions : List Action :=
      [.closed, .poll false, .cancel, .shutdown, .poll false, .driver (.shutdown []), .poll true]
    ∃ t, (system .documented fun _ => "timeout").run localHandle actions =
        some (t, [.returned (.ok ()) (some (.ok (.ok ())))]) ∧
      ((∀ x ∈ [Event.returned (.ok ()) (some (.ok (.ok ())))], x.Truthful) ↔
        (system .documented fun _ => "timeout").Meets NotAgain localHandle actions) :=
  ⟨_, rfl, calls_truthful_iff .documented (fun _ => "timeout") rfl⟩

open Handle in
/-- The broker refuses the agent for good and `closed` reports it; `shutdown` then
panics. -/
theorem shutdown_after_closed_panics :
    let e : ConnectionError := .connectionRefused .notAuthorized
    (system .documented fun _ => "timeout").start localHandle ∧
      ∃ t outs, (system .documented fun _ => "timeout").run localHandle
        [.closed, .driver (.poll 0 (.error e)), .poll false, .shutdown, .poll false] =
          some (t, outs) ∧
      outs = [.returned (.error (.connection e)) (some (.ok (.error (.connection e)))),
        .panicked] ∧
      ¬ ∀ x ∈ outs, x.Truthful := by
  refine ⟨localHandle_starts, _, _, rfl, rfl, fun truthful => ?_⟩
  exact truthful .panicked (List.mem_cons_of_mem _ List.mem_cons_self)

end BlazeBee.Transport
