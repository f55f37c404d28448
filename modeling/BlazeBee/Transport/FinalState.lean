import BlazeBee.Transport.Connection

/-!
The last value in the state channel.

A driver that returns leaves its last write to the observers for good. One of its
exits writes nothing: the shutdown branch of the `select!` over the backoff sleep.

* `truthful_step`: every other step keeps the value in line with the result.
* `final_state_iff`: after a run the value tells the truth exactly when that exit was
  not taken.
-/

namespace BlazeBee.Transport

open BlazeBee.Lib BlazeBee.Rumqttc

namespace Driver

variable {client : AsyncClient} {rootCause : ConnectionError → String} {self : Driver}

/-- What the observers of a driver that returned should find. -/
structure TellsTruth (rootCause : ConnectionError → String) (state : ConnectionState)
    (result : Except TransferError Unit) : Prop where
  fatal : (∃ reason, state = .fatalExit reason) ↔ ∃ e, result = .error e
  reason : ∀ e, result = .error e →
    ∃ source, e = .connection source ∧ state = .fatalExit (rootCause source)
  shutdown : state = .disconnected "shutdown" ↔ result = .ok ()
  settled : state ≠ .connecting ∧ state ≠ .connected ∧ ∀ secs, state ≠ .reconnecting secs

/-- The value written for a fatal error, with the error returned. -/
theorem tellsTruth_fatal (e : ConnectionError) :
    TellsTruth rootCause (.fatalExit (rootCause e)) (.error (.connection e)) where
  fatal := ⟨fun _ => ⟨_, rfl⟩, fun _ => ⟨_, rfl⟩⟩
  reason := by
    intro _ same
    exact ⟨e, (Except.error.inj same).symm, rfl⟩
  shutdown := by simp
  settled := by simp

/-- The value written at a shutdown, with the result of a shutdown. -/
theorem tellsTruth_shutdown : TellsTruth rootCause (.disconnected "shutdown") (.ok ()) where
  fatal := by simp
  reason := by simp
  shutdown := by simp
  settled := by simp

/-- If the driver returned, its last value tells the truth about it. -/
def Truthful (rootCause : ConnectionError → String) (self : Driver) : Prop :=
  ∀ result, self.control = .returned result → TellsTruth rootCause self.state.value result

/-- The shutdown branch of the `select!` over the backoff sleep. -/
def ShutdownAsleep (self : Driver) (label : DriverLabel) : Prop :=
  (∃ delay, self.control = .sleeping delay) ∧ ∃ between, label = .shutdown between

/-- Truthful, and while it sleeps the driver shows the delay. -/
structure Faithful (rootCause : ConnectionError → String) (driver : Driver) : Prop where
  truthful : Truthful rootCause driver
  asleep : ∀ delay, driver.control = .sleeping delay → driver.state.value = .reconnecting delay

/-- The driver is gone and still announces a reconnect. -/
def LeftReconnecting (self : Driver) : Prop :=
  self.control = .returned (.ok ()) ∧ ∃ delay, self.state.value = .reconnecting delay

/-! ### One step -/

/-- Where the driver neither returned nor sleeps there is nothing to tell. -/
theorem faithful_awake (awake : self.control = .polling ∨ self.control = .flushing) :
    Faithful rootCause self := by
  constructor
  · intro result returned
    rcases awake with control | control <;> simp [control] at returned
  · intro delay asleep
    rcases awake with control | control <;> simp [control] at asleep

/-- It is a matter of where the driver is and what it shows. -/
theorem Faithful.of_same {t : Driver} (faithful : Faithful rootCause self)
    (control : t.control = self.control) (state : t.state = self.state) :
    Faithful rootCause t := by
  constructor
  · intro result returned
    rw [state]
    exact faithful.truthful result (control.symm.trans returned)
  · intro delay asleep
    rw [state]
    exact faithful.asleep delay (control.symm.trans asleep)

/-- A driver that closes tells of the shutdown. -/
theorem faithful_closed (self : Driver) : Faithful rootCause self.closed := by
  constructor
  · intro result returned
    obtain rfl : .ok () = result := Control.returned.inj returned
    have last : self.closed.state.value = .disconnected "shutdown" := Watch.setState_value _ _
    rw [last]
    exact tellsTruth_shutdown
  · intro delay asleep
    cases asleep

/-- An outcome of the main loop leaves the driver awake, announces the sleep that it
starts, or announces the error that it returns. -/
theorem faithful_handle (client : AsyncClient) (rootCause : ConnectionError → String)
    (self : Driver) (control : self.control = .polling) (outcome : Except ConnectionError Event) :
    Faithful rootCause (self.handle client rootCause outcome).1 := by
  cases outcome_cases outcome with
  | success present =>
      rw [handle_success]
      obtain ⟨queue, -, queued⟩ := queueStatus_frame client
        { self with backoff := self.backoff.reset, state := self.state.setState .connected }
        statusOnline
      rw [queued]
      exact faithful_awake (Or.inl control)
  | other other =>
      rw [handle_other self other]
      exact faithful_awake (Or.inl control)
  | @fatal e fatal =>
      rw [handle_fatal self fatal]
      constructor
      · intro result returned
        obtain rfl : .error (.connection e) = result := Control.returned.inj returned
        have last : ((self.setState (.fatalExit (rootCause e))).finish
            (.error (.connection e))).state.value = .fatalExit (rootCause e) :=
          Watch.setState_value _ _
        rw [last]
        exact tellsTruth_fatal e
      · intro delay asleep
        cases asleep
  | recoverable recoverable =>
      rw [handle_recoverable self recoverable]
      constructor
      · intro result returned
        cases returned
      · intro delay asleep
        obtain rfl := Control.sleeping.inj asleep
        exact Watch.setState_value _ _

/-- The shutdown of a polling driver, connected or not. -/
theorem faithful_disconnect (client : AsyncClient) (self : Driver) (between : List Publish) :
    Faithful rootCause (self.disconnect client between).1 := by
  cases connected : self.state.value.isConnected with
  | true =>
      obtain ⟨queue, -, waiting⟩ := disconnect_connected client between connected
      rw [waiting]
      exact faithful_awake (Or.inr rfl)
  | false =>
      rw [disconnect_unconnected client between connected]
      exact faithful_closed self

/-- The wait for the DISCONNECT ends with the shutdown told, or goes on. -/
theorem faithful_flush (self : Driver) (control : self.control = .flushing)
    (outcome : Except ConnectionError Event) : Faithful rootCause (self.flush outcome) := by
  unfold flush
  split
  · exact faithful_closed self
  · exact faithful_awake (Or.inr control)
  · exact faithful_closed self

/-- The steps but one keep the value in line with the result, and that one leaves a
reconnect announced. -/
theorem truthful_step {label : DriverLabel} {next : Driver × List DriverOutput}
    (faithful : Faithful rootCause self)
    (stepped : self.step client rootCause label = some next) :
    ¬ ShutdownAsleep self label ∧ Faithful rootCause next.1 ∨
      ShutdownAsleep self label ∧ LeftReconnecting next.1 := by
  have awake : ∀ {label}, (∀ delay, self.control ≠ .sleeping delay) →
      ¬ ShutdownAsleep self label := by
    rintro _ awake ⟨⟨delay, asleep⟩, -⟩
    exact awake delay asleep
  cases cases_of_step stepped with
  | signal waiting _ =>
      refine Or.inl ⟨?_, faithful.of_same rfl rfl⟩
      rintro ⟨-, between, label⟩
      cases label
  | otherPublish queue _ =>
      refine Or.inl ⟨?_, faithful.of_same rfl rfl⟩
      rintro ⟨-, between, label⟩
      cases label
  | poll taken outcome control _ =>
      exact Or.inl ⟨awake (by simp [control]), faithful_handle _ _ (self.take taken) control _⟩
  | flush taken outcome control =>
      exact Or.inl ⟨awake (by simp [control]), faithful_flush (self.take taken) control outcome⟩
  | shutdown between control _ =>
      exact Or.inl ⟨awake (by simp [control]), faithful_disconnect client self between⟩
  | @shutdownAsleep delay between control _ =>
      exact Or.inr ⟨⟨⟨delay, control⟩, between, rfl⟩, rfl, delay, faithful.asleep delay control⟩
  | woken control _ =>
      refine Or.inl ⟨?_, faithful_awake (Or.inl rfl)⟩
      rintro ⟨-, between, label⟩
      cases label
  | graceOver control =>
      exact Or.inl ⟨awake (by simp [control]), faithful_closed self⟩

/-- Nothing is written after the driver is gone. -/
theorem leftReconnecting_step {label : DriverLabel} {next : Driver × List DriverOutput}
    (left : LeftReconnecting self)
    (stepped : self.step client rootCause label = some next) : LeftReconnecting next.1 := by
  obtain ⟨returned, delay, announced⟩ := left
  cases cases_of_step stepped with
  | signal _ _ => exact ⟨returned, delay, announced⟩
  | otherPublish queue _ => exact ⟨returned, delay, announced⟩
  | poll _ _ control _ => simp [control] at returned
  | flush _ _ control => simp [control] at returned
  | shutdown _ control _ => simp [control] at returned
  | shutdownAsleep _ control _ => simp [control] at returned
  | woken control _ => simp [control] at returned
  | graceOver control => simp [control] at returned

/-- An observer who finds a reconnect announced by a driver that is gone was not told the
truth. -/
theorem not_truthful_of_leftReconnecting (left : LeftReconnecting self) :
    ¬ Truthful rootCause self := by
  obtain ⟨returned, delay, announced⟩ := left
  intro truthful
  exact (truthful _ returned).settled.2.2 delay announced

/-! ### Whole runs -/

/-- After any run of a driver, the last value tells the truth about a driver that
returned exactly when no shutdown interrupted a backoff sleep. -/
theorem final_state_iff {labels : List DriverLabel} {t : Driver} {outs : List DriverOutput}
    (started : (system client rootCause).start self)
    (ran : (system client rootCause).run self labels = some (t, outs)) :
    Truthful rootCause t ↔
      (system client rootCause).Meets (fun s label => ¬ ShutdownAsleep s label) self labels := by
  have fresh : Faithful rootCause self := by
    obtain ⟨_, _, _, _, _, connected⟩ := started
    obtain ⟨-, -, rfl⟩ := connect_eq_ok connected
    exact faithful_awake (Or.inl rfl)
  have ends := System.run_dichotomy (J := LeftReconnecting)
    (C := fun s label => ¬ ShutdownAsleep s label)
    (fun s label t out faithful stepped => by
      rw [not_not]
      exact truthful_step faithful stepped)
    (fun s label t out left stepped => leftReconnecting_step left stepped) fresh ran
  rcases ends with ⟨meets, faithful⟩ | ⟨fails, left⟩
  · exact ⟨fun _ => meets, fun _ => faithful.truthful⟩
  · constructor
    · intro truthful
      exact absurd truthful (not_truthful_of_leftReconnecting left)
    · intro meets
      exact absurd meets fails

/-- A local broker and all defaults. -/
def localBroker : Config := { clientId := "agent" }

/-- The driver that it starts. -/
def localDriver : Driver where
  statusTopic := joinTopic localBroker.baseTopic "status"
  backoff := Backoff.default 1
  state := Watch.init .connecting
  shutdown := .waiting
  queue := Channel.empty localBroker.requestChannelCapacity.toNat
  control := .polling

/-- The driver of the examples is one that `connect` starts. -/
theorem localDriver_starts (client : AsyncClient) (rootCause : ConnectionError → String) :
    (system client rootCause).start localDriver :=
  ⟨fun _ => true, fun _ => .ok [], 1, localBroker, _, rfl⟩

/-- The broker does not answer, and the shutdown arrives during the wait. -/
def interruptedSleep : List DriverLabel :=
  [.poll 0 (.error .networkTimeout), .signal .sent, .shutdown []]

/-- The driver returns `Ok` and leaves `Reconnecting` behind. -/
theorem interruptedSleep_leaves_reconnecting :
    (system .documented fun _ => "timeout").start localDriver ∧
      ∃ t outs, (system .documented fun _ => "timeout").run localDriver interruptedSleep =
          some (t, outs) ∧
        t.control = .returned (.ok ()) ∧ (∃ delay, t.state.value = .reconnecting delay) ∧
        ¬ Truthful (fun _ => "timeout") t := by
  refine ⟨localDriver_starts _ _, _, _, rfl, rfl, ⟨_, rfl⟩, ?_⟩
  exact not_truthful_of_leftReconnecting ⟨rfl, _, rfl⟩

/-- A shutdown before the first CONNACK, which is told of as such. -/
theorem final_state_iff_connecting :
    ∃ t outs, (system .documented fun _ => "timeout").run localDriver
          [.signal .sent, .shutdown []] = some (t, outs) ∧
      t.control = .returned (.ok ()) ∧ Truthful (fun _ => "timeout") t := by
  have ran : (system .documented fun _ => "timeout").run localDriver
      [.signal .sent, .shutdown []] = some (_, []) := rfl
  refine ⟨_, _, ran, rfl, (final_state_iff (localDriver_starts _ _) ran).mpr ?_⟩
  have awake : ∀ s label, s.control = .polling → ¬ ShutdownAsleep s label := by
    rintro s label polling ⟨⟨delay, asleep⟩, -⟩
    cases polling.symm.trans asleep
  refine ⟨awake _ _ rfl, fun s out stepped => ⟨?_, fun _ _ _ => trivial⟩⟩
  obtain ⟨rfl, -⟩ := Prod.mk.inj (Option.some.inj stepped)
  exact awake _ _ rfl

end Driver

end BlazeBee.Transport
