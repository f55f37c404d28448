import BlazeBee.Lib.Capped
import BlazeBee.Transport.FinalState
import Mathlib.Algebra.Order.Field.Basic
import Mathlib.Tactic.Linarith
import Mathlib.Tactic.Positivity
import Mathlib.Tactic.Ring

/-!
The reconnect schedule.

`errorsAfter` is what the schedule should depend on: the recoverable errors since the
last successful CONNACK, as a function of the labels of a run. `Follows` relates it to
the driver, whose only memory is the next base delay of its `Backoff`.
`reconnect_schedule` says what the driver does after any run without a shutdown or a
fatal error.
-/

namespace BlazeBee.Transport

open BlazeBee.Lib BlazeBee.Rumqttc

namespace Backoff

/-- The delay before the `n`-th attempt, before jitter. -/
def base (n : Nat) : ℚ := Min.min (2 ^ (n - 1)) 60

theorem base_pos (n : Nat) : 0 < base n := lt_min (by positivity) (by norm_num)

theorem base_eq (n : Nat) : base n = capped 1 2 60 (n - 1) := by rw [base, capped, one_mul]

/-- Doubling up to the cap, and staying there. -/
theorem base_succ (n : Nat) : base (n + 2) = Min.min (base (n + 1) * 2) 60 := by
  rw [base_eq, base_eq]
  exact capped_succ one_le_two (by norm_num) n

/-- The random unit has 53 bits. -/
theorem randomUnit_bounds (self : Backoff) : 0 ≤ self.randomUnit.1 ∧ self.randomUnit.1 ≤ 1 := by
  have bits (v : UInt64) : (v >>> 11).toNat ≤ 2 ^ 53 := by
    have size := v.toNat_lt
    have eleven : (11 : UInt64).toNat % 64 = 11 := rfl
    rw [UInt64.toNat_shiftRight, Nat.shiftRight_eq_div_pow, eleven]
    omega
  simp only [randomUnit]
  constructor
  · exact div_nonneg (Nat.cast_nonneg _) (by norm_num)
  · rw [div_le_one (by norm_num)]
    exact_mod_cast bits _

/-- A delay differs from its base by the jitter at most, either way. -/
theorem nextDelay_bounds (self : Backoff) (next : 0 ≤ self.next) (jitter : 0 ≤ self.jitter) :
    self.next * (1 - self.jitter) ≤ self.nextDelay.1 ∧
      self.nextDelay.1 ≤ self.next * (1 + self.jitter) := by
  unfold nextDelay
  dsimp only
  split_ifs with none_wanted
  · rw [none_wanted]
    simp
  · obtain ⟨low, high⟩ := randomUnit_bounds
      { self with next := Min.min (self.next * self.factor) self.max }
    generalize (randomUnit _).1 = unit at low high ⊢
    have swing : -self.jitter ≤ self.jitter * (2 * unit - 1) ∧
        self.jitter * (2 * unit - 1) ≤ self.jitter := by
      constructor <;> nlinarith
    have same : (randomUnit { self with
        next := Min.min (self.next * self.factor) self.max }).2.jitter = self.jitter := rfl
    rw [same]
    constructor
    · exact mul_le_mul_of_nonneg_left (by linarith) next
    · exact mul_le_mul_of_nonneg_left (by linarith) next

/-- The parameters never change, and the base delay grows to its cap. -/
theorem nextDelay_frame (self : Backoff) :
    ∃ rng, self.nextDelay.2 =
      { self with next := Min.min (self.next * self.factor) self.max, rng } := by
  unfold nextDelay
  dsimp only
  split_ifs
  · exact ⟨_, rfl⟩
  · exact ⟨_, rfl⟩

/-- A default backoff that will wait for the `n`-th attempt. -/
structure AtAttempt (n : Nat) (backoff : Backoff) : Prop where
  initial : backoff.initial = 1
  max : backoff.max = 60
  factor : backoff.factor = 2
  jitter : backoff.jitter = 1 / 5
  next : backoff.next = base n

/-- The driver's backoff starts at the first attempt. -/
theorem atAttempt_default (seed : UInt64) : AtAttempt 1 (Backoff.default seed) := by
  constructor <;> norm_num [default, withJitter, new, base]

/-- A reset goes back to the first attempt. -/
theorem AtAttempt.reset {n : Nat} {backoff : Backoff} (at_attempt : AtAttempt n backoff) :
    AtAttempt 1 backoff.reset where
  initial := at_attempt.initial
  max := at_attempt.max
  factor := at_attempt.factor
  jitter := at_attempt.jitter
  next := by
    rw [Backoff.reset, at_attempt.initial]
    norm_num [base]

/-- The delay before an attempt is within a fifth of its base, and the backoff moves on to
the next one. -/
theorem AtAttempt.nextDelay {n : Nat} {backoff : Backoff}
    (at_attempt : AtAttempt (n + 1) backoff) :
    4 / 5 * base (n + 1) ≤ backoff.nextDelay.1 ∧ backoff.nextDelay.1 ≤ 6 / 5 * base (n + 1) ∧
      AtAttempt (n + 2) backoff.nextDelay.2 := by
  obtain ⟨initial, max, factor, jitter, next⟩ := at_attempt
  have positive := base_pos (n + 1)
  obtain ⟨low, high⟩ := nextDelay_bounds backoff (by rw [next]; exact positive.le)
    (by rw [jitter]; norm_num)
  rw [next, jitter] at low high
  obtain ⟨rng, after⟩ := nextDelay_frame backoff
  refine ⟨by linarith, by linarith, ?_⟩
  rw [after]
  exact ⟨initial, max, factor, jitter, by rw [next, factor, max, base_succ]⟩

end Backoff

namespace Driver

variable {client : AsyncClient} {rootCause : ConnectionError → String} {self : Driver}

/-! ### History -/

/-- The recoverable errors since the last successful CONNACK, after one more label. -/
def countError (errors : Nat) : DriverLabel → Nat
  | .poll _ (.ok (.connAck .success _)) => 0
  | .poll _ (.error _) => errors + 1
  | _ => errors

/-- The same after a run. -/
def errorsAfter (labels : List DriverLabel) : Nat := labels.foldl countError 0

/-- Every other event counts for nothing. -/
theorem countError_other (errors taken : Nat) {event : Event}
    (other : ∀ present, event ≠ .connAck .success present) :
    countError errors (.poll taken (.ok event)) = errors := by
  unfold countError
  split
  · next same =>
      obtain ⟨-, same⟩ := DriverLabel.poll.inj same
      exact absurd (Except.ok.inj same) (other _)
  · next same => cases same
  · rfl

/-- An outcome that does not stop the driver. -/
def NotFatal (outcome : Except ConnectionError Event) : Prop :=
  ∀ e, outcome = .error e → isFatal e = false

/-- Neither a shutdown nor a fatal error. -/
def Uninterrupted (label : DriverLabel) : Prop :=
  (∀ s, label ≠ .signal s) ∧ ∀ taken outcome, label = .poll taken outcome → NotFatal outcome

/-- A running driver whose backoff stands where the history says. -/
structure Follows (errors : Nat) (driver : Driver) : Prop where
  waiting : driver.shutdown = .waiting
  running : driver.control = .polling ∨
    ∃ delay, driver.control = .sleeping delay ∧ driver.state.value = .reconnecting delay
  backoff : driver.backoff.AtAttempt (errors + 1)

/-! ### One outcome -/

/-- What a polling driver does with an outcome, `errors` errors after the last CONNACK:
the next error is the one of number `errors + 1`. -/
inductive Answers (errors : Nat) (driver : Driver) :
    Except ConnectionError Event → Driver × List DriverOutput → Prop where
  | retry {e : ConnectionError} {next : Driver} (delay : ℚ) :
      next.state.value = .reconnecting delay → next.control = .sleeping delay →
      4 / 5 * Backoff.base (errors + 1) ≤ delay → delay ≤ 6 / 5 * Backoff.base (errors + 1) →
      Answers errors driver (.error e) (next, [.sleeping delay])
  | connected {present : Bool} {next : Driver} {out : List DriverOutput} :
      next.state.value = .connected → next.control = .polling →
      (∀ delay, .sleeping delay ∉ out) →
      Answers errors driver (.ok (.connAck .success present)) (next, out)
  | other {event : Event} : (∀ present, event ≠ .connAck .success present) →
      Answers errors driver (.ok event) (driver, [])

/-- A status message starts no sleep. -/
theorem sleeping_notMem_queueStatus (client : AsyncClient) (self : Driver) (text : String)
    (delay : ℚ) : .sleeping delay ∉ (self.queueStatus client text).2 := by
  simp only [queueStatus]
  cases client.tryPublish self.queue (statusMessage self.statusTopic text) with
  | ok queue => simp
  | error e => simp

/-- The answer to an outcome, and where it leaves the backoff. -/
theorem answers_handle {errors : Nat} (client : AsyncClient)
    (rootCause : ConnectionError → String) (follows : Follows errors self)
    (polling : self.control = .polling) {outcome : Except ConnectionError Event}
    (goes_on : NotFatal outcome) (taken : Nat) :
    Answers errors self outcome (self.handle client rootCause outcome) ∧
      Follows (countError errors (.poll taken outcome))
        (self.handle client rootCause outcome).1 := by
  obtain ⟨waiting, -, backoff⟩ := follows
  cases outcome_cases outcome with
  | success present =>
      let self' : Driver :=
        { self with backoff := self.backoff.reset, state := self.state.setState .connected }
      obtain ⟨queue, -, queued⟩ := queueStatus_frame client self' statusOnline
      have silent := sleeping_notMem_queueStatus client self' statusOnline
      rw [handle_success]
      change Answers errors self _ (queueStatus client self' statusOnline) ∧
        Follows 0 (queueStatus client self' statusOnline).1
      generalize queueStatus client self' statusOnline = answer at queued silent ⊢
      obtain ⟨next, out⟩ := answer
      obtain rfl : next = { self' with queue } := queued
      constructor
      · exact .connected (Watch.setState_value _ _) polling silent
      · exact ⟨waiting, Or.inl polling, backoff.reset⟩
  | other other =>
      rw [handle_other self other, countError_other errors taken other]
      exact ⟨.other other, waiting, Or.inl polling, backoff⟩
  | @fatal e fatal =>
      rw [goes_on e rfl] at fatal
      cases fatal
  | recoverable recoverable =>
      obtain ⟨low, high, backoff'⟩ := backoff.nextDelay
      have announced : ∀ w : Watch ConnectionState, (w.setState
          (.reconnecting self.backoff.nextDelay.1)).value =
            .reconnecting self.backoff.nextDelay.1 := fun w => Watch.setState_value _ _
      rw [handle_recoverable self recoverable]
      constructor
      · exact .retry _ (announced _) rfl low high
      · exact ⟨waiting, Or.inr ⟨_, rfl, announced _⟩, backoff'⟩

/-! ### Runs -/

/-- Every uninterrupted step keeps the backoff in line with the history. -/
theorem follows_step {errors : Nat} {label : DriverLabel} {next : Driver × List DriverOutput}
    (follows : Follows errors self) (uninterrupted : Uninterrupted label)
    (stepped : self.step client rootCause label = some next) :
    Follows (countError errors label) next.1 := by
  obtain ⟨waiting, running, backoff⟩ := follows
  obtain ⟨no_signal, goes_on⟩ := uninterrupted
  cases cases_of_step stepped with
  | @signal s _ _ => exact absurd rfl (no_signal s)
  | otherPublish queue _ => exact ⟨waiting, running, backoff⟩
  | poll taken outcome control _ =>
      have follows : Follows errors (self.take taken) := ⟨waiting, running, backoff⟩
      exact (answers_handle client rootCause follows control (goes_on taken outcome rfl) taken).2
  | flush taken outcome control =>
      rcases running with polling | ⟨delay, asleep, -⟩
      · simp [control] at polling
      · simp [control] at asleep
  | shutdown between _ requested => exact absurd waiting requested
  | shutdownAsleep between _ requested => exact absurd waiting requested
  | woken control _ => exact ⟨waiting, Or.inl rfl, backoff⟩
  | graceOver control =>
      rcases running with polling | ⟨delay, asleep, -⟩
      · simp [control] at polling
      · simp [control] at asleep

/-- At the start nothing has failed. -/
theorem follows_start (started : (system client rootCause).start self) : Follows 0 self := by
  obtain ⟨_, _, _, _, _, connected⟩ := started
  obtain ⟨-, -, rfl⟩ := connect_eq_ok connected
  exact ⟨rfl, Or.inl rfl, Backoff.atAttempt_default _⟩

/-- After any run without a shutdown or a fatal error the driver is still there. It
polls, and answers the next outcome according to the number of errors since the last
CONNACK; or it sleeps for the delay it announced, and only then polls again. -/
theorem reconnect_schedule (started : (system client rootCause).start self)
    {labels : List DriverLabel} (uninterrupted : ∀ label ∈ labels, Uninterrupted label)
    {t : Driver} {outs : List DriverOutput}
    (ran : (system client rootCause).run self labels = some (t, outs)) :
    (t.control = .polling ∧ ∀ taken outcome, NotFatal outcome →
      ∃ next, (system client rootCause).step t (.poll taken outcome) = some next ∧
        Answers (errorsAfter labels) (t.take taken) outcome next) ∨
    ∃ delay, t.control = .sleeping delay ∧ t.state.value = .reconnecting delay ∧
      (system client rootCause).step t .woken = some ({ t with control := .polling }, []) ∧
      ∀ taken outcome, (system client rootCause).step t (.poll taken outcome) = none := by
  have follows : Follows (errorsAfter labels) t :=
    System.run_history (R := Follows) (C := Uninterrupted)
      (fun errors s label u out follows uninterrupted stepped =>
        follows_step follows uninterrupted stepped)
      (follows_start started) uninterrupted ran
  obtain ⟨waiting, running, backoff⟩ := follows
  rcases running with polling | ⟨delay, asleep, announced⟩
  · refine Or.inl ⟨polling, ?_⟩
    intro taken outcome goes_on
    have follows : Follows (errorsAfter labels) (t.take taken) :=
      ⟨waiting, Or.inl polling, backoff⟩
    exact ⟨_, step_poll polling waiting taken outcome,
      (answers_handle client rootCause follows polling goes_on taken).1⟩
  · refine Or.inr ⟨delay, asleep, announced, step_woken asleep waiting, ?_⟩
    intro taken outcome
    show t.step client rootCause (.poll taken outcome) = none
    simp [step, asleep]

/-- A failed attempt, and the wait after it. -/
def failedAttempt : List DriverLabel := [.poll 0 (.error .networkTimeout), .woken]

/-- The next error is the second. -/
theorem reconnect_schedule_failedAttempt :
    ∃ t outs, (system .documented fun _ => "timeout").run localDriver failedAttempt =
        some (t, outs) ∧
      ∃ next, (system .documented fun _ => "timeout").step t (.poll 0 (.error .networkTimeout)) =
          some next ∧ Answers 1 (t.take 0) (.error .networkTimeout) next := by
  have failed : ∃ s out delay, (system .documented fun _ => "timeout").step localDriver
      (.poll 0 (.error .networkTimeout)) = some (s, out) ∧
        s.control = .sleeping delay ∧ s.shutdown = .waiting :=
    ⟨_, _, _, (step_poll rfl rfl 0 _).trans
      (congrArg some (handle_recoverable (localDriver.take 0) rfl)), rfl, rfl⟩
  obtain ⟨s, out, delay, failed, asleep, waiting⟩ := failed
  have ran : (system .documented fun _ => "timeout").run localDriver failedAttempt =
      some ({ s with control := .polling }, out ++ ([] ++ [])) :=
    System.run_of_step failed (System.run_of_step (step_woken asleep waiting) rfl)
  have uninterrupted : ∀ label ∈ failedAttempt, Uninterrupted label := by
    simp [failedAttempt, Uninterrupted, NotFatal, isFatal]
  refine ⟨_, _, ran, ?_⟩
  rcases reconnect_schedule (localDriver_starts _ _) uninterrupted ran with
    ⟨-, answers⟩ | ⟨delay, asleep, -⟩
  · exact answers 0 _ (by simp [NotFatal, isFatal])
  · cases asleep

end Driver

end BlazeBee.Transport
