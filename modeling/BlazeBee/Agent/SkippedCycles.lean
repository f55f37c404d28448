import BlazeBee.Agent.WakeUp

/-!
The number of skipped cycles that is logged when collection resumes.

The loop adds one wherever it finds the link down, whatever woke it: a tick, or a change
from one state that is not `Connected` to another. `Pause` counts the two apart, beside
the run.

* `counted_step`: the counter of the loop is their sum.
* `skipped_cycles_iff`: in a run every logged number is the number of ticks exactly when
  no pause that ends was woken by such a change.
-/

namespace BlazeBee.Agent

open BlazeBee.Lib BlazeBee.Transport

namespace Scheduler

variable {Value : Type}

/-! ### The two counts -/

/-- What has woken the loop since the pause began, and found the link down. -/
structure Pause where
  ticks : Nat
  changes : Nat
deriving DecidableEq, Repr

/-- The counts after a step; `Connected` ends the pause. -/
def Pause.next (pause : Pause) (s : Scheduler) : SchedulerLabel Value → Pause
  | .tick =>
      if s.link.value.isConnected then ⟨0, 0⟩ else { pause with ticks := pause.ticks + 1 }
  | .changed =>
      if s.link.value.isConnected then ⟨0, 0⟩ else { pause with changes := pause.changes + 1 }
  | _ => pause

variable (Value) in
/-- The runs of the scheduler, with both counts beside them. -/
def counting : System (Scheduler × Pause) (SchedulerLabel Value) (SchedulerOutput Value × Pause) :=
  (system Value).recording (fun _ => ⟨0, 0⟩) fun pause s label _ => pause.next s label

/-! ### What is logged -/

/-- A step that ends a pause, and logs what was skipped. -/
def Resumes (s : Scheduler) (label : SchedulerLabel Value) : Prop :=
  s.paused = true ∧ s.everConnected = true ∧ s.link.value = .connected ∧
    (label = .tick ∨ label = .changed)

/-- Going on to the next entry logs no end of a pause. -/
theorem resumed_not_mem_nextEntry (s : Scheduler) (c : InCycle) (n : Nat) :
    .resumed n ∉ (s.nextEntry c : Scheduler × List (SchedulerOutput Value)).2 := by
  intro mem
  cases inCycle_of_mem_nextEntry mem

/-- A cycle that starts logs the end of a pause if there was one, and not before the first
connection. -/
theorem resumed_mem_startCycle (s : Scheduler) (n : Nat) :
    .resumed n ∈ (s.startCycle : Scheduler × List (SchedulerOutput Value)).2 ↔
      s.paused = true ∧ s.everConnected = true ∧ n = s.skipped := by
  simp only [startCycle, List.mem_append, List.mem_cons, reduceCtorEq,
    resumed_not_mem_nextEntry, or_false]
  split_ifs <;> simp_all

/-- Reading the link logs the end of a pause exactly when it shows a connection again. -/
theorem resumed_mem_observe (s : Scheduler) (n : Nat) :
    .resumed n ∈ (s.observe : Scheduler × List (SchedulerOutput Value)).2 ↔
      s.paused = true ∧ s.everConnected = true ∧ s.link.value = .connected ∧ n = s.skipped := by
  generalize read : (s.observe : Scheduler × List (SchedulerOutput Value)) = next
  cases cases_of_observe read with
  | fatal fatal => simp [ConnectionState.ne_connected_of_fatal fatal]
  | down lasting down =>
      cases s.paused <;> simp [ConnectionState.ne_connected_of_down down]
  | connected connected =>
      rw [resumed_mem_startCycle]
      simp [connected]

/-- The result of a collector logs no end of a pause. -/
theorem resumed_not_mem_collected (s : Scheduler) (c : InCycle) (entry : Entry)
    (outcome : Collected Value) (n : Nat) :
    .resumed n ∉ (s.collected c entry outcome).2 := by
  intro mem
  cases inCycle_of_mem_collected mem

/-- A step logs the end of a pause exactly when it ends one, and logs the counter. -/
theorem resumed_mem_iff {s : Scheduler} {label : SchedulerLabel Value}
    {next : Scheduler × List (SchedulerOutput Value)} (alert : Alert s)
    (stepped : s.step label = some next) (n : Nat) :
    .resumed n ∈ next.2 ↔ Resumes s label ∧ n = s.skipped := by
  cases cases_of_step stepped with
  | write state alive => simp [Resumes]
  | senderDropped alive => simp [Resumes]
  | advance duration => simp [Resumes]
  | tick waits ready =>
      rw [resumed_mem_observe]
      simp [Resumes, tickFired, and_assoc]
  | changed control unseen =>
      rw [resumed_mem_observe]
      simp [Resumes, wokenEarly, and_assoc]
  | closed control seen gone =>
      -- With no news left, the link is not connected.
      have down : s.link.value.isConnected = false :=
        ((alert.select control).resolve_left seen).1
      simp [Resumes, ConnectionState.ne_connected_of_down down]
  | collected c entry outcome control found may =>
      simp [Resumes, resumed_not_mem_collected]

/-! ### The counter -/

/-- While the loop runs, its counter is the sum of both counts; it counts only in a
pause. -/
structure Counted (s : Scheduler) (pause : Pause) : Prop where
  alert : Alert s
  unpaused : s.paused = false → s.skipped = 0
  sum : s.control ≠ .returned → s.skipped = pause.ticks + pause.changes

/-- Reading the link, whatever woke the loop: `woken` are the counts if it is down. -/
theorem Counted.observe {s : Scheduler} {pause woken : Pause} (counted : Counted s pause)
    (running : s.control ≠ .returned)
    (one : woken.ticks + woken.changes = pause.ticks + pause.changes + 1) {r : Scheduler}
    (paused : r.paused = s.paused) (skipped : r.skipped = s.skipped) :
    Counted (r.observe : Scheduler × List (SchedulerOutput Value)).1
      (if r.link.value.isConnected then ⟨0, 0⟩ else woken) := by
  have alert : Alert (r.observe : Scheduler × List (SchedulerOutput Value)).1 := alert_observe r
  generalize read : (r.observe : Scheduler × List (SchedulerOutput Value)) = next at alert ⊢
  cases cases_of_observe read with
  | fatal fatal =>
      refine ⟨alert, fun unpaused => ?_, by simp⟩
      exact skipped.trans (counted.unpaused (paused ▸ unpaused))
  | down lasting down =>
      refine ⟨alert, by simp, fun _ => ?_⟩
      have sum := counted.sum running
      simp only [down, Bool.false_eq_true, if_false]
      omega
  | connected connected =>
      -- The counter is set to zero, or was zero outside a pause.
      have zero : ({ r with link := r.link.markSeen, lastRead := some .connected }.startCycle :
          Scheduler × List (SchedulerOutput Value)).1.skipped = 0 := by
        obtain ⟨control, next, -⟩ := startCycle_spec Value
          { r with link := r.link.markSeen, lastRead := some .connected }
        rw [next]
        simp only
        split_ifs with was
        · rfl
        · have unpaused : r.paused = false := Bool.eq_false_iff.mpr was
          exact skipped.trans (counted.unpaused (paused ▸ unpaused))
      refine ⟨alert, fun _ => zero, fun _ => zero.trans ?_⟩
      rw [connected]
      rfl

/-- Every step keeps the counter the sum of both counts. -/
theorem counted_step {s : Scheduler} {pause : Pause} {label : SchedulerLabel Value}
    {next : Scheduler × List (SchedulerOutput Value)} (counted : Counted s pause)
    (stepped : s.step label = some next) : Counted next.1 (pause.next s label) := by
  have alert := alert_step counted.alert stepped
  cases cases_of_step stepped with
  | write state alive => exact ⟨alert, counted.unpaused, counted.sum⟩
  | senderDropped alive => exact ⟨alert, counted.unpaused, counted.sum⟩
  | advance duration => exact ⟨alert, counted.unpaused, counted.sum⟩
  | tick waits ready =>
      apply counted.observe (r := s.tickFired) _ _ rfl rfl
      · rcases waits with tickWait | select
        · simp [tickWait]
        · simp [select]
      · simp only
        omega
  | changed select unseen =>
      apply counted.observe (r := s.wokenEarly s.link.markSeen) _ _ rfl rfl
      · simp [select]
      · simp only
        omega
  | closed select seen gone => exact ⟨alert, counted.unpaused, by simp⟩
  | collected c entry outcome control found may =>
      obtain ⟨unpaused, -⟩ := counted.alert.collecting c control
      obtain ⟨entry', control', after, -⟩ := collected_spec unpaused c entry outcome
      rw [after] at alert ⊢
      refine ⟨alert, counted.unpaused, fun _ => ?_⟩
      exact counted.sum (by simp [control])

/-! ### The logged number -/

/-- A number logged at the end of a pause is the number of its ticks. -/
def CountsTicks (x : SchedulerOutput Value × Pause) : Prop :=
  ∀ n, x.1 = .resumed n → n = x.2.ticks

/-- A pause that ends was not woken by a change between two states that are not
`Connected`. -/
def OnlyTicks (p : Scheduler × Pause) (label : SchedulerLabel Value) : Prop :=
  Resumes p.1 label → p.2.changes = 0

/-- A loop that ends a pause is still running. -/
theorem Resumes.running {s : Scheduler} {label : SchedulerLabel Value}
    {next : Scheduler × List (SchedulerOutput Value)} (resumes : Resumes s label)
    (stepped : s.step label = some next) : s.control ≠ .returned := by
  intro returned
  rcases resumes.2.2.2 with rfl | rfl
  · simp [step, returned] at stepped
  · simp [step, returned] at stepped

/-- A logged number counts the ticks exactly when no change between two other states has
woken the loop in that pause. -/
theorem onlyTicks_iff {p q : Scheduler × Pause} {label : SchedulerLabel Value}
    {tagged : List (SchedulerOutput Value × Pause)} (counted : Counted p.1 p.2)
    (stepped : (counting Value).step p label = some (q, tagged)) :
    OnlyTicks p label ↔ ∀ x ∈ tagged, CountsTicks x := by
  obtain ⟨t, out, own, -, rfl⟩ := System.recording_step stepped
  have logged := resumed_mem_iff counted.alert own
  constructor
  · intro only x mem n same
    obtain ⟨y, of_step, rfl⟩ := List.mem_map.mp mem
    obtain ⟨resumes, counter⟩ := (logged n).mp (same ▸ of_step)
    have none_changed := only resumes
    have sum := counted.sum (resumes.running own)
    simp only
    omega
  · intro right resumes
    have mem := (logged p.1.skipped).mpr ⟨resumes, rfl⟩
    have ticks := right _ (List.mem_map_of_mem mem) _ rfl
    have sum := counted.sum (resumes.running own)
    simp only at ticks
    omega

/-- In every run, the numbers that are logged are the ticks of the pauses that end exactly
when none of these pauses was woken by a change from one state that is not `Connected` to
another. -/
theorem skipped_cycles_iff {s t : Scheduler} {labels : List (SchedulerLabel Value)}
    {outs : List (SchedulerOutput Value)} (started : (system Value).start s)
    (ran : (system Value).run s labels = some (t, outs)) :
    ∃ pause tagged,
      (counting Value).run (s, ⟨0, 0⟩) labels = some ((t, pause), tagged) ∧
      tagged.map Prod.fst = outs ∧
      ((∀ x ∈ tagged, CountsTicks x) ↔ (counting Value).Meets OnlyTicks (s, ⟨0, 0⟩) labels) := by
  obtain ⟨pause, tagged, recorded, same⟩ := System.run_recording ran (⟨0, 0⟩ : Pause)
  refine ⟨pause, tagged, recorded, same, ?_⟩
  apply Iff.symm
  apply System.run_meets_iff (I := fun p => Counted p.1 p.2) _ _ recorded
  · intro p label q tagged counted stepped
    refine ⟨?_, onlyTicks_iff counted stepped⟩
    obtain ⟨u, out, own, rfl, -⟩ := System.recording_step stepped
    exact counted_step counted own
  · have alert := alert_of_reachable (.start started)
    obtain ⟨entries, link, period, pos, now, rfl⟩ := started
    exact ⟨alert, fun _ => rfl, fun _ => rfl⟩

/-- A scheduler with a live connection, and a tick every second. -/
def afterConnack : Scheduler :=
  new [] (Watch.init .connected) beforeConnack.ticker 0

/-- The connection is lost for two ticks: two cycles are skipped. -/
theorem skipped_cycles_two_ticks :
    let labels : List (SchedulerLabel Unit) :=
      [.tick, .write (.disconnected "timeout"), .advance 1000000000, .tick,
        .advance 1000000000, .tick, .write .connected, .changed]
    let outs : List (SchedulerOutput Unit) :=
      [.cycleStarted, .cycleComplete 0 0 0 false, .paused true, .resumed 2, .cycleStarted,
        .cycleComplete 0 0 0 false]
    ∃ t, (system Unit).run afterConnack labels = some (t, outs) ∧
      ∃ pause tagged,
        (counting Unit).run (afterConnack, ⟨0, 0⟩) labels = some ((t, pause), tagged) ∧
        tagged.map Prod.fst = outs ∧
        ((∀ x ∈ tagged, CountsTicks x) ↔
          (counting Unit).Meets OnlyTicks (afterConnack, ⟨0, 0⟩) labels) :=
  ⟨_, rfl, skipped_cycles_iff ⟨_, _, _, _, _, rfl⟩ rfl⟩

/-- The connection is lost for one tick, and a reconnect attempt changes its state: two
skipped cycles are logged. -/
theorem change_counted_as_cycle :
    let logged : List (SchedulerOutput Unit × Pause) :=
      [(.cycleStarted, ⟨0, 0⟩), (.cycleComplete 0 0 0 false, ⟨0, 0⟩), (.paused true, ⟨0, 0⟩),
        (.resumed 2, ⟨1, 1⟩), (.cycleStarted, ⟨1, 1⟩), (.cycleComplete 0 0 0 false, ⟨1, 1⟩)]
    (system Unit).start afterConnack ∧
      (∃ t, (counting Unit).run (afterConnack, ⟨0, 0⟩)
        [.tick, .write (.disconnected "timeout"), .advance 1000000000, .tick,
          .write (.reconnecting 1), .changed, .write .connected, .changed] = some (t, logged)) ∧
      ¬ ∀ x ∈ logged, CountsTicks x := by
  refine ⟨⟨_, _, _, _, _, rfl⟩, ⟨_, rfl⟩, fun right => ?_⟩
  have ticks := right (.resumed 2, ⟨1, 1⟩) (by simp) 2 rfl
  cases ticks

end Scheduler

end BlazeBee.Agent
