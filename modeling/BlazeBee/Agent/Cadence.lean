import BlazeBee.Agent.WakeUp

/-!
The cadence of the sampling loop.

However long its cycles take and whatever happens to the link, the loop starts at most
one cycle between two instants of its ticker's grid. `Cadence` keeps the start of the
current grid and the cycles started since, beside the run; `Interval.Paced` is the
invariant that carries the claim, since a tick that is taken late moves the deadline past
the present. The grid starts anew only when the loop is woken from a pause.
-/

namespace BlazeBee.Agent

open BlazeBee.Lib BlazeBee.Transport

namespace Scheduler

variable {Value : Type}

/-! ### The grid and what was started on it -/

/-- The first instant of the ticker's grid, and when cycles were started since. -/
structure Cadence where
  anchor : Nat
  starts : List Nat
deriving DecidableEq, Repr

/-- Whether an output is the start of a cycle. -/
def SchedulerOutput.startsCycle : SchedulerOutput Value → Bool
  | .cycleStarted => true
  | _ => false

/-- The cadence after a step: a change that wakes the loop resets the ticker. -/
def Cadence.next (cadence : Cadence) (s : Scheduler) (label : SchedulerLabel Value)
    (out : List (SchedulerOutput Value)) : Cadence :=
  let grid : Cadence := match label with
    | .changed => if s.link.Unseen then ⟨s.now, []⟩ else cadence
    | _ => cadence
  { grid with
    starts := grid.starts ++ List.replicate (out.countP SchedulerOutput.startsCycle) s.now }

/-- The grid of a fresh ticker. -/
def Cadence.first (s : Scheduler) : Cadence := ⟨s.ticker.deadline, []⟩

variable (Value) in
/-- The runs of the scheduler, with the cadence beside them. -/
def pacing : System (Scheduler × Cadence) (SchedulerLabel Value)
    (SchedulerOutput Value × Cadence) :=
  (system Value).recording Cadence.first Cadence.next

/-! ### What starts a cycle -/

/-- A cycle under way starts no other. -/
theorem countP_startsCycle {outs : List (SchedulerOutput Value)}
    (inside : ∀ x ∈ outs, x.inCycle = true) : outs.countP SchedulerOutput.startsCycle = 0 := by
  refine List.countP_eq_zero.mpr fun x mem starts => ?_
  cases x with
  | cycleStarted => cases inside _ mem
  | _ => cases starts

/-- Going on to the next entry starts no cycle. -/
theorem countP_nextEntry (s : Scheduler) (c : InCycle) :
    (s.nextEntry c : Scheduler × List (SchedulerOutput Value)).2.countP
      SchedulerOutput.startsCycle = 0 :=
  countP_startsCycle fun _ mem => inCycle_of_mem_nextEntry mem

/-- Reading the link starts one cycle at most. -/
theorem countP_observe (s : Scheduler) :
    (s.observe : Scheduler × List (SchedulerOutput Value)).2.countP
      SchedulerOutput.startsCycle ≤ 1 := by
  generalize read : (s.observe : Scheduler × List (SchedulerOutput Value)) = next
  cases cases_of_observe read with
  | fatal fatal => simp
  | down lasting down => cases s.paused <;> simp [SchedulerOutput.startsCycle]
  | connected connected =>
      simp only [startCycle, List.countP_append, List.countP_cons, countP_nextEntry]
      split_ifs <;> simp [SchedulerOutput.startsCycle] at *

/-- The result of a collector starts no cycle. -/
theorem countP_collected (s : Scheduler) (c : InCycle) (entry : Entry)
    (outcome : Collected Value) :
    (s.collected c entry outcome).2.countP SchedulerOutput.startsCycle = 0 :=
  countP_startsCycle fun _ mem => inCycle_of_mem_collected mem

/-! ### The invariant -/

/-- The starts are paced by the ticker, and the paused loop is in the `select!`. -/
structure Cadent (s : Scheduler) (cadence : Cadence) : Prop where
  alert : Alert s
  select : s.control = .select → s.paused = true
  paced : s.ticker.Paced cadence.anchor cadence.starts

/-- After the link is read, the loop is in the `select!` only if it is paused. -/
theorem paused_of_observe (s : Scheduler)
    (select : (s.observe : Scheduler × List (SchedulerOutput Value)).1.control = .select) :
    (s.observe : Scheduler × List (SchedulerOutput Value)).1.paused = true := by
  generalize read : (s.observe : Scheduler × List (SchedulerOutput Value)) = next at select ⊢
  cases cases_of_observe read with
  | fatal fatal => cases select
  | down lasting down => rfl
  | connected connected =>
      obtain ⟨control, next, kind⟩ := startCycle_spec Value
        { s with link := s.link.markSeen, lastRead := some .connected }
      rw [next] at select
      rcases kind with ⟨c, rfl, -⟩ | ⟨rfl, -⟩
      · cases select
      · cases select

/-- Every step keeps the starts on the grid. A tick moves to its next instant, and a change
that wakes the loop lays the grid anew. -/
theorem cadent_step {s : Scheduler} {cadence : Cadence} {label : SchedulerLabel Value}
    {next : Scheduler × List (SchedulerOutput Value)} (cadent : Cadent s cadence)
    (stepped : s.step label = some next) :
    Cadent next.1 (cadence.next s label next.2) := by
  have alert := alert_step cadent.alert stepped
  cases cases_of_step stepped with
  | write state alive => exact ⟨alert, cadent.select, by simpa [Cadence.next] using cadent.paced⟩
  | senderDropped alive => exact ⟨alert, cadent.select, by simpa [Cadence.next] using cadent.paced⟩
  | advance duration => exact ⟨alert, cadent.select, by simpa [Cadence.next] using cadent.paced⟩
  | tick waits ready =>
      refine ⟨alert, paused_of_observe _, ?_⟩
      rw [(observe_frame s.tickFired).ticker]
      exact cadent.paced.fire ready (countP_observe s.tickFired)
  | changed select unseen =>
      refine ⟨alert, paused_of_observe _, ?_⟩
      rw [(observe_frame (s.wokenEarly s.link.markSeen)).ticker]
      simp only [Cadence.next, unseen, if_true, List.nil_append]
      exact Interval.Paced.reset s.ticker s.now (countP_observe _)
  | closed select seen gone =>
      exact ⟨alert, by simp, by simpa [Cadence.next, seen] using cadent.paced⟩
  | collected c entry outcome control found may =>
      obtain ⟨unpaused, -⟩ := cadent.alert.collecting c control
      obtain ⟨entry', control', after, kind⟩ := collected_spec unpaused c entry outcome
      refine ⟨alert, ?_, ?_⟩
      · rw [after]
        rcases kind with ⟨c', rfl, -⟩ | ⟨rfl, -⟩
        · simp
        · simp
      · simp only [Cadence.next, countP_collected, List.replicate_zero, List.append_nil]
        rw [after]
        exact cadent.paced

/-- The ticker is left alone, fired by a tick, or reset in a pause. -/
theorem ticker_of_step {s : Scheduler} {cadence : Cadence} {label : SchedulerLabel Value}
    {next : Scheduler × List (SchedulerOutput Value)} (cadent : Cadent s cadence)
    (stepped : s.step label = some next) :
    next.1.ticker = s.ticker ∨
      label = .tick ∧ next.1.ticker = s.ticker.fire s.now ∨
      s.paused = true ∧ next.1.ticker = s.ticker.reset s.now := by
  cases cases_of_step stepped with
  | write state alive => exact Or.inl rfl
  | senderDropped alive => exact Or.inl rfl
  | advance duration => exact Or.inl rfl
  | tick waits ready => exact Or.inr (Or.inl ⟨rfl, (observe_frame s.tickFired).ticker⟩)
  | changed select unseen =>
      exact Or.inr (Or.inr ⟨cadent.select select, (observe_frame _).ticker⟩)
  | closed select seen gone => exact Or.inl rfl
  | collected c entry outcome control found may =>
      obtain ⟨unpaused, -⟩ := cadent.alert.collecting c control
      obtain ⟨entry', control', after, -⟩ := collected_spec unpaused c entry outcome
      rw [after]
      exact Or.inl rfl

/-- Between any two consecutive instants of the grid, one cycle was started at most. -/
def Cadence.OnePerWindow (cadence : Cadence) (period : Nat) : Prop :=
  (∀ x ∈ cadence.starts, cadence.anchor ≤ x) ∧
    ∀ k, cadence.starts.countP
      (fun x => decide (Interval.InWindow period cadence.anchor k x)) ≤ 1

variable (Value) in
/-- The next step leaves the ticker alone, fires it with a tick, or resets it in a pause. -/
def ResetsInPause (s : Scheduler) : Prop :=
  ∀ (label : SchedulerLabel Value) next, s.step label = some next →
    next.1.ticker = s.ticker ∨
      label = .tick ∧ next.1.ticker = s.ticker.fire s.now ∨
      s.paused = true ∧ next.1.ticker = s.ticker.reset s.now

/-- The period of the ticker never changes. -/
theorem period_step {s : Scheduler} {cadence : Cadence} {label : SchedulerLabel Value}
    {next : Scheduler × List (SchedulerOutput Value)} (cadent : Cadent s cadence)
    (stepped : s.step label = some next) : next.1.ticker.period = s.ticker.period := by
  rcases ticker_of_step cadent stepped with same | ⟨-, fired⟩ | ⟨-, reset⟩
  · rw [same]
  · rw [fired, Interval.fire_period]
  · rw [reset, Interval.reset_period]

/-- After every run: the deadline lies on the current grid, no window of which has seen
the start of two cycles; and the next step resets the ticker only in a pause. -/
theorem one_cycle_per_window {s t : Scheduler} {labels : List (SchedulerLabel Value)}
    {outs : List (SchedulerOutput Value)} (started : (system Value).start s)
    (ran : (system Value).run s labels = some (t, outs)) :
    ∃ cadence tagged,
      (pacing Value).run (s, .first s) labels = some ((t, cadence), tagged) ∧
      tagged.map Prod.fst = outs ∧
      t.ticker.period = s.ticker.period ∧ t.ticker.OnGrid cadence.anchor ∧
      cadence.OnePerWindow s.ticker.period ∧ ResetsInPause Value t := by
  obtain ⟨cadence, tagged, recorded, same⟩ : ∃ cadence tagged,
      (pacing Value).run (s, .first s) labels = some ((t, cadence), tagged) ∧
      tagged.map Prod.fst = outs := System.run_recording ran (Cadence.first s)
  have kept : Cadent t cadence ∧ t.ticker.period = s.ticker.period := by
    apply System.run_trace (R := fun _ _ p =>
      Cadent p.1 p.2 ∧ p.1.ticker.period = s.ticker.period) _ _ recorded
    · rintro _ _ p label q tagged ⟨cadent, period⟩ stepped
      obtain ⟨u, out, own, rfl, -⟩ := System.recording_step stepped
      exact ⟨cadent_step cadent own, (period_step cadent own).trans period⟩
    · have alert := alert_of_reachable (.start started)
      obtain ⟨entries, link, period, pos, now, rfl⟩ := started
      exact ⟨⟨alert, by simp [new], Interval.Paced.start period pos now⟩, rfl⟩
  obtain ⟨cadent, period⟩ := kept
  refine ⟨cadence, tagged, recorded, same, period, cadent.paced.grid,
    ⟨cadent.paced.from_anchor, fun k => ?_⟩,
    fun label next stepped => ticker_of_step cadent stepped⟩
  rw [← period]
  exact cadent.paced.countP_le_one k

/-- A scheduler of one collector, with a live connection. -/
def oneCollector : Scheduler :=
  new [("cpu", { topic := "metrics/cpu" })] (Watch.init .connected) beforeConnack.ticker 0

/-- A cycle that takes two and a half intervals: the two missed ticks do not start
cycles, and the next cycle starts in the third window. -/
theorem one_cycle_per_window_overrun :
    let labels : List (SchedulerLabel Unit) :=
      [.tick, .advance 2500000000, .collected (.sample () (.ok 7)), .tick]
    ∃ t outs, (system Unit).run oneCollector labels = some (t, outs) ∧
      t.ticker.deadline = 3000000000 ∧
      ∃ cadence tagged,
        (pacing Unit).run (oneCollector, .first oneCollector) labels =
          some ((t, cadence), tagged) ∧
        tagged.map Prod.fst = outs ∧
        t.ticker.period = oneCollector.ticker.period ∧ t.ticker.OnGrid cadence.anchor ∧
        cadence.OnePerWindow oneCollector.ticker.period ∧ ResetsInPause Unit t := by
  have started : (system Unit).start oneCollector := ⟨_, _, _, _, _, rfl⟩
  exact ⟨_, _, rfl, rfl, one_cycle_per_window started rfl⟩

end Scheduler

end BlazeBee.Agent
