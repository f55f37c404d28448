import BlazeBee.Agent.WakeUp

/-!
The sampling loop after the driver is gone.

Once the sender of the link is dropped, its last value stays. The loop notices the
loss only in its paused `select!`, so what it does is decided by that value:
`dead_link_iff` says that no further cycle starts and that the loop returns, in
every fair run, exactly when the value is not `Connected`.

Fairness asks that time goes on and that what stays possible happens eventually;
`rank` counts the waits that are left.
-/

namespace BlazeBee.Agent

open BlazeBee.Lib BlazeBee.Transport

namespace Scheduler

variable {Value : Type}

/-! ### Which steps start a cycle -/

/-- Reading a link that is not connected starts no cycle. -/
theorem cycleStarted_notMem_observe {s : Scheduler} (dead : s.link.value ≠ .connected) :
    .cycleStarted ∉ (s.observe : Scheduler × List (SchedulerOutput Value)).2 := by
  generalize read : (s.observe : Scheduler × List (SchedulerOutput Value)) = next
  cases cases_of_observe read with
  | fatal fatal => exact List.not_mem_nil
  | down lasting down => cases s.paused <;> simp
  | connected connected => exact absurd connected dead

/-- Reading a connected link starts one. -/
theorem cycleStarted_mem_observe {s : Scheduler} (connected : s.link.value = .connected) :
    .cycleStarted ∈ (s.observe : Scheduler × List (SchedulerOutput Value)).2 := by
  rw [observe_of_connected connected]
  exact List.mem_append_right _ List.mem_cons_self

/-- The result of a collector starts no cycle. -/
theorem cycleStarted_notMem_collected (s : Scheduler) (c : InCycle) (entry : Entry)
    (outcome : Collected Value) : .cycleStarted ∉ (s.collected c entry outcome).2 := by
  intro mem
  cases inCycle_of_mem_collected mem

/-! ### No further cycle -/

/-- From `s` on, no run starts a cycle. -/
def NoFurtherCycle (Value : Type) (s : Scheduler) : Prop :=
  ∀ labels t outs, (system Value).run s labels = some (t, outs) → .cycleStarted ∉ outs

/-- The link is dead with a value other than `Connected`, or the loop is over. Both last, and
neither lets a cycle start. -/
structure Doomed (s : Scheduler) : Prop where
  alert : s.Alert
  gone : s.link.senderAlive = false
  dead : s.link.value ≠ .connected ∨ s.control = .returned

/-- Reading a dead link that is not `Connected` starts no cycle. -/
theorem doomed_observe {s : Scheduler} (gone : s.link.senderAlive = false)
    (dead : s.link.value ≠ .connected) :
    Doomed (s.observe : Scheduler × List (SchedulerOutput Value)).1 ∧
      .cycleStarted ∉ (s.observe : Scheduler × List (SchedulerOutput Value)).2 := by
  have link : (s.observe : Scheduler × List (SchedulerOutput Value)).1.link = s.link.markSeen :=
    (observe_frame s).link
  refine ⟨⟨alert_observe s, ?_, Or.inl ?_⟩, cycleStarted_notMem_observe dead⟩
  · rw [link]
    exact gone
  · rw [link]
    exact dead

/-- A doomed loop stays doomed and starts no cycle. -/
theorem doomed_step {s : Scheduler} {label : SchedulerLabel Value}
    {next : Scheduler × List (SchedulerOutput Value)} (doomed : Doomed s)
    (stepped : s.step label = some next) : Doomed next.1 ∧ .cycleStarted ∉ next.2 := by
  have alert := alert_step doomed.alert stepped
  obtain ⟨before, gone, dead⟩ := doomed
  have live : s.control ≠ .returned → s.link.value ≠ .connected := dead.resolve_right
  cases cases_of_step stepped with
  | write state alive => simp [gone] at alive
  | senderDropped alive => simp [gone] at alive
  | advance duration => exact ⟨⟨alert, gone, dead⟩, by simp⟩
  | tick waits ready =>
      have running : s.control ≠ .returned := by
        rcases waits with control | control <;> simp [control]
      exact doomed_observe gone (live running)
  | changed control unseen => exact doomed_observe gone (live (by simp [control]))
  | closed control seen gone' => exact ⟨⟨alert, gone, Or.inr rfl⟩, by simp⟩
  | collected c entry outcome control found may =>
      obtain ⟨unpaused, -, -⟩ := before.collecting c control
      obtain ⟨entry', control', after, -⟩ := collected_spec unpaused c entry outcome
      refine ⟨⟨alert, ?_, Or.inl ?_⟩, cycleStarted_notMem_collected s c entry outcome⟩
      · rw [after]
        exact gone
      · rw [after]
        exact live (by simp [control])

/-- On a link that is dead for good no run starts a cycle: no step does, and every step keeps
the link dead. -/
theorem noFurtherCycle_of_doomed {s : Scheduler} (doomed : Doomed s) : NoFurtherCycle Value s := by
  intro labels t outs ran started
  obtain ⟨-, quiet⟩ := System.run_invariant (P := fun out => out ≠ .cycleStarted)
    (fun s label t out (doomed : Doomed s) (_ : True) stepped => by
      obtain ⟨keep, quiet⟩ := doomed_step doomed stepped
      exact ⟨keep, fun out mem same => quiet (same ▸ mem)⟩)
    doomed (System.meets_of_forall (fun _ _ => trivial) s labels) ran
  exact quiet _ started rfl

/-! ### Return -/

/-- Time goes on, and a tick, a change of the link or a collector's result that stays
possible happens eventually. Without this a run could stop anywhere, and nothing would ever
return. -/
structure Fair (e : (system Value).Execution) : Prop where
  time : ∀ instant, ∃ n, instant ≤ (e.state n).now
  tick : e.WeaklyFair (· = .tick)
  changed : e.WeaklyFair (· = .changed)
  collected : e.WeaklyFair fun label => ∃ outcome, label = .collected outcome

/-- The loop returns in every fair run from `s`. -/
def Returns (Value : Type) (s : Scheduler) : Prop :=
  ∀ e : (system Value).Execution, e.state 0 = s → Fair e → ∃ n, (e.state n).control = .returned

/-- How many waits are left on a dead link: the rest of the cycle, the tick wait, and
the `select!` before and after the last value is seen. -/
def rank (s : Scheduler) : Nat :=
  match s.control with
  | .collecting c => 4 + (s.entries.length - c.index)
  | .tickWait => 3
  | .select => if s.link.Unseen then 2 else 1
  | .returned => 0

section Rank

variable {s : Scheduler}

/-- One tick stands between the tick wait and the `select!`, which has two ranks of its
own. -/
theorem rank_of_tickWait (control : s.control = .tickWait) : rank s = 3 := by
  simp [rank, control]

/-- In the `select!` the rank is 2 as long as the last value has not been seen, and then
1. -/
theorem rank_of_select (control : s.control = .select) : 1 ≤ rank s ∧ rank s ≤ 2 := by
  simp only [rank, control]
  split_ifs <;> decide

/-- Inside a cycle the rank is above that of every other wait. -/
theorem rank_of_collecting {c : InCycle} (control : s.control = .collecting c) : 4 ≤ rank s := by
  simp [rank, control]

/-- The rank tells the waits apart. -/
theorem tickWait_of_rank (three : rank s = 3) : s.control = .tickWait := by
  cases control : s.control with
  | tickWait => rfl
  | select =>
      have := rank_of_select control
      omega
  | collecting c =>
      have := rank_of_collecting control
      omega
  | returned => simp [rank, control] at three

/-- The rank tells the `select!` from the other waits. -/
theorem select_of_rank (low : 1 ≤ rank s) (high : rank s ≤ 2) : s.control = .select := by
  cases control : s.control with
  | select => rfl
  | tickWait =>
      have := rank_of_tickWait control
      omega
  | collecting c =>
      have := rank_of_collecting control
      omega
  | returned => simp [rank, control] at low

/-- The rank tells a cycle from the other waits. -/
theorem collecting_of_rank (high : 4 ≤ rank s) : ∃ c, s.control = .collecting c := by
  cases control : s.control with
  | collecting c => exact ⟨c, rfl⟩
  | tickWait =>
      have := rank_of_tickWait control
      omega
  | select =>
      have := rank_of_select control
      omega
  | returned => simp [rank, control] at high

end Rank

/-- A collector's result leaves less of the cycle. -/
theorem rank_collected {s : Scheduler} (alert : s.Alert) {c : InCycle}
    (control : s.control = .collecting c) (entry : Entry) (outcome : Collected Value) :
    rank (s.collected c entry outcome).1 < rank s := by
  obtain ⟨unpaused, -, inside⟩ := alert.collecting c control
  obtain ⟨entry', control', after, kind⟩ := collected_spec unpaused c entry outcome
  have before : rank s = 4 + (s.entries.length - c.index) := by simp [rank, control]
  rw [after, before]
  rcases kind with ⟨c', rfl, index, more⟩ | ⟨rfl, -⟩
  · simp only [rank, List.length_set, index]
    omega
  · simp only [rank]
    omega

/-- A step that resolves a wait other than the tick branch of the `select!`. -/
def Resolves (s : Scheduler) (label : SchedulerLabel Value) : Prop :=
  label = .tick ∧ s.control = .tickWait ∨ label = .changed ∨ ∃ outcome, label = .collected outcome

/-- On a dead link a step ends the loop or does not raise the rank; one that resolves
a wait lowers it. -/
theorem rank_step {s : Scheduler} {label : SchedulerLabel Value}
    {next : Scheduler × List (SchedulerOutput Value)} (alert : s.Alert)
    (gone : s.link.senderAlive = false) (dead : s.link.value ≠ .connected)
    (stepped : s.step label = some next) :
    next.1.control = .returned ∨
      rank next.1 ≤ rank s ∧ (Resolves s label → rank next.1 < rank s) := by
  -- Reading a dead link leaves a rank of one at most.
  have read : ∀ s : Scheduler, s.link.value ≠ .connected →
      (s.observe : Scheduler × List (SchedulerOutput Value)).1.control = .returned ∨
        rank (s.observe : Scheduler × List (SchedulerOutput Value)).1 = 1 := by
    intro s dead
    rcases observe_of_dead dead with returned | select
    · exact Or.inl returned
    · exact Or.inr (by simp [rank, select, (observe_frame s).link])
  cases cases_of_step stepped with
  | write state alive => simp [gone] at alive
  | senderDropped alive => simp [gone] at alive
  | advance duration => exact Or.inr ⟨Nat.le_refl _, by simp [Resolves]⟩
  | tick waits ready =>
      rcases read s.tickFired dead with returned | one
      · exact Or.inl returned
      · right
        rw [one]
        rcases waits with tickWait | select
        · have before : rank s = 3 := by simp [rank, tickWait]
          rw [before]
          exact ⟨by decide, fun _ => by decide⟩
        · constructor
          · exact (rank_of_select select).1
          · intro resolves
            simp [Resolves, select] at resolves
  | changed control unseen =>
      rcases read (s.wokenEarly s.link.markSeen) dead with returned | one
      · exact Or.inl returned
      · have before : rank s = 2 := by simp [rank, control, unseen]
        rw [one, before]
        exact Or.inr ⟨by decide, fun _ => by decide⟩
  | closed control seen gone => exact Or.inl rfl
  | collected c entry outcome control found may =>
      have lower := rank_collected alert control entry outcome
      exact Or.inr ⟨Nat.le_of_lt lower, fun _ => lower⟩

section Enabled

variable {s : Scheduler}

/-- Once the sender is gone, `changed` resolves: with the last value if it was not seen yet,
and else with an error. -/
theorem changed_enabled (control : s.control = .select) (gone : s.link.senderAlive = false) :
    ∃ next, (system Value).step s .changed = some next := by
  rcases s.link.changed_of_gone gone with ⟨-, change⟩ | ⟨-, change⟩
  · exact ⟨(s.wokenEarly s.link.markSeen).observe, by simp [system, step, control, change]⟩
  · exact ⟨({ s with control := .returned }, []), by simp [system, step, control, change]⟩

/-- A tick that is due can be taken in both waits that have one. -/
theorem tick_enabled (control : s.control = .tickWait ∨ s.control = .select)
    (ready : s.ticker.Ready s.now) : (system Value).step s .tick = some s.tickFired.observe := by
  rcases control with control | control
  · simp [system, step, control, ready]
  · simp [system, step, control, ready]

variable (Value) in
/-- A collector may always fail. -/
theorem collected_enabled (alert : s.Alert) {c : InCycle} (control : s.control = .collecting c) :
    ∃ entry, (system Value).step s (.collected (.error (.unsupported ""))) =
      some (s.collected c entry (.error (.unsupported ""))) := by
  obtain ⟨-, -, inside⟩ := alert.collecting c control
  refine ⟨s.entries[c.index], ?_⟩
  simp [system, step, control, inside, MayResolve]

end Enabled

/-- Time never goes back. -/
theorem now_le_step {s : Scheduler} {label : SchedulerLabel Value}
    {next : Scheduler × List (SchedulerOutput Value)} (alert : s.Alert)
    (stepped : s.step label = some next) : s.now ≤ next.1.now := by
  cases cases_of_step stepped with
  | write state alive => exact Nat.le_refl _
  | senderDropped alive => exact Nat.le_refl _
  | advance duration => exact Nat.le_add_right _ _
  | tick waits ready => exact Nat.le_of_eq (observe_frame s.tickFired).now.symm
  | changed control unseen =>
      exact Nat.le_of_eq (observe_frame (s.wokenEarly s.link.markSeen)).now.symm
  | closed control seen gone => exact Nat.le_refl _
  | collected c entry outcome control found may =>
      obtain ⟨unpaused, -, -⟩ := alert.collecting c control
      obtain ⟨entry', control', after, -⟩ := collected_spec unpaused c entry outcome
      rw [after]

/-- In the tick wait, only a tick moves the ticker. -/
theorem ticker_step {s : Scheduler} {label : SchedulerLabel Value}
    {next : Scheduler × List (SchedulerOutput Value)} (control : s.control = .tickWait)
    (other : label ≠ .tick) (stepped : s.step label = some next) : next.1.ticker = s.ticker := by
  cases cases_of_step stepped with
  | write state alive => rfl
  | senderDropped alive => rfl
  | advance duration => rfl
  | tick waits ready => exact absurd rfl other
  | changed select unseen => simp [control] at select
  | closed select seen gone => rfl
  | collected c entry outcome collecting found may => simp [control] at collecting

section Liveness

variable {e : (system Value).Execution} {n : ℕ}

/-- Along an execution time never goes back. -/
theorem now_mono (alert : ∀ n, (e.state n).Alert) {m : ℕ} (le : n ≤ m) :
    (e.state n).now ≤ (e.state m).now := by
  induction le with
  | refl => exact Nat.le_refl _
  | step le ih => exact Nat.le_trans ih (now_le_step (alert _) (e.steps _))

/-- A loop that stays in the tick wait takes its tick. -/
theorem tick_of_waiting (fair : Fair e) (alert : ∀ n, (e.state n).Alert)
    (waiting : ∀ m, n ≤ m → (e.state m).control = .tickWait) : ∃ m, n ≤ m ∧ e.label m = .tick := by
  by_contra never
  have other : ∀ m, n ≤ m → e.label m ≠ .tick := fun m le taken => never ⟨m, le, taken⟩
  -- Without a tick the deadline stands still, and time passes it.
  have ticker : ∀ m, n ≤ m → (e.state m).ticker = (e.state n).ticker := by
    intro m le
    induction le with
    | refl => rfl
    | step le ih => exact (ticker_step (waiting _ le) (other _ le) (e.steps _)).trans ih
  obtain ⟨k, late⟩ := fair.time (max (e.state n).ticker.deadline ((e.state n).now + 1))
  have after : n ≤ k := by
    by_contra before
    have := now_mono alert (Nat.le_of_not_le before)
    omega
  have ready : ∀ m, k ≤ m → (e.state m).ticker.Ready (e.state m).now := by
    intro m le
    have later := now_mono alert le
    rw [Interval.Ready, ticker m (Nat.le_trans after le)]
    omega
  obtain ⟨m, le, taken⟩ := fair.tick k fun m le =>
    ⟨_, _, rfl, tick_enabled (Or.inl (waiting m (Nat.le_trans after le))) (ready m le)⟩
  exact other m (Nat.le_trans after le) taken

/-- A wait on a dead link is eventually resolved. -/
theorem resolves_of_constant (fair : Fair e) (doomed : ∀ n, Doomed (e.state n))
    (running : (e.state n).control ≠ .returned)
    (constant : ∀ m, n ≤ m → rank (e.state m) = rank (e.state n)) :
    ∃ m, n ≤ m ∧ Resolves (e.state m) (e.label m) := by
  have alert := fun n => (doomed n).alert
  cases control : (e.state n).control with
  | returned => exact absurd control running
  | tickWait =>
      have waiting : ∀ m, n ≤ m → (e.state m).control = .tickWait := fun m le =>
        tickWait_of_rank ((constant m le).trans (rank_of_tickWait control))
      obtain ⟨m, le, taken⟩ := tick_of_waiting fair alert waiting
      exact ⟨m, le, Or.inl ⟨taken, waiting m le⟩⟩
  | select =>
      obtain ⟨low, high⟩ := rank_of_select control
      have waiting : ∀ m, n ≤ m → (e.state m).control = .select := fun m le =>
        select_of_rank (constant m le ▸ low) (constant m le ▸ high)
      obtain ⟨m, le, taken⟩ := fair.changed n fun m le => by
        obtain ⟨next, enabled⟩ := changed_enabled (waiting m le) (doomed m).gone
        exact ⟨_, next, rfl, enabled⟩
      exact ⟨m, le, Or.inr (Or.inl taken)⟩
  | collecting c =>
      have high := rank_of_collecting control
      obtain ⟨m, le, taken⟩ := fair.collected n fun m le => by
        obtain ⟨c', control'⟩ := collecting_of_rank (constant m le ▸ high)
        obtain ⟨entry, enabled⟩ := collected_enabled Value (alert m) control'
        exact ⟨_, _, ⟨_, rfl⟩, enabled⟩
      exact ⟨m, le, Or.inr (Or.inr taken)⟩

end Liveness

/-- On a dead link the loop returns in every fair run. -/
theorem returns_of_doomed {s : Scheduler} (doomed : Doomed s) : Returns Value s := by
  intro e first fair
  have doomed : ∀ n, Doomed (e.state n) := fun n =>
    e.invariant_from (I := Doomed)
      (fun s label t out doomed stepped => ((doomed_step doomed stepped).1 : Doomed (t, out).1))
      (first ▸ doomed) (Nat.zero_le n)
  by_contra never
  have running : ∀ n, (e.state n).control ≠ .returned := fun n ended => never ⟨n, ended⟩
  -- A rank that stays put is one whose wait is never resolved.
  have drops : ∀ n, ¬ ∀ m, n ≤ m → rank (e.state m) = rank (e.state n) := by
    intro n constant
    obtain ⟨m, le, resolves⟩ := resolves_of_constant fair doomed (running n) constant
    have dead := (doomed m).dead.resolve_right (running m)
    rcases rank_step (doomed m).alert (doomed m).gone dead (e.steps m) with ended | ⟨-, lower⟩
    · exact running (m + 1) ended
    · exact Nat.ne_of_lt (lower resolves)
        ((constant (m + 1) (Nat.le_succ_of_le le)).trans (constant m le).symm)
  obtain ⟨m, -, ended⟩ : ∃ m, 0 ≤ m ∧ (e.state m).control = .returned :=
    e.eventually (I := Doomed) rank
    (fun s label t out doomed stepped => by
      by_cases ended : s.control = .returned
      · exact Or.inl ended
      · have dead := doomed.dead.resolve_right ended
        rcases rank_step doomed.alert doomed.gone dead stepped with ended | ⟨le, -⟩
        · exact Or.inr (Or.inl ended)
        · exact Or.inr (Or.inr ⟨(doomed_step doomed stepped).1, le⟩))
    (fun n constant => drops n fun m le => (constant m le).2)
    (doomed 0)
  exact running m ended

/-! ### A link left `Connected` -/

/-- Time, ticks, changes of the link and collectors take turns. -/
def turn (n : ℕ) (label : SchedulerLabel Value) : Prop :=
  match n % 4 with
  | 0 => label = .advance 1
  | 1 => label = .tick
  | 2 => label = .changed
  | _ => ∃ outcome, label = .collected outcome

variable (Value) in
/-- Every turn comes again. -/
theorem turn_recurs (k n : ℕ) : ∃ m, n ≤ m ∧ (turn m : SchedulerLabel Value → Prop) = turn k := by
  refine ⟨4 * n + k, by omega, ?_⟩
  funext label
  simp only [turn, Nat.mul_add_mod]

variable (Value) in
/-- Taking turns is fair, so a fair run exists from every alert state. -/
theorem exists_fair {s : Scheduler} (alert : s.Alert) :
    ∃ e : (system Value).Execution, e.state 0 = s ∧ Fair e := by
  have progress : ∀ s : Scheduler, s.Alert →
      ∃ label next, (system Value).step s label = some next := fun s _ => ⟨.advance 0, _, rfl⟩
  obtain ⟨e, first, alert, turns⟩ := System.exists_takingTurns
    (fun s label t out alert stepped => (alert_step alert stepped : Alert (t, out).1))
    progress turn alert
  have time : ∀ instant, ∃ n, instant ≤ (e.state n).now := by
    intro instant
    induction instant with
    | zero => exact ⟨0, Nat.zero_le _⟩
    | succ instant ih =>
        obtain ⟨n, late⟩ := ih
        obtain ⟨m, le, its⟩ := turn_recurs Value 0 n
        have passes : e.label m = .advance 1 := by
          have taken := turns m ⟨.advance 1, _, its ▸ rfl, rfl⟩
          rw [its] at taken
          exact taken
        have stepped := e.steps m
        rw [passes] at stepped
        have later := now_mono alert le
        have passed : (e.state (m + 1)).now = (e.state m).now + 1 :=
          congrArg (·.1.now) (Option.some.inj stepped).symm
        exact ⟨m + 1, by omega⟩
  exact ⟨e, first, time, System.Execution.weaklyFair_of_turns turns (turn_recurs Value 1),
    System.Execution.weaklyFair_of_turns turns (turn_recurs Value 2),
    System.Execution.weaklyFair_of_turns turns (turn_recurs Value 3)⟩

/-- The driver is gone, and the loop runs on a link left `Connected`. Nothing tells it of the
end, since `changed` is only awaited in a pause. -/
structure Cycling (s : Scheduler) : Prop where
  alert : s.Alert
  gone : s.link.senderAlive = false
  connected : s.link.value = .connected
  running : s.control ≠ .returned

variable (Value) in
/-- Reading a dead link left `Connected` does not end the loop. -/
theorem cycling_observe {s : Scheduler} (gone : s.link.senderAlive = false)
    (connected : s.link.value = .connected) :
    Cycling (s.observe : Scheduler × List (SchedulerOutput Value)).1 := by
  have alert : Alert (s.observe : Scheduler × List (SchedulerOutput Value)).1 := alert_observe s
  rw [observe_of_connected connected] at alert ⊢
  obtain ⟨control, next, kind⟩ := startCycle_spec Value
    { s with link := s.link.markSeen, lastRead := some .connected }
  rw [next] at alert ⊢
  refine ⟨alert, gone, connected, ?_⟩
  rcases kind with ⟨c, rfl, -⟩ | ⟨rfl, -⟩ <;> simp

/-- Nothing ends such a loop. -/
theorem cycling_step {s : Scheduler} {label : SchedulerLabel Value}
    {next : Scheduler × List (SchedulerOutput Value)} (cycling : Cycling s)
    (stepped : s.step label = some next) : Cycling next.1 := by
  have after := alert_step cycling.alert stepped
  obtain ⟨alert, gone, connected, running⟩ := cycling
  cases cases_of_step stepped with
  | write state alive => simp [gone] at alive
  | senderDropped alive => simp [gone] at alive
  | advance duration => exact ⟨after, gone, connected, running⟩
  | tick waits ready => exact cycling_observe Value gone connected
  | changed control unseen => exact cycling_observe Value gone connected
  | closed control seen gone' =>
      -- The paused loop has not seen a value that would wake it.
      rcases alert.select control with unseen | ⟨down, -⟩
      · exact absurd unseen seen
      · simp [connected, ConnectionState.isConnected] at down
  | collected c entry outcome control found may =>
      obtain ⟨unpaused, -, -⟩ := alert.collecting c control
      obtain ⟨entry', control', same, kind⟩ := collected_spec unpaused c entry outcome
      rw [same] at after ⊢
      refine ⟨after, gone, connected, ?_⟩
      rcases kind with ⟨c', rfl, -⟩ | ⟨rfl, -⟩ <;> simp

/-- Some fair run of a cycling loop never returns. -/
theorem not_returns_of_cycling {s : Scheduler} (cycling : Cycling s) : ¬ Returns Value s := by
  intro returns
  obtain ⟨e, first, fair⟩ := exists_fair Value cycling.alert
  obtain ⟨n, ended⟩ := returns e first fair
  have cycling : Cycling (e.state n) := e.invariant_from (I := Cycling)
    (fun s label t out cycling stepped => (cycling_step cycling stepped : Cycling (t, out).1))
    (first ▸ cycling) (Nat.zero_le n)
  exact cycling.running ended

variable (Value) in
/-- Past its deadline, a loop that waits for a tick starts a cycle. -/
theorem cycleStarted_of_waiting {s : Scheduler} (connected : s.link.value = .connected)
    (waits : s.control = .tickWait ∨ s.control = .select) :
    ∃ labels t outs, (system Value).run s labels = some (t, outs) ∧ .cycleStarted ∈ outs := by
  let late : Scheduler := { s with now := s.now + s.ticker.deadline }
  have passes : (system Value).step s (.advance s.ticker.deadline) = some (late, []) := rfl
  have ready : late.ticker.Ready late.now := Nat.le_add_left _ _
  have ticks : (system Value).step late .tick = some late.tickFired.observe :=
    tick_enabled waits ready
  have started : .cycleStarted ∈ (late.tickFired.observe : _ × List (SchedulerOutput Value)).2 :=
    cycleStarted_mem_observe connected
  exact ⟨[.advance s.ticker.deadline, .tick], _, _,
    System.run_of_step passes (System.run_of_step ticks rfl),
    List.mem_append_right _ (List.mem_append_left _ started)⟩

variable (Value) in
/-- Once its collectors are done, a cycling loop starts another cycle. -/
theorem cycleStarted_of_cycling {s : Scheduler} (cycling : Cycling s) :
    ∃ labels t outs, (system Value).run s labels = some (t, outs) ∧ .cycleStarted ∈ outs := by
  induction bound : rank s using Nat.strongRecOn generalizing s with
  | ind r ih =>
      cases control : s.control with
      | returned => exact absurd control cycling.running
      | tickWait => exact cycleStarted_of_waiting Value cycling.connected (Or.inl control)
      | select => exact cycleStarted_of_waiting Value cycling.connected (Or.inr control)
      | collecting c =>
          obtain ⟨entry, stepped⟩ := collected_enabled Value cycling.alert control
          have lower := rank_collected cycling.alert control entry
            (.error (.unsupported "") : Collected Value)
          obtain ⟨labels, t, outs, ran, started⟩ :=
            ih _ (bound ▸ lower) (cycling_step cycling stepped) rfl
          exact ⟨_, t, _, System.run_of_step stepped ran, List.mem_append_right _ started⟩

/-! ### The exact condition -/

/-- A reachable loop whose driver is gone is of one of two kinds: its link shows something
else than `Connected`, or it goes on cycling. -/
theorem doomed_or_cycling {s : Scheduler} (reachable : (system Value).Reachable s)
    (gone : s.link.senderAlive = false) :
    Doomed s ∧ (s.link.value ≠ .connected ∨ s.control = .returned) ∨
      Cycling s ∧ ¬ (s.link.value ≠ .connected ∨ s.control = .returned) := by
  have alert := alert_of_reachable reachable
  by_cases dead : s.link.value ≠ .connected ∨ s.control = .returned
  · exact Or.inl ⟨⟨alert, gone, dead⟩, dead⟩
  · obtain ⟨connected, running⟩ := not_or.mp dead
    exact Or.inr ⟨⟨alert, gone, not_not.mp connected, running⟩, dead⟩

/-- Once the driver is gone, cycles stop exactly when its last value is not `Connected`. -/
theorem noFurtherCycle_iff {s : Scheduler} (reachable : (system Value).Reachable s)
    (gone : s.link.senderAlive = false) :
    NoFurtherCycle Value s ↔ s.link.value ≠ .connected ∨ s.control = .returned := by
  rcases doomed_or_cycling reachable gone with ⟨doomed, dead⟩ | ⟨cycling, alive⟩
  · exact iff_of_true (noFurtherCycle_of_doomed doomed) dead
  · refine iff_of_false (fun quiet => ?_) alive
    obtain ⟨labels, t, outs, ran, started⟩ := cycleStarted_of_cycling Value cycling
    exact quiet labels t outs ran started

/-- The loop then returns in every fair run, under the same condition. -/
theorem returns_iff {s : Scheduler} (reachable : (system Value).Reachable s)
    (gone : s.link.senderAlive = false) :
    Returns Value s ↔ s.link.value ≠ .connected ∨ s.control = .returned := by
  rcases doomed_or_cycling reachable gone with ⟨doomed, dead⟩ | ⟨cycling, alive⟩
  · exact iff_of_true (returns_of_doomed doomed) dead
  · exact iff_of_false (not_returns_of_cycling cycling) alive

/-- Once the driver is gone, no further cycle starts and the loop returns in every
fair run, exactly when the value left in the link is not `Connected` or the loop has
returned before. -/
theorem dead_link_iff {s : Scheduler} (reachable : (system Value).Reachable s)
    (gone : s.link.senderAlive = false) :
    (NoFurtherCycle Value s ∧ Returns Value s) ↔
      s.link.value ≠ .connected ∨ s.control = .returned := by
  rw [noFurtherCycle_iff reachable gone, returns_iff reachable gone, and_self]

/-- A loop whose driver reached the broker and was then lost. -/
def leftConnected : Scheduler :=
  { beforeConnack with link := (beforeConnack.link.setState .connected).dropSender }

/-- The next tick starts a cycle on the dead link. -/
theorem leftConnected_keeps_cycling :
    (system Unit).Reachable leftConnected ∧ leftConnected.link.senderAlive = false ∧
      ¬ (NoFurtherCycle Unit leftConnected ∧ Returns Unit leftConnected) := by
  have started : (system Unit).start beforeConnack := ⟨_, _, _, _, _, rfl⟩
  have reachable : (system Unit).Reachable leftConnected :=
    (System.Reachable.start started).run
      (rfl : (system Unit).run beforeConnack [.write .connected, .senderDropped] = some (_, []))
  have connected : leftConnected.link.value = .connected := rfl
  obtain ⟨labels, t, outs, ran, cycle⟩ := cycleStarted_of_waiting Unit connected (Or.inl rfl)
  exact ⟨reachable, rfl, fun ⟨quiet, _⟩ => quiet labels t outs ran cycle⟩

/-- A driver lost before it ever reached the broker is noticed. -/
theorem dead_link_iff_beforeConnack :
    ∃ s, (system Unit).run beforeConnack [.senderDropped] = some (s, []) ∧
      NoFurtherCycle Unit s ∧ Returns Unit s := by
  have started : (system Unit).start beforeConnack := ⟨_, _, _, _, _, rfl⟩
  have ran : (system Unit).run beforeConnack [.senderDropped] =
      some ({ beforeConnack with link := beforeConnack.link.dropSender }, []) := rfl
  have reachable := (System.Reachable.start started).run ran
  exact ⟨_, ran, (dead_link_iff reachable rfl).mpr (Or.inl (by decide))⟩

end Scheduler

end BlazeBee.Agent
