import BlazeBee.Agent.Scheduler

/-!
No wake-up of the sampling loop is lost.

`Scheduler.Alert` is the invariant: what each of the three waits may assume about
the link. Reading the link establishes it, whatever the loop was doing before
(`alert_observe`), and every other step keeps it.
-/

namespace BlazeBee.Agent

open BlazeBee.Lib BlazeBee.Transport

namespace Scheduler

variable {Value : Type}

/-- What each wait may assume. It is what makes a write of the driver between two waits
visible to the next one. -/
structure Alert (s : Scheduler) : Prop where
  /-- Paused: either there is news, or the current state gives no reason to wake. -/
  select : s.control = .select →
    s.link.Unseen ∨ s.link.value.isConnected = false ∧ s.link.value.isFatal = false
  /-- Waiting for a tick: the last state read, if any, was `Connected`. -/
  tickWait : s.control = .tickWait →
    s.paused = false ∧ (s.lastRead = none ∨ s.lastRead = some .connected)
  collecting : ∀ c, s.control = .collecting c →
    s.paused = false ∧ s.lastRead = some .connected ∧ c.index < s.entries.length

/-- Reading the link leaves the loop alert. -/
theorem alert_observe (s : Scheduler) :
    Alert (s.observe : Scheduler × List (SchedulerOutput Value)).1 := by
  generalize read : (s.observe : Scheduler × List (SchedulerOutput Value)) = next
  cases cases_of_observe read with
  | fatal fatal => exact ⟨by simp, by simp, by simp⟩
  | down lasting down => exact ⟨fun _ => Or.inr ⟨down, lasting⟩, by simp, by simp⟩
  | connected connected =>
      obtain ⟨control, next, kind⟩ := startCycle_spec Value
        { s with link := s.link.markSeen, lastRead := some .connected }
      rw [next]
      rcases kind with ⟨c, rfl, first, some_entry⟩ | ⟨rfl, -⟩
      · refine ⟨by simp, by simp, fun c' same => ?_⟩
        obtain rfl : c = c' := by simpa using same
        exact ⟨rfl, rfl, first ▸ some_entry⟩
      · exact ⟨by simp, fun _ => ⟨rfl, Or.inr rfl⟩, by simp⟩

/-- A write either changes nothing or is news. -/
theorem unseen_setState (link : Watch ConnectionState) (state : ConnectionState) :
    link.setState state = link ∨ (link.setState state).Unseen := by
  unfold Watch.setState
  split_ifs
  · exact Or.inl rfl
  · exact Or.inr (link.unseen_send state)

/-- Every step keeps the loop alert. -/
theorem alert_step {s : Scheduler} {label : SchedulerLabel Value}
    {next : Scheduler × List (SchedulerOutput Value)} (alert : Alert s)
    (stepped : s.step label = some next) : Alert next.1 := by
  cases cases_of_step stepped with
  | write state alive =>
      refine ⟨fun control => ?_, alert.tickWait, alert.collecting⟩
      rcases unseen_setState s.link state with same | news
      · simp only [same]
        exact alert.select control
      · exact Or.inl news
  | senderDropped alive => exact ⟨alert.select, alert.tickWait, alert.collecting⟩
  | advance duration => exact ⟨alert.select, alert.tickWait, alert.collecting⟩
  | tick waits ready => exact alert_observe _
  | changed control unseen => exact alert_observe _
  | closed control seen gone => exact ⟨by simp, by simp, by simp⟩
  | collected c entry outcome control found may =>
      obtain ⟨unpaused, read, -⟩ := alert.collecting c control
      obtain ⟨entry', control', after, kind⟩ := collected_spec unpaused c entry outcome
      rw [after]
      rcases kind with ⟨c', rfl, index, more⟩ | ⟨rfl, -⟩
      · refine ⟨by simp, by simp, fun c'' same => ?_⟩
        obtain rfl : c' = c'' := by simpa using same
        exact ⟨unpaused, read, by simpa [index] using more⟩
      · exact ⟨by simp, fun _ => ⟨unpaused, Or.inr read⟩, by simp⟩

/-- The loop is alert in every reachable state. -/
theorem alert_of_reachable {s : Scheduler} (reachable : (system Value).Reachable s) : Alert s := by
  refine reachable.invariant ?_ fun s label t out (alert : Alert s) stepped =>
    (alert_step alert stepped : Alert (t, out).1)
  rintro _ ⟨entries, link, period, pos, now, rfl⟩
  exact ⟨by simp [new], fun _ => ⟨rfl, Or.inl rfl⟩, by simp [new]⟩

/-- In the paused `select!` an unseen value is waiting, or the current state is
neither `Connected` nor fatal; in the tick wait the last state read was
`Connected`. -/
theorem no_lost_wakeUp {s : Scheduler} (reachable : (system Value).Reachable s) :
    (s.control = .select → s.link.Unseen ∨
      s.link.value ≠ .connected ∧ ∀ reason, s.link.value ≠ .fatalExit reason) ∧
    (s.control = .tickWait → s.lastRead = none ∨ s.lastRead = some .connected) := by
  have alert := alert_of_reachable reachable
  constructor
  · intro control
    rcases alert.select control with news | ⟨down, lasting⟩
    · exact Or.inl news
    · right
      constructor
      · exact ConnectionState.ne_connected_of_down down
      · intro reason fatal
        rw [fatal] at lasting
        cases lasting
  · intro control
    exact (alert.tickWait control).2

/-- A scheduler of one collector that starts before the first CONNACK. -/
def beforeConnack : Scheduler :=
  new [("cpu", { topic := "metrics/cpu" })] (Watch.init .connecting)
    (Interval.start 1000000000 (by decide) 0) 0

/-- Its first tick suspends it in the `select!`, with the value seen. -/
theorem no_lost_wakeUp_beforeConnack :
    ∃ s, (system Unit).step beforeConnack .tick = some (s, [.paused false]) ∧
      s.control = .select ∧ (s.link.Unseen ∨
        s.link.value ≠ .connected ∧ ∀ reason, s.link.value ≠ .fatalExit reason) := by
  have started : (system Unit).start beforeConnack := ⟨_, _, _, _, _, rfl⟩
  have stepped : (system Unit).step beforeConnack .tick =
      some ({ beforeConnack.tickFired with
        link := beforeConnack.link.markSeen
        lastRead := some .connecting
        paused := true
        skipped := 1
        control := .select }, [.paused false]) := rfl
  have reachable := (System.Reachable.start started).step stepped
  exact ⟨_, stepped, rfl, (no_lost_wakeUp reachable).1 rfl⟩

end Scheduler

end BlazeBee.Agent
