import BlazeBee.Agent.WakeUp

/-!
Sampling against the state of the link.

The loop reads the link before a cycle, not during it. `samples_only_while_connected`
holds of every run in which no other state is written while a cycle is in progress;
`lost_during_cycle` shows that each such write can be followed by a publish to a
link that is down.
-/

namespace BlazeBee.Agent

open BlazeBee.Lib BlazeBee.Transport

/-- The calls that take or hand on a sample. -/
def SchedulerOutput.Samples {Value : Type} : SchedulerOutput Value → Prop
  | .collect _ => True
  | .publish _ _ _ => True
  | _ => False

namespace Scheduler

variable {Value : Type}

/-- While a cycle is in progress, nothing but `Connected` is written to the link. -/
def Undisturbed (s : Scheduler) (label : SchedulerLabel Value) : Prop :=
  ∀ state, label = .write state → ∀ c, s.control = .collecting c → state = .connected

/-- During a cycle the link is `Connected`. It is read once, before the first entry, so the
invariant needs that nobody writes another value meanwhile. -/
structure Linked (s : Scheduler) : Prop where
  alert : s.Alert
  collecting : ∀ c, s.control = .collecting c → s.link.value = .connected

/-- Reading the link starts a cycle only if it is `Connected`. -/
theorem linked_observe (s : Scheduler) :
    Linked (s.observe : Scheduler × List (SchedulerOutput Value)).1 := by
  refine ⟨alert_observe s, fun c control => ?_⟩
  revert control
  generalize read : (s.observe : Scheduler × List (SchedulerOutput Value)) = next
  cases cases_of_observe read with
  | fatal fatal => simp
  | down lasting down => simp
  | connected connected =>
      intro _
      obtain ⟨control', next, -⟩ := startCycle_spec Value
        { s with link := s.link.markSeen, lastRead := some .connected }
      rw [next]
      exact connected

/-- Undisturbed steps keep the link `Connected` during a cycle. -/
theorem linked_step {s : Scheduler} {label : SchedulerLabel Value}
    {next : Scheduler × List (SchedulerOutput Value)} (linked : Linked s)
    (undisturbed : Undisturbed s label) (stepped : s.step label = some next) : Linked next.1 := by
  have alert := alert_step linked.alert stepped
  cases cases_of_step stepped with
  | write state alive =>
      refine ⟨alert, fun c control => ?_⟩
      simpa using undisturbed state rfl c control
  | senderDropped alive => exact ⟨alert, linked.collecting⟩
  | advance duration => exact ⟨alert, linked.collecting⟩
  | tick waits ready => exact linked_observe _
  | changed control unseen => exact linked_observe _
  | closed control seen gone => exact ⟨alert, by simp⟩
  | collected c entry outcome control found may =>
      obtain ⟨unpaused, -, -⟩ := linked.alert.collecting c control
      obtain ⟨entry', control', after, -⟩ := collected_spec unpaused c entry outcome
      refine ⟨alert, fun c' _ => ?_⟩
      rw [after]
      exact linked.collecting c control

/-- Reading a link that is not `Connected` takes no sample. -/
theorem samples_observe {s : Scheduler} {out : SchedulerOutput Value}
    (mem : out ∈ (s.observe : Scheduler × List (SchedulerOutput Value)).2) (samples : out.Samples) :
    s.link.value = .connected := by
  generalize read : (s.observe : Scheduler × List (SchedulerOutput Value)) = next at mem
  cases cases_of_observe read with
  | fatal fatal => cases mem
  | down lasting down =>
      split_ifs at mem
      · cases mem
      · obtain rfl := List.mem_singleton.mp mem
        cases samples
  | connected connected => exact connected

/-- A step that takes or hands on a sample finds the link `Connected`. -/
theorem samples_step {s : Scheduler} {label : SchedulerLabel Value}
    {next : Scheduler × List (SchedulerOutput Value)} (linked : Linked s)
    (stepped : s.step label = some next) {out : SchedulerOutput Value} (mem : out ∈ next.2)
    (samples : out.Samples) : s.link.value = .connected := by
  cases cases_of_step stepped with
  | write state alive => simp at mem
  | senderDropped alive => simp at mem
  | advance duration => simp at mem
  | tick waits ready =>
      have connected := samples_observe mem samples
      exact connected
  | changed control unseen =>
      have connected := samples_observe mem samples
      exact connected
  | closed control seen gone => simp at mem
  | collected c entry outcome control found may => exact linked.collecting c control

/-- In every undisturbed run, every call of a collector and every publish finds the
link `Connected`. -/
theorem samples_only_while_connected {start s : Scheduler} {labels : List (SchedulerLabel Value)}
    {outs : List (SchedulerOutput Value)} {label : SchedulerLabel Value}
    {next : Scheduler × List (SchedulerOutput Value)} (started : (system Value).start start)
    (undisturbed : (system Value).Meets Undisturbed start labels)
    (ran : (system Value).run start labels = some (s, outs))
    (stepped : (system Value).step s label = some next) :
    ∀ out ∈ next.2, out.Samples → s.link.value = .connected := by
  intro out mem samples
  have alert := alert_of_reachable (.start started)
  have linked : Linked start := by
    refine ⟨alert, fun c control => ?_⟩
    obtain ⟨entries, link, period, pos, now, rfl⟩ := started
    simp [new] at control
  obtain ⟨linked, -⟩ := System.run_invariant (P := fun _ => True)
    (fun s label t out linked undisturbed stepped =>
      ⟨(linked_step linked undisturbed stepped : Linked (t, out).1), fun _ _ => trivial⟩)
    linked undisturbed ran
  exact samples_step linked stepped mem samples

/-- Any other state written during a cycle can be followed by a publish. -/
theorem lost_during_cycle {s : Scheduler} {c : InCycle} {entry : Entry}
    (control : s.control = .collecting c) (found : s.entries[c.index]? = some entry)
    (alive : s.link.senderAlive = true) {state : ConnectionState} (lost : state ≠ .connected)
    (value : Value) (published : Except TransferError Nat) :
    ∃ s' next, s.step (.write state : SchedulerLabel Value) = some (s', []) ∧
      s'.step (.collected (.sample value published)) = some next ∧
      .publish c.index value entry.metadata ∈ next.2 ∧ s'.link.value ≠ .connected := by
  let s' : Scheduler := { s with link := s.link.setState state }
  refine ⟨s', s'.collected c entry (.sample value published), ?_, ?_, ?_, ?_⟩
  · simp [step, alive, s']
  · simp [step, control, found, MayResolve, s']
  · simp [collected, runEntry]
  · simpa [s'] using lost

/-- A connected scheduler loses the link while its collector runs; the sample is
published all the same. -/
theorem publishes_while_disconnected :
    ∃ labels s outs next, (system Unit).start beforeConnack ∧
      (system Unit).run beforeConnack labels = some (s, outs) ∧
      (system Unit).step s (.collected (.sample () (.ok 2))) = some next ∧
      (∃ out ∈ next.2, out.Samples) ∧ s.link.value ≠ .connected := by
  refine ⟨[.write .connected, .tick, .write (.disconnected "lost")], _, _, _,
    ⟨_, _, _, _, _, rfl⟩, rfl, rfl, ⟨.publish 0 () { topic := "metrics/cpu" }, ?_, trivial⟩, ?_⟩
  · exact List.mem_cons_self
  · simp

/-- The connected part of that run: the first cycle. -/
theorem samples_only_while_connected_beforeConnack :
    ∃ s outs next, (system Unit).run beforeConnack [.write .connected] = some (s, outs) ∧
      (system Unit).step s .tick = some next ∧ .collect 0 ∈ next.2 ∧
      ∀ out ∈ next.2, out.Samples → s.link.value = .connected := by
  have undisturbed : (system Unit).Meets Undisturbed beforeConnack [.write .connected] :=
    ⟨fun _ _ _ collecting => (nomatch collecting), fun _ _ _ => trivial⟩
  obtain ⟨s, outs, ran, next, stepped, collect⟩ : ∃ s outs,
      (system Unit).run beforeConnack [.write .connected] = some (s, outs) ∧
      ∃ next, (system Unit).step s .tick = some next ∧ .collect 0 ∈ next.2 :=
    ⟨_, _, rfl, _, rfl, List.mem_cons_of_mem _ List.mem_cons_self⟩
  exact ⟨s, outs, next, ran, stepped, collect,
    samples_only_while_connected ⟨_, _, _, _, _, rfl⟩ undisturbed ran stepped⟩

end Scheduler

end BlazeBee.Agent
