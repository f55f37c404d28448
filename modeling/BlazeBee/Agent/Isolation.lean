import Mathlib.Data.List.DropRight
import BlazeBee.Agent.WakeUp

/-!
Failure isolation in the sampling loop.

The calls of a run are a function of the outcomes that its collectors are given:
`cycleCalls` is a cycle from the outcomes of its entries, in configuration order, and
`Accounted` says that a run consists of such cycles and the part of one more that it is
in. The failures that an entry counts are those at the end of its own outcomes
(`Accounted.failures`).

* `accounted_of_run`: every run is accounted for.
* `Accounted.publishes`: what is published follows from the outcomes, one by one.
* `failures_isolated`: what a run consists of, and what it has in common with another one
  whose outcomes differ for one entry only.
-/

namespace BlazeBee.Agent

open BlazeBee.Lib BlazeBee.Lib.Num BlazeBee.Transport

namespace Scheduler

variable {Value : Type}

/-! ### The calls of a cycle -/

/-- The calls of the loop, and where its cycles begin and end. -/
inductive Call (Value : Type) where
  | started
  | collect (index : Nat)
  | publish (index : Nat) (value : Value) (metadata : EndpointMetadata)
  | complete

/-- The call behind an output; what is only logged is none. -/
def SchedulerOutput.call? : SchedulerOutput Value → Option (Call Value)
  | .cycleStarted => some .started
  | .collect index => some (.collect index)
  | .publish index value metadata => some (.publish index value metadata)
  | .cycleComplete _ _ _ _ => some .complete
  | _ => none

/-- The calls of a run, in order. -/
def callsOf (outs : List (SchedulerOutput Value)) : List (Call Value) :=
  outs.filterMap SchedulerOutput.call?

/-- The outcomes that the collectors are given, in order. -/
def outcomesOf (labels : List (SchedulerLabel Value)) : List (Collected Value) :=
  labels.filterMap fun
    | .collected outcome => some outcome
    | _ => none

/-- A sample is published, once, with the entry's own metadata. -/
def publishCalls (index : Nat) (metadata : EndpointMetadata) : Collected Value → List (Call Value)
  | .sample value _ => [.publish index value metadata]
  | .error _ | .timeout => []

/-- The calls for the entries whose outcomes are known. -/
def entryCalls (metas : List EndpointMetadata) (outcomes : List (Collected Value)) :
    List (Call Value) :=
  (metas.zip outcomes).zipIdx.flatMap fun ((metadata, outcome), index) =>
    .collect index :: publishCalls index metadata outcome

/-- The calls of a whole cycle. -/
def cycleCalls (metas : List EndpointMetadata) (outcomes : List (Collected Value)) :
    List (Call Value) :=
  .started :: entryCalls metas outcomes ++ [.complete]

/-- A cycle that waits for its next entry. -/
def cycleCallsSoFar (metas : List EndpointMetadata) (outcomes : List (Collected Value)) :
    List (Call Value) :=
  .started :: entryCalls metas outcomes ++ [.collect outcomes.length]

theorem callsOf_append (outs out : List (SchedulerOutput Value)) :
    callsOf (outs ++ out) = callsOf outs ++ callsOf out := List.filterMap_append

theorem outcomesOf_append (labels more : List (SchedulerLabel Value)) :
    outcomesOf (labels ++ more) = outcomesOf labels ++ outcomesOf more := List.filterMap_append

theorem zip_concat {α β : Type} {as : List α} {bs : List β} {a : α} (b : β)
    (next : as[bs.length]? = some a) : as.zip (bs ++ [b]) = as.zip bs ++ [(a, b)] := by
  induction bs generalizing as with
  | nil =>
      cases as with
      | nil => simp at next
      | cons a' as =>
          obtain rfl : a' = a := by simpa using next
          simp
  | cons b' bs ih =>
      cases as with
      | nil => simp at next
      | cons a' as =>
          have next : as[bs.length]? = some a := by simpa using next
          simp [ih next]

/-- One more outcome adds the calls of its entry. -/
theorem entryCalls_concat {metas : List EndpointMetadata} {outcomes : List (Collected Value)}
    {metadata : EndpointMetadata} (next : metas[outcomes.length]? = some metadata)
    (outcome : Collected Value) :
    entryCalls metas (outcomes ++ [outcome]) = entryCalls metas outcomes ++
      .collect outcomes.length :: publishCalls outcomes.length metadata outcome := by
  have lt := (List.getElem?_eq_some_iff.mp next).1
  have length : (metas.zip outcomes).length = outcomes.length := by
    rw [List.length_zip]
    omega
  simp [entryCalls, zip_concat outcome next, List.zipIdx_append, length]

/-! ### The failures of an entry -/

/-- A failure to collect in time, or to publish. -/
def Collected.failed : Collected Value → Bool
  | .sample _ (.ok _) => false
  | .sample _ (.error _) | .error _ | .timeout => true

/-- The outcomes of one entry, cycle by cycle. -/
def history (index : Nat) (rounds : List (List (Collected Value))) : List (Collected Value) :=
  rounds.filterMap fun outcomes => outcomes[index]?

/-- The number of failures at the end of a history. -/
def trailingFailures (outcomes : List (Collected Value)) : Nat :=
  (outcomes.rtakeWhile Collected.failed).length

/-- A failure counts one more, a success starts over. -/
theorem trailingFailures_concat (outcomes : List (Collected Value)) (outcome : Collected Value) :
    trailingFailures (outcomes ++ [outcome]) =
      if Collected.failed outcome then trailingFailures outcomes + 1 else 0 := by
  unfold trailingFailures
  rw [List.rtakeWhile_concat]
  split_ifs <;> simp

/-- One more outcome in the present cycle is one more of the entry whose turn it is. -/
theorem history_concat (index : Nat) (rounds : List (List (Collected Value)))
    (current : List (Collected Value)) (outcome : Collected Value) :
    history index (rounds ++ [current ++ [outcome]]) =
      history index (rounds ++ [current]) ++ if index = current.length then [outcome] else [] := by
  simp only [history, List.filterMap_append, List.append_assoc]
  congr 1
  by_cases turn : index = current.length
  · simp [turn]
  · rcases Nat.lt_or_gt_of_ne turn with before | after
    · simp [List.getElem?_append_left before, turn, List.filterMap_cons]
    · have past : (current ++ [outcome])[index]? = none :=
        List.getElem?_eq_none (by simpa using Nat.succ_le_of_lt after)
      have short : current[index]? = none := List.getElem?_eq_none (Nat.le_of_lt after)
      simp [past, short, turn]

/-- A cycle without results yet adds nothing to a history. -/
theorem history_empty (index : Nat) (rounds : List (List (Collected Value))) :
    history index (rounds ++ [[]]) = history index rounds := by
  simp [history]

/-! ### What the steps call -/

/-- After the calls `before`, the loop goes on to the entry `index` of `n`, or the cycle
is complete. -/
def GoesOn (n index : Nat) (before : List (Call Value))
    (next : Scheduler × List (SchedulerOutput Value)) : Prop :=
  (index < n ∧ (∃ c, next.1.control = .collecting c ∧ c.index = index) ∧
      callsOf next.2 = before ++ [.collect index]) ∨
    (n ≤ index ∧ next.1.control = .tickWait ∧ callsOf next.2 = before ++ [.complete])

/-- Going on to the next entry leaves all entries alone. -/
theorem entries_nextEntry (s : Scheduler) (c : InCycle) :
    (s.nextEntry c : Scheduler × List (SchedulerOutput Value)).1.entries = s.entries := by
  unfold nextEntry
  split_ifs <;> rfl

variable (Value) in
/-- The next entry is collected, or the cycle is complete. -/
theorem nextEntry_goesOn {s : Scheduler} (unpaused : s.paused = false) (c : InCycle) :
    GoesOn s.entries.length c.index []
      (s.nextEntry c : Scheduler × List (SchedulerOutput Value)) := by
  unfold nextEntry
  split_ifs with more
  · exact Or.inl ⟨more, ⟨_, rfl, rfl⟩, rfl⟩
  · refine Or.inr ⟨Nat.le_of_not_lt more, ?_, rfl⟩
    simp [completeCycle, loopTop, unpaused]

/-- What is logged around the calls does not count as one. -/
theorem GoesOn.log {n index : Nat} {before : List (Call Value)}
    {next : Scheduler × List (SchedulerOutput Value)} (goes : GoesOn n index before next)
    (log : List (SchedulerOutput Value)) :
    GoesOn n index (callsOf log ++ before) (next.1, log ++ next.2) := by
  simp only [GoesOn, callsOf_append, List.append_assoc, List.append_cancel_left_eq]
  exact goes

variable (Value) in
/-- A cycle starts with its first entry and leaves all entries alone. -/
theorem startCycle_goesOn (s : Scheduler) :
    (s.startCycle : Scheduler × List (SchedulerOutput Value)).1.entries = s.entries ∧
      GoesOn s.entries.length 0 [.started]
        (s.startCycle : Scheduler × List (SchedulerOutput Value)) := by
  let woken : Scheduler := if s.paused then { s with paused := false, skipped := 0 } else s
  let ready : Scheduler := { woken with everConnected := true }
  let log : List (SchedulerOutput Value) :=
    if s.paused then if s.everConnected then [.resumed s.skipped] else [.connected] else []
  let next : Scheduler × List (SchedulerOutput Value) :=
    ready.nextEntry ⟨0, ready.now, ready.now, 0, 0⟩
  have started : s.startCycle = (next.1, (log ++ [.cycleStarted]) ++ next.2) := by
    rw [List.append_assoc]
    rfl
  have logged : callsOf (log ++ [.cycleStarted]) ++ [] = [.started] := by
    simp only [log]
    split_ifs <;> rfl
  have entries : ready.entries = s.entries := by
    simp only [ready, woken]
    split_ifs <;> rfl
  have unpaused : ready.paused = false := by
    simp only [ready, woken]
    split_ifs with paused
    · rfl
    · exact Bool.eq_false_iff.mpr paused
  have goes : GoesOn ready.entries.length 0 [] next :=
    nextEntry_goesOn Value unpaused ⟨0, ready.now, ready.now, 0, 0⟩
  rw [started, ← logged, ← entries]
  exact ⟨entries_nextEntry ready _, goes.log _⟩

/-- The entry after a result. -/
def resolved (entry : Entry) (outcome : Collected Value) : Entry :=
  { entry with
    failures := if Collected.failed outcome then min (entry.failures + 1) u32Max else 0 }

/-- The calls for one result. -/
theorem callsOf_runEntry (index : Nat) (entry : Entry) (outcome : Collected Value) :
    callsOf (runEntry index entry outcome).2 = publishCalls index entry.metadata outcome := by
  cases outcome <;> rfl

/-- What follows a result is only logged. -/
theorem callsOf_finishEntry (index : Nat) (entry : Entry) (result : Except Failure Nat) :
    callsOf (finishEntry index entry result : Entry × Option Nat ×
      List (SchedulerOutput Value)).2.2 = [] := by
  refine List.filterMap_eq_nil_iff.mpr fun x mem => ?_
  rcases mem_finishEntry mem with ⟨_, rfl⟩ | ⟨_, _, _, rfl⟩
  · rfl
  · rfl

/-- A success ends the failures of an entry. -/
theorem finishEntry_ok (index : Nat) (entry : Entry) (bytes : Nat) :
    (finishEntry index entry (.ok bytes) : Entry × Option Nat × List (SchedulerOutput Value)).1 =
      { entry with failures := 0 } := by
  unfold finishEntry
  simp only
  split_ifs with some_failures
  · rfl
  · have none_yet : entry.failures = 0 := by omega
    cases entry
    simp_all

/-- One more failure, or none any more. -/
theorem finishEntry_runEntry (index : Nat) (entry : Entry) (outcome : Collected Value) :
    (finishEntry index entry (runEntry index entry outcome).1 :
      Entry × Option Nat × List (SchedulerOutput Value)).1 = resolved entry outcome := by
  cases outcome with
  | sample value published =>
      cases published with
      | ok bytes => exact finishEntry_ok index entry bytes
      | error e => rfl
  | error e => rfl
  | timeout => rfl

/-- A result leaves the metadata of every entry alone. -/
theorem metadata_resolved {entries : List Entry} {index : Nat} {entry : Entry}
    (found : entries[index]? = some entry) (outcome : Collected Value) :
    (entries.set index (resolved entry outcome)).map Entry.metadata =
      entries.map Entry.metadata := by
  have lt := (List.getElem?_eq_some_iff.mp found).1
  rw [List.map_set]
  apply List.ext_getElem?
  intro other
  by_cases here : index = other
  · subst here
    rw [List.getElem?_set_self (by simpa using lt), List.getElem?_map, found]
    rfl
  · rw [List.getElem?_set_ne here]

/-- A result counts for the entry whose turn it is, and for no other. -/
theorem failures_resolved {entries : List Entry} {cycles : List (List (Collected Value))}
    {current : List (Collected Value)}
    (failures : ∀ index entry, entries[index]? = some entry →
      entry.failures = min (trailingFailures (history index (cycles ++ [current]))) u32Max)
    {entry : Entry} (found : entries[current.length]? = some entry) (outcome : Collected Value) :
    ∀ index entry', (entries.set current.length (resolved entry outcome))[index]? = some entry' →
      entry'.failures =
        min (trailingFailures (history index (cycles ++ [current ++ [outcome]]))) u32Max := by
  intro index entry' found'
  have lt := (List.getElem?_eq_some_iff.mp found).1
  rw [history_concat]
  by_cases turn : index = current.length
  · subst turn
    rw [List.getElem?_set_self lt] at found'
    obtain rfl := Option.some.inj found'
    have before := failures _ entry found
    rw [if_pos rfl, trailingFailures_concat]
    simp only [resolved]
    split_ifs
    · omega
    · simp
  · rw [List.getElem?_set_ne (Ne.symm turn)] at found'
    rw [if_neg turn, List.append_nil]
    exact failures index entry' found'

/-- A result settles its own entry, publishes the sample if there is one, and goes on to the
next entry. -/
theorem collected_goesOn {s : Scheduler} (unpaused : s.paused = false) (c : InCycle)
    (entry : Entry) (outcome : Collected Value) :
    (s.collected c entry outcome).1.entries = s.entries.set c.index (resolved entry outcome) ∧
      GoesOn s.entries.length (c.index + 1) (publishCalls c.index entry.metadata outcome)
        (s.collected c entry outcome) := by
  let ran := runEntry c.index entry outcome
  let finished : Entry × Option Nat × List (SchedulerOutput Value) :=
    finishEntry c.index entry ran.1
  let updated : Scheduler := { s with entries := s.entries.set c.index finished.1 }
  let next : Scheduler × List (SchedulerOutput Value) := updated.nextEntry (c.count finished.2.1)
  have collected_eq : s.collected c entry outcome =
      (next.1, (ran.2 ++ finished.2.2) ++ next.2) := rfl
  have logged : callsOf (ran.2 ++ finished.2.2) ++ [] =
      publishCalls c.index entry.metadata outcome := by
    rw [callsOf_append, callsOf_runEntry, callsOf_finishEntry, List.append_nil, List.append_nil]
  have goes : GoesOn s.entries.length (c.index + 1) [] next := by
    have goes := nextEntry_goesOn Value (s := updated) unpaused (c.count finished.2.1)
    simpa [updated] using goes
  rw [collected_eq, ← logged, ← finishEntry_runEntry c.index]
  exact ⟨entries_nextEntry updated _, goes.log _⟩

/-! ### What a run consists of -/

/-- The calls of the cycle in progress, and how many of its outcomes there are. -/
def InProgress (metas : List EndpointMetadata) (current : List (Collected Value))
    (calls : List (Call Value)) (control : SchedulerControl) : Prop :=
  (∃ c, control = .collecting c ∧ c.index = current.length ∧ current.length < metas.length ∧
      calls = cycleCallsSoFar metas current) ∨
    ((∀ c, control ≠ .collecting c) ∧ current = [] ∧ calls = [])

/-- What the labels and the outputs so far amount to: full cycles, and the outcomes of the
cycle in progress. The calls are a function of these, and so is each entry's number of
failures. -/
structure Accounted (metas : List EndpointMetadata) (labels : List (SchedulerLabel Value))
    (outs : List (SchedulerOutput Value)) (s : Scheduler)
    (cycles : List (List (Collected Value))) (current : List (Collected Value)) : Prop where
  outcomes : outcomesOf labels = cycles.flatten ++ current
  full : ∀ cycle ∈ cycles, cycle.length = metas.length
  calls : ∃ calls, callsOf outs = cycles.flatMap (cycleCalls metas) ++ calls ∧
    InProgress metas current calls s.control
  metadata : s.entries.map Entry.metadata = metas
  failures : ∀ index entry, s.entries[index]? = some entry →
    entry.failures = min (trailingFailures (history index (cycles ++ [current]))) u32Max

section Account

variable {metas : List EndpointMetadata} {labels : List (SchedulerLabel Value)}
  {outs : List (SchedulerOutput Value)} {s : Scheduler} {cycles : List (List (Collected Value))}
  {current : List (Collected Value)}

/-- No entry is lost or added. -/
theorem Accounted.length_entries (accounted : Accounted metas labels outs s cycles current) :
    s.entries.length = metas.length := by
  rw [← accounted.metadata, List.length_map]

/-- A step without an outcome, and without a call. -/
theorem Accounted.keep (accounted : Accounted metas labels outs s cycles current)
    {label : SchedulerLabel Value} (quiet : outcomesOf [label] = [])
    {out : List (SchedulerOutput Value)} (silent : callsOf out = []) {t : Scheduler}
    (entries : t.entries = s.entries)
    (control : t.control = s.control ∨ (∀ c, t.control ≠ .collecting c) ∧
      ∀ c, s.control ≠ .collecting c) :
    Accounted metas (labels ++ [label]) (outs ++ out) t cycles current := by
  obtain ⟨calls, consist, progress⟩ := accounted.calls
  refine ⟨?_, accounted.full, ⟨calls, ?_, ?_⟩, ?_, ?_⟩
  · rw [outcomesOf_append, quiet, List.append_nil]
    exact accounted.outcomes
  · rw [callsOf_append, silent, List.append_nil]
    exact consist
  · rcases control with same | ⟨idle, was_idle⟩
    · rw [same]
      exact progress
    · rcases progress with ⟨c, collecting, -⟩ | ⟨-, rest⟩
      · exact absurd collecting (was_idle c)
      · exact Or.inr ⟨idle, rest⟩
  · rw [entries]
    exact accounted.metadata
  · rw [entries]
    exact accounted.failures

/-- After the calls `before`, a cycle with the outcomes `current` goes on, or joins the
full ones. -/
theorem accounted_of_goesOn {before : List (Call Value)}
    {next : Scheduler × List (SchedulerOutput Value)}
    (outcomes : outcomesOf labels = cycles.flatten ++ current)
    (full : ∀ cycle ∈ cycles, cycle.length = metas.length)
    (goes : GoesOn metas.length current.length before next)
    (within : current.length ≤ metas.length)
    (calls : callsOf outs ++ before =
      cycles.flatMap (cycleCalls metas) ++ .started :: entryCalls metas current)
    (metadata : next.1.entries.map Entry.metadata = metas)
    (failures : ∀ index entry, next.1.entries[index]? = some entry →
      entry.failures = min (trailingFailures (history index (cycles ++ [current]))) u32Max) :
    ∃ cycles' current', Accounted metas labels (outs ++ next.2) next.1 cycles' current' := by
  rcases goes with ⟨more, ⟨c, control, turn⟩, called⟩ | ⟨last, control, called⟩
  · refine ⟨cycles, current, outcomes, full, ⟨cycleCallsSoFar metas current, ?_, ?_⟩, metadata,
      failures⟩
    · rw [callsOf_append, called, ← List.append_assoc, calls]
      simp [cycleCallsSoFar]
    · exact Or.inl ⟨c, control, turn, more, rfl⟩
  · refine ⟨cycles ++ [current], [], ?_, ?_, ⟨[], ?_, ?_⟩, metadata, ?_⟩
    · simpa using outcomes
    · intro cycle mem
      rcases List.mem_append.mp mem with old | new
      · exact full cycle old
      · rw [List.mem_singleton.mp new]
        omega
    · rw [callsOf_append, called, ← List.append_assoc, calls]
      simp [cycleCalls]
    · exact Or.inr ⟨by simp [control], rfl, rfl⟩
    · intro index entry found
      rw [history_empty]
      exact failures index entry found

/-- Reading the link begins a cycle, or calls nothing. -/
theorem accounted_observe (accounted : Accounted metas labels outs s cycles current)
    {label : SchedulerLabel Value} (quiet : outcomesOf [label] = [])
    (idle : ∀ c, s.control ≠ .collecting c) (r : Scheduler) (entries : r.entries = s.entries)
    {next : Scheduler × List (SchedulerOutput Value)} (observed : r.observe = next) :
    ∃ cycles' current',
      Accounted metas (labels ++ [label]) (outs ++ next.2) next.1 cycles' current' := by
  cases cases_of_observe observed with
  | fatal fatal => exact ⟨_, _, accounted.keep quiet rfl entries (Or.inr ⟨by simp, idle⟩)⟩
  | down lasting down =>
      have silent : callsOf (if r.paused then [] else [.paused r.everConnected] :
          List (SchedulerOutput Value)) = [] := by
        split_ifs <;> rfl
      exact ⟨_, _, accounted.keep quiet silent entries (Or.inr ⟨by simp, idle⟩)⟩
  | connected connected =>
      obtain ⟨kept, goes⟩ := startCycle_goesOn Value
        { r with link := r.link.markSeen, lastRead := some .connected }
      obtain ⟨calls, consist, progress⟩ := accounted.calls
      obtain ⟨-, rfl, rfl⟩ := progress.resolve_left fun ⟨c, collecting, _⟩ => idle c collecting
      have outcomes : outcomesOf (labels ++ [label]) = cycles.flatten ++ [] := by
        rw [outcomesOf_append, quiet, List.append_nil, accounted.outcomes]
      rw [congrArg List.length entries, accounted.length_entries] at goes
      apply accounted_of_goesOn outcomes accounted.full goes (Nat.zero_le _)
      · rw [consist, List.append_nil]
        simp [entryCalls]
      · rw [kept, ← accounted.metadata]
        exact congrArg _ entries
      · intro index entry found
        rw [kept] at found
        exact accounted.failures index entry (entries ▸ found)

/-- One more outcome is added to the cycle in progress, which it may complete. -/
theorem accounted_collected (accounted : Accounted metas labels outs s cycles current)
    (unpaused : s.paused = false) {c : InCycle} (collecting : s.control = .collecting c)
    {entry : Entry} (found : s.entries[c.index]? = some entry) (outcome : Collected Value) :
    ∃ cycles' current', Accounted metas (labels ++ [.collected outcome])
      (outs ++ (s.collected c entry outcome).2) (s.collected c entry outcome).1
      cycles' current' := by
  obtain ⟨kept, goes⟩ := collected_goesOn unpaused c entry outcome
  obtain ⟨calls, consist, progress⟩ := accounted.calls
  obtain ⟨c', same, turn, more, so_far⟩ :=
    progress.resolve_right fun ⟨idle, _⟩ => idle c collecting
  obtain rfl : c' = c := by
    rw [collecting] at same
    exact (SchedulerControl.collecting.inj same).symm
  have own : metas[current.length]? = some entry.metadata := by
    rw [← accounted.metadata, List.getElem?_map, ← turn, found]
    rfl
  have one_more : (current ++ [outcome]).length = c'.index + 1 := by
    rw [List.length_append, List.length_singleton, turn]
  rw [accounted.length_entries, ← one_more] at goes
  apply accounted_of_goesOn _ accounted.full goes
  · rw [one_more, turn]
    exact more
  · rw [consist, so_far, entryCalls_concat own, turn]
    simp [cycleCallsSoFar]
  · rw [kept, metadata_resolved found]
    exact accounted.metadata
  · rw [kept, turn]
    exact failures_resolved accounted.failures (turn ▸ found) outcome
  · rw [outcomesOf_append, accounted.outcomes, List.append_assoc]
    rfl

/-- Every step keeps the account: a result is added to the cycle it belongs to, and the calls
follow from the results. -/
theorem accounted_step (alert : Alert s)
    (accounted : Accounted metas labels outs s cycles current) {label : SchedulerLabel Value}
    {next : Scheduler × List (SchedulerOutput Value)} (stepped : s.step label = some next) :
    ∃ cycles' current',
      Accounted metas (labels ++ [label]) (outs ++ next.2) next.1 cycles' current' := by
  cases cases_of_step stepped with
  | write state alive => exact ⟨_, _, accounted.keep rfl rfl rfl (Or.inl rfl)⟩
  | senderDropped alive => exact ⟨_, _, accounted.keep rfl rfl rfl (Or.inl rfl)⟩
  | advance duration => exact ⟨_, _, accounted.keep rfl rfl rfl (Or.inl rfl)⟩
  | tick waits ready =>
      apply accounted_observe accounted rfl _ s.tickFired rfl rfl
      rcases waits with tickWait | select
      · simp [tickWait]
      · simp [select]
  | changed select unseen =>
      have idle : ∀ c, s.control ≠ .collecting c := by simp [select]
      exact accounted_observe accounted rfl idle (s.wokenEarly s.link.markSeen) rfl rfl
  | closed select seen gone =>
      exact ⟨_, _, accounted.keep rfl rfl rfl (Or.inr ⟨by simp, by simp [select]⟩)⟩
  | collected c entry outcome collecting found may =>
      obtain ⟨unpaused, -⟩ := alert.collecting c collecting
      exact accounted_collected accounted unpaused collecting found outcome

end Account

/-- Every run consists of full cycles and the part of one more that it is in. -/
theorem accounted_of_run {s t : Scheduler} {labels : List (SchedulerLabel Value)}
    {outs : List (SchedulerOutput Value)} (started : (system Value).start s)
    (ran : (system Value).run s labels = some (t, outs)) :
    ∃ cycles current,
      Accounted (s.entries.map Entry.metadata) labels outs t cycles current := by
  have alert := alert_of_reachable (.start started)
  apply And.right (a := Alert t)
  apply System.run_trace (R := fun labels outs r => Alert r ∧ ∃ cycles current,
    Accounted (s.entries.map Entry.metadata) labels outs r cycles current) _ _ ran
  · rintro before earlier r label u out ⟨alert, cycles, current, accounted⟩ stepped
    exact ⟨alert_step alert stepped, accounted_step alert accounted stepped⟩
  · obtain ⟨entries, link, period, pos, now, rfl⟩ := started
    refine ⟨alert, [], [], rfl, by simp, ⟨[], rfl, Or.inr ⟨by simp [new], rfl, rfl⟩⟩, rfl, ?_⟩
    intro index entry found
    simp only [new, List.getElem?_map, Option.map_eq_some_iff] at found
    obtain ⟨named, -, rfl⟩ := found
    simp [history, trailingFailures]

/-! ### What is published -/

/-- Whether a call is a publish. -/
def Call.isPublish : Call Value → Bool
  | .publish _ _ _ => true
  | _ => false

/-- The call is made for another entry than `index`. -/
def Call.spares (index : Nat) : Call Value → Bool
  | .publish other _ _ => other != index
  | _ => true

/-- The publishes of a run, in order. -/
def publishesOf (outs : List (SchedulerOutput Value)) : List (Call Value) :=
  (callsOf outs).filter Call.isPublish

/-- What is published for the outcome number `k` of a run. -/
def publishAt (metas : List EndpointMetadata) (outcomes : List (Collected Value)) (k : Nat) :
    List (Call Value) :=
  match metas[k % metas.length]?, outcomes[k]? with
  | some metadata, some outcome => publishCalls (k % metas.length) metadata outcome
  | _, _ => []

/-- What is published for all outcomes of a run, one after the other. -/
def publishedBy (metas : List EndpointMetadata) (outcomes : List (Collected Value)) :
    List (Call Value) :=
  (List.range outcomes.length).flatMap (publishAt metas outcomes)

section Published

variable {metas : List EndpointMetadata}

/-- The calls for a sample are publishes. -/
theorem filter_publishCalls (index : Nat) (metadata : EndpointMetadata)
    (outcome : Collected Value) :
    (publishCalls index metadata outcome).filter Call.isPublish =
      publishCalls index metadata outcome := by
  cases outcome <;> rfl

/-- After full cycles it is the first entry's turn again. -/
theorem publishedBy_append {outcomes : List (Collected Value)}
    (full : metas.length ∣ outcomes.length) (more : List (Collected Value)) :
    publishedBy metas (outcomes ++ more) =
      publishedBy metas outcomes ++ publishedBy metas more := by
  unfold publishedBy
  rw [List.length_append, List.range_add, List.flatMap_append, List.flatMap_map]
  congr 1
  · apply List.flatMap_congr
    intro k mem
    unfold publishAt
    rw [List.getElem?_append_left (List.mem_range.mp mem)]
  · apply List.flatMap_congr
    intro k mem
    have turn : (outcomes.length + k) % metas.length = k % metas.length := by
      obtain ⟨c, length⟩ := full
      rw [length, Nat.mul_add_mod]
    unfold publishAt
    rw [turn, List.getElem?_append_right (Nat.le_add_right _ _), Nat.add_sub_cancel_left]

/-- The publishes of a part of a cycle. -/
theorem publishes_entryCalls {outcomes : List (Collected Value)}
    (within : outcomes.length ≤ metas.length) :
    (entryCalls metas outcomes).filter Call.isPublish = publishedBy metas outcomes := by
  induction outcomes using List.reverseRecOn with
  | nil => simp [entryCalls, publishedBy]
  | append_singleton outcomes outcome ih =>
      have lt : outcomes.length < metas.length := by
        rw [List.length_append] at within
        exact within
      have next : metas[outcomes.length]? = some metas[outcomes.length] :=
        List.getElem?_eq_getElem lt
      have last : publishAt metas (outcomes ++ [outcome]) outcomes.length =
          publishCalls outcomes.length metas[outcomes.length] outcome := by
        simp [publishAt, Nat.mod_eq_of_lt lt, next]
      have earlier : (List.range outcomes.length).flatMap
          (publishAt metas (outcomes ++ [outcome])) = publishedBy metas outcomes := by
        apply List.flatMap_congr
        intro k mem
        unfold publishAt
        rw [List.getElem?_append_left (List.mem_range.mp mem)]
      rw [entryCalls_concat next, List.filter_append, ih (Nat.le_of_lt lt),
        List.filter_cons_of_neg (by simp [Call.isPublish]), filter_publishCalls]
      unfold publishedBy
      rw [List.length_append, List.length_singleton, List.range_succ, List.flatMap_append, earlier,
        List.flatMap_singleton, last, publishedBy]

/-- Full cycles have a multiple of the number of entries. -/
theorem length_flatten {cycles : List (List (Collected Value))}
    (full : ∀ cycle ∈ cycles, cycle.length = metas.length) :
    metas.length ∣ cycles.flatten.length := by
  induction cycles with
  | nil => exact Nat.dvd_zero _
  | cons cycle cycles ih =>
      obtain ⟨own, rest⟩ := List.forall_mem_cons.mp full
      rw [List.flatten_cons, List.length_append, own]
      exact Nat.dvd_add (Nat.dvd_refl _) (ih rest)

/-- The publishes of full cycles follow from their outcomes. -/
theorem publishes_cycles {cycles : List (List (Collected Value))}
    (full : ∀ cycle ∈ cycles, cycle.length = metas.length) :
    (cycles.flatMap (cycleCalls metas)).filter Call.isPublish =
      publishedBy metas cycles.flatten := by
  induction cycles with
  | nil => rfl
  | cons cycle cycles ih =>
      obtain ⟨own, rest⟩ := List.forall_mem_cons.mp full
      have calls : (cycleCalls metas cycle).filter Call.isPublish = publishedBy metas cycle := by
        rw [← publishes_entryCalls (Nat.le_of_eq own)]
        simp [cycleCalls, Call.isPublish]
      rw [List.flatMap_cons, List.filter_append, List.flatten_cons,
        publishedBy_append (Dvd.intro 1 (by rw [own, Nat.mul_one])), calls, ih rest]

/-- What a run publishes follows from its outcomes, one by one. -/
theorem Accounted.publishes {labels : List (SchedulerLabel Value)}
    {outs : List (SchedulerOutput Value)} {s : Scheduler}
    {cycles : List (List (Collected Value))} {current : List (Collected Value)}
    (accounted : Accounted metas labels outs s cycles current) :
    publishesOf outs = publishedBy metas (outcomesOf labels) := by
  obtain ⟨calls, consist, progress⟩ := accounted.calls
  have last : calls.filter Call.isPublish = publishedBy metas current := by
    rcases progress with ⟨c, -, -, more, rfl⟩ | ⟨-, rfl, rfl⟩
    · rw [← publishes_entryCalls (Nat.le_of_lt more)]
      simp [cycleCallsSoFar, Call.isPublish]
    · rfl
  rw [publishesOf, consist, List.filter_append, publishes_cycles accounted.full, last,
    accounted.outcomes, publishedBy_append (length_flatten accounted.full)]

/-- As many outcomes, and the same ones but for those of the entry `index` of `n`. -/
structure SameBut (n index : Nat) (outcomes others : List (Collected Value)) : Prop where
  length : outcomes.length = others.length
  agree : ∀ k, k % n ≠ index → outcomes[k]? = others[k]?

/-- The publishes for the other entries do not depend on the outcomes of one. -/
theorem SameBut.publishes {index : Nat} {outcomes others : List (Collected Value)}
    (same : SameBut metas.length index outcomes others) :
    (publishedBy metas outcomes).filter (Call.spares index) =
      (publishedBy metas others).filter (Call.spares index) := by
  unfold publishedBy
  rw [List.filter_flatMap, List.filter_flatMap, same.length]
  apply List.flatMap_congr
  intro k _
  have own : ∀ outcomes : List (Collected Value), k % metas.length = index →
      (publishAt metas outcomes k).filter (Call.spares index) = [] := by
    intro outcomes turn
    apply List.filter_eq_nil_iff.mpr
    unfold publishAt
    rw [turn]
    split
    · rename_i outcome _ _
      cases outcome <;> simp [publishCalls, Call.spares]
    · simp
  by_cases turn : k % metas.length = index
  · rw [own _ turn, own _ turn]
  · unfold publishAt
    rw [same.agree k turn]

end Published

/-- Every run consists of cycles that call each collector once, in order, publish exactly
what was sampled, and count the failures at the end of each entry's own outcomes; and two
runs whose outcomes differ for one entry only publish the same for all others. -/
theorem failures_isolated {s t : Scheduler} {labels : List (SchedulerLabel Value)}
    {outs : List (SchedulerOutput Value)} (started : (system Value).start s)
    (ran : (system Value).run s labels = some (t, outs)) :
    (∃ cycles current,
      Accounted (s.entries.map Entry.metadata) labels outs t cycles current) ∧
      ∀ (labels' : List (SchedulerLabel Value)) t' outs' index,
        (system Value).run s labels' = some (t', outs') →
        SameBut s.entries.length index (outcomesOf labels) (outcomesOf labels') →
        (publishesOf outs).filter (Call.spares index) =
          (publishesOf outs').filter (Call.spares index) := by
  refine ⟨accounted_of_run started ran, fun labels' t' outs' index ran' same => ?_⟩
  obtain ⟨cycles, current, accounted⟩ := accounted_of_run started ran
  obtain ⟨cycles', current', accounted'⟩ := accounted_of_run started ran'
  rw [← List.length_map Entry.metadata] at same
  rw [accounted.publishes, accounted'.publishes, same.publishes]

/-- A scheduler of two collectors, with a live connection. -/
def twoCollectors : Scheduler :=
  new [("cpu", { topic := "metrics/cpu" }), ("ram", { topic := "metrics/ram" })]
    (Watch.init .connected) beforeConnack.ticker 0

/-- One cycle, with this outcome of the first collector. -/
def oneCycle (outcome : Collected Nat) : List (SchedulerLabel Nat) :=
  [.tick, .collected outcome, .collected (.sample 5 (.ok 1))]

/-- When the first collector fails, the second one is published as ever. -/
theorem failures_isolated_one_error :
    let failing : List (SchedulerLabel Nat) := oneCycle (.error (.missing "cpu" "stat"))
    ∃ t outs t' outs',
      (system Nat).run twoCollectors failing = some (t, outs) ∧
      (system Nat).run twoCollectors (oneCycle (.sample 4 (.ok 1))) = some (t', outs') ∧
      t.entries.map Entry.failures = [1, 0] ∧
      (∃ cycles current, Accounted (twoCollectors.entries.map Entry.metadata) failing outs t
        cycles current) ∧
      (publishesOf outs).filter (Call.spares 0) = (publishesOf outs').filter (Call.spares 0) := by
  have started : (system Nat).start twoCollectors := ⟨_, _, _, _, _, rfl⟩
  have same : SameBut twoCollectors.entries.length 0
      (outcomesOf (oneCycle (.error (.missing "cpu" "stat"))))
      (outcomesOf (oneCycle (.sample 4 (.ok 1)))) := by
    refine ⟨rfl, fun k other => ?_⟩
    match k with
    | 0 => exact absurd rfl other
    | 1 => rfl
    | k + 2 => rfl
  have ran : (system Nat).run twoCollectors (oneCycle (.error (.missing "cpu" "stat"))) =
      some (_, _) := rfl
  obtain ⟨accounted, isolated⟩ := failures_isolated started ran
  exact ⟨_, _, _, _, ran, rfl, rfl, accounted, isolated _ _ _ 0 rfl same⟩

end Scheduler

end BlazeBee.Agent
