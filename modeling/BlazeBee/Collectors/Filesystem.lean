import BlazeBee.Agent.Scheduler
import BlazeBee.Collectors.Mounts

/-!
The filesystem collector and the `statvfs` calls that it leaves on blocking threads.

A call of `collect` suspends only where it awaits a handle. Between two suspensions
everything happens in one step. A blocking task runs on when its handle is dropped, so
the tasks are part of the state, with what is known of them: the path, and the result
once there is one. A call may be dropped wherever it is suspended, as the scheduler does
after `COLLECT_TIMEOUT`; the handle that it awaits is then known to nobody.

* `tracked_step`: as long as no unfinished call is dropped, every unfinished one is
  either awaited or kept as stuck.
* `one_call_per_mount`: then there is at most one for each mount point.
* `doubled_of_drop`: a dropped one is followed by a second one.
-/

namespace BlazeBee.Collectors

open BlazeBee.Lib BlazeBee.Lib.Num BlazeBee.Rumqttc BlazeBee.Agent

/-- Deadline for a single `statvfs` call: two seconds. -/
def statvfsTimeout : Nat := 2000000000

/-- What is reported for a mount. -/
structure FilesystemStats where
  device : String
  mountPoint : String
  fsType : String
  totalBytes : UInt64
  usedBytes : UInt64
  availableBytes : UInt64
  totalInodes : UInt64
  usedInodes : UInt64
  availableInodes : UInt64
deriving DecidableEq, Repr

/-- What a `statvfs` call has measured, in bytes and inodes. -/
structure Usage where
  totalBytes : UInt64
  usedBytes : UInt64
  availableBytes : UInt64
  totalInodes : UInt64
  usedInodes : UInt64
  availableInodes : UInt64
deriving DecidableEq, Repr

/-- What is read of `libc::statvfs`. -/
structure StatVfs where
  frsize : UInt64
  blocks : UInt64
  bfree : UInt64
  bavail : UInt64
  files : UInt64
  ffree : UInt64
  favail : UInt64
deriving DecidableEq, Repr

/-- `statvfs`, given the answer of the system call. -/
def statvfs (mountPoint : String) (answer : Except IoError StatVfs) : Except IoError Usage :=
  if Text.contains mountPoint '\x00' then .error ⟨.invalidInput, "NUL in path"⟩
  else answer.map fun stat =>
    { totalBytes := u64SaturatingMul stat.blocks stat.frsize
      usedBytes := u64SaturatingMul (u64SaturatingSub stat.blocks stat.bfree) stat.frsize
      availableBytes := u64SaturatingMul stat.bavail stat.frsize
      totalInodes := stat.files
      usedInodes := u64SaturatingSub stat.files stat.ffree
      availableInodes := stat.favail }

/-- How a blocking call can end without a result: nobody aborts it, so it can only have
panicked. -/
inductive JoinError where
  | panicked
deriving DecidableEq, Repr

/-- A `statvfs` call on a blocking thread. -/
structure Task where
  mountPoint : String
  result : Option (Except JoinError (Except IoError Usage))
deriving DecidableEq

/-- A call of `collect` that awaits a handle, the number of its task. -/
structure InCollect where
  mount : Mount
  handle : Nat
  rest : List Mount
  stats : List FilesystemStats
deriving DecidableEq

/-- Where a call of `collect` stands, as far as it can be suspended. -/
inductive CollectControl where
  | idle
  /-- Awaits the handle of a stuck call that had returned. -/
  | joining (c : InCollect)
  /-- Awaits a new call, up to the deadline. -/
  | waiting (c : InCollect) (deadline : Nat)
deriving DecidableEq

/-- The collector, the call of it that is on its way, and the blocking tasks. -/
structure FilesystemCollector where
  /-- Handles of the calls that exceeded the deadline, by mount point. -/
  stuck : String → Option Nat
  control : CollectControl
  tasks : List Task
  now : Nat

/-- What can be seen of a step from outside: a new call on a blocking thread, or the end of
`collect`. -/
inductive FilesystemOutput where
  | spawned (handle : Nat) (mount : Mount)
  | returned (result : Except CollectorError (List FilesystemStats))
deriving DecidableEq

/-- What happens to the collector: its caller's doing, the system's, and time. -/
inductive FilesystemLabel where
  /-- A call, with the content of the mount table. -/
  | collect (content : Except IoError String)
  /-- A blocking task ends. -/
  | finished (handle : Nat) (answer : Except JoinError (Except IoError StatVfs))
  /-- The awaited handle is ready. -/
  | joined
  /-- The deadline passes first. -/
  | elapsed
  /-- The call is dropped. -/
  | cancelled
  | advance (duration : Nat)

/-- What a resolved wait adds to the sample. -/
def InCollect.settle (c : InCollect) (result : Except JoinError (Except IoError Usage)) :
    List FilesystemStats :=
  match result with
  | .ok (.ok u) =>
      c.stats ++ [⟨c.mount.device, c.mount.mountPoint, c.mount.fsType, u.totalBytes, u.usedBytes,
        u.availableBytes, u.totalInodes, u.usedInodes, u.availableInodes⟩]
  | .ok (.error _) => c.stats
  | .error _ => c.stats

namespace FilesystemCollector

/-- The result of a task, if it is finished. -/
def result (self : FilesystemCollector) (handle : Nat) :
    Option (Except JoinError (Except IoError Usage)) :=
  self.tasks[handle]?.bind Task.result

/-- The loop of `collect` with `usage`, up to the next await. -/
def proceed (self : FilesystemCollector) (stats : List FilesystemStats) :
    List Mount → FilesystemCollector × List FilesystemOutput
  | [] => ({ self with control := .idle }, [.returned (.ok stats)])
  | mount :: rest =>
      match self.stuck mount.mountPoint with
      | some handle =>
          if (self.result handle).isNone then self.proceed stats rest
          else
            ({ self with
                stuck := Function.update self.stuck mount.mountPoint none
                control := .joining ⟨mount, handle, rest, stats⟩ }, [])
      | none =>
          ({ self with
              tasks := self.tasks ++ [⟨mount.mountPoint, none⟩]
              control := .waiting ⟨mount, self.tasks.length, rest, stats⟩
                (self.now + statvfsTimeout) },
            [.spawned self.tasks.length mount])

/-- The call that is on its way goes on with the result of the handle. -/
def resume (self : FilesystemCollector) (c : InCollect) :
    Option (FilesystemCollector × List FilesystemOutput) :=
  (self.result c.handle).map fun result => self.proceed (c.settle result) c.rest

/-- The deadline branch of `usage`. -/
def markStuck (self : FilesystemCollector) (c : InCollect) : FilesystemCollector :=
  { self with stuck := Function.update self.stuck c.mount.mountPoint (some c.handle) }

/-- A blocking task ends. -/
def finish (self : FilesystemCollector) (handle : Nat) (mountPoint : String)
    (answer : Except JoinError (Except IoError StatVfs)) : FilesystemCollector :=
  let task : Task := ⟨mountPoint, some (answer.map (statvfs mountPoint))⟩
  { self with tasks := self.tasks.set handle task }

/-- One step of the collector, from one suspension to the next. A label that the state does
not allow has no step, such as a second `collect` while one is on its way. -/
def step (self : FilesystemCollector) (label : FilesystemLabel) :
    Option (FilesystemCollector × List FilesystemOutput) :=
  match label, self.control with
  | .collect (.error e), .idle =>
      some (self, [.returned (.error (.read "/proc/self/mounts" e))])
  | .collect (.ok content), .idle => some (self.proceed [] (parseMounts content))
  | .finished handle answer, _ =>
      match self.tasks[handle]? with
      | some ⟨mountPoint, none⟩ => some (self.finish handle mountPoint answer, [])
      | _ => none
  | .joined, .joining c => self.resume c
  | .joined, .waiting c _ => self.resume c
  | .elapsed, .waiting c deadline =>
      if deadline ≤ self.now ∧ (self.result c.handle).isNone then
        some ((self.markStuck c).proceed c.stats c.rest)
      else none
  | .cancelled, .joining _ => some ({ self with control := .idle }, [])
  | .cancelled, .waiting _ _ => some ({ self with control := .idle }, [])
  | .advance duration, _ => some ({ self with now := self.now + duration }, [])
  | _, _ => none

/-- `FilesystemCollector::default`, with a runtime that has no blocking task yet. -/
def default (now : Nat) : FilesystemCollector := ⟨fun _ => none, .idle, [], now⟩

/-- The runs of a collector from its construction, at any time. -/
def system : System FilesystemCollector FilesystemLabel FilesystemOutput where
  start self := ∃ now, self = default now
  step := step

/-- How many calls are on their way for a mount point. -/
def outstanding (self : FilesystemCollector) (mountPoint : String) : Nat :=
  self.tasks.countP fun task => task.mountPoint == mountPoint && task.result.isNone

variable {self t : FilesystemCollector} {label : FilesystemLabel}
  {next : FilesystemCollector × List FilesystemOutput}

/-! ### What the steps do -/

/-- The call on its way, with the handle that it awaits. -/
def Awaits (self : FilesystemCollector) (c : InCollect) : Prop :=
  self.control = .joining c ∨ ∃ deadline, self.control = .waiting c deadline

/-- Everything a step can do. -/
inductive Stepped (s : FilesystemCollector) :
    FilesystemLabel → FilesystemCollector × List FilesystemOutput → Prop where
  | unreadable (e : IoError) : s.control = .idle →
      Stepped s (.collect (.error e)) (s, [.returned (.error (.read "/proc/self/mounts" e))])
  | collect (content : String) : s.control = .idle →
      Stepped s (.collect (.ok content)) (s.proceed [] (parseMounts content))
  | finished (handle : Nat) (answer : Except JoinError (Except IoError StatVfs))
      (mountPoint : String) : s.tasks[handle]? = some ⟨mountPoint, none⟩ →
      Stepped s (.finished handle answer) (s.finish handle mountPoint answer, [])
  | joined (c : InCollect) (result : Except JoinError (Except IoError Usage)) :
      s.Awaits c → s.result c.handle = some result →
      Stepped s .joined (s.proceed (c.settle result) c.rest)
  | elapsed (c : InCollect) (deadline : Nat) : s.control = .waiting c deadline →
      deadline ≤ s.now → s.result c.handle = none →
      Stepped s .elapsed ((s.markStuck c).proceed c.stats c.rest)
  | cancelled (c : InCollect) : s.Awaits c →
      Stepped s .cancelled ({ s with control := .idle }, [])
  | advance (duration : Nat) :
      Stepped s (.advance duration) ({ s with now := s.now + duration }, [])

/-- Going on with a handle is a step only once its task has a result. -/
theorem resume_eq_some {c : InCollect} (awaits : self.Awaits c)
    (resumed : self.resume c = some next) : Stepped self .joined next := by
  obtain ⟨result, ready, rfl⟩ := Option.map_eq_some_iff.mp resumed
  exact .joined c result awaits ready

/-- A step is one of these, with what its guard has checked; the proofs about steps go by
these cases. -/
theorem cases_of_step (stepped : self.step label = some next) : Stepped self label next := by
  cases label with
  | collect content =>
      cases content with
      | error e =>
          cases control : self.control with
          | idle =>
              simp only [step, control] at stepped
              exact Option.some.inj stepped ▸ .unreadable e control
          | joining c => simp [step, control] at stepped
          | waiting c deadline => simp [step, control] at stepped
      | ok content =>
          cases control : self.control with
          | idle =>
              simp only [step, control] at stepped
              exact Option.some.inj stepped ▸ .collect content control
          | joining c => simp [step, control] at stepped
          | waiting c deadline => simp [step, control] at stepped
  | finished handle answer =>
      simp only [step] at stepped
      split at stepped
      · rename_i mountPoint running
        exact Option.some.inj stepped ▸ .finished handle answer mountPoint running
      · cases stepped
  | joined =>
      cases control : self.control with
      | idle => simp [step, control] at stepped
      | joining c =>
          simp only [step, control] at stepped
          exact resume_eq_some (Or.inl control) stepped
      | waiting c deadline =>
          simp only [step, control] at stepped
          exact resume_eq_some (Or.inr ⟨deadline, control⟩) stepped
  | elapsed =>
      cases control : self.control with
      | idle => simp [step, control] at stepped
      | joining c => simp [step, control] at stepped
      | waiting c deadline =>
          simp only [step, control] at stepped
          split_ifs at stepped with due
          have running : self.result c.handle = none := Option.isNone_iff_eq_none.mp due.2
          exact Option.some.inj stepped ▸ .elapsed c deadline control due.1 running
  | cancelled =>
      cases control : self.control with
      | idle => simp [step, control] at stepped
      | joining c =>
          simp only [step, control] at stepped
          exact Option.some.inj stepped ▸ .cancelled c (Or.inl control)
      | waiting c deadline =>
          simp only [step, control] at stepped
          exact Option.some.inj stepped ▸ .cancelled c (Or.inr ⟨deadline, control⟩)
  | advance duration =>
      simp only [step] at stepped
      exact Option.some.inj stepped ▸ .advance duration

/-- A call with a readable table begins with its eligible mounts, from an empty sample. -/
theorem step_collect (idle : self.control = .idle) {content : String} {mounts : List Mount}
    (listed : parseMounts content = mounts) :
    system.step self (.collect (.ok content)) = some (self.proceed [] mounts) := by
  show self.step (.collect (.ok content)) = _
  simp only [step, idle, listed]

/-! ### Who knows of an unfinished call -/

/-- Handles stand under the mount point of their task. -/
def Filed (self : FilesystemCollector) : Prop :=
  ∀ mountPoint handle, self.stuck mountPoint = some handle →
    ∃ task, self.tasks[handle]? = some task ∧ task.mountPoint = mountPoint

/-- A task that has not finished yet. -/
def Running (self : FilesystemCollector) (handle : Nat) (mountPoint : String) : Prop :=
  self.tasks[handle]? = some ⟨mountPoint, none⟩

/-- Every unfinished call is kept as stuck. -/
structure Settled (s : FilesystemCollector) : Prop where
  filed : s.Filed
  kept : ∀ handle mountPoint, s.Running handle mountPoint → s.stuck mountPoint = some handle

/-- Every unfinished call is kept as stuck or awaited, and one that is awaited has no
other with its mount point. -/
structure Tracked (s : FilesystemCollector) : Prop where
  filed : s.Filed
  awaited : ∀ c deadline, s.control = .waiting c deadline →
    s.stuck c.mount.mountPoint = none ∧
      ∃ task, s.tasks[c.handle]? = some task ∧ task.mountPoint = c.mount.mountPoint
  kept : ∀ handle mountPoint, s.Running handle mountPoint →
    s.stuck mountPoint = some handle ∨
      ∃ c deadline, s.control = .waiting c deadline ∧ c.handle = handle

/-- A task that has not finished has no result. -/
theorem result_of_running {handle : Nat} {mountPoint : String}
    (running : self.Running handle mountPoint) : self.result handle = none := by
  have task : self.tasks[handle]? = some ⟨mountPoint, none⟩ := running
  rw [result, task]
  rfl

/-- Between two calls none is awaited, so being settled is all there is to keep. -/
theorem Settled.tracked (settled : self.Settled) (idle : self.control = .idle) :
    self.Tracked where
  filed := settled.filed
  awaited := by
    intro c deadline waiting
    cases idle.symm.trans waiting
  kept handle mountPoint running := Or.inl (settled.kept handle mountPoint running)

/-- Between two calls an unfinished one can only be kept as stuck. -/
theorem Tracked.settled_of_idle (tracked : self.Tracked) (idle : self.control = .idle) :
    self.Settled where
  filed := tracked.filed
  kept := by
    intro handle mountPoint running
    rcases tracked.kept handle mountPoint running with stuck | ⟨c, deadline, waiting, -⟩
    · exact stuck
    · cases idle.symm.trans waiting

/-- When the awaited call is finished, every other one is kept as stuck. -/
theorem Tracked.settled_of_finished (tracked : self.Tracked) {c : InCollect}
    (awaits : self.Awaits c)
    (finished : ∀ deadline, self.control = .waiting c deadline → self.result c.handle ≠ none) :
    self.Settled where
  filed := tracked.filed
  kept := by
    intro handle mountPoint running
    rcases tracked.kept handle mountPoint running with stuck | ⟨c', deadline, waiting, rfl⟩
    · exact stuck
    · rcases awaits with joining | ⟨deadline', waiting'⟩
      · cases joining.symm.trans waiting
      · obtain ⟨rfl, -⟩ := CollectControl.waiting.inj (waiting'.symm.trans waiting)
        exact absurd (result_of_running running) (finished _ waiting')

/-- Marking the awaited call as stuck keeps it. -/
theorem Tracked.settled_markStuck (tracked : self.Tracked) {c : InCollect} {deadline : Nat}
    (waiting : self.control = .waiting c deadline) : (self.markStuck c).Settled := by
  obtain ⟨unmarked, filed⟩ := tracked.awaited c deadline waiting
  constructor
  · intro mountPoint handle marked
    by_cases same : mountPoint = c.mount.mountPoint
    · subst same
      obtain rfl : c.handle = handle := by simpa [markStuck] using marked
      exact filed
    · exact tracked.filed mountPoint handle (by simpa [markStuck, same] using marked)
  · intro handle mountPoint running
    rcases tracked.kept handle mountPoint running with stuck | ⟨c', deadline', waiting', rfl⟩
    · have other : mountPoint ≠ c.mount.mountPoint := by
        rintro rfl
        cases unmarked.symm.trans stuck
      simpa [markStuck, other] using stuck
    · obtain ⟨rfl, -⟩ := CollectControl.waiting.inj (waiting.symm.trans waiting')
      obtain ⟨task, found, path⟩ := filed
      obtain rfl : task = ⟨mountPoint, none⟩ := Option.some.inj (found.symm.trans running)
      obtain rfl : mountPoint = c.mount.mountPoint := path
      simp [markStuck]

/-- A new call goes to the end of the tasks. -/
theorem getElem?_spawn {tasks : List Task} {new task : Task} {handle : Nat}
    (found : (tasks ++ [new])[handle]? = some task) :
    tasks[handle]? = some task ∨ handle = tasks.length ∧ task = new := by
  rcases Nat.lt_trichotomy handle tasks.length with before | rfl | after
  · exact Or.inl (by rwa [List.getElem?_append_left before] at found)
  · rw [List.getElem?_concat_length] at found
    exact Or.inr ⟨rfl, (Option.some.inj found).symm⟩
  · have outside : (tasks ++ [new])[handle]? = none := by
      rw [List.getElem?_eq_none_iff, List.length_append, List.length_singleton]
      exact after
    cases outside.symm.trans found

/-- A new task does not change the numbers of the others. -/
theorem getElem?_before {tasks : List Task} {task : Task} {handle : Nat}
    (found : tasks[handle]? = some task) (new : Task) :
    (tasks ++ [new])[handle]? = some task := by
  obtain ⟨before, -⟩ := List.getElem?_eq_some_iff.mp found
  rw [List.getElem?_append_left before, found]

/-- The loop starts a call only where none is stuck, and takes back only a handle whose
call is finished. -/
theorem tracked_proceed (settled : self.Settled) (stats : List FilesystemStats)
    (mounts : List Mount) : (self.proceed stats mounts).1.Tracked := by
  induction mounts with
  | nil => exact Settled.tracked ⟨settled.filed, settled.kept⟩ rfl
  | cons mount rest ih =>
      cases stuck : self.stuck mount.mountPoint with
      | some handle =>
          cases ready : self.result handle with
          | none =>
              simp only [proceed, stuck, ready, Option.isNone_none, if_pos]
              exact ih
          | some result =>
              simp only [proceed, stuck, ready, Option.isNone_some, Bool.false_eq_true, if_false]
              constructor
              · intro mountPoint handle' kept
                by_cases same : mountPoint = mount.mountPoint
                · simp [same] at kept
                · exact settled.filed mountPoint handle' (by simpa [same] using kept)
              · intro c deadline waiting
                cases waiting
              · intro handle' mountPoint running
                have kept := settled.kept handle' mountPoint running
                have other : mountPoint ≠ mount.mountPoint := by
                  rintro rfl
                  obtain rfl := Option.some.inj (stuck.symm.trans kept)
                  cases ready.symm.trans (result_of_running running)
                exact Or.inl (by simpa [other] using kept)
      | none =>
          simp only [proceed, stuck]
          constructor
          · intro mountPoint handle kept
            obtain ⟨task, found, path⟩ := settled.filed mountPoint handle kept
            exact ⟨task, getElem?_before found _, path⟩
          · intro c deadline waiting
            obtain ⟨rfl, -⟩ := CollectControl.waiting.inj waiting
            exact ⟨stuck, _, List.getElem?_concat_length, rfl⟩
          · intro handle mountPoint running
            rcases getElem?_spawn running with before | ⟨rfl, -⟩
            · exact Or.inl (settled.kept handle mountPoint before)
            · exact Or.inr ⟨_, _, rfl, rfl⟩

/-- The end of a task leaves every task under its path, and starts none. -/
theorem tracked_finish (tracked : self.Tracked) {handle : Nat} {mountPoint : String}
    (running : self.Running handle mountPoint)
    (answer : Except JoinError (Except IoError StatVfs)) :
    (self.finish handle mountPoint answer).Tracked := by
  have ended : (self.finish handle mountPoint answer).tasks[handle]? =
      some ⟨mountPoint, some (answer.map (statvfs mountPoint))⟩ := by
    obtain ⟨inside, -⟩ := List.getElem?_eq_some_iff.mp running
    rw [finish, List.getElem?_set_self inside]
  have path : ∀ {h : Nat} {p : String},
      (∃ task, self.tasks[h]? = some task ∧ task.mountPoint = p) →
      ∃ task, (self.finish handle mountPoint answer).tasks[h]? = some task ∧
        task.mountPoint = p := by
    rintro h p ⟨task, found, path⟩
    by_cases same : handle = h
    · subst same
      obtain rfl := Option.some.inj (running.symm.trans found)
      exact ⟨_, ended, path⟩
    · exact ⟨task, by rw [finish, List.getElem?_set_ne same, found], path⟩
  constructor
  · intro p h stuck
    exact path (tracked.filed p h stuck)
  · intro c deadline waiting
    obtain ⟨unmarked, filed⟩ := tracked.awaited c deadline waiting
    exact ⟨unmarked, path filed⟩
  · intro h p still
    have other : handle ≠ h := by
      rintro rfl
      cases ended.symm.trans still
    have before : self.Running h p := by
      have found : (self.finish handle mountPoint answer).tasks[h]? = some ⟨p, none⟩ := still
      rw [finish, List.getElem?_set_ne other] at found
      exact found
    exact tracked.kept h p before

/-- A call is dropped while the `statvfs` call that it awaits is on its way. -/
def DropsUnfinished (self : FilesystemCollector) (label : FilesystemLabel) : Prop :=
  label = .cancelled ∧
    ∃ c deadline, self.control = .waiting c deadline ∧ self.result c.handle = none

/-- A step keeps every unfinished call known, unless it drops the wait for one. The step that
starts a call has looked for its mount point in the map first. -/
theorem tracked_step (tracked : self.Tracked) (keeps : ¬ self.DropsUnfinished label)
    (stepped : self.step label = some next) : next.1.Tracked := by
  cases cases_of_step stepped with
  | unreadable e _ => exact tracked
  | collect content idle => exact tracked_proceed (tracked.settled_of_idle idle) _ _
  | finished handle answer mountPoint running => exact tracked_finish tracked running answer
  | joined c result awaits ready =>
      have settled := tracked.settled_of_finished awaits fun _ _ => by
        rw [ready]
        exact Option.some_ne_none _
      exact tracked_proceed settled _ _
  | elapsed c deadline waiting _ _ =>
      exact tracked_proceed (tracked.settled_markStuck waiting) _ _
  | cancelled c awaits =>
      have settled := tracked.settled_of_finished awaits fun deadline waiting running =>
        keeps ⟨rfl, c, deadline, waiting, running⟩
      exact Settled.tracked ⟨settled.filed, settled.kept⟩ rfl
  | advance duration => exact ⟨tracked.filed, tracked.awaited, tracked.kept⟩

/-! ### At most one call for each mount point -/

/-- Two unfinished calls with one mount point are the same call: both are kept under it, or
one is awaited, and then nothing is kept under it. -/
theorem Tracked.unique (tracked : self.Tracked) {h h' : Nat} {mountPoint : String}
    (running : self.Running h mountPoint) (running' : self.Running h' mountPoint) : h = h' := by
  have alone : ∀ {c : InCollect} {deadline : Nat} {handle : Nat},
      self.control = .waiting c deadline → self.Running c.handle mountPoint →
      self.stuck mountPoint ≠ some handle := by
    intro c deadline handle waiting running stuck
    obtain ⟨unmarked, task, found, path⟩ := tracked.awaited c deadline waiting
    obtain rfl : task = ⟨mountPoint, none⟩ := Option.some.inj (found.symm.trans running)
    rw [← path] at unmarked
    cases unmarked.symm.trans stuck
  rcases tracked.kept h mountPoint running with stuck | ⟨c, deadline, waiting, rfl⟩
  · rcases tracked.kept h' mountPoint running' with stuck' | ⟨c, deadline, waiting, rfl⟩
    · exact Option.some.inj (stuck.symm.trans stuck')
    · exact absurd stuck (alone waiting running')
  · rcases tracked.kept h' mountPoint running' with stuck' | ⟨c', deadline', waiting', rfl⟩
    · exact absurd stuck' (alone waiting running)
    · obtain ⟨rfl, -⟩ := CollectControl.waiting.inj (waiting.symm.trans waiting')
      rfl

/-- What holds at one place of a list only is counted once. -/
theorem countP_le_one {α : Type} {p : α → Bool} {l : List α}
    (unique : ∀ (i j : Nat) (a b : α), l[i]? = some a → l[j]? = some b → p a = true →
      p b = true → i = j) :
    l.countP p ≤ 1 := by
  induction l with
  | nil => exact Nat.zero_le _
  | cons a l ih =>
      have later := ih fun i j b c left right pb pc =>
        Nat.succ.inj (unique (i + 1) (j + 1) b c left right pb pc)
      cases found : p a with
      | false =>
          rw [List.countP_cons_of_neg (by simp [found])]
          exact later
      | true =>
          have none : l.countP p = 0 := by
            rw [List.countP_eq_zero]
            intro b mem pb
            obtain ⟨j, right⟩ := List.mem_iff_getElem?.mp mem
            cases unique 0 (j + 1) a b rfl right found pb
          rw [List.countP_cons_of_pos found, none]

/-- So at most one is counted for a mount point. -/
theorem Tracked.outstanding_le (tracked : self.Tracked) (mountPoint : String) :
    self.outstanding mountPoint ≤ 1 := by
  refine countP_le_one fun h h' task task' found found' running running' => ?_
  have unfinished : ∀ {task : Task},
      (task.mountPoint == mountPoint && task.result.isNone) = true →
      task = ⟨mountPoint, none⟩ := by
    rintro ⟨path, result⟩ running
    obtain ⟨path, result⟩ := Bool.and_eq_true_iff.mp running
    rw [Task.mk.injEq]
    exact ⟨eq_of_beq path, Option.isNone_iff_eq_none.mp result⟩
  rw [unfinished running] at found
  rw [unfinished running'] at found'
  exact tracked.unique found found'

/-- A new collector has no task. -/
theorem tracked_start (started : system.start self) : self.Tracked := by
  obtain ⟨now, rfl⟩ := started
  constructor
  · intro mountPoint handle stuck
    cases stuck
  · intro c deadline waiting
    cases waiting
  · intro handle mountPoint running
    cases running

/-- In a run that never drops a call while the `statvfs` call that it awaits is on its way,
there is at most one such call for each mount point, in whatever way the mount tables
change and the answers come. -/
theorem one_call_per_mount (started : system.start self) {labels : List FilesystemLabel}
    (keeps : system.Meets (fun s label => ¬ s.DropsUnfinished label) self labels)
    {outs : List FilesystemOutput} (ran : system.run self labels = some (t, outs))
    (mountPoint : String) : t.outstanding mountPoint ≤ 1 := by
  have step : ∀ s label u out, s.Tracked → ¬ s.DropsUnfinished label →
      system.step s label = some (u, out) → u.Tracked ∧ ∀ x ∈ out, True := by
    intro s label u out tracked keeps stepped
    exact ⟨tracked_step tracked keeps stepped, fun _ _ => trivial⟩
  have tracked := (System.run_invariant step (tracked_start started) keeps ran).1
  exact tracked.outstanding_le mountPoint

/-- Calls that all run to their end drop nothing. -/
theorem meets_of_uncancelled {labels : List FilesystemLabel} (uncancelled : .cancelled ∉ labels) :
    system.Meets (fun s label => ¬ s.DropsUnfinished label) self labels := by
  induction labels generalizing self with
  | nil => trivial
  | cons label labels ih =>
      obtain ⟨other, later⟩ := not_or.mp (mt List.mem_cons.mpr uncancelled)
      exact ⟨fun drops => other drops.1.symm, fun t out stepped => ih later⟩

/-- Six mounts, none of which answers. -/
def hungTable : String :=
  "/dev/sda1 /a ext4 rw 0 0\n/dev/sdb1 /b ext4 rw 0 0\n/dev/sdc1 /c ext4 rw 0 0\n" ++
    "/dev/sdd1 /d ext4 rw 0 0\n/dev/sde1 /e ext4 rw 0 0\n/dev/sdf1 /f ext4 rw 0 0\n"

/-- The mounts that the table lists, in its order. -/
def hungMounts : List Mount :=
  [⟨"/dev/sda1", "/a", "ext4"⟩, ⟨"/dev/sdb1", "/b", "ext4"⟩, ⟨"/dev/sdc1", "/c", "ext4"⟩,
    ⟨"/dev/sdd1", "/d", "ext4"⟩, ⟨"/dev/sde1", "/e", "ext4"⟩, ⟨"/dev/sdf1", "/f", "ext4"⟩]

/-- They are all kept by the filter. -/
theorem parseMounts_hungTable : parseMounts hungTable = hungMounts := by decide +kernel

/-- A deadline that passes. -/
def missed : List FilesystemLabel := [.advance statvfsTimeout, .elapsed]

/-- Five deadlines in turn take up all the time of a call. -/
def missedFive : List FilesystemLabel := missed ++ missed ++ missed ++ missed ++ missed

/-- Five calls in a row run into their deadlines and the sixth is still awaited: each mount
has one. -/
theorem one_call_per_mount_hung :
    ∃ t outs, system.run (default 0) (.collect (.ok hungTable) :: missedFive) = some (t, outs) ∧
      t.outstanding "/f" = 1 ∧ ∀ mountPoint, t.outstanding mountPoint ≤ 1 := by
  have first : system.step (default 0) (.collect (.ok hungTable)) = _ :=
    step_collect rfl parseMounts_hungTable
  have ran : system.run (default 0) (.collect (.ok hungTable) :: missedFive) = some (_, _) :=
    System.run_of_step first rfl
  have uncancelled : .cancelled ∉ .collect (.ok hungTable) :: missedFive := by
    simp [missedFive, missed]
  exact ⟨_, _, ran, rfl, one_call_per_mount ⟨0, rfl⟩ (meets_of_uncancelled uncancelled) ran⟩

/-! ### A dropped call -/

/-- Once an unfinished call is dropped, the next table that begins with its mount point
starts a second one. -/
theorem doubled_of_drop (tracked : self.Tracked) {c : InCollect} {deadline : Nat}
    (waiting : self.control = .waiting c deadline) (running : self.result c.handle = none)
    {content : String} {mount : Mount} {rest : List Mount}
    (listed : parseMounts content = mount :: rest)
    (again : mount.mountPoint = c.mount.mountPoint) :
    ∃ t outs, system.run self [.cancelled, .collect (.ok content)] = some (t, outs) ∧
      2 ≤ t.outstanding c.mount.mountPoint := by
  obtain ⟨unmarked, task, found, path⟩ := tracked.awaited c deadline waiting
  have unfinished : task.result = none := by
    rw [result, found] at running
    exact running
  have dropped : system.step self .cancelled = some ({ self with control := .idle }, []) := by
    show self.step .cancelled = _
    simp only [step, waiting]
  let idle : FilesystemCollector := { self with control := .idle }
  have called : system.step idle (.collect (.ok content)) = _ := step_collect rfl listed
  have unmarked : idle.stuck mount.mountPoint = none := by
    rw [again]
    exact unmarked
  simp only [proceed, unmarked] at called
  refine ⟨_, _, System.run_of_step dropped (System.run_of_step called rfl), ?_⟩
  have before : 0 < self.outstanding c.mount.mountPoint := by
    rw [outstanding, List.countP_pos_iff]
    exact ⟨task, List.mem_of_getElem? found, by simp [path, unfinished]⟩
  have new : [(⟨mount.mountPoint, none⟩ : Task)].countP
      (fun task => task.mountPoint == c.mount.mountPoint && task.result.isNone) = 1 := by
    simp [again]
  rw [outstanding, List.countP_append, new]
  exact Nat.succ_le_succ before

/-- The scheduler drops the call when it has come to the sixth mount, and in the next cycle
that one gets a second blocking thread. -/
theorem hungTable_doubles :
    ∃ s outs, system.run (default 0) (.collect (.ok hungTable) :: missedFive) = some (s, outs) ∧
      s.now = collectTimeout ∧
      ∃ t outs', system.run s [.cancelled, .collect (.ok hungTable)] = some (t, outs') ∧
        t.outstanding "/f" = 2 ∧ ¬ ∀ mountPoint, t.outstanding mountPoint ≤ 1 := by
  have first : system.step (default 0) (.collect (.ok hungTable)) = _ :=
    step_collect rfl parseMounts_hungTable
  refine ⟨_, _, System.run_of_step first rfl, rfl, ?_⟩
  refine ⟨_, _, System.run_of_step rfl
    (System.run_of_step (step_collect rfl parseMounts_hungTable) rfl), rfl, fun one => ?_⟩
  cases one "/f" with
  | step le => cases le

end FilesystemCollector

end BlazeBee.Collectors
