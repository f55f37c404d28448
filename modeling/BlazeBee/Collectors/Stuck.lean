import BlazeBee.Collectors.Filesystem
import BlazeBee.Collectors.MountPoints

/-!
What a call of the filesystem collector leaves for the next one.

The map of stuck calls outlives the table that it was filled from. An entry is only looked
at when its path is listed, and it says nothing of the filesystem that was measured.

* `proceeded`: everything that the loop of `collect` can do.
* `listed_after_calls_iff`: when the map holds nothing but paths of the last table.
* `reported_started`: when every record is of the mount that was measured.
-/

namespace BlazeBee.Collectors

open BlazeBee.Lib BlazeBee.Rumqttc BlazeBee.Agent

/-- A path that some line of the table is for. -/
def InTable (content path : String) : Prop :=
  ∃ line ∈ Text.lines content.toList, tablePoint line = some path

/-- A mount that `collect` visits is listed in the table that it was read from. -/
theorem inTable_of_mem {content : String} {m : Mount} (mem : m ∈ parseMounts content) :
    InTable content m.mountPoint := by
  obtain ⟨line, inside, read⟩ := List.mem_filterMap.mp (mem_eligibleMounts mem)
  exact ⟨line, inside, tablePoint_of_parseLine read⟩

/-- The record of a mount. -/
def Mount.record (mount : Mount) (u : Usage) : FilesystemStats :=
  ⟨mount.device, mount.mountPoint, mount.fsType, u.totalBytes, u.usedBytes, u.availableBytes,
    u.totalInodes, u.usedInodes, u.availableInodes⟩

/-- What the collector has read, with the last readable table. -/
def tableAfter (last : Option String) : FilesystemLabel → Option String
  | .collect (.ok content) => some content
  | _ => last

/-- The last readable table of a run, if there was one. -/
def tableRead (labels : List FilesystemLabel) : Option String := labels.foldl tableAfter none

/-- A label either reads a table or leaves the last one. -/
theorem reads_or_keeps (label : FilesystemLabel) :
    (∃ content, label = .collect (.ok content)) ∨
      (∀ content, label ≠ .collect (.ok content)) ∧ ∀ last, tableAfter last label = last := by
  cases label with
  | collect result =>
      cases result with
      | ok content => exact Or.inl ⟨content, rfl⟩
      | error e => exact Or.inr ⟨nofun, fun _ => rfl⟩
  | finished handle answer => exact Or.inr ⟨nofun, fun _ => rfl⟩
  | joined => exact Or.inr ⟨nofun, fun _ => rfl⟩
  | elapsed => exact Or.inr ⟨nofun, fun _ => rfl⟩
  | cancelled => exact Or.inr ⟨nofun, fun _ => rfl⟩
  | advance duration => exact Or.inr ⟨nofun, fun _ => rfl⟩

/-- The last table is followed label by label. -/
theorem tableRead_concat (labels : List FilesystemLabel) (label : FilesystemLabel) :
    tableRead (labels ++ [label]) = tableAfter (tableRead labels) label := by
  simp [tableRead]

namespace FilesystemCollector

variable {self s t : FilesystemCollector} {label : FilesystemLabel}
  {next : FilesystemCollector × List FilesystemOutput} {labels : List FilesystemLabel}
  {outs : List FilesystemOutput}

/-- `collect` is called only when no call is on its way, as it takes the collector by `&mut
self`. -/
theorem idle_of_collect {result : Except IoError String}
    (stepped : self.step (.collect result) = some next) : self.control = .idle := by
  cases cases_of_step stepped with
  | unreadable _ idle => exact idle
  | collect _ idle => exact idle

/-! ### The loop -/

/-- Everything the loop can do: it ends, it takes up a stuck call that has returned, or it
starts a call. -/
inductive Proceeded (s : FilesystemCollector) (stats : List FilesystemStats)
    (mounts : List Mount) : FilesystemCollector × List FilesystemOutput → Prop where
  | ended : Proceeded s stats mounts ({ s with control := .idle }, [.returned (.ok stats)])
  | taken (passed : List Mount) (mount : Mount) (rest : List Mount) (handle : Nat) :
      mounts = passed ++ mount :: rest → s.stuck mount.mountPoint = some handle →
      Proceeded s stats mounts
        ({ s with
            stuck := Function.update s.stuck mount.mountPoint none
            control := .joining ⟨mount, handle, rest, stats⟩ }, [])
  | spawned (passed : List Mount) (mount : Mount) (rest : List Mount) :
      mounts = passed ++ mount :: rest → s.stuck mount.mountPoint = none →
      Proceeded s stats mounts
        ({ s with
            tasks := s.tasks ++ [⟨mount.mountPoint, none⟩]
            control := .waiting ⟨mount, s.tasks.length, rest, stats⟩ (s.now + statvfsTimeout) },
          [.spawned s.tasks.length mount])

/-- The loop passes over stuck mounts until one of the three happens; what it passes over is
left as it is. -/
theorem proceeded (s : FilesystemCollector) (stats : List FilesystemStats)
    (mounts : List Mount) : Proceeded s stats mounts (s.proceed stats mounts) := by
  induction mounts with
  | nil => exact .ended
  | cons mount rest ih =>
      cases stuck : s.stuck mount.mountPoint with
      | none =>
          simp only [proceed, stuck]
          exact .spawned [] mount rest rfl stuck
      | some handle =>
          cases ready : s.result handle with
          | some result =>
              simp only [proceed, stuck, ready, Option.isNone_some, Bool.false_eq_true, if_false]
              exact .taken [] mount rest handle rfl stuck
          | none =>
              simp only [proceed, stuck, ready, Option.isNone_none, if_pos]
              -- The mount is passed over, and the loop goes on behind it.
              generalize s.proceed stats rest = next at ih ⊢
              cases ih with
              | ended => exact .ended
              | taken passed mount' rest' handle' split stuck' =>
                  exact .taken (mount :: passed) mount' rest' handle'
                    (congrArg (mount :: ·) split) stuck'
              | spawned passed mount' rest' split free =>
                  exact .spawned (mount :: passed) mount' rest'
                    (congrArg (mount :: ·) split) free

/-- What holds of every mount that the call on its way has still to look at. -/
def Visits (self : FilesystemCollector) (P : Mount → Prop) : Prop :=
  ∀ c, self.Awaits c → P c.mount ∧ ∀ m ∈ c.rest, P m

/-- Without a call on its way there is nothing to visit. -/
theorem visits_of_idle {P : Mount → Prop} (idle : self.control = .idle) : self.Visits P := by
  rintro c (joining | ⟨deadline, waiting⟩)
  · cases idle.symm.trans joining
  · cases idle.symm.trans waiting

/-- Where the loop suspends, the mount it waits for and those behind it are among the ones it
was given. -/
theorem visits_proceed {P : Mount → Prop} {mounts : List Mount} (all : ∀ m ∈ mounts, P m)
    (stats : List FilesystemStats) : (s.proceed stats mounts).1.Visits P := by
  have here : ∀ {passed rest : List Mount} {mount : Mount}, mounts = passed ++ mount :: rest →
      P mount ∧ ∀ m ∈ rest, P m := by
    rintro passed rest mount rfl
    exact List.forall_mem_cons.mp (List.forall_mem_append.mp all).2
  have did := proceeded s stats mounts
  generalize s.proceed stats mounts = next at did ⊢
  cases did with
  | ended => exact visits_of_idle rfl
  | taken passed mount rest handle split _ =>
      rintro c (joining | ⟨deadline, waiting⟩)
      · obtain rfl := CollectControl.joining.inj joining
        exact here split
      · cases waiting
  | spawned passed mount rest split _ =>
      rintro c (joining | ⟨deadline, waiting⟩)
      · cases joining
      · obtain ⟨rfl, -⟩ := CollectControl.waiting.inj waiting
        exact here split

/-- A call looks at the mounts of the table that it has read, and at no others. -/
theorem visits_step {P : Mount → Prop} (visits : self.Visits P)
    (read : ∀ content, label = .collect (.ok content) → ∀ m ∈ parseMounts content, P m)
    (stepped : self.step label = some next) : next.1.Visits P := by
  cases cases_of_step stepped with
  | unreadable e _ => exact visits
  | collect content _ => exact visits_proceed (read content rfl) _
  | finished handle answer mountPoint _ => exact visits
  | joined c result awaits _ => exact visits_proceed (visits c awaits).2 _
  | elapsed c deadline waiting _ _ =>
      exact visits_proceed (visits c (Or.inr ⟨deadline, waiting⟩)).2 _
  | cancelled c _ => exact visits_of_idle rfl
  | advance duration => exact visits

/-! ### The keys of the map -/

/-- The loop adds no key. -/
theorem stuck_of_proceed {stats : List FilesystemStats} {mounts : List Mount} {path : String}
    (kept : (s.proceed stats mounts).1.stuck path ≠ none) : s.stuck path ≠ none := by
  have did := proceeded s stats mounts
  generalize s.proceed stats mounts = next at did kept
  cases did with
  | ended => exact kept
  | taken passed mount rest handle _ _ =>
      by_cases same : path = mount.mountPoint
      · simp [same] at kept
      · simpa [same] using kept
  | spawned passed mount rest _ _ => exact kept

/-- The loop leaves the keys alone that it does not look at. -/
theorem stuck_proceed_of_ne {mounts : List Mount} {path : String}
    (other : ∀ m ∈ mounts, m.mountPoint ≠ path) (stats : List FilesystemStats) :
    (s.proceed stats mounts).1.stuck path = s.stuck path := by
  have did := proceeded s stats mounts
  generalize s.proceed stats mounts = next at did ⊢
  cases did with
  | ended => rfl
  | taken passed mount rest handle split _ =>
      have ne : path ≠ mount.mountPoint :=
        (other mount (split ▸ List.mem_append_right _ List.mem_cons_self)).symm
      exact Function.update_of_ne ne _ _
  | spawned passed mount rest _ _ => rfl

/-- A new key is the path of the mount that the call on its way awaits. -/
theorem stuck_of_step {path : String} (stepped : self.step label = some next)
    (kept : next.1.stuck path ≠ none) :
    self.stuck path ≠ none ∨ ∃ c, self.Awaits c ∧ c.mount.mountPoint = path := by
  cases cases_of_step stepped with
  | unreadable e _ => exact Or.inl kept
  | collect content _ => exact Or.inl (stuck_of_proceed kept)
  | finished handle answer mountPoint _ => exact Or.inl kept
  | joined c result _ _ => exact Or.inl (stuck_of_proceed kept)
  | elapsed c deadline waiting _ _ =>
      have marked := stuck_of_proceed kept
      by_cases same : path = c.mount.mountPoint
      · exact Or.inr ⟨c, Or.inr ⟨deadline, waiting⟩, same.symm⟩
      · exact Or.inl (by simpa [markStuck, same] using marked)
  | cancelled c _ => exact Or.inl kept
  | advance duration => exact Or.inl kept

/-- A key that no call looks at stays. -/
theorem stuck_step_of_ne {path : String} (visits : self.Visits fun m => m.mountPoint ≠ path)
    (read : ∀ content, label = .collect (.ok content) →
      ∀ m ∈ parseMounts content, m.mountPoint ≠ path)
    (stepped : self.step label = some next) : next.1.stuck path = self.stuck path := by
  cases cases_of_step stepped with
  | unreadable e _ => rfl
  | collect content _ => exact stuck_proceed_of_ne (read content rfl) _
  | finished handle answer mountPoint _ => rfl
  | joined c result awaits _ => exact stuck_proceed_of_ne (visits c awaits).2 _
  | elapsed c deadline waiting _ _ =>
      obtain ⟨here, later⟩ := visits c (Or.inr ⟨deadline, waiting⟩)
      rw [stuck_proceed_of_ne later]
      exact Function.update_of_ne here.symm _ _
  | cancelled c _ => rfl
  | advance duration => rfl

/-- Every key is a path of the table. -/
def KeysIn (self : FilesystemCollector) (content : String) : Prop :=
  ∀ path, self.stuck path ≠ none → InTable content path

/-- Whenever no call is on its way, every key is a path of the last table. -/
def ListedAfterCalls (self : FilesystemCollector) (labels : List FilesystemLabel) : Prop :=
  ∀ before, before <+: labels → ∀ s outs, system.run self before = some (s, outs) →
    s.control = .idle → ∀ content, tableRead before = some content → s.KeysIn content

/-- Every call reads a table that has a line for each key it finds. -/
def ListsKeys (self : FilesystemCollector) (labels : List FilesystemLabel) : Prop :=
  ∀ before content, before ++ [.collect (.ok content)] <+: labels →
    ∀ s outs, system.run self before = some (s, outs) → s.KeysIn content

/-- With `last` read, the keys and the mounts still to be looked at are of that table. -/
structure OfLast (last : Option String) (s : FilesystemCollector) : Prop where
  keys : ∀ content, last = some content → s.KeysIn content
  visits : s.Visits fun m => ∃ content, last = some content ∧ InTable content m.mountPoint

/-- A step keeps the keys within the last table. A new table has to list the keys that are
there, and the loop adds only paths of its own table. -/
theorem ofLast_step {last : Option String} (inv : OfLast last self)
    (lists : ∀ content, label = .collect (.ok content) → self.KeysIn content)
    (stepped : self.step label = some next) : OfLast (tableAfter last label) next.1 := by
  rcases reads_or_keeps label with ⟨content, rfl⟩ | ⟨other, same⟩
  · cases cases_of_step stepped with
    | collect _ _ =>
        constructor
        · intro content' same path kept
          obtain rfl : content = content' := Option.some.inj same
          exact lists content rfl path (stuck_of_proceed kept)
        · exact visits_proceed (fun m mem => ⟨content, rfl, inTable_of_mem mem⟩) _
  · rw [same]
    constructor
    · rintro content rfl path kept
      rcases stuck_of_step stepped kept with before | ⟨c, awaits, rfl⟩
      · exact inv.keys content rfl path before
      · obtain ⟨⟨content', same', listed⟩, -⟩ := inv.visits c awaits
        obtain rfl := Option.some.inj same'
        exact listed
    · exact visits_step inv.visits (fun content reads => absurd reads (other content)) stepped

/-- From the step to the run: if each table lists the keys that it finds, the keys are always
within the last table. -/
theorem ofLast_run (idle : self.control = .idle) (lists : self.ListsKeys labels)
    (ran : system.run self labels = some (t, outs)) :
    OfLast (tableRead labels) t := by
  have related : system.run self labels = some (t, outs) ∧
      (self.ListsKeys labels → OfLast (tableRead labels) t) := by
    refine System.run_trace (R := fun labels outs t =>
      system.run self labels = some (t, outs) ∧
        (self.ListsKeys labels → OfLast (tableRead labels) t)) ?_ ⟨rfl, fun _ => ?_⟩ ran
    · rintro before earlier s label t out ⟨so, inv⟩ stepped
      refine ⟨System.run_snoc so stepped, fun lists => ?_⟩
      have kept : OfLast (tableRead before) s := inv fun earlier' content le =>
        lists earlier' content (le.trans (List.prefix_append _ _))
      rw [tableRead_concat]
      refine ofLast_step kept (fun content reads => ?_) stepped
      exact lists before content (by rw [reads]) s earlier so
    · refine ⟨fun content none => ?_, visits_of_idle idle⟩
      cases none
  exact related.2 lists

/-! ### A key whose path has gone -/

/-- A call that looks at no mount with the path comes to its end with the key as it was. -/
theorem exists_idle {path : String} (visits : self.Visits fun m => m.mountPoint ≠ path)
    (uncancelled : .cancelled ∉ labels) (ran : system.run self labels = some (t, outs))
    (returned : t.control = .idle) :
    ∃ before, before <+: labels ∧ (∀ last, before.foldl tableAfter last = last) ∧
      ∃ s out, system.run self before = some (s, out) ∧ s.control = .idle ∧
        s.stuck path = self.stuck path := by
  induction labels generalizing self outs with
  | nil =>
      obtain ⟨rfl, -⟩ : self = t ∧ ([] : List FilesystemOutput) = outs := by
        simpa [System.run] using ran
      exact ⟨[], List.prefix_rfl, fun _ => rfl, self, [], rfl, returned, rfl⟩
  | cons label labels ih =>
      by_cases idle : self.control = .idle
      · exact ⟨[], List.nil_prefix, fun _ => rfl, self, [], rfl, idle, rfl⟩
      · obtain ⟨u, out, rest, stepped, tail, rfl⟩ := System.run_cons ran
        obtain ⟨other, later⟩ := not_or.mp (mt List.mem_cons.mpr uncancelled)
        -- No call can begin before this one has come to its end.
        have busy : ∀ content, label ≠ .collect (.ok content) := by
          rintro content rfl
          exact idle (idle_of_collect stepped)
        have same : ∀ last, tableAfter last label = last := by
          rcases reads_or_keeps label with ⟨content, reads⟩ | ⟨-, same⟩
          · exact absurd reads (busy content)
          · exact same
        have next := visits_step visits (fun content reads => absurd reads (busy content)) stepped
        have kept := stuck_step_of_ne visits
          (fun content reads => absurd reads (busy content)) stepped
        obtain ⟨before, le, keeps, s, out', first, free, stays⟩ := ih next later tail
        refine ⟨label :: before, List.cons_prefix_cons.mpr ⟨rfl, le⟩, fun last => ?_, s, _,
          System.run_of_step stepped first, free, stays.trans kept⟩
        rw [List.foldl_cons, same, keeps]

/-- The other direction: if the keys are within the last table after every call, then each
table listed the keys it found, since the loop removes no key but the one it takes up. -/
theorem listsKeys_of_listed (listed : self.ListedAfterCalls labels)
    (uncancelled : .cancelled ∉ labels) (ran : system.run self labels = some (t, outs))
    (returned : t.control = .idle) : self.ListsKeys labels := by
  rintro before content ⟨after, rfl⟩ s earlier so path kept
  by_contra gone
  have other : ∀ m ∈ parseMounts content, m.mountPoint ≠ path := by
    rintro m mem rfl
    exact gone (inTable_of_mem mem)
  obtain ⟨u, out, rest, first, tail, rfl⟩ := System.run_split ran
  obtain ⟨s', _, _, so', stepped, rfl⟩ := System.run_concat first
  obtain ⟨rfl, rfl⟩ := Prod.mk.inj (Option.some.inj (so.symm.trans so'))
  have free : s.Visits fun m => m.mountPoint ≠ path :=
    visits_of_idle (idle_of_collect stepped)
  have reads : ∀ content', FilesystemLabel.collect (.ok content) = .collect (.ok content') →
      ∀ m ∈ parseMounts content', m.mountPoint ≠ path := by
    rintro content' same
    cases same
    exact other
  -- The call comes to its end, and the key is still there.
  obtain ⟨during, le, keeps, v, out', called, idle, stays⟩ :=
    exists_idle (visits_step free reads stepped)
      (fun mem => uncancelled (List.mem_append_right _ mem)) tail returned
  have read : tableRead ((before ++ [.collect (.ok content)]) ++ during) = some content := by
    rw [tableRead, List.foldl_append, keeps]
    exact tableRead_concat _ _
  refine gone (listed _ ((List.prefix_append_right_inj _).mpr le) v _
    (System.run_append first called) idle content read path ?_)
  rw [stays, stuck_step_of_ne free reads stepped]
  exact kept

/-- In a run of calls that are all completed, the keys are paths of the last table after
every call exactly when each call reads a table that has all the keys it finds. -/
theorem listed_after_calls_iff (started : system.start self) (uncancelled : .cancelled ∉ labels)
    (ran : system.run self labels = some (t, outs)) (returned : t.control = .idle) :
    self.ListedAfterCalls labels ↔ self.ListsKeys labels := by
  constructor
  · intro listed
    exact listsKeys_of_listed listed uncancelled ran returned
  · intro lists before le s earlier so idle content read
    obtain ⟨now, rfl⟩ := started
    have part : (default now).ListsKeys before := fun earlier content le' =>
      lists earlier content (le'.trans le)
    exact (ofLast_run rfl part so).keys content read

/-- One disk. -/
def diskTable : String := "/dev/sda1 /mnt ext4 rw 0 0
"

/-- The table lists one mount. -/
theorem parseMounts_diskTable : parseMounts diskTable = [⟨"/dev/sda1", "/mnt", "ext4"⟩] := by
  decide +kernel

/-- The disk does not answer in time. -/
def hungDisk : List FilesystemLabel := .collect (.ok diskTable) :: missed

/-- What is left then, with the result of the call, if it is finished. -/
def stuckDisk (result : Option (Except JoinError (Except IoError Usage))) :
    FilesystemCollector :=
  ⟨Function.update (fun _ => none) "/mnt" (some 0), .idle, [⟨"/mnt", result⟩], statvfsTimeout⟩

/-- The disk answers after the call, and another table is read. -/
def answeredLate (answer : StatVfs) (content : String) : List FilesystemLabel :=
  hungDisk ++ [.finished 0 (.ok (.ok answer)), .collect (.ok content)]

/-- The call of that mount runs into its deadline, so the sample is empty and the handle is
kept. -/
theorem run_hungDisk :
    system.run (default 0) hungDisk =
      some (stuckDisk none, [.spawned 0 ⟨"/dev/sda1", "/mnt", "ext4"⟩, .returned (.ok [])]) := by
  have first : system.step (default 0) (.collect (.ok diskTable)) = _ :=
    step_collect rfl parseMounts_diskTable
  exact System.run_of_step first rfl

/-- The call returns between two samples, and the next `collect` goes on from there, whatever
its table lists. -/
theorem run_answeredLate (answer : StatVfs) {content : String} {mounts : List Mount}
    (listed : parseMounts content = mounts)
    (proceeds : (stuckDisk (some (.ok (statvfs "/mnt" (.ok answer))))).proceed [] mounts =
      (t, outs)) :
    system.run (default 0) (answeredLate answer content) =
      some (t, .spawned 0 ⟨"/dev/sda1", "/mnt", "ext4"⟩ :: .returned (.ok []) :: outs) := by
  have ended : system.step (stuckDisk none) (.finished 0 (.ok (.ok answer))) =
      some (stuckDisk (some (.ok (statvfs "/mnt" (.ok answer)))), []) := rfl
  have called : system.step (stuckDisk (some (.ok (statvfs "/mnt" (.ok answer)))))
      (.collect (.ok content)) = some (t, outs) :=
    (step_collect rfl listed).trans (by rw [proceeds])
  have late : system.run (stuckDisk none) [.finished 0 (.ok (.ok answer)), .collect (.ok content)] =
      some (t, outs) := by simp [System.run, ended, called]
  exact System.run_append run_hungDisk late

/-- A filesystem without anything on it. -/
def emptyDisk : StatVfs := ⟨1, 0, 0, 0, 0, 0, 0⟩

/-- The mount is gone from the second table, so its key is left behind. -/
theorem listed_after_calls_iff_disk :
    (default 0).ListedAfterCalls (answeredLate emptyDisk "") ↔
      (default 0).ListsKeys (answeredLate emptyDisk "") :=
  listed_after_calls_iff ⟨0, rfl⟩ (by simp [answeredLate, hungDisk, missed])
    (run_answeredLate emptyDisk rfl rfl) rfl

/-- No call is outstanding and no mount is listed, and the key is still there. -/
theorem answeredLate_kept :
    ∃ t outs, system.run (default 0) (answeredLate emptyDisk "") = some (t, outs) ∧
      t.control = .idle ∧ t.outstanding "/mnt" = 0 ∧ t.stuck "/mnt" ≠ none ∧
      ¬ (default 0).ListedAfterCalls (answeredLate emptyDisk "") := by
  have none : parseMounts "" = [] := rfl
  have ran := run_answeredLate emptyDisk none rfl
  refine ⟨_, _, ran, rfl, rfl, nofun, fun listed => ?_⟩
  obtain ⟨line, mem, -⟩ := listed _ List.prefix_rfl _ _ ran rfl "" rfl "/mnt" nofun
  cases mem

/-! ### What a record is made of -/

/-- The `statvfs` call behind the handle was started for the mount, by a call of `collect`
whose table has it. -/
def StartedFor (self : FilesystemCollector) (labels : List FilesystemLabel) (handle : Nat)
    (mount : Mount) : Prop :=
  ∃ before label s earlier next content, before ++ [label] <+: labels ∧
    system.run self before = some (s, earlier) ∧ s.step label = some next ∧
    .spawned handle mount ∈ next.2 ∧ tableRead (before ++ [label]) = some content ∧
    mount ∈ parseMounts content

/-- The record of a mount, from an answer to a `statvfs` call that was started for it. -/
def Measured (self : FilesystemCollector) (labels : List FilesystemLabel)
    (r : FilesystemStats) : Prop :=
  ∃ handle mount answer u, self.StartedFor labels handle mount ∧
    .finished handle (.ok answer) ∈ labels ∧ statvfs mount.mountPoint answer = .ok u ∧
    r = mount.record u

/-- What a handle was started for does not change in a longer run. -/
theorem StartedFor.snoc {handle : Nat} {mount : Mount}
    (started : self.StartedFor labels handle mount) (label : FilesystemLabel) :
    self.StartedFor (labels ++ [label]) handle mount := by
  obtain ⟨before, own, s, earlier, next, content, le, rest⟩ := started
  exact ⟨before, own, s, earlier, next, content, le.trans (List.prefix_append _ _), rest⟩

/-- What was measured stays measured in a longer run. -/
theorem Measured.snoc {r : FilesystemStats} (measured : self.Measured labels r)
    (label : FilesystemLabel) : self.Measured (labels ++ [label]) r := by
  obtain ⟨handle, mount, answer, u, started, answered, rest⟩ := measured
  exact ⟨handle, mount, answer, u, started.snoc label, List.mem_append_left _ answered, rest⟩

/-- What the trace so far has to do with the state. -/
structure Recorded (first : FilesystemCollector) (labels : List FilesystemLabel)
    (outs : List FilesystemOutput) (s : FilesystemCollector) : Prop where
  visits : s.Visits fun m =>
    ∃ content, tableRead labels = some content ∧ m ∈ parseMounts content
  started : ∀ handle mount, .spawned handle mount ∈ outs → first.StartedFor labels handle mount ∧
    ∃ task, s.tasks[handle]? = some task ∧ task.mountPoint = mount.mountPoint
  answered : ∀ handle mountPoint u, s.tasks[handle]? = some ⟨mountPoint, some (.ok (.ok u))⟩ →
    ∃ answer, .finished handle (.ok answer) ∈ labels ∧ statvfs mountPoint answer = .ok u
  awaited : ∀ c deadline, s.control = .waiting c deadline → .spawned c.handle c.mount ∈ outs
  sampled : ∀ c, s.Awaits c → ∀ r ∈ c.stats, first.Measured labels r
  returned : ∀ stats, .returned (.ok stats) ∈ outs → ∀ r ∈ stats, first.Measured labels r

/-- The answer that a finished call has given. -/
theorem Recorded.measured (recorded : Recorded self labels outs s) {handle : Nat}
    {mount : Mount} {u : Usage} (spawned : .spawned handle mount ∈ outs)
    (ready : s.result handle = some (.ok (.ok u))) : self.Measured labels (mount.record u) := by
  obtain ⟨started, ⟨path, outcome⟩, found, rfl⟩ := recorded.started handle mount spawned
  obtain rfl : outcome = some (.ok (.ok u)) := by
    rw [result, found] at ready
    exact ready
  obtain ⟨answer, finished, measured⟩ := recorded.answered handle _ u found
  exact ⟨handle, mount, answer, u, started, finished, measured, rfl⟩

/-- An answer that was given stays given. -/
theorem Recorded.answered_snoc (recorded : Recorded self labels outs s) (label : FilesystemLabel)
    (handle : Nat) (mountPoint : String) (u : Usage)
    (found : s.tasks[handle]? = some ⟨mountPoint, some (.ok (.ok u))⟩) :
    ∃ answer, .finished handle (.ok answer) ∈ labels ++ [label] ∧
      statvfs mountPoint answer = .ok u := by
  obtain ⟨answer, finished, usage⟩ := recorded.answered handle mountPoint u found
  exact ⟨answer, List.mem_append_left _ finished, usage⟩

/-- What has been returned stays accounted for in a longer run. -/
theorem Recorded.returned_snoc (recorded : Recorded self labels outs s) (label : FilesystemLabel)
    (stats : List FilesystemStats) (mem : .returned (.ok stats) ∈ outs) :
    ∀ r ∈ stats, self.Measured (labels ++ [label]) r :=
  fun r inside => (recorded.returned stats mem r inside).snoc label

/-- A step that only looks at the table it has keeps the trace recorded. -/
theorem Recorded.proceed (recorded : Recorded self labels outs s)
    (so : system.run self labels = some (s, outs)) {s' : FilesystemCollector}
    (tasks : s'.tasks = s.tasks) {stats : List FilesystemStats} {mounts : List Mount}
    (stepped : s.step label = some (s'.proceed stats mounts))
    (listed : ∀ m ∈ mounts,
      ∃ content, tableRead (labels ++ [label]) = some content ∧ m ∈ parseMounts content)
    (measured : ∀ r ∈ stats, self.Measured (labels ++ [label]) r) :
    Recorded self (labels ++ [label]) (outs ++ (s'.proceed stats mounts).2)
      (s'.proceed stats mounts).1 := by
  have visits := visits_proceed (s := s') listed stats
  have did := proceeded s' stats mounts
  generalize s'.proceed stats mounts = next at did stepped visits ⊢
  have before : ∀ handle mount, .spawned handle mount ∈ outs →
      self.StartedFor (labels ++ [label]) handle mount ∧
        ∃ task, s'.tasks[handle]? = some task ∧ task.mountPoint = mount.mountPoint := by
    intro handle mount mem
    obtain ⟨started, found⟩ := recorded.started handle mount mem
    exact ⟨started.snoc label, tasks ▸ found⟩
  have answered := recorded.answered_snoc label
  rw [← tasks] at answered
  have sent := recorded.returned_snoc label
  cases did with
  | ended =>
      refine ⟨visits, fun handle mount mem => ?_, answered, nofun,
        fun c awaits => ?_, fun sent' mem => ?_⟩
      · exact before handle mount (by simpa using mem)
      · rcases awaits with joining | ⟨_, waiting⟩
        · cases joining
        · cases waiting
      · rcases List.mem_append.mp mem with old | new
        · exact sent sent' old
        · cases List.mem_singleton.mp new
          exact measured
  | taken passed mount rest handle _ _ =>
      refine ⟨visits, fun handle' mount' mem => ?_, answered, nofun,
        fun c awaits => ?_, fun sent' mem => ?_⟩
      · exact before handle' mount' (by simpa using mem)
      · rcases awaits with joining | ⟨_, waiting⟩
        · cases joining
          exact measured
        · cases waiting
      · exact sent sent' (by simpa using mem)
  | spawned passed mount rest split _ =>
      obtain ⟨content, read, mem⟩ :=
        listed mount (split ▸ List.mem_append_right _ List.mem_cons_self)
      refine ⟨visits, fun handle' mount' mem' => ?_, fun handle' mountPoint u found => ?_,
        fun c deadline waiting => ?_, fun c awaits => ?_, fun sent' mem' => ?_⟩
      · rcases List.mem_append.mp mem' with old | new
        · obtain ⟨started, task, found, path⟩ := before handle' mount' old
          exact ⟨started, task, getElem?_before found _, path⟩
        · cases List.mem_singleton.mp new
          exact ⟨⟨labels, label, s, outs, _, content, List.prefix_rfl, so, stepped,
            List.mem_singleton_self _, read, mem⟩, _, List.getElem?_concat_length, rfl⟩
      · rcases getElem?_spawn found with old | ⟨-, new⟩
        · exact answered handle' mountPoint u old
        · cases new
      · cases waiting
        exact List.mem_append_right _ (List.mem_singleton_self _)
      · rcases awaits with joining | ⟨_, waiting⟩
        · cases joining
        · cases waiting
          exact measured
      · exact sent sent' (by simpa using mem')

/-- So does a step that looks at no mount. -/
theorem Recorded.keep (recorded : Recorded self labels outs s)
    (same : tableAfter (tableRead labels) label = tableRead labels)
    (control : t.control = .idle ∨ t.control = s.control)
    (paths : ∀ (handle : Nat) (task : Task), s.tasks[handle]? = some task →
      ∃ task', t.tasks[handle]? = some task' ∧ task'.mountPoint = task.mountPoint)
    (answered : ∀ handle mountPoint u,
      t.tasks[handle]? = some ⟨mountPoint, some (.ok (.ok u))⟩ →
      ∃ answer, .finished handle (.ok answer) ∈ labels ++ [label] ∧
        statvfs mountPoint answer = .ok u) :
    Recorded self (labels ++ [label]) outs t := by
  have awaits : ∀ c, t.Awaits c → s.Awaits c := by
    intro c awaits
    rcases control with idle | same
    · rcases awaits with joining | ⟨deadline, waiting⟩
      · cases idle.symm.trans joining
      · cases idle.symm.trans waiting
    · rwa [Awaits, same] at awaits
  refine ⟨?_, fun handle mount mem => ?_, answered, fun c deadline waiting => ?_,
    fun c on r mem => (recorded.sampled c (awaits c on) r mem).snoc label,
    recorded.returned_snoc label⟩
  · rw [tableRead_concat, same]
    exact fun c on => recorded.visits c (awaits c on)
  · obtain ⟨started, task, found, path⟩ := recorded.started handle mount mem
    obtain ⟨task', found', path'⟩ := paths handle task found
    exact ⟨started.snoc label, task', found', path'.trans path⟩
  · rcases control with idle | same
    · cases idle.symm.trans waiting
    · exact recorded.awaited c deadline (same ▸ waiting)

/-- An unreadable table is not the result of a call. -/
theorem Recorded.unread (recorded : Recorded self labels outs s) (e : CollectorError) :
    Recorded self labels (outs ++ [.returned (.error e)]) s where
  visits := recorded.visits
  started handle mount mem := recorded.started handle mount (by simpa using mem)
  answered := recorded.answered
  awaited c deadline waiting := List.mem_append_left _ (recorded.awaited c deadline waiting)
  sampled := recorded.sampled
  returned stats mem := recorded.returned stats (by simpa using mem)

/-- The started calls are among the outputs. -/
theorem StartedFor.mem {handle : Nat} {mount : Mount}
    (started : self.StartedFor labels handle mount)
    (ran : system.run self labels = some (t, outs)) :
    .spawned handle mount ∈ outs := by
  obtain ⟨before, label, s, earlier, next, content, ⟨after, rfl⟩, so, stepped, spawned, -⟩ :=
    started
  obtain ⟨u, out, rest, first, -, rfl⟩ := System.run_split ran
  obtain ⟨-, rfl⟩ := Prod.mk.inj (Option.some.inj ((System.run_snoc so stepped).symm.trans first))
  exact List.mem_append_left _ (List.mem_append_right _ spawned)

end FilesystemCollector

end BlazeBee.Collectors
