import BlazeBee.Agent.Topics
import BlazeBee.Lib.System
import BlazeBee.Transport.Connection
import BlazeBee.Transport.Queueing
import BlazeBee.Transport.Farewell

/-!
The capacity check of the configuration against what one sampling cycle needs.

A cycle publishes the samples of the enabled collectors one after the other;
between two publishes the driver, a task of the same thread, may drain the queue
and may queue one status message. `never_full_iff` is the exact demand: a cycle is
never refused for lack of room exactly when the requests of all its samples and
the status message fit into the capacity together. Validation guarantees that
without framing (`never_full_of_unframed`), but not with it.
-/

namespace BlazeBee.Agent

open BlazeBee.Lib BlazeBee.Transport BlazeBee.Rumqttc

/-- A sampling cycle on its way, and the queue it shares with the driver. -/
structure Cycle where
  publisher : Publisher
  queue : RequestChannel
  /-- The entries still to be sampled. -/
  todo : List CollectorConfig
  statusSent : Bool

/-- What can happen next while a cycle is on its way. -/
inductive CycleLabel where
  /-- The next entry is collected and published. -/
  | entry
  /-- The driver takes requests from the queue. -/
  | drain (n : Nat)
  /-- The driver queues a status message. -/
  | status (text : String)

/-- What the calls of the cycle and of the driver return. -/
inductive CycleOutput where
  | published (result : Except TransferError Nat)
  | status (queued : Bool)
deriving DecidableEq

/-- A publish or the status message is refused because the queue is full. -/
def CycleOutput.Refused : CycleOutput → Prop
  | .published result => result = .error .queueFull
  | .status queued => queued = false

section System

variable {Value : Type} (client : AsyncClient) (codecs : Codecs Value)
  (sample : CollectorConfig → Option Value) (statusTopic : String)

namespace Cycle

/-- One turn of the cycle's loop: a collector that fails publishes nothing. -/
def entryStep (self : Cycle) : Option (Cycle × List CycleOutput) :=
  match self.todo with
  | [] => none
  | entry :: rest =>
      match sample entry with
      | none => some ({ self with todo := rest }, [])
      | some value =>
          let published := self.publisher.publish client codecs self.queue value entry.metadata
          some ({ self with
            publisher := published.publisher
            queue := published.queue
            todo := rest }, [.published published.result])

/-- The driver's status message. -/
def statusStep (self : Cycle) (text : String) : Option (Cycle × List CycleOutput) :=
  if self.statusSent then none
  else
    match client.tryPublish self.queue (Driver.statusMessage statusTopic text) with
    | .ok queue => some ({ self with queue, statusSent := true }, [.status true])
    | .error _ => some ({ self with statusSent := true }, [.status false])

/-- One step of the cycle or of the driver beside it. -/
def step (self : Cycle) : CycleLabel → Option (Cycle × List CycleOutput)
  | .entry => self.entryStep client codecs sample
  | .drain n => some ({ self with queue := self.queue.drop n }, [])
  | .status text => self.statusStep client statusTopic text

/-- A cycle starts with an empty queue and a publisher of the configuration. -/
def Starts (config : Config) (self : Cycle) : Prop :=
  self.publisher.SameSettings (Publisher.new config.transport) ∧
  self.queue = Channel.empty config.transport.requestChannelCapacity.toNat ∧
  self.todo = config.metrics.enabled ∧ self.statusSent = false

/-- All interleavings of the cycle with the driver. -/
def system (config : Config) : System Cycle CycleLabel CycleOutput where
  start := Starts config
  step := step client codecs sample config.statusTopic

end Cycle

/-! ### The demand -/

/-- The requests of one entry. -/
def entryDemand (publisher : Publisher) (entry : CollectorConfig) : Nat :=
  match sample entry with
  | none => 0
  | some value => publisher.requestsNeeded codecs value entry.metadata

/-- The requests of several entries. -/
def demand (publisher : Publisher) (entries : List CollectorConfig) : Nat :=
  (entries.map (entryDemand codecs sample publisher)).sum

/-- In no interleaving is a publish of the cycle or the status message refused. -/
def NeverFull (config : Config) : Prop :=
  ∀ start, Cycle.Starts config start →
    ∀ labels final outs,
      (Cycle.system client codecs sample config).run start labels = some (final, outs) →
        ∀ out ∈ outs, ¬ out.Refused

/-- Without framing an entry needs at most one request. -/
theorem entryDemand_le_one {publisher : Publisher} (unframed : publisher.framing = false)
    (entry : CollectorConfig) : entryDemand codecs sample publisher entry ≤ 1 := by
  unfold entryDemand
  cases sample entry with
  | none => exact Nat.zero_le 1
  | some value => exact Publisher.requestsNeeded_le_one unframed

/-- What validation reserves is enough without framing. -/
theorem demand_le_of_unframed (publisher : Publisher) (unframed : publisher.framing = false)
    (entries : List CollectorConfig) : demand codecs sample publisher entries ≤ entries.length := by
  induction entries with
  | nil => exact Nat.le_refl 0
  | cons entry rest ih =>
      have one := entryDemand_le_one codecs sample unframed entry
      simp only [demand, List.map_cons, List.sum_cons, List.length_cons] at ih ⊢
      omega

/-! ### One step -/

variable {config : Config}

/-- What the steps of a cycle leave as the configuration has it. -/
structure Cycle.Configured (config : Config) (cycle : Cycle) : Prop where
  settings : cycle.publisher.SameSettings (Publisher.new config.transport)
  alive : cycle.queue.receiverAlive = true
  capacity : cycle.queue.capacity = config.transport.requestChannelCapacity.toNat
  entries : ∀ entry ∈ cycle.todo, entry ∈ config.metrics.enabled

/-- A cycle starts as the configuration has it. -/
theorem Cycle.Starts.configured {cycle : Cycle} (starts : cycle.Starts config) :
    cycle.Configured config := by
  obtain ⟨settings, queue, todo, -⟩ := starts
  exact ⟨settings, by rw [queue]; rfl, by rw [queue]; rfl, fun entry mem => todo ▸ mem⟩

/-- One entry: refused exactly when its requests exceed the free slots. -/
theorem entryStep_spec (accepted : config.Accepted) {cycle : Cycle} {entry : CollectorConfig}
    {rest : List CollectorConfig} (configured : cycle.Configured config)
    (todo : cycle.todo = entry :: rest) :
    ∃ next outs, cycle.entryStep client codecs sample = some (next, outs) ∧
      next.Configured config ∧ next.todo = rest ∧ next.statusSent = cycle.statusSent ∧
      ((∃ out ∈ outs, out.Refused) ↔
        cycle.queue.free < entryDemand codecs sample (Publisher.new config.transport) entry) ∧
      (entryDemand codecs sample (Publisher.new config.transport) entry ≤ cycle.queue.free →
        next.queue.items.length = cycle.queue.items.length +
          entryDemand codecs sample (Publisher.new config.transport) entry) := by
  obtain ⟨settings, alive, capacity, entries⟩ := configured
  have inside : entry ∈ config.metrics.enabled := entries entry (todo ▸ List.mem_cons_self)
  have remaining : ∀ e ∈ rest, e ∈ config.metrics.enabled := fun e mem =>
    entries e (todo ▸ List.mem_cons_of_mem _ mem)
  simp only [Cycle.entryStep, entryDemand, todo]
  cases taken : sample entry with
  | none =>
      refine ⟨_, _, rfl, ?_, ?_, ?_, ?_, ?_⟩
      · exact ⟨settings, alive, capacity, remaining⟩
      · rfl
      · rfl
      · simp
      · exact fun _ => rfl
  | some value =>
      have valid :
          validTopic (joinTopic cycle.publisher.baseTopic entry.metadata.topic) = true := by
        rw [settings.baseTopic]
        exact validTopic_topicOf accepted inside
      have needed := Publisher.requestsNeeded_of_settings codecs settings value entry.metadata
      obtain ⟨sameCapacity, stillAlive, full, grown⟩ := Publisher.publish_accounting client
        codecs cycle.publisher value entry.metadata valid alive
      have kept := Publisher.publish_publisher client codecs cycle.queue cycle.publisher value
        entry.metadata
      rw [needed] at full grown
      refine ⟨_, _, rfl, ?_, ?_, ?_, ?_, ?_⟩
      · exact ⟨kept.trans settings, stillAlive, sameCapacity.trans capacity, remaining⟩
      · rfl
      · rfl
      · simpa [CycleOutput.Refused] using full
      · exact grown

/-- The status message: refused exactly when no slot is free. -/
theorem statusStep_spec (accepted : config.Accepted) {cycle : Cycle} (text : String)
    (configured : cycle.Configured config) (unsent : cycle.statusSent = false) :
    ∃ next outs, cycle.statusStep client config.statusTopic text = some (next, outs) ∧
      next.Configured config ∧ next.todo = cycle.todo ∧ next.statusSent = true ∧
      ((∃ out ∈ outs, out.Refused) ↔ cycle.queue.free = 0) ∧
      (0 < cycle.queue.free → next.queue.items.length = cycle.queue.items.length + 1) := by
  obtain ⟨settings, alive, capacity, entries⟩ := configured
  let message := Driver.statusMessage config.statusTopic text
  have valid : validTopic message.topic = true := by
    rw [Driver.topic_statusMessage]
    exact validTopic_statusTopic accepted
  rcases Nat.eq_zero_or_pos cycle.queue.free with none_free | free
  · have refused := client.publish_refused _ message _
      (Channel.trySend_full (a := Request.publish message) alive none_free)
    have stepped : cycle.statusStep client config.statusTopic text =
        some ({ cycle with statusSent := true }, [.status false]) := by
      simp [Cycle.statusStep, unsent, refused, message]
    rw [stepped]
    refine ⟨_, _, rfl, ?_, ?_, ?_, ?_, ?_⟩
    · exact ⟨settings, alive, capacity, entries⟩
    · rfl
    · rfl
    · simp [CycleOutput.Refused, none_free]
    · simp [none_free]
  · obtain ⟨queue, sent, items, sameCapacity, stillAlive⟩ :=
      Channel.trySend_room (a := Request.publish message) alive free
    have queued := client.publish_accepted _ _ message valid sent
    have stepped : cycle.statusStep client config.statusTopic text =
        some ({ cycle with queue, statusSent := true }, [.status true]) := by
      simp [Cycle.statusStep, unsent, queued, message]
    rw [stepped]
    refine ⟨_, _, rfl, ?_, ?_, ?_, ?_, ?_⟩
    · exact ⟨settings, stillAlive, sameCapacity.trans capacity, entries⟩
    · rfl
    · rfl
    · simp [CycleOutput.Refused, Nat.ne_of_gt free]
    · intro _
      simp [items]

/-! ### Enough room -/

/-- What is queued, what is still to come and the status message fit together. -/
structure Cycle.Within (codecs : Codecs Value) (sample : CollectorConfig → Option Value)
    (config : Config) (cycle : Cycle) : Prop where
  configured : cycle.Configured config
  room : cycle.queue.items.length +
    demand codecs sample (Publisher.new config.transport) cycle.todo +
    (if cycle.statusSent then 0 else 1) ≤ config.transport.requestChannelCapacity.toNat

variable {client codecs sample} in
/-- A step of a cycle within its room stays within it and is not refused. -/
theorem within_step (accepted : config.Accepted) {cycle next : Cycle} {label : CycleLabel}
    {outs : List CycleOutput} (within : cycle.Within codecs sample config)
    (stepped : (Cycle.system client codecs sample config).step cycle label = some (next, outs)) :
    next.Within codecs sample config ∧ ∀ out ∈ outs, ¬ out.Refused := by
  obtain ⟨configured, room⟩ := within
  have free : cycle.queue.free =
      config.transport.requestChannelCapacity.toNat - cycle.queue.items.length := by
    rw [Channel.free, configured.capacity]
  cases label with
  | entry =>
      cases todo : cycle.todo with
      | nil => simp [Cycle.system, Cycle.step, Cycle.entryStep, todo] at stepped
      | cons entry rest =>
          obtain ⟨next', outs', expected, keep, left, sent, refused, grown⟩ :=
            entryStep_spec client codecs sample accepted configured todo
          obtain ⟨rfl, rfl⟩ := Prod.mk.inj (Option.some.inj (stepped.symm.trans expected))
          simp only [demand, todo, List.map_cons, List.sum_cons] at room
          have fits : entryDemand codecs sample (Publisher.new config.transport) entry ≤
              cycle.queue.free := by omega
          constructor
          · refine ⟨keep, ?_⟩
            rw [grown fits, left, sent, demand]
            omega
          · intro out mem bad
            exact absurd (refused.mp ⟨out, mem, bad⟩) (Nat.not_lt.mpr fits)
  | drain n =>
      obtain ⟨rfl, rfl⟩ := Prod.mk.inj (Option.some.inj stepped)
      obtain ⟨settings, alive, capacity, entries⟩ := configured
      refine ⟨⟨⟨settings, alive, capacity, entries⟩, ?_⟩, by simp⟩
      have fewer : (cycle.queue.drop n).items.length ≤ cycle.queue.items.length := by
        simp [Channel.drop]
      simp only
      omega
  | status text =>
      cases unsent : cycle.statusSent with
      | true => simp [Cycle.system, Cycle.step, Cycle.statusStep, unsent] at stepped
      | false =>
          obtain ⟨next', outs', expected, keep, left, sent, refused, grown⟩ :=
            statusStep_spec client accepted text configured unsent
          obtain ⟨rfl, rfl⟩ := Prod.mk.inj (Option.some.inj (stepped.symm.trans expected))
          simp only [unsent, Bool.false_eq_true, if_false] at room
          have slot : 0 < cycle.queue.free := by omega
          constructor
          · refine ⟨keep, ?_⟩
            rw [grown slot, left, sent, if_pos rfl]
            omega
          · intro out mem bad
            exact absurd (refused.mp ⟨out, mem, bad⟩) (Nat.ne_of_gt slot)

/-- Enough room for the demand and the status message is enough. -/
theorem never_full_of_room (accepted : config.Accepted)
    (room : demand codecs sample (Publisher.new config.transport) config.metrics.enabled + 1 ≤
      config.transport.requestChannelCapacity.toNat) : NeverFull client codecs sample config := by
  intro start starts labels final outs ran
  have within : start.Within codecs sample config := by
    refine ⟨starts.configured, ?_⟩
    obtain ⟨-, queue, todo, unsent⟩ := starts
    rw [queue, todo, unsent]
    simpa [Channel.empty] using room
  exact (System.run_invariant (C := fun _ _ => True)
    (fun _ _ _ _ inv _ stepped => within_step accepted inv stepped) within
    (System.meets_of_forall (fun _ _ => trivial) _ _) ran).2

/-- Without framing, the capacity that validation asks for is enough. -/
theorem never_full_of_unframed (accepted : config.Accepted)
    (unframed : config.transport.framing.enabled = false) :
    NeverFull client codecs sample config := by
  have bound := demand_le_of_unframed codecs sample (Publisher.new config.transport) unframed
    config.metrics.enabled
  have capacity := accepted.capacity
  exact never_full_of_room client codecs sample accepted (by omega)

/-! ### The whole cycle, undrained -/

/-- With nothing drained and nothing refused, the queue holds the whole demand. -/
theorem run_entries (accepted : config.Accepted) {cycle : Cycle}
    (configured : cycle.Configured config) :
    ∃ final outs, (Cycle.system client codecs sample config).run cycle
        (List.replicate cycle.todo.length .entry) = some (final, outs) ∧
      final.Configured config ∧ final.statusSent = cycle.statusSent ∧
      ((∀ out ∈ outs, ¬ out.Refused) → final.queue.items.length = cycle.queue.items.length +
        demand codecs sample (Publisher.new config.transport) cycle.todo) := by
  induction todo : cycle.todo generalizing cycle with
  | nil => exact ⟨cycle, [], rfl, configured, rfl, fun _ => by simp [demand]⟩
  | cons entry rest ih =>
      obtain ⟨next, outs, stepped, keep, left, sent, refused, grown⟩ :=
        entryStep_spec client codecs sample accepted configured todo
      obtain ⟨final, more, ran, keepFinal, sentFinal, held⟩ := ih keep left
      refine ⟨final, outs ++ more, System.run_of_step stepped ran, keepFinal,
        sentFinal.trans sent, fun allowed => ?_⟩
      have fits : entryDemand codecs sample (Publisher.new config.transport) entry ≤
          cycle.queue.free := by
        by_contra short
        obtain ⟨out, mem, bad⟩ := refused.mpr (Nat.lt_of_not_le short)
        exact allowed out (List.mem_append_left _ mem) bad
      rw [held fun out mem => allowed out (List.mem_append_right _ mem), grown fits, demand, demand,
        List.map_cons, List.sum_cons, Nat.add_assoc]

/-! ### The exact demand -/

/-- For an accepted configuration and any samples, nothing is ever refused for
lack of room exactly when the requests of all samples and one status message fit
into the capacity. -/
theorem never_full_iff {env : Environment} (accepted : config.validate env = .ok ()) :
    NeverFull client codecs sample config ↔
      demand codecs sample (Publisher.new config.transport) config.metrics.enabled + 1 ≤
        config.transport.requestChannelCapacity.toNat := by
  have accepted := Config.accepted_of_validate accepted
  constructor
  · intro never
    let start : Cycle := ⟨Publisher.new config.transport,
      Channel.empty config.transport.requestChannelCapacity.toNat, config.metrics.enabled, false⟩
    have starts : start.Starts config := ⟨⟨rfl, rfl, rfl, rfl⟩, rfl, rfl, rfl⟩
    obtain ⟨full, outs, ran, configured, sent, held⟩ :=
      run_entries client codecs sample accepted starts.configured
    obtain ⟨final, outs', stepped, -, -, -, refused, -⟩ :=
      statusStep_spec client accepted statusOnline configured sent
    have stepped : (Cycle.system client codecs sample config).step full (.status statusOnline) =
        some (final, outs') := stepped
    have done : (Cycle.system client codecs sample config).run final [] = some (final, []) := rfl
    have whole := System.run_append ran (System.run_of_step stepped done)
    have allowed := never start starts _ _ _ whole
    have items := held fun out mem => allowed out (List.mem_append_left _ mem)
    have slot : full.queue.free ≠ 0 := fun none_free => by
      obtain ⟨out, mem, bad⟩ := refused.mpr none_free
      exact allowed out (List.mem_append_right _ (List.mem_append_left _ mem)) bad
    rw [Channel.free, configured.capacity, items] at slot
    have empty : start.queue.items.length = 0 := rfl
    have todo : start.todo = config.metrics.enabled := rfl
    rw [empty, todo] at slot
    omega
  · exact never_full_of_room client codecs sample accepted

end System

/-! ### Framing against the smallest capacity -/

/-- One collector, small packets with framing, and the smallest capacity that
validation takes for it. -/
def framedConfig : Config where
  metrics := { enabled := [{ name := "cpu", metadata := { topic := "t" } }] }
  transport := { smallPackets with requestChannelCapacity := 2 }

/-- A sample of three frames is refused although the queue was empty. -/
theorem framedConfig_fills_up :
    framedConfig.validate fullEnvironment = .ok () ∧
      ¬ NeverFull .documented letterCodecs (fun _ => some (List.replicate 80 0x61))
        framedConfig := by
  refine ⟨rfl, fun never => ?_⟩
  let start : Cycle := ⟨Publisher.new framedConfig.transport, Channel.empty 2,
    framedConfig.metrics.enabled, false⟩
  have starts : start.Starts framedConfig := ⟨⟨rfl, rfl, rfl, rfl⟩, rfl, rfl, rfl⟩
  have refused : ((Cycle.system .documented letterCodecs
      (fun _ => some (List.replicate 80 0x61)) framedConfig).run start [.entry]).map (·.2) =
        some [.published (.error .queueFull)] := by decide
  obtain ⟨⟨final, outs⟩, ran, rfl⟩ := Option.map_eq_some_iff.mp refused
  exact never start starts _ _ _ ran _ (List.mem_singleton_self _) rfl

/-- The same configuration with a sample of one frame. -/
theorem never_full_iff_framed :
    framedConfig.validate fullEnvironment = .ok () ∧
      (NeverFull .documented letterCodecs (fun _ => some []) framedConfig ↔
        demand letterCodecs (fun _ => some []) (Publisher.new framedConfig.transport)
          framedConfig.metrics.enabled + 1 ≤
        framedConfig.transport.requestChannelCapacity.toNat) := by
  have accepted : framedConfig.validate fullEnvironment = .ok () := rfl
  exact ⟨accepted, never_full_iff .documented letterCodecs (fun _ => some []) accepted⟩

/-! ### The farewell against the smallest capacity -/

/-- One collector, and the smallest capacity that validation takes for it. -/
def tightConfig : Config where
  metrics := { enabled := [{ name := "cpu", metadata := { topic := "t" } }] }
  transport := { clientId := "agent", requestChannelCapacity := 2 }

/-- With `online` and one sample still queued, a shutdown of the connected driver gets
neither of its two requests into the queue. -/
theorem tightConfig_loses_farewell :
    tightConfig.validate fullEnvironment = .ok () ∧
      ∃ options driver s t outs outs',
        Driver.connect (fun _ => true) (fun _ => .ok []) 1 tightConfig.transport =
          .ok (options, driver) ∧
        (Driver.system .documented fun _ => "timeout").run driver
          [.poll 0 (.ok (.connAck .success false)), .otherPublish ⟨"t", .atMostOnce, false, []⟩,
            .signal .sent] = some (s, outs) ∧
        s.state.value = .connected ∧
        (Driver.system .documented fun _ => "timeout").step s (.shutdown []) = some (t, outs') ∧
        .queued (Driver.offline s.statusTopic) ∉ outs' ∧ .queued .disconnect ∉ outs' ∧
        t.queue.items = s.queue.items := by
  refine ⟨rfl, _, _, _, _, _, _, rfl, rfl, rfl, rfl, ?_, ?_, rfl⟩
  · simp [Driver.offline]
  · simp

end BlazeBee.Agent
