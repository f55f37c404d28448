import BlazeBee.Transport.Connection
import BlazeBee.Transport.Queueing
import BlazeBee.Transport.Topics

/-!
The size of the status packets against the configured maximum.

Nobody compares the two: validation bounds the base topic and the packet size each on its
own, and the driver queues its status without a check. But every connection begins with a
CONNECT, whose last will is the `offline` status on the same topic, and the client measures
that as well.

* `size_status_lt_connectSize`: the CONNECT is always larger than the status packets.
* `Passing`: the status goes to the configured topic, and a connected driver has sent its
  CONNECT; `passing_step` keeps it along every step.
* `queued_status_fits`, `not_endlessCycle`: so whatever status the driver queues fits, and it is
  never caught in a cycle of connecting and losing the connection over its own status.
-/

namespace BlazeBee.Transport

open BlazeBee.Lib BlazeBee.Lib.Mqtt BlazeBee.Rumqttc

/-- The size of the CONNECT that these options make. -/
def MqttOptions.connectSize (self : MqttOptions) : Nat :=
  let (username, password) := self.credentials.getD ("", "")
  packetSize (connectRemaining self.clientId.utf8ByteSize self.lastWill.topic.utf8ByteSize
    self.lastWill.message.length username.utf8ByteSize password.utf8ByteSize)

namespace Driver

variable {client : AsyncClient} {rootCause : ConnectionError → String} {config : Config}
  {options : MqttOptions} {self : Driver}

/-! ### Sizes -/

/-- The two texts that the driver publishes. -/
def StatusText (text : String) : Prop := text = statusOnline ∨ text = statusOffline

/-- The CONNECT carries `offline` on the topic of the status, and more. -/
theorem size_status_lt_connectSize {readFile : String → Except IoError (List UInt8)}
    (built : buildOptions readFile config = .ok options) {text : String}
    (status : StatusText text) :
    (statusMessage (joinTopic config.baseTopic "status") text).size < options.connectSize := by
  have short : (bytesOf text).length ≤ (bytesOf statusOffline).length := by
    rcases status with rfl | rfl <;> decide
  have will := lastWill_of_buildOptions built
  unfold MqttOptions.connectSize
  rw [will]
  exact publish_lt_connect short _ _ _ _

/-- The packets are limited to the configured size. -/
theorem maxOutgoing_of_buildOptions {readFile : String → Except IoError (List UInt8)}
    (built : buildOptions readFile config = .ok options) :
    options.maxOutgoingPacketSize = config.maxPacketSize.toNat := by
  obtain ⟨kind, -, made⟩ := bind_eq_ok_iff.mp built
  obtain rfl := Except.ok.inj made
  rfl

/-! ### What the client refuses to send -/

/-- The event loop sends no packet that is too large. It fails over the oldest request, and
no CONNACK answers a CONNECT that was never sent. -/
structure FailsOversized (options : MqttOptions) (driver : Driver) (label : DriverLabel) :
    Prop where
  request : ∀ taken outcome p, label = .poll taken outcome → 0 < taken →
    driver.queue.items.head? = some (.publish p) → options.maxOutgoingPacketSize < p.size →
    outcome = .error (.mqttState (.outgoingPacketTooLarge p.size options.maxOutgoingPacketSize))
  connect : ∀ taken code present, label = .poll taken (.ok (.connAck code present)) →
    options.connectSize ≤ options.maxOutgoingPacketSize

/-- A poll that fails over one of the driver's own status messages. -/
def OversizedStatus (maxOutgoing : Nat) (self : Driver) (label : DriverLabel) : Prop :=
  ∃ taken text, StatusText text ∧
    let p := statusMessage self.statusTopic text
    maxOutgoing < p.size ∧ 0 < taken ∧ self.queue.items.head? = some (.publish p) ∧
      label = .poll taken (.error (.mqttState (.outgoingPacketTooLarge p.size maxOutgoing)))

/-- A run of the driver that connects again and again, and again and again loses
the connection over its own status message. -/
def EndlessCycle (client : AsyncClient) (rootCause : ConnectionError → String)
    (config : Config) : Prop :=
  ∃ (e : (system client rootCause).Execution) (options : MqttOptions),
    (∃ isFile readFile seed, connect isFile readFile seed config = .ok (options, e.state 0)) ∧
    (∀ n, FailsOversized options (e.state n) (e.label n)) ∧
    (∀ n, ∃ m, n ≤ m ∧ Connects (e.label m)) ∧
    ∀ n, ∃ m, n ≤ m ∧ OversizedStatus options.maxOutgoingPacketSize (e.state m) (e.label m)

/-! ### What the driver queues -/

/-- A status of the driver, on the given topic. -/
def IsStatus (topic : String) (p : Publish) : Prop :=
  ∃ text, StatusText text ∧ p = statusMessage topic text

/-- A status message that was queued is the one with that text. -/
theorem queued_of_queueStatus {text : String} {p : Publish}
    (queued : .queued (.publish p) ∈ (self.queueStatus client text).2) :
    p = statusMessage self.statusTopic text := by
  simp only [queueStatus] at queued
  split at queued
  · have same := DriverOutput.queued.inj (List.mem_singleton.mp queued)
    exact Request.publish.inj same
  · cases List.mem_singleton.mp queued

/-- A shutdown queues `offline`, if the driver is connected. -/
theorem queued_of_disconnect {between : List Publish} {p : Publish}
    (queued : .queued (.publish p) ∈ (self.disconnect client between).2) :
    self.state.value = .connected ∧ p = statusMessage self.statusTopic statusOffline := by
  cases connected : self.state.value.isConnected with
  | false =>
      rw [disconnect_unconnected client between connected] at queued
      cases queued
  | true =>
      refine ⟨ConnectionState.eq_connected connected, ?_⟩
      simp only [disconnect, connected, if_true] at queued
      rcases List.mem_append.mp queued with status | last
      · exact queued_of_queueStatus status
      · unfold queueDisconnect at last
        split at last <;> cases List.mem_singleton.mp last

/-- The driver publishes on `topic`, and has connected only with a CONNECT that fits. -/
structure Passing (options : MqttOptions) (topic : String) (driver : Driver) : Prop where
  statusTopic : driver.statusTopic = topic
  connected : driver.state.value = .connected →
    options.connectSize ≤ options.maxOutgoingPacketSize

/-- A step keeps this, and what it queues is a status behind a CONNECT that fits. -/
theorem passing_step {topic : String} (passing : Passing options topic self) {label : DriverLabel}
    (fails : FailsOversized options self label) {next : Driver × List DriverOutput}
    (stepped : self.step client rootCause label = some next) :
    Passing options topic next.1 ∧ ∀ p, .queued (.publish p) ∈ next.2 →
      IsStatus topic p ∧ options.connectSize ≤ options.maxOutgoingPacketSize := by
  have same : next.1.statusTopic = topic :=
    (sameSetup_step stepped).statusTopic.trans passing.statusTopic
  -- An end of the driver leaves a state that is not `Connected`.
  have shut : ∀ driver : Driver, driver.closed.state.value ≠ .connected := by
    intro driver connected
    cases (Watch.setState_value driver.state (.disconnected "shutdown")).symm.trans connected
  cases cases_of_step stepped with
  | signal _ _ => exact ⟨⟨same, passing.connected⟩, fun p queued => nomatch queued⟩
  | otherPublish queue _ => exact ⟨⟨same, passing.connected⟩, fun p queued => nomatch queued⟩
  | poll taken outcome _ _ =>
      cases outcome_cases outcome with
      | success present =>
          have sent := fails.connect taken .success present rfl
          refine ⟨⟨same, fun _ => sent⟩, fun p queued => ?_⟩
          rw [handle_success] at queued
          refine ⟨⟨statusOnline, Or.inl rfl, ?_⟩, sent⟩
          exact (queued_of_queueStatus queued).trans
            (congrArg (statusMessage · statusOnline) passing.statusTopic)
      | other other =>
          rw [handle_other _ other] at same ⊢
          exact ⟨⟨same, passing.connected⟩, fun p queued => nomatch queued⟩
      | @fatal e fatal =>
          rw [handle_fatal _ fatal] at same ⊢
          refine ⟨⟨same, fun connected => ?_⟩, fun p queued => nomatch queued⟩
          cases (Watch.setState_value (self.take taken).state
            (.fatalExit (rootCause e))).symm.trans connected
      | @recoverable e recoverable =>
          rw [handle_recoverable _ recoverable] at same ⊢
          refine ⟨⟨same, fun connected => ?_⟩, fun p queued => ?_⟩
          · cases (Watch.setState_value _ _).symm.trans connected
          · cases List.mem_singleton.mp queued
  | flush taken outcome _ =>
      refine ⟨⟨same, fun connected => ?_⟩, fun p queued => nomatch queued⟩
      unfold flush at connected
      split at connected
      · exact absurd connected (shut _)
      · exact passing.connected connected
      · exact absurd connected (shut _)
  | shutdown between _ _ =>
      refine ⟨⟨same, fun connected => ?_⟩, fun p queued => ?_⟩
      · cases before : self.state.value.isConnected with
        | true => exact passing.connected (ConnectionState.eq_connected before)
        | false =>
            rw [disconnect_unconnected client between before] at connected
            exact absurd connected (shut self)
      · obtain ⟨connected, rfl⟩ := queued_of_disconnect queued
        refine ⟨⟨statusOffline, Or.inr rfl, ?_⟩, passing.connected connected⟩
        exact congrArg (statusMessage · statusOffline) passing.statusTopic
  | shutdownAsleep between _ _ =>
      exact ⟨⟨same, passing.connected⟩, fun p queued => nomatch queued⟩
  | woken _ _ => exact ⟨⟨same, passing.connected⟩, fun p queued => nomatch queued⟩
  | graceOver _ =>
      exact ⟨⟨same, fun connected => absurd connected (shut self)⟩, fun p queued => nomatch queued⟩

/-- A new transport's queue is empty, so everything in it can be sent. -/
theorem passing_of_connect {isFile : String → Bool}
    {readFile : String → Except IoError (List UInt8)} {seed : UInt64}
    (connected : connect isFile readFile seed config = .ok (options, self)) :
    Passing options (joinTopic config.baseTopic "status") self := by
  obtain ⟨-, -, driver⟩ := connect_eq_ok connected
  have topic : self.statusTopic = joinTopic config.baseTopic "status" := by rw [driver]
  have value : self.state.value = .connecting := by rw [driver, Watch.init]
  exact ⟨topic, fun live => by cases value.symm.trans live⟩

/-! ### Along a run -/

/-- Whatever status a run has queued came behind a CONNECT that fits, and fits itself. -/
theorem queued_status_fits {isFile : String → Bool}
    {readFile : String → Except IoError (List UInt8)} {seed : UInt64}
    (connected : connect isFile readFile seed config = .ok (options, self))
    {labels : List DriverLabel} {next : Driver} {outs : List DriverOutput}
    (ran : (system client rootCause).run self labels = some (next, outs))
    (fails : (system client rootCause).Meets (FailsOversized options) self labels) {p : Publish}
    (queued : .queued (.publish p) ∈ outs) :
    IsStatus (joinTopic config.baseTopic "status") p ∧ p.size ≤ config.maxPacketSize.toNat := by
  obtain ⟨-, built, -⟩ := connect_eq_ok connected
  have step : ∀ s label t out, Passing options (joinTopic config.baseTopic "status") s →
      FailsOversized options s label → (system client rootCause).step s label = some (t, out) →
      Passing options (joinTopic config.baseTopic "status") t ∧ ∀ o ∈ out, ∀ p,
        o = .queued (.publish p) → IsStatus (joinTopic config.baseTopic "status") p ∧
          options.connectSize ≤ options.maxOutgoingPacketSize := by
    intro s label t out passing fails stepped
    obtain ⟨kept, queued⟩ := passing_step passing fails stepped
    exact ⟨kept, fun o mem p same => queued p (same ▸ mem)⟩
  obtain ⟨status, sent⟩ :=
    (System.run_invariant step (passing_of_connect connected) fails ran).2 _ queued p rfl
  refine ⟨status, ?_⟩
  obtain ⟨text, text_status, rfl⟩ := status
  rw [← maxOutgoing_of_buildOptions built]
  exact (size_status_lt_connectSize built text_status).le.trans sent

/-- There is no such cycle: a connection takes a CONNECT that fits, and then the status fits
as well. -/
theorem not_endlessCycle (client : AsyncClient) (rootCause : ConnectionError → String)
    (config : Config) : ¬ EndlessCycle client rootCause config := by
  rintro ⟨e, options, ⟨_, _, _, connected⟩, fails, connects, oversized⟩
  obtain ⟨-, built, -⟩ := connect_eq_ok connected
  obtain ⟨n, -, taken, present, connAck⟩ := connects 0
  obtain ⟨m, -, _, text, text_status, large, -⟩ := oversized 0
  have topic : (e.state m).statusTopic = joinTopic config.baseTopic "status" :=
    e.invariant_from (I := fun driver => driver.statusTopic = _)
      (fun _ _ _ _ same stepped => (sameSetup_step stepped).statusTopic.trans same)
      (passing_of_connect connected).statusTopic (Nat.zero_le m)
  have sent := (fails n).connect taken .success present connAck
  have small := size_status_lt_connectSize built text_status
  rw [topic] at large
  omega

/-- Along any run of the driver that an accepted configuration starts, as long as the client
sends nothing too large, every publish that the driver queues is a status on the status topic
and fits into the largest packet; and the driver is never caught in the cycle. -/
theorem status_packets_fit {isFile : String → Bool}
    {readFile : String → Except IoError (List UInt8)} {seed : UInt64}
    (connected : connect isFile readFile seed config = .ok (options, self))
    {labels : List DriverLabel} {next : Driver} {outs : List DriverOutput}
    (ran : (system client rootCause).run self labels = some (next, outs))
    (fails : (system client rootCause).Meets (FailsOversized options) self labels) :
    (∀ p, .queued (.publish p) ∈ outs →
      IsStatus (joinTopic config.baseTopic "status") p ∧ p.size ≤ config.maxPacketSize.toNat) ∧
    ¬ EndlessCycle client rootCause config :=
  ⟨fun _ queued => queued_status_fits connected ran fails queued,
    not_endlessCycle client rootCause config⟩

/-- The options of a configuration with small packets and a short base topic. -/
def smallOptions : MqttOptions := (buildOptions (fun _ => .ok []) smallPackets).toOption.get rfl

/-- The driver that it starts. -/
def smallDriver : Driver where
  statusTopic := joinTopic smallPackets.baseTopic "status"
  backoff := Backoff.default 1
  state := Watch.init .connecting
  shutdown := .waiting
  queue := Channel.empty smallPackets.requestChannelCapacity.toNat
  control := .polling

/-- A CONNACK and a shutdown. -/
def briefConnection : List DriverLabel :=
  [.poll 0 (.ok (.connAck .success false)), .signal .sent, .shutdown []]

/-- Its CONNECT has 41 of the 64 bytes; `online`, `offline` and DISCONNECT are queued. -/
theorem status_packets_fit_small :
    ∃ next outs, connect (fun _ => true) (fun _ => .ok []) 1 smallPackets =
        .ok (smallOptions, smallDriver) ∧
      (system .documented fun _ => "timeout").run smallDriver briefConnection =
        some (next, outs) ∧ outs.length = 3 ∧
      (∀ p, .queued (.publish p) ∈ outs →
        IsStatus (joinTopic smallPackets.baseTopic "status") p ∧ p.size ≤ 64) ∧
      ¬ EndlessCycle .documented (fun _ => "timeout") smallPackets := by
  have sent : smallOptions.connectSize ≤ smallOptions.maxOutgoingPacketSize := by
    change packetSize (connectRemaining 5 11 7 0 0) ≤ 64
    rw [packetSize_eq (by decide)]
    decide
  have fails : ∀ (driver : Driver), ∀ label ∈ briefConnection,
      FailsOversized smallOptions driver label := by
    intro driver label mem
    refine ⟨?_, fun _ _ _ _ => sent⟩
    rintro taken outcome p rfl taken_pos
    simp only [briefConnection, List.mem_cons, DriverLabel.poll.injEq, reduceCtorEq,
      List.not_mem_nil, or_false] at mem
    omega
  have connected : connect (fun _ => true) (fun _ => .ok []) 1 smallPackets =
      .ok (smallOptions, smallDriver) := rfl
  have ran : (system .documented fun _ => "timeout").run smallDriver briefConnection =
      some (_, _) := rfl
  have meets : (system .documented fun _ => "timeout").Meets (FailsOversized smallOptions)
      smallDriver briefConnection := by
    refine (System.meets_cons_iff rfl).mpr ⟨fails _ _ (by simp [briefConnection]), ?_⟩
    refine (System.meets_cons_iff rfl).mpr ⟨fails _ _ (by simp [briefConnection]), ?_⟩
    exact (System.meets_cons_iff rfl).mpr ⟨fails _ _ (by simp [briefConnection]), trivial⟩
  exact ⟨_, _, connected, ran, rfl, status_packets_fit connected ran meets⟩

end Driver

end BlazeBee.Transport
