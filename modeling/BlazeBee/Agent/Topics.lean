import BlazeBee.Agent.Config
import BlazeBee.Transport.Connection
import BlazeBee.Transport.Topics

/-!
The topics an accepted configuration makes the agent publish to.

Validation looks at the base topic and at each collector's topic separately; the
topics on the wire are their joins.

* `agent_topics_valid_iff`: all of them are valid topic names exactly when the
  joins are neither empty nor too long.
* `agent_topics_distinct`: collector names are distinct, but topics collide
  exactly when their halves do, or when a half is `status`.
-/

namespace BlazeBee.Agent

open BlazeBee.Lib.Text BlazeBee.Lib.Mqtt BlazeBee.Transport BlazeBee.Rumqttc

variable {config : Config}

/-- The topic of a collector's samples. -/
def Config.topicOf (config : Config) (entry : CollectorConfig) : String :=
  joinTopic config.transport.baseTopic entry.metadata.topic

/-- The topic of the status messages and of the last will. -/
def Config.statusTopic (config : Config) : String :=
  joinTopic config.transport.baseTopic "status"

/-- Every topic the agent ever names. -/
def Config.topics (config : Config) : List String :=
  config.metrics.enabled.map config.topicOf ++ [config.statusTopic]

/-- The will registered with the broker and the driver's messages go to the status
topic. -/
theorem statusTopic_of_connect {isFile : String → Bool}
    {readFile : String → Except IoError (List UInt8)} {seed : UInt64}
    {options : MqttOptions} {driver : Driver}
    (connected : Driver.connect isFile readFile seed config.transport = .ok (options, driver)) :
    options.lastWill.topic = config.statusTopic ∧ driver.statusTopic = config.statusTopic := by
  obtain ⟨-, built, rfl⟩ := Driver.connect_eq_ok connected
  rw [Driver.lastWill_of_buildOptions built, Config.statusTopic]
  exact ⟨by simp only, by simp only⟩

/-! ### Valid names -/

/-- The joins have between 1 and 65535 bytes, in terms of the two halves. -/
structure JoinsFit (config : Config) : Prop where
  /-- Without a base, every collector's half must name something. -/
  nonempty : baseHalf config.transport.baseTopic = "" →
    ∀ entry ∈ config.metrics.enabled, topicHalf entry.metadata.topic ≠ ""
  /-- With a base, the separator and the collector's half must still fit. -/
  short : baseHalf config.transport.baseTopic ≠ "" →
    ∀ entry ∈ config.metrics.enabled,
      (baseHalf config.transport.baseTopic).utf8ByteSize + 1 +
        (topicHalf entry.metadata.topic).utf8ByteSize ≤ 65535
  /-- So must the separator and the word `status`. -/
  shortStatus : (baseHalf config.transport.baseTopic).utf8ByteSize ≤ 65528

/-- One collector's topic. -/
theorem validTopicName_topicOf_iff (accepted : config.Accepted) {entry : CollectorConfig}
    (mem : entry ∈ config.metrics.enabled) :
    ValidTopicName (config.topicOf entry) ↔
      (baseHalf config.transport.baseTopic = "" → topicHalf entry.metadata.topic ≠ "") ∧
      (baseHalf config.transport.baseTopic ≠ "" →
        (baseHalf config.transport.baseTopic).utf8ByteSize + 1 +
          (topicHalf entry.metadata.topic).utf8ByteSize ≤ 65535) := by
  obtain ⟨-, text, -⟩ := EndpointMetadata.validate_eq_ok_iff.mp (accepted.metadata entry mem)
  rw [Config.topicOf, validTopicName_joinTopic_iff accepted.transport.base_topic text,
    utf8ByteSize_joinTopic]
  have half := utf8ByteSize_trimStartMatches_le entry.metadata.topic '/'
  have short := text.short
  unfold maxTopicBytes at short ⊢
  by_cases empty : baseHalf config.transport.baseTopic = ""
  · have named : topicHalf entry.metadata.topic ≠ "" ↔
        1 ≤ (topicHalf entry.metadata.topic).utf8ByteSize := by
      rw [Ne, eq_empty_iff_size]
      omega
    have fits : (topicHalf entry.metadata.topic).utf8ByteSize ≤ 65535 := half.trans short
    simp [empty, named, fits]
  · simp only [empty, if_false, ne_eq, not_false_eq_true, true_implies, false_implies, true_and]
    omega

/-- The client takes the topics of an accepted configuration. -/
theorem validTopic_topicOf (accepted : config.Accepted) {entry : CollectorConfig}
    (mem : entry ∈ config.metrics.enabled) : validTopic (config.topicOf entry) = true := by
  obtain ⟨-, text, -⟩ := EndpointMetadata.validate_eq_ok_iff.mp (accepted.metadata entry mem)
  rw [Config.topicOf]
  exact validTopic_joinTopic accepted.transport.base_topic text

/-- The status topic of an accepted configuration is one that the client takes. -/
theorem validTopic_statusTopic (accepted : config.Accepted) :
    validTopic config.statusTopic = true := by
  rw [Config.statusTopic]
  exact validTopic_joinTopic accepted.transport.base_topic topicText_status

/-- The status topic is a valid topic name exactly when its join fits. -/
theorem validTopicName_statusTopic_iff (accepted : config.Accepted) :
    ValidTopicName config.statusTopic ↔
      (baseHalf config.transport.baseTopic).utf8ByteSize ≤ 65528 := by
  rw [Config.statusTopic,
    validTopicName_joinTopic_iff accepted.transport.base_topic topicText_status,
    utf8ByteSize_statusTopic]
  unfold maxTopicBytes
  split_ifs with empty
  · simp [empty]
  · omega

/-- Every topic of an accepted configuration is a valid topic name exactly when
the joins fit. -/
theorem agent_topics_valid_iff {env : Environment} (accepted : config.validate env = .ok ()) :
    (∀ topic ∈ config.topics, ValidTopicName topic) ↔ JoinsFit config := by
  have accepted := Config.accepted_of_validate accepted
  have status := validTopicName_statusTopic_iff accepted
  constructor
  · intro valid
    have entries : ∀ entry ∈ config.metrics.enabled, _ := fun entry mem =>
      (validTopicName_topicOf_iff accepted mem).mp
        (valid _ (List.mem_append_left _ (List.mem_map_of_mem mem)))
    exact {
      nonempty := fun empty entry mem => (entries entry mem).1 empty
      short := fun some entry mem => (entries entry mem).2 some
      shortStatus := status.mp (valid _ (List.mem_append_right _ (List.mem_singleton_self _))) }
  · intro fit topic mem
    rcases List.mem_append.mp mem with collector | statusMem
    · obtain ⟨entry, inside, rfl⟩ := List.mem_map.mp collector
      exact (validTopicName_topicOf_iff accepted inside).mpr
        ⟨fun empty => fit.nonempty empty entry inside, fun some => fit.short some entry inside⟩
    · rw [List.mem_singleton.mp statusMem]
      exact status.mpr fit.shortStatus

/-- A build with every collector, on a host with every file. -/
def fullEnvironment : Environment where
  isFile _ := true
  envFilter _ := .ok ()
  isLevel level := ["trace", "debug", "info", "warn", "error", "off"].contains level
  compiled _ := true

/-- The configuration of one collector, under the given base topic. -/
def oneCollector (base topic : String) : Config where
  metrics := { enabled := [{ name := "cpu", metadata := { topic } }] }
  transport := { clientId := "agent", baseTopic := base }

/-- No base topic and a topic that is only a slash: the topic on the wire is
empty. -/
theorem slash_topic_is_empty :
    (oneCollector "" "/").validate fullEnvironment = .ok () ∧
      ¬ ∀ topic ∈ (oneCollector "" "/").topics, ValidTopicName topic := by
  refine ⟨rfl, fun valid => ?_⟩
  have empty : "" ∈ (oneCollector "" "/").topics := by decide
  exact absurd (valid "" empty).nonempty (by decide)

/-- An ordinary base and topic. -/
theorem agent_topics_valid_ordinary :
    (oneCollector "blazebee" "metrics/cpu").validate fullEnvironment = .ok () ∧
      ((∀ topic ∈ (oneCollector "blazebee" "metrics/cpu").topics, ValidTopicName topic) ↔
        JoinsFit (oneCollector "blazebee" "metrics/cpu")) := by
  have accepted : (oneCollector "blazebee" "metrics/cpu").validate fullEnvironment = .ok () := rfl
  exact ⟨accepted, agent_topics_valid_iff accepted⟩

/-! ### Distinct topics -/

/-- Topics are distinct exactly when the collectors' halves are and none of them is
`status`. -/
theorem nodup_topics_iff (config : Config) :
    config.topics.Nodup ↔
      (config.metrics.enabled.map fun entry => topicHalf entry.metadata.topic).Nodup ∧
        ∀ entry ∈ config.metrics.enabled, topicHalf entry.metadata.topic ≠ "status" := by
  have collectors : (config.metrics.enabled.map config.topicOf).Nodup ↔
      (config.metrics.enabled.map fun entry => topicHalf entry.metadata.topic).Nodup := by
    simp only [List.Nodup, List.pairwise_map, Config.topicOf, ne_eq, joinTopic_inj]
  have status : (∀ topic ∈ config.metrics.enabled.map config.topicOf, topic ≠ config.statusTopic) ↔
      ∀ entry ∈ config.metrics.enabled, topicHalf entry.metadata.topic ≠ "status" := by
    simp only [List.forall_mem_map, Config.topicOf, Config.statusTopic, ne_eq, joinTopic_inj,
      topicHalf_status]
  rw [Config.topics, List.nodup_append, collectors]
  simp only [List.nodup_singleton, true_and, List.mem_singleton, forall_eq, status]

/-- An accepted configuration has distinct collector names; two collectors share a
topic exactly when their halves agree, and share the status topic exactly when
the half is `status`. -/
theorem agent_topics_distinct {env : Environment} (accepted : config.validate env = .ok ()) :
    (config.metrics.enabled.map (·.name)).Nodup ∧
      (∀ a b : CollectorConfig, config.topicOf a = config.topicOf b ↔
        topicHalf a.metadata.topic = topicHalf b.metadata.topic) ∧
      (∀ a : CollectorConfig, config.topicOf a = config.statusTopic ↔
        topicHalf a.metadata.topic = "status") ∧
      (config.topics.Nodup ↔
        (config.metrics.enabled.map fun entry => topicHalf entry.metadata.topic).Nodup ∧
          ∀ entry ∈ config.metrics.enabled, topicHalf entry.metadata.topic ≠ "status") := by
  refine ⟨(Config.accepted_of_validate accepted).names, fun a b => joinTopic_inj, fun a => ?_,
    nodup_topics_iff config⟩
  rw [Config.topicOf, Config.statusTopic, joinTopic_inj, topicHalf_status]

/-- Three collectors whose topics are spelled differently. -/
def collidingTopics : Config where
  metrics := { enabled := [
    { name := "cpu", metadata := { topic := "a" } },
    { name := "ram", metadata := { topic := "/a" } },
    { name := "uptime", metadata := { topic := "/status" } }] }
  transport := { clientId := "agent" }

/-- Two of them share a topic, and the third publishes over the status. -/
theorem collidingTopics_collide :
    collidingTopics.validate fullEnvironment = .ok () ∧ ¬ collidingTopics.topics.Nodup ∧
      ∃ entry ∈ collidingTopics.metrics.enabled,
        collidingTopics.topicOf entry = collidingTopics.statusTopic := by
  refine ⟨rfl, by decide, ⟨"uptime", { topic := "/status" }⟩, by decide, by decide⟩

/-- Two collectors; the slash in front of the second topic goes away in the join. -/
def twoCollectors : Config where
  metrics := { enabled := [
    { name := "cpu", metadata := { topic := "metrics/cpu" } },
    { name := "ram", metadata := { topic := "/metrics/ram" } }] }
  transport := { clientId := "agent", baseTopic := "blazebee" }

/-- They have distinct names, and their topics differ from each other and from the
status topic. -/
theorem agent_topics_distinct_ordinary :
    twoCollectors.validate fullEnvironment = .ok () ∧
      (twoCollectors.metrics.enabled.map (·.name)).Nodup ∧
      (∀ a ∈ twoCollectors.metrics.enabled, ∀ b ∈ twoCollectors.metrics.enabled, a ≠ b →
        twoCollectors.topicOf a ≠ twoCollectors.topicOf b) ∧
      (∀ a ∈ twoCollectors.metrics.enabled,
        twoCollectors.topicOf a ≠ twoCollectors.statusTopic) ∧
      twoCollectors.topics.Nodup := by
  have accepted : twoCollectors.validate fullEnvironment = .ok () := rfl
  obtain ⟨names, pairs, status, all⟩ := agent_topics_distinct accepted
  have apart : ∀ a ∈ twoCollectors.metrics.enabled, ∀ b ∈ twoCollectors.metrics.enabled,
      a ≠ b → topicHalf a.metadata.topic ≠ topicHalf b.metadata.topic := by decide
  have reserved : ∀ a ∈ twoCollectors.metrics.enabled,
      topicHalf a.metadata.topic ≠ "status" := by decide
  refine ⟨accepted, names, fun a mem b mem' ne same => ?_, fun a mem same => ?_, ?_⟩
  · exact apart a mem b mem' ne ((pairs a b).mp same)
  · exact reserved a mem ((status a).mp same)
  · exact all.mpr ⟨by decide, reserved⟩

end BlazeBee.Agent
