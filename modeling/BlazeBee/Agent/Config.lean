import BlazeBee.Transport.Config

/-!
The agent's configuration and its validation (`config/mod.rs`,
`config/metrics.rs`, `config/logger.rs`) and the registry of collectors
(`core/collectors/mod.rs`).

Which files exist, what the log filter accepts and which collectors are compiled
in are facts about the host and the build; they form the `Environment`. Sections
of the file that validation does not look at are left out.
-/

namespace BlazeBee.Agent

open BlazeBee.Lib BlazeBee.Lib.Text BlazeBee.Transport

/-- What validation asks the host, the log library and the build. -/
structure Environment where
  isFile : String → Bool
  /-- `EnvFilter::try_new`. -/
  envFilter : String → Except String Unit
  /-- Whether a word parses as a `LevelFilter`. -/
  isLevel : String → Bool
  /-- Whether the code behind a `collector-*` feature is compiled in. -/
  compiled : String → Bool

/-! ### The registry -/

/-- Feature and configuration name of every collector. -/
def descriptors : List (String × String) :=
  [("collector-arp", "arp"), ("collector-conntrack", "conntrack"), ("collector-cpu", "cpu"),
    ("collector-disk", "disk"), ("collector-edac", "edac"), ("collector-entropy", "entropy"),
    ("collector-filefd", "filefd"), ("collector-filesystem", "filesystem"),
    ("collector-hwmon", "hwmon"), ("collector-ipvs", "ipvs"), ("collector-loadavg", "load_average"),
    ("collector-mdraid", "mdraid"), ("collector-netstat", "netstat"),
    ("collector-network", "network"), ("collector-ntp", "ntp"), ("collector-power", "power"),
    ("collector-pressure", "pressure"), ("collector-processes", "processes"),
    ("collector-ram", "ram"), ("collector-schedstat", "schedstat"),
    ("collector-sockstat", "sockstat"), ("collector-softnet", "softnet"),
    ("collector-stat", "stat"), ("collector-systemd", "systemd"),
    ("collector-thermal", "thermal"), ("collector-uptime", "uptime"),
    ("collector-vmstat", "vmstat")]

/-- The names in `REGISTRY`. -/
def names (env : Environment) : List String :=
  (descriptors.filter fun d => env.compiled d.1).map Prod.snd

/-- Looks up a collector among those compiled in. -/
def find (env : Environment) (name : String) : Option String :=
  (names env).find? (· == name)

/-! ### Sections -/

/-- The journald layer of the logger. -/
structure JournaldConfig where
  enabled : Bool := false
  identifier : String := "blazebee"
deriving DecidableEq, Repr

/-- The logger's section, as far as validation reads it. -/
structure LoggerConfig where
  level : String := "info"
  journald : JournaldConfig := {}
deriving DecidableEq, Repr

/-- The level is a filter directive if it looks like one, and a plain level otherwise. -/
def LoggerConfig.validate (env : Environment) (self : LoggerConfig) : Except String Unit := do
  if contains self.level '=' || contains self.level ',' then
    (env.envFilter self.level).mapError fun e => "logger.level: " ++ e
  else
    rejectIf (!env.isLevel self.level) ("logger.level: '" ++ self.level ++ "' is not a log level")
  rejectIf (self.journald.enabled && self.journald.identifier.isEmpty)
    "logger.journald.identifier must not be empty"

/-- One entry of `collectors.enabled`. -/
structure CollectorConfig where
  name : String := ""
  metadata : EndpointMetadata := {}
deriving DecidableEq, Repr

/-- The sampling section. -/
structure MetricsConfig where
  /-- Seconds between two sampling cycles. -/
  collectionInterval : UInt64 := 5
  /-- `collectors.enabled`. -/
  enabled : List CollectorConfig := []
deriving DecidableEq, Repr

namespace MetricsConfig

/-- The loop over the enabled collectors, with the names seen so far. -/
def checkEntries (seen : List String) : List CollectorConfig → Except String Unit
  | [] => .ok ()
  | entry :: rest => do
      rejectIf entry.name.isEmpty "metrics: collector name must not be empty"
      rejectIf (seen.contains entry.name)
        ("metrics: collector '" ++ entry.name ++ "' is enabled twice")
      entry.metadata.validate.mapError fun e =>
        "metrics: collector '" ++ entry.name ++ "': " ++ e.display
      checkEntries (entry.name :: seen) rest

/-- The interval, the collectors one by one, and that there is at least one. -/
def validate (self : MetricsConfig) : Except String Unit := do
  rejectIf (self.collectionInterval == 0) "metrics.collection_interval must be at least 1 second"
  rejectIf self.enabled.isEmpty "metrics: at least one collector must be enabled"
  checkEntries [] self.enabled

end MetricsConfig

/-- The three kinds of refusals of a configuration. -/
inductive ConfigError where
  | invalid (message : String)
  | transport (e : Transport.ConfigError)
  | unknownCollector (name available : String)
deriving DecidableEq, Repr

/-- The whole configuration. -/
structure Config where
  logger : LoggerConfig := {}
  metrics : MetricsConfig := {}
  transport : Transport.Config := {}
deriving DecidableEq

namespace Config

/-- The loop that looks up every enabled collector. -/
def checkCollectors (env : Environment) (enabled : List CollectorConfig) :
    Except ConfigError Unit :=
  match enabled.find? fun entry => (find env entry.name).isNone with
  | some entry =>
      let available := (names env).mergeSort fun a b => decide (a ≤ b)
      .error (.unknownCollector entry.name (", ".intercalate available))
  | none => .ok ()

/-- The sections in the order of the source. Last comes the queue: a slot for each collector
and one for the status. -/
def validate (env : Environment) (self : Config) : Except ConfigError Unit := do
  (self.logger.validate env).mapError .invalid
  self.metrics.validate.mapError .invalid
  checkCollectors env self.metrics.enabled
  (self.transport.validate env.isFile).mapError .transport
  let needed := self.metrics.enabled.length + 1
  rejectIf (decide (self.transport.requestChannelCapacity.toNat < needed))
    (.invalid ("transport.request_channel_capacity must be at least " ++ toString needed ++
      " (enabled collectors + status)"))

end Config

/-! ### What an accepted configuration satisfies -/

/-- Accepted entries have distinct names and valid metadata. -/
theorem MetricsConfig.checkEntries_eq_ok {seen : List String} {entries : List CollectorConfig}
    (ok : checkEntries seen entries = .ok ()) :
    (entries.map (·.name)).Nodup ∧
      ∀ entry ∈ entries, entry.name ∉ seen ∧ entry.metadata.validate = .ok () := by
  induction entries generalizing seen with
  | nil => simp
  | cons entry rest ih =>
      simp only [checkEntries, bind_unit_eq_ok_iff, rejectIf_eq_ok, mapError_eq_ok_iff] at ok
      obtain ⟨-, fresh, metadata, rest_ok⟩ := ok
      obtain ⟨distinct, valid⟩ := ih rest_ok
      have new : entry.name ∉ seen := by simpa using fresh
      constructor
      · rw [List.map_cons, List.nodup_cons]
        refine ⟨fun mem => ?_, distinct⟩
        obtain ⟨other, inside, same⟩ := List.mem_map.mp mem
        exact (valid other inside).1 (same ▸ List.mem_cons_self)
      · intro other mem
        rcases List.mem_cons.mp mem with rfl | inside
        · exact ⟨new, metadata⟩
        · exact ⟨fun seenBefore => (valid other inside).1 (List.mem_cons_of_mem _ seenBefore),
            (valid other inside).2⟩

/-- What the agent relies on in an accepted configuration, beside what the transport does:
collectors with names of their own, and room in the queue for each of them and the status. -/
structure Config.Accepted (config : Config) : Prop where
  transport : config.transport.Accepted
  interval : config.metrics.collectionInterval ≠ 0
  enabled : config.metrics.enabled ≠ []
  names : (config.metrics.enabled.map (·.name)).Nodup
  metadata : ∀ entry ∈ config.metrics.enabled, entry.metadata.validate = .ok ()
  capacity : config.metrics.enabled.length + 1 ≤ config.transport.requestChannelCapacity.toNat

/-- What later proofs rely on about an accepted configuration. -/
theorem Config.accepted_of_validate {env : Environment} {self : Config}
    (valid : self.validate env = .ok ()) : self.Accepted := by
  simp only [validate, bind_unit_eq_ok_iff, rejectIf_eq_ok, mapError_eq_ok_iff,
    MetricsConfig.validate, decide_eq_false_iff_not, Nat.not_lt] at valid
  obtain ⟨-, ⟨interval, enabled, entries⟩, -, transport, capacity⟩ := valid
  obtain ⟨distinct, checked⟩ := MetricsConfig.checkEntries_eq_ok entries
  exact {
    transport := Transport.Config.accepted_of_validate transport
    interval := by simpa using interval
    enabled := by simpa using enabled
    names := distinct
    metadata := fun entry mem => (checked entry mem).2
    capacity }

end BlazeBee.Agent
