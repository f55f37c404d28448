import BlazeBee.Lib.Checks
import BlazeBee.Transport.Error

/-!
Transport configuration (`config.rs`): the values, their defaults and their
validation. Whether a path names a readable file is a property of the host, so
`isFile` is a parameter.
-/

namespace BlazeBee.Transport

open BlazeBee.Lib BlazeBee.Lib.Text

/-- Largest MQTT 3.1.1 packet. -/
def maxPacketSizeLimit : UInt32 := 268435455

/-- Smallest keep-alive accepted. -/
def minKeepAliveSecs : UInt16 := 5

/-- Wire encoding of a published value. -/
inductive SerializationFormat where
  | json
  | messagePack
  | cbor
deriving DecidableEq, Repr

/-- `SerializationFormat as u8`. -/
def SerializationFormat.toU8 : SerializationFormat → UInt8
  | .json => 0
  | .messagePack => 1
  | .cbor => 2

/-- Compression applied after serialization. -/
inductive CompressionType where
  | none
  | gzip
  | zstd
deriving DecidableEq, Repr

/-- How values are encoded, with the defaults of the source. -/
structure SerializationConfig where
  format : SerializationFormat := .json
  compression : CompressionType := .none
  compressionThreshold : UInt32 := 1024
deriving DecidableEq, Repr

/-- Whether payloads are split into frames. -/
structure FramingConfig where
  enabled : Bool := false
deriving DecidableEq, Repr

/-- Password or other credential. -/
structure Secret where
  expose : String
deriving DecidableEq

/-- The TLS settings; all paths are optional. -/
structure TlsConfig where
  enabled : Bool := false
  caCertPath : Option String := none
  clientCertPath : Option String := none
  clientKeyPath : Option String := none
deriving DecidableEq, Repr

/-- A certificate authority enables TLS by itself. -/
def TlsConfig.isEnabled (self : TlsConfig) : Bool :=
  self.enabled || self.caCertPath.isSome

/-- A client certificate needs its key. -/
def TlsConfig.hasClientAuth (self : TlsConfig) : Bool :=
  self.clientCertPath.isSome && self.clientKeyPath.isSome

/-- One turn of the loop over the three paths. -/
def TlsConfig.checkFile (isFile : String → Bool) (field : String) :
    Option String → Except ConfigError Unit
  | none => .ok ()
  | some path => rejectIf (!isFile path) ⟨field, path ++ " is not a readable file"⟩

/-- The client's pair is complete, and every file given can be read. Nothing is checked while
TLS is off. -/
def TlsConfig.validate (isFile : String → Bool) (self : TlsConfig) : Except ConfigError Unit :=
  if !self.isEnabled then .ok ()
  else do
    rejectIf (self.clientCertPath.isSome != self.clientKeyPath.isSome)
      ⟨"tls", "client_cert_path and client_key_path must be set together"⟩
    checkFile isFile "tls.ca_cert_path" self.caCertPath
    checkFile isFile "tls.client_cert_path" self.clientCertPath
    checkFile isFile "tls.client_key_path" self.clientKeyPath

/-- Broker connection settings. -/
structure Config where
  baseTopic : String := "blazebee_mqtt_v3"
  host : String := "localhost"
  port : UInt16 := 1883
  clientId : String := ""
  username : Option String := none
  password : Option Secret := none
  cleanSession : Bool := false
  keepAlive : UInt16 := 60
  maxInflight : UInt16 := 10
  maxPacketSize : UInt32 := 1048576
  requestChannelCapacity : UInt16 := 64
  tls : TlsConfig := {}
  serialization : SerializationConfig := {}
  framing : FramingConfig := {}
deriving DecidableEq

/-- Byte length, wildcards and NUL of one half of a topic. -/
def validateTopicChars (field topic : String) : Except ConfigError Unit := do
  rejectIf (decide (topic.utf8ByteSize > 65535)) ⟨field, "must be at most 65535 bytes"⟩
  rejectIf (contains topic '+' || contains topic '#')
    ⟨field, "publish topics must not contain wildcards"⟩
  rejectIf (contains topic (Char.ofNat 0)) ⟨field, "must not contain NUL"⟩

/-- The checks of the transport section, in the order in which the source makes them; the
first that fails is reported. -/
def Config.validate (isFile : String → Bool) (self : Config) : Except ConfigError Unit := do
  let host := trim self.host
  rejectIf (host.isEmpty || host.toList.any isWhitespace)
    ⟨"host", "must be a host name or IP address"⟩
  rejectIf (self.port == 0) ⟨"port", "must be in 1..=65535"⟩
  rejectIf self.clientId.isEmpty ⟨"client_id", "must not be empty"⟩
  rejectIf (contains self.clientId (Char.ofNat 0)) ⟨"client_id", "must not contain NUL"⟩
  rejectIf (decide (self.keepAlive < minKeepAliveSecs))
    ⟨"keep_alive", "must be at least 5 seconds"⟩
  rejectIf (self.maxInflight == 0) ⟨"max_inflight", "must be at least 1"⟩
  rejectIf (!(decide (64 ≤ self.maxPacketSize) && decide (self.maxPacketSize ≤ maxPacketSizeLimit)))
    ⟨"max_packet_size", "must be in 64..=268435455 bytes"⟩
  rejectIf (self.requestChannelCapacity == 0) ⟨"request_channel_capacity", "must be at least 1"⟩
  rejectIf (self.password.isSome && self.username.isNone)
    ⟨"password", "requires username (MQTT 3.1.1)"⟩
  validateTopicChars "base_topic" self.baseTopic
  self.tls.validate isFile

/-- Where and how a value is published. -/
structure EndpointMetadata where
  topic : String := ""
  qos : UInt8 := 0
  retain : Bool := false
deriving DecidableEq, Repr

/-- The checks of one endpoint. -/
def EndpointMetadata.validate (self : EndpointMetadata) : Except ConfigError Unit := do
  rejectIf self.topic.isEmpty ⟨"topic", "must not be empty"⟩
  validateTopicChars "topic" self.topic
  rejectIf (decide (self.qos > 2)) ⟨"qos", "must be 0, 1 or 2"⟩

/-! ### What an accepted value satisfies -/

open BlazeBee.Lib.Mqtt (TopicText maxTopicBytes)

/-- The check of a topic accepts what the client and the protocol take. -/
theorem validateTopicChars_eq_ok_iff {field topic : String} :
    validateTopicChars field topic = .ok () ↔ TopicText topic := by
  simp only [validateTopicChars, bind_unit_eq_ok_iff, rejectIf_eq_ok, decide_eq_false_iff_not,
    Bool.or_eq_false_iff, contains_eq_false_iff, Nat.not_lt]
  constructor
  · rintro ⟨short, ⟨no_plus, no_hash⟩, no_nul⟩
    exact ⟨short, no_plus, no_hash, no_nul⟩
  · rintro ⟨short, no_plus, no_hash, no_nul⟩
    exact ⟨short, ⟨no_plus, no_hash⟩, no_nul⟩

/-- An endpoint is accepted with a topic that is not empty and of the accepted characters,
and a QoS that exists. -/
theorem EndpointMetadata.validate_eq_ok_iff {metadata : EndpointMetadata} :
    metadata.validate = .ok () ↔
      metadata.topic ≠ "" ∧ TopicText metadata.topic ∧ metadata.qos ≤ 2 := by
  simp only [validate, bind_unit_eq_ok_iff, rejectIf_eq_ok, validateTopicChars_eq_ok_iff,
    ← Bool.not_eq_true, String.isEmpty_iff, decide_eq_true_eq, UInt8.not_lt, gt_iff_lt, ne_eq]

/-- What the rest of the transport relies on in an accepted configuration: limits that MQTT
allows, and a base topic of characters and a length that it can carry. -/
structure Config.Accepted (config : Config) : Prop where
  packet_min : 64 ≤ config.maxPacketSize.toNat
  packet_max : config.maxPacketSize.toNat ≤ 268435455
  capacity_pos : 0 < config.requestChannelCapacity.toNat
  base_topic : TopicText config.baseTopic

/-- What later proofs rely on about a configuration that was accepted. -/
theorem Config.accepted_of_validate {isFile : String → Bool} {self : Config}
    (valid : self.validate isFile = .ok ()) : self.Accepted := by
  simp only [validate, bind_unit_eq_ok_iff, rejectIf_eq_ok, validateTopicChars_eq_ok_iff,
    Bool.not_eq_false', Bool.and_eq_true, decide_eq_true_eq] at valid
  obtain ⟨-, -, -, -, -, -, ⟨min, max⟩, capacity, -, base, -⟩ := valid
  refine ⟨UInt32.le_iff_toNat_le.mp min, UInt32.le_iff_toNat_le.mp max, ?_, base⟩
  rw [beq_eq_false_iff_ne] at capacity
  refine Nat.pos_of_ne_zero fun zero => capacity (UInt16.toNat_inj.mp zero)

/-! ### What an error names -/

/-- A refused topic is reported under the field that was checked. -/
theorem field_of_validateTopicChars {field topic : String} {e : ConfigError}
    (refused : validateTopicChars field topic = .error e) : e.field = field := by
  simp only [validateTopicChars, bind_unit_eq_error_iff, rejectIf_eq_error] at refused
  rcases refused with ⟨-, rfl⟩ | ⟨-, ⟨-, rfl⟩ | ⟨-, -, rfl⟩⟩
  · rfl
  · rfl
  · rfl

/-- An unreadable file is reported under its own field. -/
theorem field_of_checkFile {isFile : String → Bool} {field : String} {path : Option String}
    {e : ConfigError} (refused : TlsConfig.checkFile isFile field path = .error e) :
    e.field = field := by
  cases path with
  | none => cases refused
  | some path =>
      obtain ⟨-, rfl⟩ := rejectIf_eq_error.mp refused
      rfl

/-- The section is named, or one of its paths. -/
theorem field_of_tls {isFile : String → Bool} {self : TlsConfig} {e : ConfigError}
    (refused : self.validate isFile = .error e) :
    e.field ∈ ["tls", "tls.ca_cert_path", "tls.client_cert_path", "tls.client_key_path"] := by
  unfold TlsConfig.validate at refused
  split_ifs at refused
  simp only [bind_unit_eq_error_iff, rejectIf_eq_error] at refused
  rcases refused with ⟨-, rfl⟩ | ⟨-, ca | ⟨-, cert | ⟨-, key⟩⟩⟩
  · simp
  · simp [field_of_checkFile ca]
  · simp [field_of_checkFile cert]
  · simp [field_of_checkFile key]

/-- The default configuration lacks only a client id. -/
theorem Config.validate_default (isFile : String → Bool) :
    Config.validate isFile {} = .error ⟨"client_id", "must not be empty"⟩ ∧
      Config.validate isFile { clientId := "test" } = .ok () :=
  ⟨rfl, rfl⟩

end BlazeBee.Transport
