import BlazeBee.Lib.Channel
import BlazeBee.Lib.Mqtt
import BlazeBee.Lib.Text

/-!
The third-party MQTT client, as far as the transport relies on it: the values
it exchanges with the client, and the documented behaviour of the two
non-blocking calls on the bounded request channel. The client itself is a
parameter, `AsyncClient`; nothing else about it is used.
-/

namespace BlazeBee.Rumqttc

open BlazeBee.Lib

/-- The three delivery guarantees of MQTT. The status message and the will use the middle
one. -/
inductive QoS where
  | atMostOnce
  | atLeastOnce
  | exactlyOnce
deriving DecidableEq, Repr

/-- A packet identifier is sent for QoS 1 and 2. -/
def QoS.hasPacketId : QoS → Bool
  | .atMostOnce => false
  | .atLeastOnce | .exactlyOnce => true

/-- What a client hands to `try_publish`: the fields of the PUBLISH packet that is written
later. -/
structure Publish where
  topic : String
  qos : QoS
  retain : Bool
  payload : List UInt8
deriving DecidableEq, Repr

/-- The MQTT 3.1.1 size of the PUBLISH packet a request turns into. -/
def Publish.size (p : Publish) : Nat :=
  Mqtt.packetSize (Mqtt.publishRemaining p.topic.utf8ByteSize p.qos.hasPacketId p.payload.length)

/-- What the request channel carries to the event loop; of the client's requests the
transport uses these two. -/
inductive Request where
  | publish (p : Publish)
  | disconnect
deriving DecidableEq, Repr

/-- A refused call hands the request back. It does not say why: a full queue, a closed one
and a wildcard in the topic look alike. -/
inductive ClientError where
  | request (r : Request)
  | tryRequest (r : Request)
deriving DecidableEq, Repr

/-- Whether `try_publish` takes a topic: it refuses the two wildcards. -/
def validTopic (topic : String) : Bool :=
  !(Text.contains topic '+') && !(Text.contains topic '#')

/-- The bounded channel between the client handles and the event loop. -/
abbrev RequestChannel := Channel Request

/-- The client handle. `try_publish` and `try_disconnect` never wait; they append to the
request channel or hand the request back. The laws are all that is known of them, so what is
proved holds for every version of the client that keeps to its documentation. -/
structure AsyncClient where
  tryPublish : RequestChannel → Publish → Except ClientError RequestChannel
  tryDisconnect : RequestChannel → Except ClientError RequestChannel
  publish_accepted : ∀ (ch ch' : RequestChannel) (p : Publish), validTopic p.topic = true →
    ch.trySend (.publish p) = .ok ch' → tryPublish ch p = .ok ch'
  publish_refused : ∀ (ch : RequestChannel) (p : Publish) (e : Channel.TrySendError),
    ch.trySend (.publish p) = .error e → tryPublish ch p = .error (.tryRequest (.publish p))
  publish_wildcard : ∀ (ch : RequestChannel) (p : Publish), validTopic p.topic = false →
    tryPublish ch p = .error (.tryRequest (.publish p))
  disconnect_accepted : ∀ ch ch' : RequestChannel,
    ch.trySend .disconnect = .ok ch' → tryDisconnect ch = .ok ch'
  disconnect_refused : ∀ (ch : RequestChannel) (e : Channel.TrySendError),
    ch.trySend .disconnect = .error e → tryDisconnect ch = .error (.tryRequest .disconnect)

/-- The client with exactly the documented behaviour. -/
def AsyncClient.documented : AsyncClient where
  tryPublish ch p :=
    if validTopic p.topic then
      match ch.trySend (.publish p) with
      | .ok ch' => .ok ch'
      | .error _ => .error (.tryRequest (.publish p))
    else .error (.tryRequest (.publish p))
  tryDisconnect ch :=
    match ch.trySend .disconnect with
    | .ok ch' => .ok ch'
    | .error _ => .error (.tryRequest .disconnect)
  publish_accepted ch ch' p valid sent := by simp [valid, sent]
  publish_refused ch p e refused := by simp [refused]
  publish_wildcard ch p wildcard := by simp [wildcard]
  disconnect_accepted ch ch' sent := by simp [sent]
  disconnect_refused ch e refused := by simp [refused]

namespace AsyncClient

variable (client : AsyncClient) {queue next : RequestChannel} {p : Publish}

/-- A publish is taken only with a valid topic, and by the channel. -/
theorem tryPublish_ok (taken : client.tryPublish queue p = .ok next) :
    validTopic p.topic = true ∧ queue.trySend (.publish p) = .ok next := by
  cases valid : validTopic p.topic with
  | false =>
      rw [client.publish_wildcard queue p valid] at taken
      cases taken
  | true =>
      cases sent : queue.trySend (.publish p) with
      | error e =>
          rw [client.publish_refused queue p e sent] at taken
          cases taken
      | ok queue' =>
          rw [client.publish_accepted queue queue' p valid sent] at taken
          exact ⟨rfl, congrArg Except.ok (Except.ok.inj taken)⟩

/-- A publish leaves the capacity of the queue alone. -/
theorem capacity_tryPublish (taken : client.tryPublish queue p = .ok next) :
    next.capacity = queue.capacity :=
  (Channel.trySend_ok (client.tryPublish_ok taken).2).2.2.1

/-- The two reasons behind a refused publish: a wildcard in the topic, or no room, which
includes a receiver that is gone. -/
theorem tryPublish_refused {e : ClientError} (refused : client.tryPublish queue p = .error e) :
    validTopic p.topic = false ∨ queue.room = 0 := by
  cases valid : validTopic p.topic with
  | false => exact Or.inl rfl
  | true =>
      cases sent : queue.trySend (.publish p) with
      | error e' => exact Or.inr (Channel.trySend_refused_iff.mp ⟨e', sent⟩)
      | ok queue' =>
          rw [client.publish_accepted queue queue' p valid sent] at refused
          cases refused

/-- A DISCONNECT is taken only by the channel; unlike a publish it has no topic to check. -/
theorem tryDisconnect_ok (taken : client.tryDisconnect queue = .ok next) :
    queue.trySend .disconnect = .ok next := by
  cases sent : queue.trySend .disconnect with
  | error e =>
      rw [client.disconnect_refused queue e sent] at taken
      cases taken
  | ok queue' =>
      rw [client.disconnect_accepted queue queue' sent] at taken
      exact congrArg Except.ok (Except.ok.inj taken)

/-- A DISCONNECT leaves the capacity of the queue alone. -/
theorem capacity_tryDisconnect (taken : client.tryDisconnect queue = .ok next) :
    next.capacity = queue.capacity :=
  (Channel.trySend_ok (client.tryDisconnect_ok taken)).2.2.1

/-- A refused DISCONNECT found no room. -/
theorem tryDisconnect_refused {e : ClientError} (refused : client.tryDisconnect queue = .error e) :
    queue.room = 0 := by
  cases sent : queue.trySend .disconnect with
  | error e' => exact Channel.trySend_refused_iff.mp ⟨e', sent⟩
  | ok queue' =>
      rw [client.disconnect_accepted queue queue' sent] at refused
      cases refused

end AsyncClient

/-! ### What the event loop reports -/

/-- The return codes of a CONNACK in MQTT 3.1.1. -/
inductive ConnectReturnCode where
  | success
  | refusedProtocolVersion
  | badClientId
  | serviceUnavailable
  | badUserNamePassword
  | notAuthorized
deriving DecidableEq, Repr

/-- The kinds of I/O errors that the driver's classification, its tests and the file reads
use; every other kind is `other`. -/
inductive IoErrorKind where
  | addrInUse
  | permissionDenied
  | invalidInput
  | invalidData
  | connectionRefused
  | other
deriving DecidableEq, Repr

/-- An I/O error, as far as the driver looks at it or prints it. -/
structure IoError where
  kind : IoErrorKind
  message : String
deriving DecidableEq, Repr

/-- The protocol errors of the client's state machine; only the first two are fatal to the
driver. -/
inductive StateError where
  | invalidState
  | emptySubscription
  | awaitPingResp
  | outgoingPacketTooLarge (size max : Nat)
  | other (message : String)
deriving DecidableEq, Repr

/-- What a failed poll of the event loop reports. -/
inductive ConnectionError where
  | tls (message : String)
  | notConnAck (message : String)
  | requestsDone
  | connectionRefused (code : ConnectReturnCode)
  | io (e : IoError)
  | mqttState (e : StateError)
  | networkTimeout
  | other (message : String)
deriving DecidableEq, Repr

end BlazeBee.Rumqttc
