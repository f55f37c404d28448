import BlazeBee.Rumqttc

/-!
Errors of the transport (`error.rs`).
-/

namespace BlazeBee.Transport

open BlazeBee.Rumqttc

/-- A configuration value that cannot be used to build a connection. -/
structure ConfigError where
  field : String
  reason : String
deriving DecidableEq, Repr

/-- How the error reads in the log. -/
def ConfigError.display (e : ConfigError) : String :=
  "transport." ++ e.field ++ ": " ++ e.reason

/-- The errors of the transport crate. -/
inductive TransferError where
  | config (e : ConfigError)
  | readFile (path : String) (source : IoError)
  | serialization (message : String)
  | compression (source : IoError)
  | payloadTooLarge (size max : Nat)
  | invalidQos (qos : UInt8)
  | framing (message : String)
  | queueFull
  | closed
  | connection (source : ConnectionError)
deriving DecidableEq, Repr

/-- `impl From<rumqttc::ClientError> for TransferError`. -/
def TransferError.ofClientError : ClientError → TransferError
  | .tryRequest _ => .queueFull
  | .request _ => .closed

/-- A refusal because of the payload's size: the two errors the size checks
raise. -/
def TransferError.refusesSize : TransferError → Bool
  | .payloadTooLarge _ _ | .framing _ => true
  | _ => false

end BlazeBee.Transport
