import BlazeBee.Transport.Config

/-!
Payload encoding (`serializer.rs`): serialization followed by optional
compression. The encoders and compressors are third-party code and enter as
`Codecs`.
-/

namespace BlazeBee.Transport

open BlazeBee.Rumqttc

/-- `serde_json`, `rmp_serde`, `ciborium`, `flate2` and `zstd` for one type of
values. -/
structure Codecs (Value : Type) where
  json : Value → Except String (List UInt8)
  messagePack : Value → Except String (List UInt8)
  cbor : Value → Except String (List UInt8)
  gzip : List UInt8 → Except IoError (List UInt8)
  zstd : Int → List UInt8 → Except IoError (List UInt8)

/-- The level that the source fixes. -/
def zstdLevel : Int := 3

/-- How a publisher encodes its values. -/
structure Serializer where
  format : SerializationFormat
  compression : CompressionType
  threshold : Nat
deriving DecidableEq, Repr

/-- The serializer of a configuration. -/
def Serializer.new (config : SerializationConfig) : Serializer where
  format := config.format
  compression := config.compression
  threshold := config.compressionThreshold.toNat

namespace Serializer

variable {Value : Type} (codecs : Codecs Value) (self : Serializer)

/-- The value in the configured format, not yet compressed. -/
def serialize (value : Value) : Except String (List UInt8) :=
  match self.format with
  | .json => codecs.json value
  | .messagePack => codecs.messagePack value
  | .cbor => codecs.cbor value

/-- Compression as configured; an error of the compressor is passed on. -/
def compress (data : List UInt8) : Except TransferError (List UInt8) :=
  match self.compression with
  | .none => .ok data
  | .gzip => (codecs.gzip data).mapError .compression
  | .zstd => (codecs.zstd zstdLevel data).mapError .compression

/-- Encodes `value`. The capacity hint only sizes the buffer. -/
def encode (value : Value) (_capacityHint : Nat) : Except TransferError (List UInt8) :=
  match self.serialize codecs value with
  | .error message => .error (.serialization message)
  | .ok buf =>
      if self.compression = .none ∨ buf.length < self.threshold then .ok buf
      else self.compress codecs buf

/-- Encoding fails only in the serializer or the compressor: never over a size,
and never at the queue. -/
theorem encode_error {value : Value} {hint : Nat} {e : TransferError}
    (failed : self.encode codecs value hint = .error e) :
    (∃ message, e = .serialization message) ∨ ∃ source, e = .compression source := by
  unfold encode at failed
  cases serialized : self.serialize codecs value with
  | error message =>
      simp only [serialized, Except.error.injEq] at failed
      exact Or.inl ⟨message, failed.symm⟩
  | ok buf =>
      simp only [serialized] at failed
      split_ifs at failed with plain
      unfold compress at failed
      right
      cases kind : self.compression with
      | none => simp [kind] at failed
      | gzip =>
          cases packed : codecs.gzip buf with
          | error source =>
              simp only [kind, packed, Except.mapError, Except.error.injEq] at failed
              exact ⟨source, failed.symm⟩
          | ok data => simp [kind, packed, Except.mapError] at failed
      | zstd =>
          cases packed : codecs.zstd zstdLevel buf with
          | error source =>
              simp only [kind, packed, Except.mapError, Except.error.injEq] at failed
              exact ⟨source, failed.symm⟩
          | ok data => simp [kind, packed, Except.mapError] at failed

end Serializer

end BlazeBee.Transport
