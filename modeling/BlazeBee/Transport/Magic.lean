import BlazeBee.Lib.Checks
import BlazeBee.Lib.JsonText
import BlazeBee.Lib.Tagged
import BlazeBee.Transport.Serializer

/-!
How a consumer tells compressed payloads from those below the threshold.

A compressed payload starts with the magic bytes of its compression. The consumer, who does
not know the threshold, decompresses what starts with them; `recover_encode` says that it then
has what was serialized, since no value of the three formats starts so.
-/

namespace BlazeBee.Transport

open BlazeBee.Lib BlazeBee.Rumqttc

/-- The first bytes of what the compression makes. -/
def CompressionType.magic : CompressionType → List UInt8
  | .none => []
  | .gzip => [0x1F, 0x8B]
  | .zstd => [0x28, 0xB5, 0x2F, 0xFD]

/-- Exactly one value of the format. -/
def SerializationFormat.WellFormed : SerializationFormat → List UInt8 → Prop
  | .json => JsonText.WellFormed
  | .messagePack => Tagged.WellFormed Tagged.MessagePack.shape
  | .cbor => Tagged.WellFormed Tagged.Cbor.shape

/-- The decompressors of a consumer. -/
structure Decompressors where
  gunzip : List UInt8 → Except IoError (List UInt8)
  unzstd : List UInt8 → Except IoError (List UInt8)

/-- A consumer that knows the compression, and not the threshold. -/
def Decompressors.recover (consumer : Decompressors) (compression : CompressionType)
    (payload : List UInt8) : Except IoError (List UInt8) :=
  match compression with
  | .none => .ok payload
  | .gzip =>
      if CompressionType.gzip.magic.isPrefixOf payload then consumer.gunzip payload
      else .ok payload
  | .zstd =>
      if CompressionType.zstd.magic.isPrefixOf payload then consumer.unzstd payload
      else .ok payload

/-- What is relied on of the serializers, the compressors and the decompressors: each writes
its format, the two compressed formats begin with their magic, and a decompressor undoes its
compressor. -/
structure Codecs.Sound {Value : Type} (codecs : Codecs Value) (consumer : Decompressors) :
    Prop where
  json : ∀ value data, codecs.json value = .ok data → SerializationFormat.json.WellFormed data
  messagePack : ∀ value data, codecs.messagePack value = .ok data →
    SerializationFormat.messagePack.WellFormed data
  cbor : ∀ value data, codecs.cbor value = .ok data → SerializationFormat.cbor.WellFormed data
  gzip_magic : ∀ data out, codecs.gzip data = .ok out → CompressionType.gzip.magic <+: out
  zstd_magic : ∀ level data out, codecs.zstd level data = .ok out →
    CompressionType.zstd.magic <+: out
  gunzip : ∀ data out, codecs.gzip data = .ok out → consumer.gunzip out = .ok data
  unzstd : ∀ level data out, codecs.zstd level data = .ok out → consumer.unzstd out = .ok data

/-! ### No value starts with a magic -/

/-- A JSON text starts with a blank or a character of its grammar, and no magic does. -/
theorem not_json_magic {compression : CompressionType} (compresses : compression ≠ .none)
    (rest : List UInt8) : ¬ SerializationFormat.json.WellFormed (compression.magic ++ rest) := by
  intro wellFormed
  cases compression with
  | none => exact compresses rfl
  | gzip =>
      rcases JsonText.starts_of_wellFormed wellFormed with blank | start
      · cases blank
      · cases start
  | zstd =>
      rcases JsonText.starts_of_wellFormed wellFormed with blank | start
      · cases blank
      · cases start

/-- Both magics start with a byte that is a whole MessagePack value, so more bytes may not
follow. -/
theorem not_messagePack_magic {compression : CompressionType} (compresses : compression ≠ .none)
    (rest : List UInt8) :
    ¬ SerializationFormat.messagePack.WellFormed (compression.magic ++ rest) := by
  intro wellFormed
  cases compression with
  | none => exact compresses rfl
  | gzip => cases Tagged.wellFormed_single rfl wellFormed
  | zstd => cases Tagged.wellFormed_single rfl wellFormed

/-- Of the magics one starts with a reserved CBOR head and the other with a whole CBOR
value. -/
theorem not_cbor_magic {compression : CompressionType} (compresses : compression ≠ .none)
    (rest : List UInt8) : ¬ SerializationFormat.cbor.WellFormed (compression.magic ++ rest) := by
  intro wellFormed
  cases compression with
  | none => exact compresses rfl
  | gzip => exact Tagged.not_wellFormed rfl wellFormed
  | zstd => cases Tagged.wellFormed_single rfl wellFormed

/-- What is serialized does not start with the magic of a compression. -/
theorem not_magic {format : SerializationFormat} {compression : CompressionType}
    {data : List UInt8} (compresses : compression ≠ .none) (wellFormed : format.WellFormed data) :
    ¬ compression.magic <+: data := by
  rintro ⟨rest, rfl⟩
  cases format with
  | json => exact not_json_magic compresses rest wellFormed
  | messagePack => exact not_messagePack_magic compresses rest wellFormed
  | cbor => exact not_cbor_magic compresses rest wellFormed

/-! ### The consumer -/

/-- A payload without the magic is passed on as it is. -/
theorem recover_plain (consumer : Decompressors) {compression : CompressionType}
    {payload : List UInt8} (plain : compression ≠ .none → ¬ compression.magic <+: payload) :
    consumer.recover compression payload = .ok payload := by
  cases compression with
  | none => rfl
  | gzip => rw [Decompressors.recover, if_neg (mt List.isPrefixOf_iff_prefix.mp (plain nofun))]
  | zstd => rw [Decompressors.recover, if_neg (mt List.isPrefixOf_iff_prefix.mp (plain nofun))]

section Sound

variable {Value : Type} {codecs : Codecs Value} {consumer : Decompressors}
  (sound : codecs.Sound consumer) {self : Serializer}
include sound

/-- What the codec of the format writes is of the format. -/
theorem wellFormed_of_serialize {value : Value} {data : List UInt8}
    (serialized : self.serialize codecs value = .ok data) : self.format.WellFormed data := by
  unfold Serializer.serialize at serialized
  cases format : self.format with
  | json =>
      rw [format] at serialized
      exact sound.json value data serialized
  | messagePack =>
      rw [format] at serialized
      exact sound.messagePack value data serialized
  | cbor =>
      rw [format] at serialized
      exact sound.cbor value data serialized

/-- A compressed payload starts with the magic and is unpacked to what was packed. -/
theorem recover_compressed {data payload : List UInt8} (compresses : self.compression ≠ .none)
    (packed : self.compress codecs data = .ok payload) :
    self.compression.magic <+: payload ∧
      consumer.recover self.compression payload = .ok data := by
  unfold Serializer.compress at packed
  cases compression : self.compression with
  | none => exact absurd compression compresses
  | gzip =>
      rw [compression] at packed
      have out := mapError_eq_ok_iff.mp packed
      have magic := sound.gzip_magic data payload out
      refine ⟨magic, ?_⟩
      rw [Decompressors.recover, if_pos (List.isPrefixOf_iff_prefix.mpr magic)]
      exact sound.gunzip data payload out
  | zstd =>
      rw [compression] at packed
      have out := mapError_eq_ok_iff.mp packed
      have magic := sound.zstd_magic zstdLevel data payload out
      refine ⟨magic, ?_⟩
      rw [Decompressors.recover, if_pos (List.isPrefixOf_iff_prefix.mpr magic)]
      exact sound.unzstd zstdLevel data payload out

/-- The consumer has what was serialized, whatever the threshold; and a payload starts with the
magic exactly if it was compressed. -/
theorem recover_encode {value : Value} {hint : Nat} {payload : List UInt8}
    (encoded : self.encode codecs value hint = .ok payload) :
    ∃ data, self.serialize codecs value = .ok data ∧
      consumer.recover self.compression payload = .ok data ∧
      (self.compression ≠ .none →
        (self.compression.magic <+: payload ↔ self.threshold ≤ data.length)) := by
  unfold Serializer.encode at encoded
  cases serialized : self.serialize codecs value with
  | error message =>
      rw [serialized] at encoded
      cases encoded
  | ok data =>
      have wellFormed := wellFormed_of_serialize sound serialized
      simp only [serialized] at encoded
      refine ⟨data, rfl, ?_⟩
      by_cases plain : self.compression = .none ∨ data.length < self.threshold
      · rw [if_pos plain] at encoded
        obtain rfl := Except.ok.inj encoded
        have free : self.compression ≠ .none → ¬ self.compression.magic <+: data :=
          fun compresses => not_magic compresses wellFormed
        refine ⟨recover_plain consumer free, fun compresses => ?_⟩
        have below := plain.resolve_left compresses
        exact iff_of_false (free compresses) (Nat.not_le_of_lt below)
      · rw [if_neg plain] at encoded
        obtain ⟨compresses, above⟩ := not_or.mp plain
        obtain ⟨magic, recovered⟩ := recover_compressed sound compresses encoded
        exact ⟨recovered, fun _ => iff_of_true magic (Nat.le_of_not_lt above)⟩

end Sound

/-! ### Booleans -/

/-- `true` in JSON, and that in gzip and in zstd. -/
def trueText : List UInt8 := [0x74, 0x72, 0x75, 0x65]

/-- The same word through gzip. -/
def trueGzip : List UInt8 :=
  [0x1F, 0x8B, 0x08, 0x00, 0x00, 0x00, 0x00, 0x00, 0x00, 0xFF, 0x2B, 0x29, 0x2A, 0x4D, 0x05, 0x00,
    0x8D, 0x4C, 0xFC, 0xFD, 0x04, 0x00, 0x00, 0x00]

/-- The same word in a zstd frame. -/
def trueZstd : List UInt8 :=
  [0x28, 0xB5, 0x2F, 0xFD, 0x20, 0x04, 0x21, 0x00, 0x00, 0x74, 0x72, 0x75, 0x65]

/-- Codecs of the booleans. JSON has `true` and `false`, the two binary formats a byte for
each; the compressors know one input. -/
def boolCodecs : Codecs Bool where
  json value := .ok (if value then trueText else [0x66, 0x61, 0x6C, 0x73, 0x65])
  messagePack value := .ok [if value then 0xC3 else 0xC2]
  cbor value := .ok [if value then 0xF5 else 0xF4]
  gzip data := if data = trueText then .ok trueGzip else .error ⟨.other, ""⟩
  zstd _ data := if data = trueText then .ok trueZstd else .error ⟨.other, ""⟩

/-- The decompressors that undo them. -/
def boolConsumer : Decompressors where
  gunzip out := if out = trueGzip then .ok trueText else .error ⟨.other, ""⟩
  unzstd out := if out = trueZstd then .ok trueText else .error ⟨.other, ""⟩

/-- They behave as their formats prescribe. -/
theorem sound_bool : boolCodecs.Sound boolConsumer where
  json value data serialized := by
    obtain rfl := Except.ok.inj serialized
    have literal : ∀ word ∈ JsonText.literals, JsonText.WellFormed word := by
      intro word mem
      have value := @JsonText.Value.literal word [] mem
      rw [List.append_nil] at value
      exact .intro .nil value .nil
    cases value with
    | false => exact literal _ (by simp [JsonText.literals])
    | true => exact literal _ (by simp [JsonText.literals, trueText])
  messagePack value data serialized := by
    obtain rfl := Except.ok.inj serialized
    cases value with
    | false => exact .intro rfl (@Tagged.Body.bytes _ 0 [] [] rfl)
    | true => exact .intro rfl (@Tagged.Body.bytes _ 0 [] [] rfl)
  cbor value data serialized := by
    obtain rfl := Except.ok.inj serialized
    cases value with
    | false => exact .intro rfl (@Tagged.Body.bytes _ 0 [] [] rfl)
    | true => exact .intro rfl (@Tagged.Body.bytes _ 0 [] [] rfl)
  gzip_magic data out packed := by
    obtain ⟨-, rfl⟩ := ite_eq_ok_iff.mp packed
    exact ⟨_, rfl⟩
  zstd_magic level data out packed := by
    obtain ⟨-, rfl⟩ := ite_eq_ok_iff.mp packed
    exact ⟨_, rfl⟩
  gunzip data out packed := by
    obtain ⟨rfl, rfl⟩ := ite_eq_ok_iff.mp packed
    simp only [boolConsumer, if_true]
  unzstd level data out packed := by
    obtain ⟨rfl, rfl⟩ := ite_eq_ok_iff.mp packed
    simp only [boolConsumer, if_true]

/-- The same value, above one threshold and below another. -/
theorem recover_encode_true :
    (∃ data, (⟨.json, .gzip, 0⟩ : Serializer).serialize boolCodecs true = .ok data ∧
      boolConsumer.recover .gzip trueGzip = .ok data ∧
      (CompressionType.gzip ≠ .none →
        (CompressionType.gzip.magic <+: trueGzip ↔ 0 ≤ data.length))) ∧
    ∃ data, (⟨.json, .gzip, 1024⟩ : Serializer).serialize boolCodecs true = .ok data ∧
      boolConsumer.recover .gzip trueText = .ok data ∧
      (CompressionType.gzip ≠ .none →
        (CompressionType.gzip.magic <+: trueText ↔ 1024 ≤ data.length)) := by
  constructor
  · exact @recover_encode _ _ _ sound_bool ⟨.json, .gzip, 0⟩ true 0 _ rfl
  · exact @recover_encode _ _ _ sound_bool ⟨.json, .gzip, 1024⟩ true 0 _ rfl

end BlazeBee.Transport
