import Mathlib.Tactic.Ring

/-!
The parts of the MQTT 3.1.1 wire format that size and topic accounting rest on.

`remainingLength` is the variable-length encoding of the Remaining Length field;
`length_remainingLength_le_iff` gives its width, from which packet sizes follow
by arithmetic, and `packetSize_lt` their order. `ValidTopicName` is what a PUBLISH
or a last will may carry as its topic.
-/

namespace BlazeBee.Lib.Mqtt

/-! ### Remaining Length -/

/-- Seven bits per byte, least significant group first, with the top bit set on
every byte but the last. -/
def remainingLength (n : Nat) : List UInt8 :=
  if n < 128 then [UInt8.ofNat n]
  else UInt8.ofNat (n % 128 + 128) :: remainingLength (n / 128)

/-- The field has at most `k + 1` bytes exactly for values below `128 ^ (k + 1)`. -/
theorem length_remainingLength_le_iff (n k : Nat) :
    (remainingLength n).length ≤ k + 1 ↔ n < 128 ^ (k + 1) := by
  induction k generalizing n with
  | zero =>
      rw [remainingLength]
      split_ifs with small
      · simp [small]
      · have more : 0 < (remainingLength (n / 128)).length := by
          rw [remainingLength]
          split_ifs <;> simp
        simp only [List.length_cons]
        omega
  | succ k ih =>
      rw [remainingLength]
      split_ifs with small
      · have grow : 128 ^ 1 ≤ 128 ^ (k + 1 + 1) := Nat.pow_le_pow_right (by decide) (by omega)
        simp only [List.length_singleton]
        omega
      · rw [List.length_cons, Nat.add_le_add_iff_right, ih, Nat.div_lt_iff_lt_mul (by decide),
          ← Nat.pow_succ]

/-- The length field is never empty. -/
theorem length_remainingLength_pos (n : Nat) : 0 < (remainingLength n).length := by
  rw [remainingLength]
  split_ifs <;> simp

/-- A larger value never takes a shorter field. -/
theorem length_remainingLength_mono {a b : Nat} (le : a ≤ b) :
    (remainingLength a).length ≤ (remainingLength b).length := by
  obtain ⟨k, width⟩ := Nat.exists_eq_succ_of_ne_zero (length_remainingLength_pos b).ne'
  have small : b < 128 ^ (k + 1) := (length_remainingLength_le_iff b k).mp width.le
  rw [width]
  exact (length_remainingLength_le_iff a k).mpr (Nat.lt_of_le_of_lt le small)

/-! ### Packets -/

/-- The encoded size of a packet whose variable part has `remaining` bytes. -/
def packetSize (remaining : Nat) : Nat :=
  1 + (remainingLength remaining).length + remaining

/-- A packet with more behind its fixed header is larger. -/
theorem packetSize_lt {a b : Nat} (lt : a < b) : packetSize a < packetSize b := by
  have width := length_remainingLength_mono lt.le
  unfold packetSize
  omega

/-- The Remaining Length of a PUBLISH: length-prefixed topic, packet identifier
for QoS 1 and 2, payload. -/
def publishRemaining (topicBytes : Nat) (hasPacketId : Bool) (payloadBytes : Nat) : Nat :=
  2 + topicBytes + (if hasPacketId then 2 else 0) + payloadBytes

/-- A field that is left out when it is empty, or goes behind its two-byte length. -/
def optionalField (bytes : Nat) : Nat := if bytes = 0 then 0 else 2 + bytes

/-- The Remaining Length of a CONNECT with a last will: ten bytes of variable header,
then the client identifier, the will's topic and message, and the credentials. -/
def connectRemaining (clientIdBytes willTopicBytes willMessageBytes usernameBytes
    passwordBytes : Nat) : Nat :=
  10 + (2 + clientIdBytes) + (2 + willTopicBytes) + (2 + willMessageBytes) +
    optionalField usernameBytes + optionalField passwordBytes

/-- A CONNECT is larger than a PUBLISH on the topic of its will that carries no more than
the will does. -/
theorem publish_lt_connect {topicBytes payloadBytes messageBytes : Nat}
    (le : payloadBytes ≤ messageBytes) (hasPacketId : Bool)
    (clientIdBytes usernameBytes passwordBytes : Nat) :
    packetSize (publishRemaining topicBytes hasPacketId payloadBytes) <
      packetSize (connectRemaining clientIdBytes topicBytes messageBytes usernameBytes
        passwordBytes) := by
  have packetId : (if hasPacketId then 2 else 0) ≤ 2 := by split_ifs <;> omega
  apply packetSize_lt
  unfold publishRemaining connectRemaining
  omega

/-- A packet of up to three Remaining Length bytes, spelled out by range. -/
theorem packetSize_eq {r : Nat} (small : r < 2097152) :
    packetSize r = if r < 128 then 2 + r else if r < 16384 then 3 + r else 4 + r := by
  have one := length_remainingLength_le_iff r 0
  have two := length_remainingLength_le_iff r 1
  have three := length_remainingLength_le_iff r 2
  have pos := length_remainingLength_pos r
  unfold packetSize
  split_ifs <;> omega

/-- With at most four Remaining Length bytes the fixed header takes at most
five. -/
theorem packetSize_le {r : Nat} (fits : r < 268435456) : packetSize r ≤ 5 + r := by
  have four := (length_remainingLength_le_iff r 3).mpr (by omega)
  unfold packetSize
  omega

/-! ### Topic names -/

/-- The largest topic a two-byte length prefix can announce. -/
def maxTopicBytes : Nat := 65535

/-- The character and length limits of a topic name: short enough for its length
prefix, without wildcards and without NUL. -/
structure TopicText (topic : String) : Prop where
  short : topic.utf8ByteSize ≤ maxTopicBytes
  no_plus : '+' ∉ topic.toList
  no_hash : '#' ∉ topic.toList
  no_nul : Char.ofNat 0 ∉ topic.toList

/-- A topic name a PUBLISH may carry. -/
structure ValidTopicName (topic : String) : Prop extends TopicText topic where
  nonempty : 1 ≤ topic.utf8ByteSize

end BlazeBee.Lib.Mqtt
