import BlazeBee.Transport.Publisher

/-!
The joined topic in terms of its two halves.

`joinTopic_eq` is the case split on an empty base; size, characters and equality
of joined topics follow from it. Only the length and emptiness limits of a topic
name are not inherited from the halves: `validTopicName_joinTopic_iff` says what
is left to check.
-/

namespace BlazeBee.Transport

open BlazeBee.Lib.Text BlazeBee.Lib.Mqtt BlazeBee.Rumqttc

/-- The half of a joined topic that the base contributes. -/
def baseHalf (base : String) : String := trimEndMatches base '/'

/-- The half that the endpoint contributes. -/
def topicHalf (topic : String) : String := trimStartMatches topic '/'

variable {base topic a b : String}

/-- The halves are trimmed of slashes and joined by one; an empty base leaves the topic
alone. -/
theorem joinTopic_eq (base topic : String) :
    joinTopic base topic =
      if baseHalf base = "" then topicHalf topic else baseHalf base ++ "/" ++ topicHalf topic := by
  unfold joinTopic baseHalf topicHalf
  by_cases empty : trimEndMatches base '/' = ""
  · simp [empty]
  · simp [empty]

/-- A string is empty exactly when it has no bytes. -/
theorem eq_empty_iff_size {s : String} : s = "" ↔ s.utf8ByteSize = 0 :=
  String.utf8ByteSize_eq_zero_iff.symm

/-- The length of a joined topic, in bytes, from those of its halves. -/
theorem utf8ByteSize_joinTopic (base topic : String) :
    (joinTopic base topic).utf8ByteSize =
      if baseHalf base = "" then (topicHalf topic).utf8ByteSize
      else (baseHalf base).utf8ByteSize + 1 + (topicHalf topic).utf8ByteSize := by
  rw [joinTopic_eq]
  split_ifs with empty
  · rfl
  · rw [String.utf8ByteSize_append, String.utf8ByteSize_append]
    rfl

/-- Every character of the joined topic but the separator comes from one half. -/
theorem mem_of_mem_joinTopic {c : Char} (mem : c ∈ (joinTopic base topic).toList)
    (other : c ≠ '/') : c ∈ base.toList ∨ c ∈ topic.toList := by
  rw [joinTopic_eq] at mem
  split_ifs at mem with empty
  · exact Or.inr (mem_of_mem_trimStartMatches _ _ mem)
  · rw [String.toList_append, String.toList_append, List.mem_append, List.mem_append] at mem
    rcases mem with (inBase | separator) | inTopic
    · exact Or.inl (mem_of_mem_trimEndMatches _ _ inBase)
    · exact absurd (List.mem_singleton.mp separator) other
    · exact Or.inr (mem_of_mem_trimStartMatches _ _ inTopic)

/-- Under one base, joined topics agree exactly when the endpoints' halves do. -/
theorem joinTopic_inj : joinTopic base a = joinTopic base b ↔ topicHalf a = topicHalf b := by
  rw [joinTopic_eq, joinTopic_eq]
  split_ifs with empty
  · exact Iff.rfl
  · constructor
    · intro same
      have lists := congrArg String.toList same
      simp only [String.toList_append, List.append_assoc, List.append_cancel_left_eq] at lists
      exact String.toList_inj.mp lists
    · intro same
      rw [same]

/-! ### Topic names -/

/-- The halves pass on their characters; the length and a nonempty name are what
the join can break. -/
theorem validTopicName_joinTopic_iff (baseText : TopicText base) (topicText : TopicText topic) :
    ValidTopicName (joinTopic base topic) ↔
      1 ≤ (joinTopic base topic).utf8ByteSize ∧
        (joinTopic base topic).utf8ByteSize ≤ maxTopicBytes := by
  constructor
  · intro valid
    exact ⟨valid.nonempty, valid.short⟩
  · rintro ⟨nonempty, short⟩
    have absent : ∀ c, c ≠ '/' → c ∉ base.toList → c ∉ topic.toList →
        c ∉ (joinTopic base topic).toList := by
      intro c other notBase notTopic mem
      rcases mem_of_mem_joinTopic mem other with inBase | inTopic
      · exact notBase inBase
      · exact notTopic inTopic
    exact {
      short
      nonempty
      no_plus := absent _ (by decide) baseText.no_plus topicText.no_plus
      no_hash := absent _ (by decide) baseText.no_hash topicText.no_hash
      no_nul := absent _ (by decide) baseText.no_nul topicText.no_nul }

/-- The client takes a topic joined from two halves without wildcards. -/
theorem validTopic_joinTopic (baseText : TopicText base) (topicText : TopicText topic) :
    validTopic (joinTopic base topic) = true := by
  have absent : ∀ c, c ≠ '/' → c ∉ base.toList → c ∉ topic.toList →
      contains (joinTopic base topic) c = false := by
    intro c other notBase notTopic
    rw [contains_eq_false_iff]
    intro mem
    rcases mem_of_mem_joinTopic mem other with inBase | inTopic
    · exact notBase inBase
    · exact notTopic inTopic
  rw [validTopic, absent _ (by decide) baseText.no_plus topicText.no_plus,
    absent _ (by decide) baseText.no_hash topicText.no_hash]
  rfl

/-! ### The status topic -/

/-- Status messages go to the joined topic of this name. -/
theorem topicHalf_status : topicHalf "status" = "status" := by decide

/-- The status topic adds nothing that the client refuses. -/
theorem topicText_status : TopicText "status" :=
  ⟨by decide, by decide, by decide, by decide⟩

/-- The length of the status topic, in bytes: seven more than the base, or six without
one. -/
theorem utf8ByteSize_statusTopic (base : String) :
    (joinTopic base "status").utf8ByteSize =
      if baseHalf base = "" then 6 else (baseHalf base).utf8ByteSize + 7 := by
  rw [utf8ByteSize_joinTopic, topicHalf_status]
  rfl

end BlazeBee.Transport
