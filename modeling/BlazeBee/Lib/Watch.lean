import Mathlib.Tactic.Common

/-!
A watch channel: one value that its sender overwrites and its receivers look at.

The channel is seen here with one of its receivers. Versions count the writes; a
value is unseen while the receiver has not caught up with its version. The two
ways to catch up are `borrowAndUpdate`, which never waits, and `changed`, which
waits for an unseen value and fails once the sender is gone and nothing is left
unseen.
-/

namespace BlazeBee.Lib

/-- A watch channel as one of its receivers sees it: the last value, and how much of it was
seen. A receiver is never ahead of the channel. -/
structure Watch (α : Type) where
  value : α
  version : Nat
  seen : Nat
  senderAlive : Bool
  seen_le : seen ≤ version

namespace Watch

variable {α : Type}

/-- A fresh channel: its first value counts as seen. -/
def init (value : α) : Watch α := ⟨value, 0, 0, true, Nat.le_refl _⟩

/-- The sender writes. -/
def send (w : Watch α) (value : α) : Watch α :=
  { w with value, version := w.version + 1, seen_le := Nat.le_succ_of_le w.seen_le }

/-- The sender is dropped; the last value stays. -/
def dropSender (w : Watch α) : Watch α := { w with senderAlive := false }

/-- The current value has not been marked as seen by this receiver. -/
def Unseen (w : Watch α) : Prop := w.seen < w.version

instance (w : Watch α) : Decidable w.Unseen := inferInstanceAs (Decidable (_ < _))

/-- Marks the current value as seen. -/
def markSeen (w : Watch α) : Watch α := { w with seen := w.version, seen_le := Nat.le_refl _ }

/-- Reads the current value and marks it as seen. -/
def borrowAndUpdate (w : Watch α) : α × Watch α := (w.value, w.markSeen)

/-- The outcome of polling `changed`. -/
inductive Changed (α : Type) where
  | ok (w : Watch α)
  | closed
  | pending

/-- Polls for an unseen value. -/
def changed (w : Watch α) : Changed α :=
  if w.Unseen then .ok w.markSeen
  else if w.senderAlive = false then .closed
  else .pending

section Spec

variable (w : Watch α) (value : α)

@[simp] theorem send_value : (w.send value).value = value := rfl
@[simp] theorem send_senderAlive : (w.send value).senderAlive = w.senderAlive := rfl
@[simp] theorem dropSender_value : w.dropSender.value = w.value := rfl
@[simp] theorem dropSender_senderAlive : w.dropSender.senderAlive = false := rfl
@[simp] theorem markSeen_value : w.markSeen.value = w.value := rfl
@[simp] theorem markSeen_senderAlive : w.markSeen.senderAlive = w.senderAlive := rfl

/-- Every write is news to the receiver. -/
theorem unseen_send : (w.send value).Unseen := Nat.lt_succ_of_le w.seen_le

@[simp] theorem unseen_dropSender : w.dropSender.Unseen ↔ w.Unseen := Iff.rfl

@[simp] theorem not_unseen_markSeen : ¬ w.markSeen.Unseen := Nat.lt_irrefl _

/-- Once the sender is gone, `changed` never waits. -/
theorem changed_of_gone (gone : w.senderAlive = false) :
    w.Unseen ∧ w.changed = .ok w.markSeen ∨ ¬ w.Unseen ∧ w.changed = .closed := by
  by_cases unseen : w.Unseen
  · exact Or.inl ⟨unseen, by simp [changed, unseen]⟩
  · exact Or.inr ⟨unseen, by simp [changed, unseen, gone]⟩

/-- What a successful `changed` did. -/
theorem changed_eq_ok {w v : Watch α} (ok : w.changed = .ok v) : w.Unseen ∧ v = w.markSeen := by
  unfold changed at ok
  split_ifs at ok with unseen
  exact ⟨unseen, (Changed.ok.inj ok).symm⟩

/-- A failed `changed` means that the sender is gone and nothing is left to see. -/
theorem changed_eq_closed {w : Watch α} (closed : w.changed = .closed) :
    ¬ w.Unseen ∧ w.senderAlive = false := by
  unfold changed at closed
  split_ifs at closed with unseen gone
  exact ⟨unseen, gone⟩

end Spec

/-- `send_if_modified` with a comparison: a write of the value that is already
there is no write. -/
def setState [DecidableEq α] (w : Watch α) (next : α) : Watch α :=
  if w.value = next then w else w.send next

/-- The value is the new one, whether it was written or there already. -/
@[simp] theorem setState_value [DecidableEq α] (w : Watch α) (next : α) :
    (w.setState next).value = next := by
  unfold setState
  split_ifs with same
  · exact same
  · rfl

end Watch

end BlazeBee.Lib
