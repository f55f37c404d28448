import Mathlib.Data.List.Basic

/-!
A bounded multi-producer channel, seen as a value.

`trySend` appends at the back without waiting and reports a full or abandoned
channel; `drop` takes from the front. `trySendAll` is the loop that stops at
the first refusal, and `trySendAll_spec` says exactly what such a loop leaves
behind: the longest prefix that fits. `offerAll` is the loop of senders that do not
look at refusals; `offerAll_spec` says that it leaves the same.
-/

namespace BlazeBee.Lib

/-- A channel never holds more than `capacity` items. The bound is a field, so no proof about
a queue has to carry it along. -/
structure Channel (α : Type) where
  capacity : Nat
  items : List α
  receiverAlive : Bool
  bounded : items.length ≤ capacity

namespace Channel

variable {α : Type}

/-- A channel is given by its capacity, its items and whether somebody receives; the bound is
a proof. -/
theorem ext {c d : Channel α} (capacity : c.capacity = d.capacity) (items : c.items = d.items)
    (alive : c.receiverAlive = d.receiverAlive) : c = d := by
  cases c; cases d; simp_all

instance [DecidableEq α] : DecidableEq (Channel α) := fun c d =>
  decidable_of_iff (c.capacity = d.capacity ∧ c.items = d.items ∧ c.receiverAlive = d.receiverAlive)
    ⟨fun h => ext h.1 h.2.1 h.2.2, fun h => h ▸ ⟨rfl, rfl, rfl⟩⟩

/-- A fresh channel. -/
def empty (capacity : Nat) : Channel α := ⟨capacity, [], true, Nat.zero_le _⟩

/-- Number of items that can still be sent. -/
def free (c : Channel α) : Nat := c.capacity - c.items.length

/-- The free slots that sends will find: none once the receiver is gone. -/
def room (c : Channel α) : Nat := if c.receiverAlive then c.free else 0

/-- The two refusals of a send that does not wait. -/
inductive TrySendError where
  | full
  | disconnected
deriving DecidableEq, Repr

/-- Sends without waiting. -/
def trySend (c : Channel α) (a : α) : Except TrySendError (Channel α) :=
  if c.receiverAlive = false then .error .disconnected
  else if room : c.items.length < c.capacity then
    .ok { c with
      items := c.items ++ [a]
      bounded := by rw [List.length_append, List.length_singleton]; exact room }
  else .error .full

/-- Takes the `n` oldest items. -/
def drop (c : Channel α) (n : Nat) : Channel α :=
  { c with
    items := c.items.drop n
    bounded := by
      rw [List.length_drop]
      exact Nat.le_trans (Nat.sub_le _ _) c.bounded }

/-- Sends one item after the other and stops at the first refusal; what was sent
before it stays in the channel. -/
def trySendAll : Channel α → List α → Except TrySendError Unit × Channel α
  | c, [] => (.ok (), c)
  | c, a :: as =>
      match c.trySend a with
      | .error e => (.error e, c)
      | .ok d => trySendAll d as

/-- A send whose refusal is ignored. -/
def offer (c : Channel α) (a : α) : Channel α :=
  match c.trySend a with
  | .ok d => d
  | .error _ => c

/-- Sends one item after the other, whatever becomes of each. -/
def offerAll : Channel α → List α → Channel α
  | c, [] => c
  | c, a :: as => offerAll (c.offer a) as

@[simp] theorem drop_zero (c : Channel α) : c.drop 0 = c := ext rfl List.drop_zero rfl

/-! ### One send -/

section Send

variable {c d : Channel α} {a : α}

/-- An abandoned channel refuses every send, full or not. -/
theorem trySend_gone (gone : c.receiverAlive = false) : c.trySend a = .error .disconnected := by
  simp [trySend, gone]

/-- Without a free slot a send is refused as full. -/
theorem trySend_full (alive : c.receiverAlive = true) (full : c.free = 0) :
    c.trySend a = .error .full := by
  have noRoom : ¬ c.items.length < c.capacity := by
    unfold free at full
    omega
  simp [trySend, alive, noRoom]

/-- With a live receiver and a free slot the item is appended, and nothing else
changes. -/
theorem trySend_room (alive : c.receiverAlive = true) (room : 0 < c.free) :
    ∃ d, c.trySend a = .ok d ∧ d.items = c.items ++ [a] ∧ d.capacity = c.capacity ∧
      d.receiverAlive = true := by
  have room : c.items.length < c.capacity := by
    unfold free at room
    omega
  simp [trySend, alive, room]

/-- While somebody receives, the room is the free slots. -/
theorem room_of_alive (alive : c.receiverAlive = true) : c.room = c.free := by
  simp [room, alive]

/-- What an accepted send did. -/
theorem trySend_ok (sent : c.trySend a = .ok d) :
    c.room = d.room + 1 ∧ d.items = c.items ++ [a] ∧ d.capacity = c.capacity ∧
      d.receiverAlive = c.receiverAlive := by
  unfold trySend at sent
  split_ifs at sent with gone room
  have same := Except.ok.inj sent
  have alive : c.receiverAlive = true := by simpa using gone
  rw [← same]
  refine ⟨?_, rfl, rfl, rfl⟩
  simp only [Channel.room, alive, if_true, free, List.length_append, List.length_singleton]
  omega

/-- A send is refused exactly when it finds no free slot. -/
theorem trySend_refused_iff : (∃ e, c.trySend a = .error e) ↔ c.room = 0 := by
  constructor
  · rintro ⟨e, refused⟩
    by_contra some_room
    have alive : c.receiverAlive = true := by
      by_contra gone
      simp [room, gone] at some_room
    rw [room_of_alive alive] at some_room
    obtain ⟨d, sent, -⟩ := trySend_room (a := a) alive (Nat.pos_of_ne_zero some_room)
    rw [sent] at refused
    cases refused
  · intro no_room
    cases alive : c.receiverAlive with
    | true =>
        rw [room_of_alive alive] at no_room
        exact ⟨_, trySend_full alive no_room⟩
    | false => exact ⟨_, trySend_gone alive⟩

end Send

/-! ### A loop of sends -/

/-- What the loop leaves behind: as many items as there were free slots, in
order; it succeeds exactly when that is all of them. -/
theorem trySendAll_spec {c : Channel α} (as : List α) (alive : c.receiverAlive = true) :
    (c.trySendAll as).2.items = c.items ++ as.take c.free ∧
      (c.trySendAll as).2.capacity = c.capacity ∧
      (c.trySendAll as).2.receiverAlive = true ∧
      ((c.trySendAll as).1 = .ok () ↔ as.length ≤ c.free) := by
  induction as generalizing c with
  | nil => simp [trySendAll, alive]
  | cons a as ih =>
      rcases Nat.eq_zero_or_pos c.free with full | room
      · simp [trySendAll, trySend_full alive full, full, alive]
      · obtain ⟨d, sent, items, capacity, alive'⟩ := trySend_room (a := a) alive room
        have free : c.free = d.free + 1 := by
          simp only [Channel.free, items, capacity, List.length_append, List.length_singleton]
            at room ⊢
          omega
        obtain ⟨itemsRest, capacityRest, aliveRest, okRest⟩ := ih alive'
        simp only [trySendAll, sent]
        refine ⟨?_, capacityRest.trans capacity, aliveRest, ?_⟩
        · rw [itemsRest, items, free, List.take_succ_cons, List.append_assoc]
          rfl
        · rw [okRest, free, List.length_cons, Nat.add_le_add_iff_right]

/-! ### Sends whose refusals are ignored -/

/-- Two loops one after the other are one loop. -/
theorem offerAll_append (c : Channel α) (as bs : List α) :
    c.offerAll (as ++ bs) = (c.offerAll as).offerAll bs := by
  induction as generalizing c with
  | nil => rfl
  | cons a as ih => exact ih (c.offer a)

/-- An accepted send is what it was. -/
theorem offer_of_ok {c d : Channel α} {a : α} (sent : c.trySend a = .ok d) : c.offer a = d := by
  simp [offer, sent]

/-- A refused send leaves the channel as it was. -/
theorem offer_of_no_room {c : Channel α} (a : α) (no_room : c.room = 0) : c.offer a = c := by
  obtain ⟨e, refused⟩ := (trySend_refused_iff (a := a)).mpr no_room
  simp [offer, refused]

/-- In a channel with room the item is appended; otherwise nothing happens. -/
theorem offer_spec (c : Channel α) (a : α) :
    (c.offer a).items = c.items ++ [a].take c.room ∧ (c.offer a).room = c.room - 1 ∧
      (c.offer a).receiverAlive = c.receiverAlive := by
  cases sent : c.trySend a with
  | error e =>
      have no_room := trySend_refused_iff.mp ⟨e, sent⟩
      simp [offer_of_no_room a no_room, no_room]
  | ok d =>
      obtain ⟨room, items, -, alive⟩ := trySend_ok sent
      simp [offer_of_ok sent, room, items, alive]

/-- The items that fit are appended in order. -/
theorem offerAll_spec (c : Channel α) (as : List α) :
    (c.offerAll as).items = c.items ++ as.take c.room ∧
      (c.offerAll as).room = c.room - as.length := by
  induction as generalizing c with
  | nil => simp [offerAll]
  | cons a as ih =>
      obtain ⟨items, room⟩ := ih (c.offer a)
      obtain ⟨items', room', -⟩ := offer_spec c a
      constructor
      · rw [offerAll, items, items', room', List.append_assoc]
        congr 1
        cases c.room with
        | zero => simp
        | succ n => simp
      · rw [offerAll, room, room', List.length_cons]
        omega

end Channel

end BlazeBee.Lib
