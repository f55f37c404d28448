import BlazeBee.Transport.Connection
import Mathlib.Data.List.Perm.Subperm

/-!
The third-party event loop behind `poll`, as far as the requests of the channel go.

It takes them, sends them, and keeps what is not acknowledged over a lost connection. Like
the client handle it is a parameter, `EventLoop`; its hypotheses are what the client
documents of a CONNACK, of an error, of the order in which requests are sent and of an
acknowledgement. Everything else that it knows, packet identifiers and timers, is its
`Memory`, of which nothing is assumed.

* `Sends.toSend`: a request that is sent was the first of those to be sent.
* `Sends.requests`, `EventLoop.reported_requests`: no request is made up or
  doubled.
-/

namespace BlazeBee.Transport

open BlazeBee.Rumqttc

/-- What the event loop holds. -/
structure Backlog (Memory : Type) where
  /-- A CONNACK has been received on the current connection. -/
  network : Bool
  /-- Sent, and not acknowledged. -/
  inflight : List Request
  /-- To be sent before anything from the channel, the next one first. -/
  pending : List Request
  memory : Memory

section Backlog

variable {Memory : Type} {options : MqttOptions} {before after : Backlog Memory}
  {queued : List Request} {r : Request} {taken : Nat}

/-- Everything held, with what is in the channel. -/
def Backlog.requests (self : Backlog Memory) (queued : List Request) : List Request :=
  self.inflight ++ (self.pending ++ queued)

/-- A request is sent over a live connection: the first pending one, or else the first of the
channel. It may be kept in flight, of which there is a largest number. -/
structure Sends (options : MqttOptions) (before after : Backlog Memory) (queued : List Request)
    (r : Request) (taken : Nat) : Prop where
  network : before.network = true ∧ after.network = true
  oldest : before.pending = r :: after.pending ∧ taken = 0 ∨
    before.pending = [] ∧ after.pending = [] ∧ taken = 1 ∧ queued.head? = some r
  inflight : after.inflight.Subperm (before.inflight ++ [r])
  window : before.inflight.length ≤ options.inflight.toNat →
    after.inflight.length ≤ options.inflight.toNat

/-- What is sent was the first of everything that is to be sent. -/
theorem Sends.toSend (sends : Sends options before after queued r taken) :
    before.pending ++ queued = r :: (after.pending ++ queued.drop taken) := by
  rcases sends.oldest with ⟨pending, rfl⟩ | ⟨none_before, none_after, rfl, first⟩
  · rw [pending, List.drop_zero, List.cons_append]
  · obtain ⟨rest, rfl⟩ := List.head?_eq_some_iff.mp first
    rw [none_before, none_after]
    rfl

/-- It is held once more at most. -/
theorem Sends.requests (sends : Sends options before after queued r taken) :
    (after.requests (queued.drop taken)).Subperm (before.requests queued) := by
  unfold Backlog.requests
  rw [sends.toSend, List.append_cons]
  exact (List.subperm_append_right _).mpr sends.inflight

end Backlog

/-- The event loop of the client, with whatever it remembers. The fields are what its
documentation promises of a CONNACK, an error, a send and an acknowledgement; nothing is
assumed of the order in which requests that were sent before are sent again. -/
structure EventLoop (Memory : Type) where
  /-- Before the first connection. -/
  new : MqttOptions → Memory
  /-- The broker accepts a connection, with a session of the client or without. -/
  connAck : Backlog Memory → Bool → Backlog Memory
  /-- A poll fails, and so many requests are taken from the channel. -/
  failed : Backlog Memory → List Request → ConnectionError → Nat × Backlog Memory
  /-- A request is sent, with so many taken from the channel. -/
  transmit : MqttOptions → Backlog Memory → List Request →
    Option (Request × Nat × Backlog Memory)
  /-- Any other event; an acknowledgement is one for the request at the index. -/
  reported : Backlog Memory → Event → Nat → Backlog Memory
  connAck_network : ∀ b present, (connAck b present).network = true
  connAck_inflight : ∀ b present, (connAck b present).inflight = b.inflight
  /-- Without a session there is nothing to be sent again. -/
  connAck_pending : ∀ b present,
    (connAck b present).pending = if present then b.pending else []
  failed_network : ∀ b queued e, (failed b queued e).2.network = false
  failed_inflight : ∀ b queued e, (failed b queued e).2.inflight.Sublist b.inflight
  /-- Whatever an error does, it makes up no request and doubles none. -/
  failed_requests : ∀ b queued e,
    ((failed b queued e).2.requests (queued.drop (failed b queued e).1)).Subperm
      (b.requests queued)
  /-- When a live connection breaks, what is not acknowledged is to be sent again, and so is
  what is still in the channel. An attempt to connect that fails may leave both alone. -/
  failed_connection : ∀ b queued e, b.network = true →
    (failed b queued e).1 = queued.length ∧ (failed b queued e).2.inflight = [] ∧
      (failed b queued e).2.pending.Perm (b.pending ++ b.inflight ++ queued)
  transmit_sends : ∀ options b queued r taken after,
    transmit options b queued = some (r, taken, after) → Sends options b after queued r taken
  reported_network : ∀ b event index, (reported b event index).network = b.network
  reported_pending : ∀ b event index, (reported b event index).pending = b.pending
  /-- What is acknowledged is not kept. -/
  reported_inflight : ∀ b event index, (reported b event index).inflight.Sublist b.inflight

namespace EventLoop

variable {Memory : Type} (eventLoop : EventLoop Memory)

/-- A report of the event loop moves requests between its stores or drops them, and makes no
new ones. -/
theorem reported_requests (b : Backlog Memory) (event : Event) (index : Nat)
    (queued : List Request) :
    ((eventLoop.reported b event index).requests queued).Subperm (b.requests queued) := by
  unfold Backlog.requests
  rw [eventLoop.reported_pending]
  exact ((eventLoop.reported_inflight b event index).append (List.Sublist.refl _)).subperm

/-- What it keeps of a request that it sends: a publish with a packet identifier. -/
def unacknowledged : Request → List Request
  | .publish p => if p.qos.hasPacketId then [.publish p] else []
  | .disconnect => []

/-- Of one request at most that request is kept. -/
theorem unacknowledged_sublist (r : Request) : (unacknowledged r).Sublist [r] := by
  cases r with
  | disconnect => exact List.nil_sublist _
  | publish p =>
      simp only [unacknowledged]
      split_ifs
      · exact List.Sublist.refl _
      · exact List.nil_sublist _

/-- Sending the first request that is to be sent, while the window has room. -/
def transmitNext (options : MqttOptions) (b : Backlog Memory) (queued : List Request) :
    Option (Request × Nat × Backlog Memory) :=
  if b.network = true ∧ b.inflight.length < options.inflight.toNat then
    match b.pending, queued with
    | r :: rest, _ =>
        some (r, 0, { b with pending := rest, inflight := b.inflight ++ unacknowledged r })
    | [], r :: _ => some (r, 1, { b with inflight := b.inflight ++ unacknowledged r })
    | [], [] => none
  else none

/-- The packet sent next is one that the laws of sending allow. -/
theorem sends_of_transmitNext {options : MqttOptions} {b after : Backlog Memory}
    {queued : List Request} {r : Request} {taken : Nat}
    (sent : transmitNext options b queued = some (r, taken, after)) :
    Sends options b after queued r taken := by
  have window : ∀ r, b.inflight.length < options.inflight.toNat →
      (b.inflight ++ unacknowledged r).length ≤ options.inflight.toNat := by
    intro r room
    have one := (unacknowledged_sublist r).length_le
    rw [List.length_singleton] at one
    rw [List.length_append]
    omega
  have kept : ∀ r, (b.inflight ++ unacknowledged r).Subperm (b.inflight ++ [r]) := fun r =>
    ((List.Sublist.refl _).append (unacknowledged_sublist r)).subperm
  unfold transmitNext at sent
  split_ifs at sent with may
  split at sent
  · next pending =>
      cases sent
      exact ⟨⟨may.1, may.1⟩, Or.inl ⟨pending, rfl⟩, kept r, fun _ => window r may.2⟩
  · next pending =>
      cases sent
      exact ⟨⟨may.1, may.1⟩, Or.inr ⟨pending, pending, rfl, rfl⟩, kept r,
        fun _ => window r may.2⟩
  · cases sent

/-- The event loop that does no more than that, and remembers nothing else. An attempt to
connect that fails leaves the channel alone. -/
def documented : EventLoop Unit where
  new _ := ()
  connAck b present :=
    { b with network := true, pending := if present then b.pending else [] }
  failed b queued _ :=
    if b.network then (queued.length, ⟨false, [], b.pending ++ b.inflight ++ queued, b.memory⟩)
    else (0, b)
  transmit := transmitNext
  reported b event index :=
    match event with
    | .otherIncoming => { b with inflight := b.inflight.eraseIdx index }
    | _ => b
  connAck_network _ _ := rfl
  connAck_inflight _ _ := rfl
  connAck_pending _ _ := rfl
  failed_network b queued e := by
    cases network : b.network <;> simp [network]
  failed_inflight b queued e := by
    cases b.network
    · exact List.Sublist.refl _
    · exact List.nil_sublist _
  failed_requests b queued e := by
    cases b.network with
    | false => exact List.Subperm.refl _
    | true =>
        refine List.Perm.subperm ?_
        simp only [Backlog.requests, if_true, List.drop_length, List.nil_append, List.append_nil,
          ← List.append_assoc]
        exact List.perm_append_comm.append_right _
  failed_connection b queued e network := by simp [network]
  transmit_sends _ _ _ _ _ _ sent := sends_of_transmitNext sent
  reported_network b event index := by cases event <;> rfl
  reported_pending b event index := by cases event <;> rfl
  reported_inflight b event index := by
    cases event with
    | otherIncoming => exact List.eraseIdx_sublist _ _
    | connAck code present => exact List.Sublist.refl _
    | outgoing o => exact List.Sublist.refl _

end EventLoop

end BlazeBee.Transport
