import BlazeBee.Lib.Checks
import BlazeBee.Lib.Table

/-!
Loops that write into slots what they find in a list, and count how often they do.

`writeEach read write` reads each element, which has something to write or nothing, and
ends with the first error. A slot then holds what was last written to it:

* `writeEach_ok`, `writeEach_error`: what the loop gives.
* `Slot.last`, `Slot.untouched`: a slot that is written to, and one that is not.
-/

namespace BlazeBee.Lib

variable {α β ε σ ω : Type}

/-- `for a in l { s = write(s, read(a)?); n += 1; }`, where an element may have nothing. -/
def writeEach (read : α → Except ε (Option ω)) (write : σ → ω → σ) :
    σ → Nat → List α → Except ε (σ × Nat)
  | s, n, [] => .ok (s, n)
  | s, n, a :: l =>
      match read a with
      | .error e => .error e
      | .ok none => writeEach read write s n l
      | .ok (some w) => writeEach read write (write s w) (n + 1) l

/-- What an element has to write. -/
def writeOf (read : α → Except ε (Option ω)) (a : α) : Option ω :=
  match read a with
  | .ok w => w
  | .error _ => none

variable {read : α → Except ε (Option ω)} {write : σ → ω → σ}

/-- An element that is read has to write what was read. -/
theorem writeOf_of_ok {a : α} {w : Option ω} (result : read a = .ok w) : writeOf read a = w := by
  rw [writeOf, result]

/-- If no element fails, all that was read is written in order, and counted. -/
theorem writeEach_ok {l : List α} (fine : ∀ a ∈ l, ∃ w, read a = .ok w) (s : σ) (n : Nat) :
    writeEach read write s n l =
      .ok ((l.filterMap (writeOf read)).foldl write s,
        n + l.countP fun a => (writeOf read a).isSome) := by
  induction l generalizing s n with
  | nil => rfl
  | cons a l ih =>
      obtain ⟨⟨w, result⟩, later⟩ := List.forall_mem_cons.mp fine
      have here := writeOf_of_ok result
      cases w with
      | none => simp [writeEach, result, ih later, here]
      | some w =>
          simp [writeEach, result, ih later, here]
          omega

/-- If some element fails, the loop does, and what was written before is lost with the
state. -/
theorem writeEach_error {l : List α} {a : α} (mem : a ∈ l) (fails : ∃ e, read a = .error e)
    (s : σ) (n : Nat) : ∃ e, writeEach read write s n l = .error e := by
  induction l generalizing s n with
  | nil => cases mem
  | cons b l ih =>
      rw [writeEach]
      cases result : read b with
      | error e => exact ⟨e, rfl⟩
      | ok w =>
          rcases List.mem_cons.mp mem with rfl | later
          · obtain ⟨e, failed⟩ := fails
            cases result.symm.trans failed
          · cases w with
            | none => exact ih later s n
            | some w => exact ih later (write s w) (n + 1)

/-- A part of the state, with what a write has for it. -/
structure Slot (write : σ → ω → σ) (β : Type) where
  get : σ → β
  value : ω → Option β
  get_write : ∀ s w, get (write s w) = (value w).getD (get s)

namespace Slot

variable (slot : Slot write β)

/-- Behind a run of writes a slot has the last value for it, or else what it had. -/
theorem get_foldl (ws : List ω) (s : σ) :
    slot.get (ws.foldl write s) = (ws.filterMap slot.value).getLast?.getD (slot.get s) := by
  induction ws using List.reverseRecOn with
  | nil => rfl
  | append_singleton ws w ih =>
      rw [List.foldl_concat, slot.get_write, ih, List.filterMap_append]
      cases written : slot.value w with
      | none => simp [written]
      | some v => simp [written]

/-- What an element has for the slot. -/
def valueAt (read : α → Except ε (Option ω)) (a : α) : Option β :=
  (writeOf read a).bind slot.value

/-- The same for the elements that the writes were read from. -/
theorem get_run (l : List α) (s : σ) :
    slot.get ((l.filterMap (writeOf read)).foldl write s) =
      (l.filterMap (slot.valueAt read)).getLast?.getD (slot.get s) := by
  rw [get_foldl, List.filterMap_filterMap]
  rfl

/-- The last element that has something for the slot decides. -/
theorem last {l : List α} {a : α} {v : β}
    (final : IsLast (fun a => (slot.valueAt read a).isSome = true) l a)
    (value : slot.valueAt read a = some v) (s : σ) :
    slot.get ((l.filterMap (writeOf read)).foldl write s) = v := by
  obtain ⟨before, after, rfl, -, later⟩ := final
  have rest : after.filterMap (slot.valueAt read) = [] :=
    List.filterMap_eq_nil_iff.mpr fun b mem => by simpa using later b mem
  rw [get_run, List.filterMap_append, List.filterMap_cons_some value, rest]
  simp

/-- A slot that no element has anything for keeps what it had. -/
theorem untouched {l : List α} (none : ∀ a ∈ l, slot.valueAt read a = none) (s : σ) :
    slot.get ((l.filterMap (writeOf read)).foldl write s) = slot.get s := by
  rw [get_run, List.filterMap_eq_nil_iff.mpr none]
  rfl

end Slot

end BlazeBee.Lib
