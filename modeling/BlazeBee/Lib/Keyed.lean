import BlazeBee.Lib.Writes

/-!
Loops over elements with a key, by which an element is read or passed over.

* `Keyed.run_ok`, `Keyed.run_error`: the loop fails exactly if what stands behind some key
  cannot be read.
* `Part.reported`: a part of the state comes from the last element with its key.
-/

namespace BlazeBee.Lib

variable {α β ε ι κ σ τ ω : Type}

/-- The only element of a list with its key. -/
theorem find?_of_nodup [BEq κ] [LawfulBEq κ] {f : α → κ} {l : List α} (distinct : (l.map f).Nodup)
    {a : α} (mem : a ∈ l) : l.find? (fun b => f b == f a) = some a := by
  cases found : l.find? fun b => f b == f a with
  | none => simpa using List.find?_eq_none.mp found a mem
  | some b =>
      have accepted := List.find?_some found
      rw [List.inj_on_of_nodup_map distinct (List.mem_of_find?_eq_some found) mem
        (eq_of_beq accepted)]

/-- An arm of a match on keys: the key, and how what stands behind it is read. -/
structure Arm (ι τ ω : Type) where
  key : ι
  counter : τ → Option ω

/-- Elements with a key, each read by the arm with that key. -/
structure Keyed (α ι τ ε ω : Type) where
  Has : ι → α → Prop
  unique : ∀ {i j a}, Has i a → Has j a → i = j
  argument : α → Option τ
  arms : List (Arm ι τ ω)
  read : α → Except ε (Option ω)
  read_other : ∀ a, (∀ arm ∈ arms, ¬ Has arm.key a) → read a = .ok none
  read_counter : ∀ a, ∀ arm ∈ arms, Has arm.key a →
    ∀ w, (argument a).bind arm.counter = some w → read a = .ok (some w)
  read_error : ∀ a, ∀ arm ∈ arms, Has arm.key a →
    (argument a).bind arm.counter = none → ∃ e, read a = .error e

namespace Keyed

variable {keyed : Keyed α ι τ ε ω} {store : σ → ω → σ} {a : α} {l : List α}

/-- Some arm has the key of the element. -/
def IsCounter (keyed : Keyed α ι τ ε ω) (a : α) : Prop := ∃ arm ∈ keyed.arms, keyed.Has arm.key a

/-- If some arm has the key of the element, what stands behind it can be read. -/
def Readable (keyed : Keyed α ι τ ε ω) (a : α) : Prop :=
  ∀ arm ∈ keyed.arms, keyed.Has arm.key a →
    ((keyed.argument a).bind arm.counter).isSome = true

/-- The last element with the key has the value. -/
def Reported (keyed : Keyed α ι τ ε ω) (key : ι) (read : τ → Option β) (l : List α) (n : β) :
    Prop :=
  ∃ a, IsLast (keyed.Has key) l a ∧ (keyed.argument a).bind read = some n

/-- Every key is there. -/
def Complete (keyed : Keyed α ι τ ε ω) (l : List α) : Prop :=
  ∀ arm ∈ keyed.arms, ∃ a ∈ l, keyed.Has arm.key a

/-- A readable element is read exactly if some arm has its key. -/
theorem read_readable (readable : keyed.Readable a) :
    ∃ w, keyed.read a = .ok w ∧ (w.isSome = true ↔ keyed.IsCounter a) := by
  by_cases counter : keyed.IsCounter a
  · obtain ⟨arm, mem, has⟩ := counter
    obtain ⟨w, value⟩ := Option.isSome_iff_exists.mp (readable arm mem has)
    exact ⟨some w, keyed.read_counter a arm mem has w value, by simpa using ⟨arm, mem, has⟩⟩
  · have other : ∀ arm ∈ keyed.arms, ¬ keyed.Has arm.key a :=
      fun arm mem has => counter ⟨arm, mem, has⟩
    exact ⟨none, keyed.read_other a other, by simp [counter]⟩

/-- What stands behind a key and cannot be read is an error. -/
theorem read_unreadable (unreadable : ¬ keyed.Readable a) : ∃ e, keyed.read a = .error e := by
  rw [Readable] at unreadable
  push Not at unreadable
  obtain ⟨arm, mem, has, unread⟩ := unreadable
  exact keyed.read_error a arm mem has (by simpa using unread)

/-- What is stored by a run over readable elements. -/
def stored (keyed : Keyed α ι τ ε ω) (store : σ → ω → σ) (s : σ) (l : List α) : σ :=
  (l.filterMap (writeOf keyed.read)).foldl store s

/-- A loop over readable elements stores what they have, and counts those with a key of some
arm, whichever they are. -/
theorem run_ok [DecidablePred keyed.IsCounter] (readable : ∀ a ∈ l, keyed.Readable a) (s : σ)
    (n : Nat) :
    writeEach keyed.read store s n l =
      .ok (keyed.stored store s l, n + l.countP fun a => keyed.IsCounter a) := by
  have fine : ∀ a ∈ l, ∃ w, keyed.read a = .ok w := fun a mem =>
    (read_readable (readable a mem)).imp fun w => And.left
  have counted : (l.countP fun a => (writeOf keyed.read a).isSome) =
      l.countP fun a => keyed.IsCounter a := by
    refine List.countP_congr fun a mem => ?_
    obtain ⟨w, result, counter⟩ := read_readable (readable a mem)
    rw [writeOf_of_ok result, counter, decide_eq_true_eq]
  rw [writeEach_ok fine, counted, stored]

/-- One element that cannot be read fails the loop, wherever it stands. -/
theorem run_error (mem : a ∈ l) (unreadable : ¬ keyed.Readable a) (s : σ) (n : Nat) :
    ∃ e, writeEach keyed.read store s n l = .error e :=
  writeEach_error mem (read_unreadable unreadable) s n

end Keyed

/-- A part of the state, with the arm that stores it. -/
structure Part (keyed : Keyed α ι τ ε ω) (store : σ → ω → σ) (β : Type) where
  key : ι
  read : τ → Option β
  entry : β → ω
  slot : Slot store β
  own : ⟨key, fun t => (read t).map entry⟩ ∈ keyed.arms
  value_entry : ∀ n, slot.value (entry n) = some n
  others : ∀ arm ∈ keyed.arms, arm.key ≠ key →
    ∀ t w, arm.counter t = some w → slot.value w = none

namespace Part

variable {keyed : Keyed α ι τ ε ω} {store : σ → ω → σ} {a : α} {l : List α}
  (part : Part keyed store β)

/-- An arm's entry is there exactly if its number is. -/
theorem bind_own (t : Option τ) :
    t.bind (fun t => (part.read t).map part.entry) = (t.bind part.read).map part.entry := by
  cases t <;> rfl

/-- Behind the part's own key there is a number for it. -/
theorem isSome_bind_read (readable : keyed.Readable a) (has : keyed.Has part.key a) :
    ((keyed.argument a).bind part.read).isSome = true := by
  have value := readable _ part.own has
  rwa [bind_own, Option.isSome_map] at value

/-- An element with the part's key has that number for the part. -/
theorem valueAt_own (readable : keyed.Readable a) (has : keyed.Has part.key a) :
    part.slot.valueAt keyed.read a = (keyed.argument a).bind part.read := by
  obtain ⟨n, value⟩ := Option.isSome_iff_exists.mp (part.isSome_bind_read readable has)
  have counted := (part.bind_own (keyed.argument a)).trans (congrArg (Option.map part.entry) value)
  rw [Slot.valueAt, writeOf_of_ok (keyed.read_counter a _ part.own has _ counted), value]
  exact part.value_entry n

/-- An element with another key, or with none, has nothing for the part. -/
theorem valueAt_other (readable : keyed.Readable a) (other : ¬ keyed.Has part.key a) :
    part.slot.valueAt keyed.read a = none := by
  rw [Slot.valueAt]
  by_cases counter : keyed.IsCounter a
  · obtain ⟨arm, mem, has⟩ := counter
    have different : arm.key ≠ part.key := fun same => other (same ▸ has)
    obtain ⟨w, value⟩ := Option.isSome_iff_exists.mp (readable arm mem has)
    obtain ⟨t, -, counted⟩ := Option.bind_eq_some_iff.mp value
    rw [writeOf_of_ok (keyed.read_counter a arm mem has w value)]
    exact part.others arm mem different t w counted
  · rw [writeOf_of_ok (keyed.read_other a fun arm mem has => counter ⟨arm, mem, has⟩)]
    rfl

/-- Where there are elements with the key, the part comes from the last one. -/
theorem reported (readable : ∀ a ∈ l, keyed.Readable a) (present : ∃ a ∈ l, keyed.Has part.key a)
    (s : σ) : keyed.Reported part.key part.read l (part.slot.get (keyed.stored store s l)) := by
  obtain ⟨a, mem, has⟩ := present
  obtain ⟨last, before, after, rfl, has, later⟩ := exists_isLast mem has
  have here : keyed.Readable last := readable last (by simp)
  obtain ⟨n, value⟩ := Option.isSome_iff_exists.mp (part.isSome_bind_read here has)
  have written : part.slot.valueAt keyed.read last = some n :=
    (part.valueAt_own here has).trans value
  have decides : IsLast (fun a => (part.slot.valueAt keyed.read a).isSome = true)
      (before ++ last :: after) last := by
    refine ⟨before, after, rfl, by simp [written], fun b mem => ?_⟩
    simp [part.valueAt_other (readable b (by simp [mem])) (later b mem)]
  refine ⟨last, ⟨before, after, rfl, has, later⟩, ?_⟩
  rw [value, Keyed.stored, part.slot.last decides written]

end Part

end BlazeBee.Lib
