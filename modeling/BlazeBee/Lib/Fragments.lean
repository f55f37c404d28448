import BlazeBee.Lib.Num
import Mathlib.Data.List.Dedup
import Mathlib.Data.List.Flatten
import Mathlib.Data.List.Perm.Subperm
import Mathlib.Data.List.Range

/-!
Splitting a list into chunks, and putting the fragments of several interleaved
lists back together.

* `chunks n xs` cuts `xs` into pieces of `n` elements, the last one possibly
  shorter; `flatten_chunks` says that nothing is lost.
* `mergeSort_eq_of_perm`: a permutation of a list with strictly increasing keys
  is restored by sorting on the key.
* `filter_flatMap_tag`: fragments that carry the tag of their origin can be told
  apart again when the origins have distinct tags.
* `dedup_length_eq_iff`: counting the distinct indices below `n` tells whether
  all `n` of them have arrived.
-/

namespace BlazeBee.Lib.Fragments

open BlazeBee.Lib.Num

variable {α σ κ : Type}

/-! ### Chunks -/

/-- The consecutive pieces of `n` elements of `xs`; the last one holds what
remains. -/
def chunks (n : Nat) (xs : List α) : List (List α) :=
  (List.range (divCeil xs.length n)).map fun i => (xs.drop (i * n)).take n

@[simp] theorem length_chunks (n : Nat) (xs : List α) :
    (chunks n xs).length = divCeil xs.length n := by
  simp [chunks]

/-- The first pieces of a list, put together, are its beginning. -/
theorem flatten_take_drop (n k : Nat) (xs : List α) :
    ((List.range k).map fun i => (xs.drop (i * n)).take n).flatten = xs.take (k * n) := by
  induction k with
  | zero => simp
  | succ k ih =>
      rw [List.range_succ, List.map_append, List.flatten_append, ih, Nat.succ_mul, List.take_add]
      simp

/-- Chunks concatenate to the list they were cut from. -/
theorem flatten_chunks {n : Nat} (pos : 0 < n) (xs : List α) : (chunks n xs).flatten = xs := by
  rw [chunks, flatten_take_drop, List.take_of_length_le (le_divCeil_mul pos _)]

/-- No piece is longer than it may be; only the last one may be shorter. -/
theorem length_le_of_mem_chunks {n : Nat} {xs c : List α} (mem : c ∈ chunks n xs) :
    c.length ≤ n := by
  obtain ⟨i, -, rfl⟩ := List.mem_map.mp mem
  exact List.length_take_le _ _

/-- A chunk has what is left of the list, up to `n` elements. -/
theorem length_getElem_chunks {n i : Nat} {xs : List α} (lt : i < (chunks n xs).length) :
    (chunks n xs)[i].length = min n (xs.length - i * n) := by
  simp [chunks]

/-- No chunk is empty, and each one before the last is full. -/
theorem getElem_chunks_spec {n i : Nat} (pos : 0 < n) {xs : List α}
    (lt : i < (chunks n xs).length) :
    0 < (chunks n xs)[i].length ∧
      (i + 1 < (chunks n xs).length → (chunks n xs)[i].length = n) := by
  have more := lt
  rw [length_chunks, lt_divCeil_iff pos] at more
  rw [length_getElem_chunks lt, length_chunks, lt_divCeil_iff pos, Nat.succ_mul]
  omega

/-- `slice::chunks`: a chunk size of zero is a panic. -/
def chunksOrPanic (n : Nat) (xs : List α) : Option (List (List α)) :=
  if n = 0 then none else some (chunks n xs)

/-- A piece length that is not zero does not panic. -/
theorem chunksOrPanic_of_pos {n : Nat} (pos : 0 < n) (xs : List α) :
    chunksOrPanic n xs = some (chunks n xs) := by
  rw [chunksOrPanic, if_neg (Nat.ne_of_gt pos)]

/-! ### Restoring an order -/

/-- Sorting by key undoes any permutation of a list whose keys increase
strictly. -/
theorem mergeSort_eq_of_perm (key : α → Nat) {sorted shuffled : List α}
    (increasing : sorted.Pairwise fun a b => key a < key b) (perm : shuffled.Perm sorted) :
    shuffled.mergeSort (fun a b => decide (key a ≤ key b)) = sorted := by
  have nodup : (sorted.map key).Nodup := List.pairwise_map.mpr (increasing.imp Nat.ne_of_lt)
  have back := List.mergeSort_perm shuffled (fun a b => decide (key a ≤ key b))
  have antisymm : ∀ a b, a ∈ shuffled.mergeSort (fun a b => decide (key a ≤ key b)) → b ∈ sorted →
      key a ≤ key b → key b ≤ key a → a = b := by
    intro a b ha hb ab ba
    exact List.inj_on_of_nodup_map nodup (perm.subset (back.subset ha)) hb (Nat.le_antisymm ab ba)
  have ordered : (shuffled.mergeSort fun a b => decide (key a ≤ key b)).Pairwise
      fun a b => key a ≤ key b := by
    refine (List.pairwise_mergeSort ?_ ?_ shuffled).imp fun h => of_decide_eq_true h
    · intro a b c ab bc
      exact decide_eq_true (Nat.le_trans (of_decide_eq_true ab) (of_decide_eq_true bc))
    · intro a b
      simpa using Nat.le_total (key a) (key b)
  exact List.Perm.eq_of_pairwise antisymm ordered (increasing.imp Nat.le_of_lt) (back.trans perm)

/-! ### Telling origins apart -/

/-- Fragments tagged with the key of their origin: filtering the concatenation
of all fragments by one origin's key yields that origin's fragments, provided
that the keys are distinct. -/
theorem filter_flatMap_tag [DecidableEq κ] (tag : α → κ) (origin : σ → κ) (parts : σ → List α)
    {sources : List σ} (tagged : ∀ s ∈ sources, ∀ a ∈ parts s, tag a = origin s)
    (distinct : (sources.map origin).Nodup) {s : σ} (mem : s ∈ sources) :
    (sources.flatMap parts).filter (fun a => decide (tag a = origin s)) = parts s := by
  induction sources with
  | nil => cases mem
  | cons t rest ih =>
      obtain ⟨fresh, distinct⟩ := List.nodup_cons.mp distinct
      have here := tagged t List.mem_cons_self
      have there := fun r hr => tagged r (List.mem_cons_of_mem t hr)
      rw [List.flatMap_cons, List.filter_append]
      rcases List.mem_cons.mp mem with rfl | mem
      · -- every other origin has another key, so the tail contributes nothing
        have own : (parts s).filter (fun a => decide (tag a = origin s)) = parts s :=
          List.filter_eq_self.mpr fun a ha => decide_eq_true (here a ha)
        have others : (rest.flatMap parts).filter (fun a => decide (tag a = origin s)) = [] := by
          refine List.filter_eq_nil_iff.mpr fun a ha eq => fresh ?_
          obtain ⟨r, hr, har⟩ := List.mem_flatMap.mp ha
          have same : origin r = origin s := (there r hr a har).symm.trans (of_decide_eq_true eq)
          exact same ▸ List.mem_map_of_mem hr
        rw [own, others, List.append_nil]
      · have none : (parts t).filter (fun a => decide (tag a = origin s)) = [] := by
          refine List.filter_eq_nil_iff.mpr fun a ha eq => fresh ?_
          have same : origin s = origin t := (of_decide_eq_true eq).symm.trans (here a ha)
          exact same ▸ List.mem_map_of_mem mem
        rw [none, List.nil_append, ih there distinct mem]

/-- A list of indices below `n` contains all of them exactly when it has `n`
distinct members. -/
theorem dedup_length_eq_iff {n : Nat} {indices : List Nat} (bound : ∀ i ∈ indices, i < n) :
    indices.dedup.length = n ↔ ∀ i < n, i ∈ indices := by
  have sub : indices.dedup.Subperm (List.range n) :=
    (indices.nodup_dedup).subperm fun i hi => List.mem_range.mpr (bound i (List.mem_dedup.mp hi))
  constructor
  · intro full i hi
    have perm := sub.perm_of_length_le (by simp [full])
    exact List.mem_dedup.mp (perm.mem_iff.mpr (List.mem_range.mpr hi))
  · intro all
    have perm : indices.dedup.Perm (List.range n) := by
      refine sub.antisymm (List.nodup_range.subperm fun i hi => ?_)
      exact List.mem_dedup.mpr (all i (List.mem_range.mp hi))
    simpa using perm.length_eq

end BlazeBee.Lib.Fragments
