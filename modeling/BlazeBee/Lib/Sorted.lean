import Mathlib.Data.List.Nodup
import Mathlib.Data.List.Perm.Basic
import Mathlib.Order.Lattice

/-!
Sorting by a key.

* `sortBy_sorted`, `sortBy_strict`: the keys increase, and strictly if none of them is twice.
* `sortBy_eq_of_perm`: the order before the sort does not matter where the key tells the
  elements apart.
* `eq_of_strict`: a list with strictly increasing keys is known from its elements.
* `nodup_flatMap_key`: elements that say by their key which owner they are from.
-/

namespace BlazeBee.Lib

variable {α κ ο : Type} {key : α → κ}

/-- Keys that say who the owner is are distinct if the owners are, and for each owner. -/
theorem nodup_flatMap_key {owners : List ο} {items : ο → List α} {ownerOf : κ → ο}
    (once : owners.Nodup) (distinct : ∀ o ∈ owners, ((items o).map key).Nodup)
    (own : ∀ o ∈ owners, ∀ a ∈ items o, ownerOf (key a) = o) :
    ((owners.flatMap items).map key).Nodup := by
  rw [List.map_flatMap, List.nodup_flatMap]
  refine ⟨distinct, once.imp_of_mem fun {o p} left right ne => ?_⟩
  rw [Function.onFun_apply, List.disjoint_left]
  intro k inside outside
  obtain ⟨a, mem, rfl⟩ := List.mem_map.mp inside
  obtain ⟨b, mem', same⟩ := List.mem_map.mp outside
  exact ne ((own o left a mem).symm.trans (same ▸ own p right b mem'))

variable [LinearOrder κ]

/-- `sort_by`, by comparing keys. -/
def sortBy (key : α → κ) (l : List α) : List α := l.mergeSort fun a b => decide (key a ≤ key b)

/-- Sorting loses nothing and adds nothing. -/
theorem sortBy_perm (key : α → κ) (l : List α) : (sortBy key l).Perm l := List.mergeSort_perm l _

@[simp] theorem mem_sortBy {l : List α} {a : α} : a ∈ sortBy key l ↔ a ∈ l :=
  (sortBy_perm key l).mem_iff

/-- What is sorted increases, with repetitions where keys are the same. -/
theorem sortBy_sorted (key : α → κ) (l : List α) :
    (sortBy key l).Pairwise fun a b => key a ≤ key b := by
  refine (List.pairwise_mergeSort ?_ ?_ l).imp fun le => of_decide_eq_true le
  · intro a b c ab bc
    exact decide_eq_true (le_trans (of_decide_eq_true ab) (of_decide_eq_true bc))
  · intro a b
    simpa using le_total (key a) (key b)

/-- With distinct keys it increases strictly. -/
theorem sortBy_strict {l : List α} (distinct : (l.map key).Nodup) :
    (sortBy key l).Pairwise fun a b => key a < key b := by
  have apart : ((sortBy key l).map key).Nodup :=
    (((sortBy_perm key l).map key).nodup_iff).mpr distinct
  have both := (sortBy_sorted key l).and (List.pairwise_map.mp apart)
  exact both.imp fun ⟨le, ne⟩ => lt_of_le_of_ne le ne

/-- Where elements with the same key are the same, a permutation is sorted to the same list. -/
theorem sortBy_eq_of_perm {l l' : List α} (perm : l.Perm l')
    (told : ∀ a ∈ l, ∀ b ∈ l, key a = key b → a = b) : sortBy key l = sortBy key l' := by
  have here := sortBy_perm key l
  have there := (sortBy_perm key l').trans perm.symm
  refine List.Perm.eq_of_pairwise ?_ (sortBy_sorted key l) (sortBy_sorted key l')
    (here.trans there.symm)
  intro a b left right ab ba
  exact told a (here.subset left) b (there.subset right) (le_antisymm ab ba)

/-- Two lists with strictly increasing keys and the same elements. -/
theorem eq_of_strict {l l' : List α} (left : l.Pairwise fun a b => key a < key b)
    (right : l'.Pairwise fun a b => key a < key b) (same : ∀ a, a ∈ l ↔ a ∈ l') : l = l' := by
  have nodup : ∀ {l : List α}, (l.Pairwise fun a b => key a < key b) → l.Nodup :=
    fun strict => strict.imp fun lt same => ne_of_lt lt (congrArg key same)
  have perm : l.Perm l' := (List.perm_ext_iff_of_nodup (nodup left) (nodup right)).mpr same
  refine List.Perm.eq_of_pairwise ?_ left right perm
  intro a b _ _ ab ba
  exact absurd (lt_trans ab ba) (lt_irrefl _)

end BlazeBee.Lib
