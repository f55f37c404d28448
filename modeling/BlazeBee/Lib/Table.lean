import Mathlib.Data.List.Induction
import Mathlib.Data.List.Nodup
import Mathlib.Data.List.Perm.Subperm
import Mathlib.Logic.Function.Basic

/-!
A map with the order in which its keys first came: a later entry takes the place of an
earlier one with the same key. `toList` empties the map in that order.

* `toList_ofList`: entries with distinct keys come out as they went in.
* `nodup_of_length_le`: if as many come out as went in, their keys were distinct.
* `map_key_toList`, `mem_toList_iff`: what comes out otherwise, the first occurrences of
  the keys with the last entry of each.
-/

namespace BlazeBee.Lib

/-! ### The last of a list -/

section Last

variable {α β : Type}

/-- `a` is the last element of `l` that satisfies `p`. -/
def IsLast (p : α → Prop) (l : List α) (a : α) : Prop :=
  ∃ before after, l = before ++ a :: after ∧ p a ∧ ∀ b ∈ after, ¬ p b

variable {p : α → Prop} {l : List α}

/-- The last one is one of them. -/
theorem IsLast.mem {a : α} (last : IsLast p l a) : a ∈ l := by
  obtain ⟨before, after, rfl, -⟩ := last
  exact List.mem_append_right before List.mem_cons_self

/-- The last one has the property. -/
theorem IsLast.holds {a : α} (last : IsLast p l a) : p a := by
  obtain ⟨-, -, -, holds, -⟩ := last
  exact holds

/-- Where some element has the property, there is a last one. -/
theorem exists_isLast {a : α} (mem : a ∈ l) (holds : p a) : ∃ b, IsLast p l b := by
  induction l using List.reverseRecOn with
  | nil => cases mem
  | append_singleton l b ih =>
      by_cases last : p b
      · exact ⟨b, l, [], rfl, last, nofun⟩
      · have earlier : a ∈ l := by
          refine (List.mem_append.mp mem).resolve_right fun at_end => last ?_
          rwa [← List.mem_singleton.mp at_end]
        obtain ⟨c, before, after, rfl, found, later⟩ := ih earlier
        refine ⟨c, before, after ++ [b], by simp, found, fun d mem => ?_⟩
        rcases List.mem_append.mp mem with inside | at_end
        · exact later d inside
        · rwa [List.mem_singleton.mp at_end]

/-- There is one last element. -/
theorem IsLast.unique {a b : α} (left : IsLast p l a) (right : IsLast p l b) : a = b := by
  obtain ⟨before, after, rfl, found, later⟩ := left
  obtain ⟨before', after', split, found', later'⟩ := right
  rcases List.append_eq_append_iff.mp split with ⟨cs, -, rest⟩ | ⟨cs, -, rest⟩
  · cases cs with
    | nil => exact (List.cons.inj rest).1
    | cons c cs =>
        obtain ⟨-, rfl⟩ := List.cons.inj rest
        exact absurd found' (later b (by simp))
  · cases cs with
    | nil => exact (List.cons.inj rest).1.symm
    | cons c cs =>
        obtain ⟨-, rfl⟩ := List.cons.inj rest
        exact absurd found (later' a (by simp))

/-- The last of some is the last of fewer, if it is among these. -/
theorem IsLast.mono {q : α → Prop} {a : α} (last : IsLast p l a) (holds : q a)
    (fewer : ∀ b, q b → p b) : IsLast q l a := by
  obtain ⟨before, after, split, -, later⟩ := last
  exact ⟨before, after, split, holds, fun b mem found => later b mem (fewer b found)⟩

/-- Filtering and taking the end finds the last one. -/
theorem getLast?_filter_eq_some_iff [DecidablePred p] {a : α} :
    (l.filter fun b => decide (p b)).getLast? = some a ↔ IsLast p l a := by
  rw [← List.head?_reverse, ← List.filter_reverse, List.head?_filter,
    List.find?_eq_some_iff_append]
  constructor
  · rintro ⟨found, after, before, split, later⟩
    refine ⟨before.reverse, after.reverse, ?_, of_decide_eq_true found, fun b mem holds => ?_⟩
    · rw [← List.reverse_inj, split]
      simp
    · simpa [holds] using later b (List.mem_reverse.mp mem)
  · rintro ⟨before, after, rfl, found, later⟩
    refine ⟨decide_eq_true found, after.reverse, before.reverse, by simp, fun b mem => ?_⟩
    simpa using later b (List.mem_reverse.mp mem)

/-- The last of the images that satisfy `q` is the image of the last element that has one. -/
theorem isLast_filterMap_iff {f : α → Option β} {q : β → Prop} {b : β} :
    IsLast q (l.filterMap f) b ↔
      ∃ a, IsLast (fun a => ∃ c, f a = some c ∧ q c) l a ∧ f a = some b := by
  constructor
  · rintro ⟨bs, cs, split, found, later⟩
    obtain ⟨before, tail, rfl, rfl, rest⟩ := List.filterMap_eq_append_iff.mp split
    obtain ⟨skipped, a, after, rfl, -, image, rfl⟩ := List.filterMap_eq_cons_iff.mp rest
    refine ⟨a, ⟨before ++ skipped, after, by simp, ⟨b, image, found⟩, ?_⟩, image⟩
    rintro a' mem ⟨c, image', holds⟩
    exact later c (List.mem_filterMap.mpr ⟨a', mem, image'⟩) holds
  · rintro ⟨a, ⟨before, after, rfl, ⟨c, image', found⟩, later⟩, image⟩
    obtain rfl := Option.some.inj (image'.symm.trans image)
    refine ⟨before.filterMap f, after.filterMap f, by simp [image], found, fun d mem holds => ?_⟩
    obtain ⟨a', mem, image''⟩ := List.mem_filterMap.mp mem
    exact later a' mem ⟨d, image'', holds⟩

end Last

/-- A map, and its keys by first arrival. -/
structure Table (κ α : Type) where
  byKey : κ → Option α
  order : List κ

namespace Table

variable {κ α : Type} [DecidableEq κ] (key : α → κ)

/-- No keys. -/
def empty : Table κ α := ⟨fun _ => none, []⟩

/-- `insert` into the map; a key that was not there is put at the end of the order. -/
def insert (t : Table κ α) (a : α) : Table κ α where
  byKey := Function.update t.byKey (key a) (some a)
  order := if (t.byKey (key a)).isNone then t.order ++ [key a] else t.order

/-- The entries inserted in their order. -/
def ofList (l : List α) : Table κ α := l.foldl (insert key) empty

/-- `remove`, key by key. -/
def drain : (κ → Option α) → List κ → List α
  | _, [] => []
  | m, k :: ks =>
      match m k with
      | some a => a :: drain (Function.update m k none) ks
      | none => drain m ks

/-- What comes out: for each key, in the order of the keys, its entry. -/
def toList (t : Table κ α) : List α := drain t.byKey t.order

/-- As the keys are distinct, removing one does not disturb the others. -/
theorem drain_eq {ks : List κ} (distinct : ks.Nodup) (m : κ → Option α) :
    drain m ks = ks.filterMap m := by
  induction ks generalizing m with
  | nil => rfl
  | cons k ks ih =>
      obtain ⟨fresh, distinct⟩ := List.nodup_cons.mp distinct
      cases found : m k with
      | none => simp [drain, found, ih distinct]
      | some a =>
          have same : ks.filterMap (Function.update m k none) = ks.filterMap m := by
            refine List.filterMap_congr fun k' mem => Function.update_of_ne ?_ _ _
            rintro rfl
            exact fresh mem
          simp [drain, found, ih distinct, same]

@[simp] theorem ofList_nil : ofList key [] = empty := rfl

/-- One more entry is one more insertion. -/
theorem ofList_concat (l : List α) (a : α) :
    ofList key (l ++ [a]) = insert key (ofList key l) a := by
  simp [ofList]

/-- The keys are those of the entries, each once, and the map holds an entry of each. -/
structure Holds (l : List α) (t : Table κ α) : Prop where
  sublist : t.order.Sublist (l.map key)
  distinct : t.order.Nodup
  bound : ∀ k, k ∈ t.order ↔ (t.byKey k).isSome
  complete : ∀ a ∈ l, key a ∈ t.order
  mem : ∀ k a, t.byKey k = some a → key a = k ∧ a ∈ l

variable {key}

/-- An insertion adds its own key, and takes none away. -/
theorem isSome_insert (t : Table κ α) (a : α) (k : κ) :
    ((insert key t a).byKey k).isSome ↔ k = key a ∨ (t.byKey k).isSome := by
  by_cases same : k = key a <;> simp [insert, same]

/-- Each key keeps being bound to an entry that has it. -/
theorem mem_insert {l : List α} {t : Table κ α}
    (mem : ∀ k b, t.byKey k = some b → key b = k ∧ b ∈ l) (a : α) (k : κ) (b : α)
    (found : (insert key t a).byKey k = some b) : key b = k ∧ b ∈ l ++ [a] := by
  by_cases same : k = key a
  · subst same
    obtain rfl : a = b := by simpa [insert] using found
    exact ⟨rfl, by simp⟩
  · have found : t.byKey k = some b := by simpa [insert, same] using found
    obtain ⟨keyed, mem⟩ := mem k b found
    exact ⟨keyed, List.mem_append_left _ mem⟩

/-- The step of the invariant: a key that is new goes to the end of the order, and one that
is known keeps its place. -/
theorem holds_insert {l : List α} {t : Table κ α} (holds : Holds key l t) (a : α) :
    Holds key (l ++ [a]) (insert key t a) := by
  cases found : t.byKey (key a) with
  | none =>
      have fresh : key a ∉ t.order := by
        rw [holds.bound, found]
        simp
      have order : (insert key t a).order = t.order ++ [key a] := by simp [insert, found]
      refine ⟨?_, ?_, fun k => ?_, ?_, mem_insert holds.mem a⟩
      · rw [order, List.map_append]
        exact holds.sublist.append (List.Sublist.refl _)
      · rw [order]
        rw [← List.concat_eq_append]
        exact holds.distinct.concat fresh
      · rw [order, isSome_insert, ← holds.bound, List.mem_append, List.mem_singleton, or_comm]
      · intro b mem
        rw [order]
        rcases List.mem_append.mp mem with before | last
        · exact List.mem_append_left _ (holds.complete b before)
        · obtain rfl := List.mem_singleton.mp last
          exact List.mem_append_right _ (List.mem_singleton_self _)
  | some b =>
      have known : key a ∈ t.order := by
        rw [holds.bound, found]
        rfl
      have order : (insert key t a).order = t.order := by simp [insert, found]
      refine ⟨?_, ?_, fun k => ?_, ?_, mem_insert holds.mem a⟩
      · rw [order, List.map_append]
        exact holds.sublist.trans (List.sublist_append_left _ _)
      · rw [order]
        exact holds.distinct
      · rw [order, isSome_insert, ← holds.bound]
        refine ⟨Or.inr, ?_⟩
        rintro (rfl | mem)
        · exact known
        · exact mem
      · intro b mem
        rw [order]
        rcases List.mem_append.mp mem with before | last
        · exact holds.complete b before
        · obtain rfl := List.mem_singleton.mp last
          exact known

variable (key)

/-- So a table that is filled from a list keeps it. -/
theorem holds_ofList (l : List α) : Holds key l (ofList key l) := by
  induction l using List.reverseRecOn with
  | nil =>
      constructor
      · exact .slnil
      · exact .nil
      · intro k
        simp [empty]
      · nofun
      · intro k a found
        cases found
  | append_singleton l a ih =>
      rw [ofList_concat]
      exact holds_insert ih a

/-- What comes out is looked up, key by key. -/
theorem toList_eq (l : List α) :
    toList (ofList key l) = (ofList key l).order.filterMap (ofList key l).byKey :=
  drain_eq (holds_ofList key l).distinct _

/-- If as many entries come out as went in, their keys are distinct. -/
theorem nodup_of_length_le {l : List α} (all : l.length ≤ (toList (ofList key l)).length) :
    (l.map key).Nodup := by
  have holds := holds_ofList key l
  have bound : (toList (ofList key l)).length ≤ (ofList key l).order.length := by
    rw [toList_eq]
    exact List.length_filterMap_le _ _
  have order : (ofList key l).order = l.map key :=
    holds.sublist.eq_of_length_le (by rw [List.length_map]; omega)
  rw [← order]
  exact holds.distinct

/-- Entries with distinct keys come out as they went in. -/
theorem toList_ofList {l : List α} (distinct : (l.map key).Nodup) :
    toList (ofList key l) = l := by
  have holds := holds_ofList key l
  have present : ∀ a ∈ l, (ofList key l).byKey (key a) = some a := by
    intro a mem
    obtain ⟨b, found⟩ := Option.isSome_iff_exists.mp ((holds.bound _).mp (holds.complete a mem))
    obtain ⟨keyed, memb⟩ := holds.mem _ _ found
    rw [found, List.inj_on_of_nodup_map distinct memb mem keyed]
  have order : (ofList key l).order = l.map key := by
    have all : l.map key ⊆ (ofList key l).order := by
      intro k keyed
      obtain ⟨a, mem, rfl⟩ := List.mem_map.mp keyed
      exact holds.complete a mem
    exact holds.sublist.eq_of_length_le (distinct.subperm all).length_le
  rw [toList_eq, order, List.filterMap_map]
  calc l.filterMap ((ofList key l).byKey ∘ key) = l.filterMap some :=
        List.filterMap_congr present
    _ = l := List.filterMap_some

/-! ### Entries that share a key -/

/-- The keys stand in the order in which they first came. -/
theorem order_ofList (l : List α) : (ofList key l).order = (l.map key).eraseDups := by
  induction l using List.reverseRecOn with
  | nil => rfl
  | append_singleton l a ih =>
      have holds := holds_ofList key l
      rw [ofList_concat, List.map_append, List.map_singleton, List.eraseDups_append, ← ih]
      by_cases known : key a ∈ l.map key
      · have bound : ((ofList key l).byKey (key a)).isNone = false := by
          obtain ⟨b, mem, same⟩ := List.mem_map.mp known
          have present := (holds.bound _).mp (holds.complete b mem)
          rw [same] at present
          simpa using present
        have again : [key a].removeAll (l.map key) = [] :=
          List.filter_eq_nil_iff.mpr (by simpa using known)
        rw [again, insert, bound]
        simp
      · have bound : ((ofList key l).byKey (key a)).isNone = true := by
          rw [Option.isNone_iff_eq_none, ← Option.not_isSome_iff_eq_none, ← holds.bound]
          exact fun mem => known (holds.sublist.subset mem)
        have fresh : [key a].removeAll (l.map key) = [key a] :=
          List.filter_eq_self.mpr (by simpa using known)
        rw [fresh, insert, bound]
        rfl

/-- A key is bound to the last entry that has it. -/
theorem byKey_ofList (l : List α) (k : κ) :
    (ofList key l).byKey k = (l.filter fun a => decide (key a = k)).getLast? := by
  induction l using List.reverseRecOn with
  | nil => rfl
  | append_singleton l a ih =>
      rw [ofList_concat, List.filter_append]
      by_cases same : key a = k
      · simp [insert, same]
      · simp [insert, same, Ne.symm same, ih]

/-- The keys of what comes out: those that went in, less the repetitions. -/
theorem map_key_toList (l : List α) : (toList (ofList key l)).map key = (l.map key).eraseDups := by
  have holds := holds_ofList key l
  rw [toList_eq, List.map_filterMap, ← order_ofList]
  calc (ofList key l).order.filterMap (fun k => ((ofList key l).byKey k).map key)
      = (ofList key l).order.filterMap some := by
        refine List.filterMap_congr fun k mem => ?_
        obtain ⟨a, found⟩ := Option.isSome_iff_exists.mp ((holds.bound k).mp mem)
        rw [found, Option.map_some, (holds.mem k a found).1]
    _ = (ofList key l).order := List.filterMap_some

/-- No key comes out twice. -/
theorem nodup_map_key_toList (l : List α) : ((toList (ofList key l)).map key).Nodup := by
  rw [map_key_toList, ← order_ofList]
  exact (holds_ofList key l).distinct

/-- What comes out is the last entry with its key. -/
theorem mem_toList_iff {l : List α} {a : α} :
    a ∈ toList (ofList key l) ↔ (l.filter fun b => decide (key b = key a)).getLast? = some a := by
  have holds := holds_ofList key l
  rw [toList_eq, List.mem_filterMap, ← byKey_ofList]
  constructor
  · rintro ⟨k, -, found⟩
    rw [(holds.mem k a found).1, found]
  · intro found
    exact ⟨key a, (holds.bound _).mpr (by rw [found]; rfl), found⟩

end Table

end BlazeBee.Lib
