import BlazeBee.Agent.Env
import BlazeBee.Lib.Checks

/-!
`expand_value`: substitution in every string of a TOML tree.

The tree is changed in place, and the first string that cannot be expanded ends the
traversal. What the traversal does to a tree is a matter of its strings in their order.

* `traverse_result`: the error is that of the first string that has one.
* `traverse_of_ok`: without an error every string is replaced, and nothing else.
* `expand_value_spec`: what that means for `expand_value`.
-/

namespace BlazeBee.Agent

open BlazeBee.Lib

/-- `toml::Value`; a table is listed in the order of its iteration. -/
inductive Value (α : Type) where
  | string (s : String)
  | array (items : List (Value α))
  | table (entries : List (String × Value α))
  /-- An integer, a float, a boolean or a datetime. -/
  | other (a : α)

namespace Value

variable {α ε : Type}

mutual

/-- The strings of a tree, in the order of the traversal. -/
def strings : Value α → List String
  | .string s => [s]
  | .array items => itemStrings items
  | .table entries => entryStrings entries
  | .other _ => []

def itemStrings : List (Value α) → List String
  | [] => []
  | item :: items => item.strings ++ itemStrings items

def entryStrings : List (String × Value α) → List String
  | [] => []
  | (_, item) :: entries => item.strings ++ entryStrings entries

end

mutual

/-- The same tree with other strings. -/
def mapStrings (g : String → String) : Value α → Value α
  | .string s => .string (g s)
  | .array items => .array (mapItems g items)
  | .table entries => .table (mapEntries g entries)
  | .other a => .other a

def mapItems (g : String → String) : List (Value α) → List (Value α)
  | [] => []
  | item :: items => item.mapStrings g :: mapItems g items

def mapEntries (g : String → String) : List (String × Value α) → List (String × Value α)
  | [] => []
  | (key, item) :: entries => (key, item.mapStrings g) :: mapEntries g entries

end

mutual

/-- Replaces the strings in place, until there is an error: the tree as it is then. -/
def traverse (f : String → Except ε String) : Value α → Value α × Except ε Unit
  | .string s =>
      match f s with
      | .error e => (.string s, .error e)
      | .ok t => (.string t, .ok ())
  | .array items =>
      let (items, result) := traverseItems f items
      (.array items, result)
  | .table entries =>
      let (entries, result) := traverseEntries f entries
      (.table entries, result)
  | .other a => (.other a, .ok ())

def traverseItems (f : String → Except ε String) :
    List (Value α) → List (Value α) × Except ε Unit
  | [] => ([], .ok ())
  | item :: items =>
      match item.traverse f with
      | (item, .error e) => (item :: items, .error e)
      | (item, .ok ()) =>
          let (items, result) := traverseItems f items
          (item :: items, result)

def traverseEntries (f : String → Except ε String) :
    List (String × Value α) → List (String × Value α) × Except ε Unit
  | [] => ([], .ok ())
  | (key, item) :: entries =>
      match item.traverse f with
      | (item, .error e) => ((key, item) :: entries, .error e)
      | (item, .ok ()) =>
          let (entries, result) := traverseEntries f entries
          ((key, item) :: entries, result)

end

end Value

/-- `expand_value`, with the shortcut for strings without `$`. -/
def expandValue {α : Type} (lookup : String → Option String) :
    Value α → Value α × Except EnvError Unit :=
  Value.traverse fun s => if Text.contains s '$' then expand s lookup else .ok s

namespace Value

variable {α ε : Type} {f : String → Except ε String}

mutual

/-- The traversal ends with the first error of a string. -/
theorem traverse_result (f : String → Except ε String) :
    ∀ v : Value α, (v.traverse f).2 = checkAll f v.strings
  | .string s => by
      rw [traverse, strings, checkAll]
      cases f s <;> rfl
  | .array items => traverseItems_result f items
  | .table entries => traverseEntries_result f entries
  | .other _ => rfl

/-- The same for the items of an array, one after the other. -/
theorem traverseItems_result (f : String → Except ε String) :
    ∀ items : List (Value α), (traverseItems f items).2 = checkAll f (itemStrings items)
  | [] => rfl
  | item :: items => by
      have here := traverse_result f item
      rw [traverseItems, itemStrings]
      generalize item.traverse f = next at here ⊢
      rcases next with ⟨item', e | u⟩
      · exact (checkAll_append_error here.symm _).symm
      · rw [checkAll_append here.symm]
        exact traverseItems_result f items

/-- The same for the values of a table; its keys are left alone. -/
theorem traverseEntries_result (f : String → Except ε String) :
    ∀ entries : List (String × Value α),
      (traverseEntries f entries).2 = checkAll f (entryStrings entries)
  | [] => rfl
  | (key, item) :: entries => by
      have here := traverse_result f item
      rw [traverseEntries, entryStrings]
      generalize item.traverse f = next at here ⊢
      rcases next with ⟨item', e | u⟩
      · exact (checkAll_append_error here.symm _).symm
      · rw [checkAll_append here.symm]
        exact traverseEntries_result f entries

end

mutual

/-- Without an error every string is replaced, and nothing else is. -/
theorem traverse_of_ok {g : String → String} :
    ∀ v : Value α, (∀ s ∈ v.strings, f s = .ok (g s)) → v.traverse f = (v.mapStrings g, .ok ())
  | .string s, fine => by
      rw [traverse, fine s (List.mem_singleton_self s), mapStrings]
  | .array items, fine => by
      rw [traverse, traverseItems_of_ok items fine, mapStrings]
  | .table entries, fine => by
      rw [traverse, traverseEntries_of_ok entries fine, mapStrings]
  | .other _, _ => rfl

/-- The same for the items of an array. -/
theorem traverseItems_of_ok {g : String → String} :
    ∀ items : List (Value α), (∀ s ∈ itemStrings items, f s = .ok (g s)) →
      traverseItems f items = (mapItems g items, .ok ())
  | [], _ => rfl
  | item :: items, fine => by
      obtain ⟨here, later⟩ := List.forall_mem_append.mp fine
      rw [traverseItems, traverse_of_ok item here, mapItems]
      dsimp only
      rw [traverseItems_of_ok items later]

/-- The same for the values of a table. -/
theorem traverseEntries_of_ok {g : String → String} :
    ∀ entries : List (String × Value α), (∀ s ∈ entryStrings entries, f s = .ok (g s)) →
      traverseEntries f entries = (mapEntries g entries, .ok ())
  | [], _ => rfl
  | (key, item) :: entries, fine => by
      obtain ⟨here, later⟩ := List.forall_mem_append.mp fine
      rw [traverseEntries, traverse_of_ok item here, mapEntries]
      dsimp only
      rw [traverseEntries_of_ok entries later]

end

end Value

/-- The value of a string that can be expanded. -/
def expanded (lookup : String → Option String) (s : String) : String :=
  match expand s lookup with
  | .ok t => t
  | .error _ => s

/-- A string that can be expanded is expanded to its value. -/
theorem expand_of_ok {lookup : String → Option String} {s : String}
    (fine : ∃ t, expand s lookup = .ok t) : expand s lookup = .ok (expanded lookup s) := by
  obtain ⟨t, same⟩ := fine
  rw [expanded, same]

/-- The shortcut for strings without `$` is that of `expand` itself. -/
theorem expandValue_eq {α : Type} (lookup : String → Option String) (v : Value α) :
    expandValue lookup v = v.traverse fun s => expand s lookup := by
  have same : (fun s => if Text.contains s '$' then expand s lookup else .ok s) =
      fun s => expand s lookup := by
    funext s
    split
    · rfl
    · rename_i free
      rw [expand, if_pos (by simpa using free)]
  rw [expandValue, same]

/-- The traversal succeeds exactly when every string can be expanded, and then the tree is
the same one with each string replaced by its value. Otherwise the error is that of the
first string that cannot be. The shortcuts for strings without `$` change neither. -/
theorem expand_value_spec {α : Type} (lookup : String → Option String) (v : Value α) :
    ((expandValue lookup v).2 = .ok () ↔ ∀ s ∈ v.strings, ∃ t, expand s lookup = .ok t) ∧
      ((expandValue lookup v).2 = .ok () →
        (expandValue lookup v).1 = v.mapStrings (expanded lookup) ∧
          ∀ s ∈ v.strings, expand s lookup = .ok (expanded lookup s)) ∧
      (∀ e, (expandValue lookup v).2 = .error e ↔ ∃ earlier s later,
        v.strings = earlier ++ s :: later ∧ (∀ r ∈ earlier, ∃ t, expand r lookup = .ok t) ∧
          expand s lookup = .error e) ∧
      expandValue lookup v = v.traverse fun s => expandLoop lookup s.toList 0 [] := by
  have result : (expandValue lookup v).2 = checkAll (fun s => expand s lookup) v.strings := by
    rw [expandValue_eq, Value.traverse_result]
  refine ⟨?_, fun fine => ?_, fun e => ?_, ?_⟩
  · rw [result, checkAll_eq_ok_iff]
  · rw [result, checkAll_eq_ok_iff] at fine
    have values : ∀ s ∈ v.strings, expand s lookup = .ok (expanded lookup s) :=
      fun s mem => expand_of_ok (fine s mem)
    rw [expandValue_eq, Value.traverse_of_ok v values]
    exact ⟨rfl, values⟩
  · rw [result, checkAll_eq_error_iff]
  · rw [expandValue_eq]
    simp only [expand_eq_loop]

end BlazeBee.Agent
