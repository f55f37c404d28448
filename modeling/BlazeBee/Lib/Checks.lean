import Mathlib.Tactic.Common

/-!
Chains of early-return checks over `Except`.

`rejectIf bad e` is the Rust statement `if bad { return Err(e); }`; a validation
function is a `do` block of such statements. The lemmas turn "the chain
succeeded" into the conjunction of what its checks established. `checkAll f l` is
`for a in l { f(a)?; }`, which ends with the error of the first member that has one;
where the loop also collects what `f` returns, it is `l.mapM f`.
-/

namespace BlazeBee.Lib

variable {ε β : Type}

/-- `if bad { return Err(e); }` -/
def rejectIf (bad : Bool) (e : ε) : Except ε Unit :=
  if bad then .error e else .ok ()

/-- A check passes exactly if what it rejects is not the case. -/
@[simp] theorem rejectIf_eq_ok {bad : Bool} {e : ε} {u : Unit} :
    rejectIf bad e = .ok u ↔ bad = false := by
  cases bad <;> simp [rejectIf]

/-- A computation that succeeds hands its value on. -/
theorem ok_bind {α : Type} (a : α) (f : α → Except ε β) : Except.ok a >>= f = f a := rfl

/-- After an error nothing is run. -/
theorem error_bind {α : Type} (e : ε) (f : α → Except ε β) :
    Except.error e >>= f = Except.error e := rfl

/-- A computation after another succeeds when both do. -/
theorem bind_eq_ok_iff {α : Type} {x : Except ε α} {f : α → Except ε β} {b : β} :
    x >>= f = .ok b ↔ ∃ a, x = .ok a ∧ f a = .ok b := by
  cases x with
  | error e => simp [bind, Except.bind]
  | ok a => simp [bind, Except.bind]

/-- A chain whose first part yields nothing but success. -/
theorem bind_unit_eq_ok_iff {x : Except ε Unit} {f : Unit → Except ε β} {b : β} :
    x >>= f = .ok b ↔ x = .ok () ∧ f () = .ok b := by
  rw [bind_eq_ok_iff]
  exact ⟨fun ⟨_, succeeded, rest⟩ => ⟨succeeded, rest⟩, fun ⟨succeeded, rest⟩ =>
    ⟨(), succeeded, rest⟩⟩

/-- Renaming the error of a check does not change when it succeeds. -/
theorem mapError_eq_ok_iff {ε' : Type} {x : Except ε β} {f : ε → ε'} {b : β} :
    x.mapError f = .ok b ↔ x = .ok b := by
  cases x <;> simp [Except.mapError]

/-- A check fails exactly if what it rejects is the case, and with its own error. -/
@[simp] theorem rejectIf_eq_error {bad : Bool} {e e' : ε} :
    rejectIf bad e = .error e' ↔ bad = true ∧ e = e' := by
  cases bad <;> simp [rejectIf]

/-- A chain fails where its first part fails, or after it. -/
theorem bind_unit_eq_error_iff {x : Except ε Unit} {f : Unit → Except ε β} {e : ε} :
    x >>= f = .error e ↔ x = .error e ∨ x = .ok () ∧ f () = .error e := by
  cases x with
  | error e' => simp [bind, Except.bind]
  | ok u => simp [bind, Except.bind]

/-- A mapped error comes from an error of the computation. -/
theorem mapError_eq_error_iff {ε' : Type} {x : Except ε β} {f : ε → ε'} {e : ε'} :
    x.mapError f = .error e ↔ ∃ e', x = .error e' ∧ f e' = e := by
  cases x <;> simp [Except.mapError]

/-- A guarded value is there exactly under its guard. -/
theorem ite_eq_ok_iff {p : Prop} [Decidable p] {a b : β} {e : ε} :
    (if p then Except.ok a else .error e) = .ok b ↔ p ∧ a = b := by
  split_ifs with holds <;> simp [holds]

/-- Either everything in a list is fine, or there is a first member that is not. -/
theorem forall_or_first {α : Type} (P : α → Prop) (l : List α) :
    (∀ a ∈ l, P a) ∨
      ∃ earlier a later, l = earlier ++ a :: later ∧ (∀ b ∈ earlier, P b) ∧ ¬ P a := by
  induction l with
  | nil => exact Or.inl nofun
  | cons a l ih =>
      by_cases fine : P a
      · rcases ih with all | ⟨earlier, b, later, rfl, before, fails⟩
        · exact Or.inl (List.forall_mem_cons.mpr ⟨fine, all⟩)
        · exact Or.inr ⟨a :: earlier, b, later, rfl, List.forall_mem_cons.mpr ⟨fine, before⟩, fails⟩
      · exact Or.inr ⟨[], a, l, rfl, nofun, fine⟩

section CheckAll

variable {α : Type} {f : α → Except ε β}

/-- `for a in l { f(a)?; }` -/
def checkAll (f : α → Except ε β) : List α → Except ε Unit
  | [] => .ok ()
  | a :: l =>
      match f a with
      | .error e => .error e
      | .ok _ => checkAll f l

/-- Behind elements that are fine, the loop goes on as if they were not there. -/
theorem checkAll_append {l m : List α} (fine : checkAll f l = .ok ()) :
    checkAll f (l ++ m) = checkAll f m := by
  induction l with
  | nil => rfl
  | cons a l ih =>
      rw [List.cons_append, checkAll]
      rw [checkAll] at fine
      cases result : f a with
      | error e =>
          rw [result] at fine
          cases fine
      | ok b =>
          rw [result] at fine
          exact ih fine

/-- Once an element fails, those behind it are not looked at. -/
theorem checkAll_append_error {l : List α} {e : ε} (fails : checkAll f l = .error e)
    (m : List α) : checkAll f (l ++ m) = .error e := by
  induction l with
  | nil => cases fails
  | cons a l ih =>
      rw [List.cons_append, checkAll]
      rw [checkAll] at fails
      cases result : f a with
      | error e' =>
          rw [result] at fails
          exact fails
      | ok b =>
          rw [result] at fails
          exact ih fails

/-- If every element is fine, so is the list. -/
theorem checkAll_of_forall {l : List α} (fine : ∀ a ∈ l, ∃ b, f a = .ok b) :
    checkAll f l = .ok () := by
  induction l with
  | nil => rfl
  | cons a l ih =>
      obtain ⟨⟨b, result⟩, later⟩ := List.forall_mem_cons.mp fine
      rw [checkAll, result]
      exact ih later

/-- The first error ends the loop. -/
theorem checkAll_of_first {earlier later : List α} {a : α} {e : ε}
    (fine : ∀ b ∈ earlier, ∃ c, f b = .ok c) (fails : f a = .error e) :
    checkAll f (earlier ++ a :: later) = .error e := by
  rw [checkAll_append (checkAll_of_forall fine), checkAll, fails]

/-- Either every element is fine, or one is the first that is not. -/
theorem forall_ok_or_first (f : α → Except ε β) (l : List α) :
    (∀ a ∈ l, ∃ b, f a = .ok b) ∨ ∃ earlier a later e, l = earlier ++ a :: later ∧
      (∀ b ∈ earlier, ∃ c, f b = .ok c) ∧ f a = .error e := by
  rcases forall_or_first (fun a => ∃ b, f a = .ok b) l with
    all | ⟨earlier, a, later, split, before, fails⟩
  · exact Or.inl all
  · cases result : f a with
    | error e => exact Or.inr ⟨earlier, a, later, e, split, before, result⟩
    | ok b => exact absurd ⟨b, result⟩ fails

/-- Results that are all fine are the values that they have. -/
theorem exists_map_ok {l : List α} (fine : ∀ a ∈ l, ∃ b, f a = .ok b) :
    ∃ bs : List β, l.map f = bs.map .ok := by
  induction l with
  | nil => exact ⟨[], rfl⟩
  | cons a l ih =>
      obtain ⟨⟨b, here⟩, later⟩ := List.forall_mem_cons.mp fine
      obtain ⟨bs, others⟩ := ih later
      exact ⟨b :: bs, by rw [List.map_cons, List.map_cons, here, others]⟩

/-- The loop succeeds exactly if every element is fine. -/
theorem checkAll_eq_ok_iff {l : List α} :
    checkAll f l = .ok () ↔ ∀ a ∈ l, ∃ b, f a = .ok b := by
  refine ⟨fun fine => ?_, checkAll_of_forall⟩
  rcases forall_ok_or_first f l with all | ⟨earlier, a, later, e, rfl, before, fails⟩
  · exact all
  · cases fine.symm.trans (checkAll_of_first before fails)

/-- The loop's error is that of the first element that is not fine. -/
theorem checkAll_eq_error_iff {l : List α} {e : ε} :
    checkAll f l = .error e ↔ ∃ earlier a later, l = earlier ++ a :: later ∧
      (∀ b ∈ earlier, ∃ c, f b = .ok c) ∧ f a = .error e := by
  constructor
  · intro failed
    rcases forall_ok_or_first f l with all | ⟨earlier, a, later, e', rfl, before, fails⟩
    · cases failed.symm.trans (checkAll_of_forall all)
    · obtain rfl := Except.error.inj (failed.symm.trans (checkAll_of_first before fails))
      exact ⟨earlier, a, later, rfl, before, fails⟩
  · rintro ⟨earlier, a, later, rfl, before, fails⟩
    exact checkAll_of_first before fails

end CheckAll

section MapM

variable {α : Type}

/-- Where no element has an effect, a traversal is a map. -/
theorem mapM_eq_pure {m : Type → Type} [Monad m] [LawfulMonad m] {f : α → m β} {g : α → β}
    {l : List α} (each : ∀ a ∈ l, f a = pure (g a)) : l.mapM f = pure (l.map g) := by
  induction l with
  | nil => rfl
  | cons a l ih =>
      obtain ⟨here, later⟩ := List.forall_mem_cons.mp each
      rw [List.mapM_cons, here, ih later, pure_bind, pure_bind, List.map_cons]

/-- Nothing is filtered out of a list of values that are all there. -/
theorem filterMap_id_map_some (g : α → β) (l : List α) :
    (l.map fun a => some (g a)).filterMap id = l.map g := by
  rw [List.filterMap_map]
  exact congrFun (List.filterMap_eq_map (f := g)) l

/-- One member that fails is enough. -/
theorem mapM_eq_error {f : α → Except ε β} {l : List α} {a : α} (mem : a ∈ l)
    (fails : ∃ e, f a = .error e) : ∃ e, l.mapM f = .error e := by
  induction l with
  | nil => cases mem
  | cons b l ih =>
      rw [List.mapM_cons]
      cases result : f b with
      | error e => exact ⟨e, rfl⟩
      | ok c =>
          rcases List.mem_cons.mp mem with rfl | mem
          · obtain ⟨e, failed⟩ := fails
            cases result.symm.trans failed
          · obtain ⟨e, failed⟩ := ih mem
            exact ⟨e, by rw [failed]; rfl⟩

end MapM

end BlazeBee.Lib
