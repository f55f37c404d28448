import Mathlib.Tactic.Common

/-!
Labelled transition systems with outputs.

`step s l` is `none` when label `l` is not enabled in `s`. Runs are computed, so a
scenario can be replayed; proofs use the rules below.

* `Reachable.invariant`: what holds at the start and is kept by every step holds
  in every reachable state.
* `run_invariant`: the same along one run from any state, where the steps may be
  restricted, together with what every output of the run satisfies.
* `run_outputs`: the outputs of a run as a whole.
* `run_history`: a function of the labels so far against the state they lead to.
* `run_trace`: the labels and outputs so far against the state they lead to.
* `run_meets_iff`, `run_dichotomy`: when a run meets a condition throughout.
* `recording`: the same system with a history of its steps beside the state.
* `Execution.eventually`: in an infinite run, a rank that never grows and is bound
  to drop reaches the goal.
-/

namespace BlazeBee.Lib

/-- A machine with labelled steps: which states it starts in, and what a label does to a
state, if it can do anything, with what can be seen of it. Everything that is left to the
surroundings stands in the labels, so the runs of a machine are all the orders in which
things may happen. -/
structure System (σ ι ω : Type) where
  start : σ → Prop
  step : σ → ι → Option (σ × List ω)

namespace System

variable {σ ι ω : Type} (sys : System σ ι ω)

/-- Takes the steps `ls` from `s` and collects their outputs. -/
def run (s : σ) : List ι → Option (σ × List ω)
  | [] => some (s, [])
  | l :: ls =>
      match sys.step s l with
      | none => none
      | some (t, out) => (run t ls).map fun (u, rest) => (u, out ++ rest)

/-- The states that some run from a start state ends in; an invariant is proved of these by
one lemma about a step. -/
inductive Reachable : σ → Prop where
  | start {s : σ} : sys.start s → Reachable s
  | step {s t : σ} {l : ι} {out : List ω} : Reachable s → sys.step s l = some (t, out) → Reachable t

variable {sys}

/-- A run begins with a step, and the rest is a run from where that leads. -/
theorem run_cons {s u : σ} {l : ι} {ls : List ι} {outs : List ω}
    (ran : sys.run s (l :: ls) = some (u, outs)) :
    ∃ t out rest, sys.step s l = some (t, out) ∧ sys.run t ls = some (u, rest) ∧
      outs = out ++ rest := by
  unfold run at ran
  cases stepped : sys.step s l with
  | none => simp [stepped] at ran
  | some next =>
      obtain ⟨t, out⟩ := next
      simp only [stepped, Option.map_eq_some_iff, Prod.mk.injEq, Prod.exists] at ran
      obtain ⟨u', rest, tail, rfl, outputs⟩ := ran
      exact ⟨t, out, rest, rfl, tail, outputs.symm⟩

/-- A step followed by a run is a run. -/
theorem run_of_step {s t u : σ} {l : ι} {ls : List ι} {out rest : List ω}
    (stepped : sys.step s l = some (t, out)) (tail : sys.run t ls = some (u, rest)) :
    sys.run s (l :: ls) = some (u, out ++ rest) := by
  rw [run, stepped]
  simp [tail]

/-- Runs can be put together. -/
theorem run_append {s t u : σ} {ls ms : List ι} {out rest : List ω}
    (first : sys.run s ls = some (t, out)) (second : sys.run t ms = some (u, rest)) :
    sys.run s (ls ++ ms) = some (u, out ++ rest) := by
  induction ls generalizing s out with
  | nil =>
      obtain ⟨rfl, rfl⟩ : s = t ∧ ([] : List ω) = out := by simpa [run] using first
      simpa using second
  | cons l ls ih =>
      obtain ⟨v, out₁, out₂, stepped, tail, rfl⟩ := run_cons first
      rw [List.cons_append, run_of_step stepped (ih tail), List.append_assoc]

/-- A run goes on with a step. -/
theorem run_snoc {s t u : σ} {ls : List ι} {l : ι} {out rest : List ω}
    (first : sys.run s ls = some (t, out)) (stepped : sys.step t l = some (u, rest)) :
    sys.run s (ls ++ [l]) = some (u, out ++ rest) := by
  have single : sys.run t [l] = some (u, rest) := by simp [run, stepped]
  exact run_append first single

/-- A run of two parts passes through a state between them. -/
theorem run_split {s u : σ} {ls ms : List ι} {outs : List ω}
    (ran : sys.run s (ls ++ ms) = some (u, outs)) :
    ∃ t out rest, sys.run s ls = some (t, out) ∧ sys.run t ms = some (u, rest) ∧
      outs = out ++ rest := by
  induction ls generalizing s outs with
  | nil => exact ⟨s, [], outs, rfl, ran, rfl⟩
  | cons l ls ih =>
      obtain ⟨v, out₁, rest, stepped, tail, rfl⟩ := run_cons ran
      obtain ⟨t, out₂, last, first, second, rfl⟩ := ih tail
      exact ⟨t, out₁ ++ out₂, last, run_of_step stepped first, second,
        (List.append_assoc _ _ _).symm⟩

/-- The last step of a run. -/
theorem run_concat {s u : σ} {ls : List ι} {l : ι} {outs : List ω}
    (ran : sys.run s (ls ++ [l]) = some (u, outs)) :
    ∃ t out rest, sys.run s ls = some (t, out) ∧ sys.step t l = some (u, rest) ∧
      outs = out ++ rest := by
  obtain ⟨t, out, rest, first, second, rfl⟩ := run_split ran
  obtain ⟨v, last, nothing, stepped, ended, rfl⟩ := run_cons second
  obtain ⟨rfl, rfl⟩ : v = u ∧ ([] : List ω) = nothing := by simpa [run] using ended
  exact ⟨t, out, last, first, stepped, by rw [List.append_nil]⟩

/-! ### Invariants -/

/-- What holds at the start and is kept by every step holds in every reachable
state. -/
theorem Reachable.invariant {I : σ → Prop} (start : ∀ s, sys.start s → I s)
    (step : ∀ s l t out, I s → sys.step s l = some (t, out) → I t) {s : σ}
    (reachable : sys.Reachable s) : I s := by
  induction reachable with
  | start started => exact start _ started
  | step _ stepped ih => exact step _ _ _ _ ih stepped

/-- A run from a reachable state leads to reachable states. -/
theorem Reachable.run {s t : σ} {ls : List ι} {outs : List ω} (reachable : sys.Reachable s)
    (ran : sys.run s ls = some (t, outs)) : sys.Reachable t := by
  induction ls generalizing s outs with
  | nil =>
      obtain ⟨rfl, -⟩ : s = t ∧ ([] : List ω) = outs := by simpa [System.run] using ran
      exact reachable
  | cons l ls ih =>
      obtain ⟨v, _, _, stepped, tail, -⟩ := run_cons ran
      exact ih (reachable.step stepped) tail

variable (sys) in
/-- Every step that the labels `ls` take from `s` meets the condition `C`. -/
def Meets (C : σ → ι → Prop) : σ → List ι → Prop
  | _, [] => True
  | s, l :: ls => C s l ∧ ∀ t out, sys.step s l = some (t, out) → Meets C t ls

/-- What an invariant ensures of every label, every step of a run meets. -/
theorem meets_of_invariant {I : σ → Prop} {C : σ → ι → Prop} (all : ∀ s l, I s → C s l)
    (step : ∀ s l t out, I s → sys.step s l = some (t, out) → I t) {s : σ} (inv : I s)
    (ls : List ι) : sys.Meets C s ls := by
  induction ls generalizing s with
  | nil => trivial
  | cons l ls ih => exact ⟨all s l inv, fun t out stepped => ih (step s l t out inv stepped)⟩

/-- A condition that always holds is met by every run. -/
theorem meets_of_forall {C : σ → ι → Prop} (all : ∀ s l, C s l) (s : σ) (ls : List ι) :
    sys.Meets C s ls :=
  meets_of_invariant (fun s l (_ : True) => all s l) (fun _ _ _ _ _ _ => trivial) trivial ls

/-- Steps are deterministic, so a run has only one way on. -/
theorem meets_cons_iff {C : σ → ι → Prop} {s t : σ} {l : ι} {ls : List ι} {out : List ω}
    (stepped : sys.step s l = some (t, out)) :
    sys.Meets C s (l :: ls) ↔ C s l ∧ sys.Meets C t ls := by
  constructor
  · intro meets
    exact ⟨meets.1, meets.2 t out stepped⟩
  · rintro ⟨here, later⟩
    refine ⟨here, fun u out' stepped' => ?_⟩
    rw [stepped] at stepped'
    obtain ⟨rfl, -⟩ := Prod.mk.inj (Option.some.inj stepped')
    exact later

/-- Along a run whose steps meet `C`, an invariant is kept, and every output
satisfies what each step guarantees of its own. -/
theorem run_invariant {I : σ → Prop} {C : σ → ι → Prop} {P : ω → Prop}
    (step : ∀ s l t out, I s → C s l → sys.step s l = some (t, out) → I t ∧ ∀ x ∈ out, P x)
    {s t : σ} {ls : List ι} {outs : List ω} (inv : I s) (meets : sys.Meets C s ls)
    (ran : sys.run s ls = some (t, outs)) : I t ∧ ∀ x ∈ outs, P x := by
  induction ls generalizing s outs with
  | nil =>
      obtain ⟨rfl, rfl⟩ : s = t ∧ ([] : List ω) = outs := by simpa [System.run] using ran
      exact ⟨inv, by simp⟩
  | cons l ls ih =>
      obtain ⟨u, out, rest, stepped, tail, rfl⟩ := run_cons ran
      obtain ⟨keep, good⟩ := step _ _ _ _ inv meets.1 stepped
      obtain ⟨final, goodRest⟩ := ih keep (meets.2 _ _ stepped) tail
      refine ⟨final, fun x mem => ?_⟩
      rcases List.mem_append.mp mem with here | later
      · exact good x here
      · exact goodRest x later

/-- The outputs of a run as a whole: `Q s` describes what is still to come from `s`. -/
theorem run_outputs {I : σ → Prop} {Q : σ → List ω → Prop} (nil : ∀ s, I s → Q s [])
    (step : ∀ s l t out, I s → sys.step s l = some (t, out) →
      I t ∧ ∀ rest, Q t rest → Q s (out ++ rest))
    {s t : σ} {ls : List ι} {outs : List ω} (inv : I s) (ran : sys.run s ls = some (t, outs)) :
    Q s outs := by
  induction ls generalizing s outs with
  | nil =>
      obtain ⟨rfl, rfl⟩ : s = t ∧ ([] : List ω) = outs := by simpa [System.run] using ran
      exact nil s inv
  | cons l ls ih =>
      obtain ⟨u, out, rest, stepped, tail, rfl⟩ := run_cons ran
      obtain ⟨keep, extend⟩ := step _ _ _ _ inv stepped
      exact extend rest (ih keep tail)

/-- Where a step meets `C` exactly when its own outputs satisfy `P`, so does a run. -/
theorem run_meets_iff {I : σ → Prop} {C : σ → ι → Prop} {P : ω → Prop}
    (step : ∀ s l t out, I s → sys.step s l = some (t, out) → I t ∧ (C s l ↔ ∀ x ∈ out, P x))
    {s t : σ} {ls : List ι} {outs : List ω} (inv : I s) (ran : sys.run s ls = some (t, outs)) :
    sys.Meets C s ls ↔ ∀ x ∈ outs, P x := by
  induction ls generalizing s outs with
  | nil =>
      obtain ⟨rfl, rfl⟩ : s = t ∧ ([] : List ω) = outs := by simpa [System.run] using ran
      simp [Meets]
  | cons l ls ih =>
      obtain ⟨u, out, rest, stepped, tail, rfl⟩ := run_cons ran
      obtain ⟨keep, here⟩ := step _ _ _ _ inv stepped
      rw [meets_cons_iff stepped, here, ih keep tail]
      simp only [List.mem_append, or_imp, forall_and]

/-- A history kept alongside: what relates it to the state after each step relates the
history of a whole run to the last state. -/
theorem run_history {α : Type} {R : α → σ → Prop} {next : α → ι → α} {C : ι → Prop}
    (step : ∀ a s l t out, R a s → C l → sys.step s l = some (t, out) → R (next a l) t)
    {a : α} {s t : σ} {ls : List ι} {outs : List ω} (related : R a s) (allowed : ∀ l ∈ ls, C l)
    (ran : sys.run s ls = some (t, outs)) : R (ls.foldl next a) t := by
  induction ls generalizing a s outs with
  | nil =>
      obtain ⟨rfl, -⟩ : s = t ∧ ([] : List ω) = outs := by simpa [System.run] using ran
      exact related
  | cons l ls ih =>
      obtain ⟨u, out, rest, stepped, tail, rfl⟩ := run_cons ran
      obtain ⟨here, later⟩ := List.forall_mem_cons.mp allowed
      exact ih (step _ _ _ _ _ related here stepped) later tail

/-- What the labels and outputs so far have to do with the state, along a whole run. -/
theorem run_trace {R : List ι → List ω → σ → Prop}
    (step : ∀ ls outs s l t out, R ls outs s → sys.step s l = some (t, out) →
      R (ls ++ [l]) (outs ++ out) t)
    {s t : σ} {ls : List ι} {outs : List ω} (related : R [] [] s)
    (ran : sys.run s ls = some (t, outs)) : R ls outs t := by
  suffices later : ∀ before earlier, R before earlier s → R (before ++ ls) (earlier ++ outs) t by
    simpa using later [] [] related
  clear related
  induction ls generalizing s outs with
  | nil =>
      obtain ⟨rfl, rfl⟩ : s = t ∧ ([] : List ω) = outs := by simpa [System.run] using ran
      intro before earlier related
      simpa using related
  | cons l ls ih =>
      obtain ⟨u, out, rest, stepped, tail, rfl⟩ := run_cons ran
      intro before earlier related
      simpa using ih tail _ _ (step _ _ _ _ _ _ related stepped)

/-- A condition that is broken for good: a run either meets it throughout and keeps
`I`, or it ends in `J`. -/
theorem run_dichotomy {I J : σ → Prop} {C : σ → ι → Prop}
    (step : ∀ s l t out, I s → sys.step s l = some (t, out) → C s l ∧ I t ∨ ¬ C s l ∧ J t)
    (stay : ∀ s l t out, J s → sys.step s l = some (t, out) → J t) {s t : σ} {ls : List ι}
    {outs : List ω} (inv : I s) (ran : sys.run s ls = some (t, outs)) :
    sys.Meets C s ls ∧ I t ∨ ¬ sys.Meets C s ls ∧ J t := by
  induction ls generalizing s outs with
  | nil =>
      obtain ⟨rfl, -⟩ : s = t ∧ ([] : List ω) = outs := by simpa [System.run] using ran
      exact Or.inl ⟨trivial, inv⟩
  | cons l ls ih =>
      obtain ⟨u, out, rest, stepped, tail, rfl⟩ := run_cons ran
      rw [meets_cons_iff stepped]
      rcases step _ _ _ _ inv stepped with ⟨met, keep⟩ | ⟨broken, bad⟩
      · rcases ih keep tail with ⟨meets, final⟩ | ⟨fails, final⟩
        · exact Or.inl ⟨⟨met, meets⟩, final⟩
        · exact Or.inr ⟨fun meets => fails meets.2, final⟩
      · obtain ⟨final, -⟩ := run_invariant (C := fun _ _ => True) (P := fun _ => True)
          (fun s l t out inv _ stepped => ⟨stay s l t out inv stepped, fun _ _ => trivial⟩) bad
          (meets_of_forall (fun _ _ => trivial) u ls) tail
        exact Or.inr ⟨fun meets => broken meets.1, final⟩

/-! ### Recorded histories -/

section Recording

variable {α : Type} {first : σ → α} {next : α → σ → ι → List ω → α}

variable (sys first next) in
/-- Keeps a history beside the state; every output carries the history that it finds. -/
def recording : System (σ × α) ι (ω × α) where
  start p := sys.start p.1 ∧ p.2 = first p.1
  step p l := (sys.step p.1 l).map fun (t, out) =>
    ((t, next p.2 p.1 l out), out.map fun x => (x, p.2))

/-- A step of the recording machine is a step of the machine, with the record carried
along. -/
theorem recording_step {p q : σ × α} {l : ι} {tagged : List (ω × α)}
    (stepped : (sys.recording first next).step p l = some (q, tagged)) :
    ∃ t out, sys.step p.1 l = some (t, out) ∧ q = (t, next p.2 p.1 l out) ∧
      tagged = out.map fun x => (x, p.2) := by
  obtain ⟨⟨t, out⟩, own, same⟩ := Option.map_eq_some_iff.mp stepped
  obtain ⟨rfl, rfl⟩ := Prod.mk.inj same
  exact ⟨t, out, own, rfl, rfl⟩

/-- A history hinders no run, and adds nothing to its outputs. -/
theorem run_recording {s t : σ} {ls : List ι} {outs : List ω}
    (ran : sys.run s ls = some (t, outs)) (a : α) :
    ∃ b tagged, (sys.recording first next).run (s, a) ls = some ((t, b), tagged) ∧
      tagged.map Prod.fst = outs := by
  induction ls generalizing s outs a with
  | nil =>
      obtain ⟨rfl, rfl⟩ : s = t ∧ ([] : List ω) = outs := by simpa [run] using ran
      exact ⟨a, [], rfl, rfl⟩
  | cons l ls ih =>
      obtain ⟨u, out, rest, stepped, tail, rfl⟩ := run_cons ran
      obtain ⟨b, tagged, recorded, same⟩ := ih tail (next a s l out)
      have step : (sys.recording first next).step (s, a) l =
          some ((u, next a s l out), out.map fun x => (x, a)) := by
        simp [recording, stepped]
      refine ⟨b, _, run_of_step step recorded, ?_⟩
      rw [List.map_append, same, List.map_map]
      exact congrArg (· ++ rest) (List.map_id out)

end Recording

/-! ### Infinite runs -/

variable (sys) in
/-- An infinite run. Only what happens at last, under some fairness, needs these; safety is a
matter of finite runs. -/
structure Execution where
  state : ℕ → σ
  label : ℕ → ι
  output : ℕ → List ω
  steps : ∀ n, sys.step (state n) (label n) = some (state (n + 1), output n)

namespace Execution

variable (e : sys.Execution)

/-- Every state of an execution is reachable. -/
theorem reachable (start : sys.Reachable (e.state 0)) (n : ℕ) : sys.Reachable (e.state n) := by
  induction n with
  | zero => exact start
  | succ n ih => exact ih.step (e.steps n)

/-- What a step keeps, an execution keeps from any point on. -/
theorem invariant_from {I : σ → Prop}
    (step : ∀ s l t out, I s → sys.step s l = some (t, out) → I t) {n : ℕ}
    (inv : I (e.state n)) {m : ℕ} (le : n ≤ m) : I (e.state m) := by
  induction le with
  | refl => exact inv
  | step _ ih => exact step _ _ _ _ ih (e.steps _)

/-- Weak fairness: an action that stays enabled is eventually taken. -/
def WeaklyFair (action : ι → Prop) : Prop :=
  ∀ n, (∀ m, n ≤ m → ∃ l next, action l ∧ sys.step (e.state m) l = some next) →
    ∃ m, n ≤ m ∧ action (e.label m)

/-- At its turn an action is taken, unless it is not enabled. -/
def TakesTurns (turn : ℕ → ι → Prop) : Prop :=
  ∀ n, (∃ l next, turn n l ∧ sys.step (e.state n) l = some next) → turn n (e.label n)

variable {e} in
/-- Whose turn comes again and again is treated fairly. -/
theorem weaklyFair_of_turns {turn : ℕ → ι → Prop} (turns : e.TakesTurns turn) {action : ι → Prop}
    (recurs : ∀ n, ∃ m, n ≤ m ∧ turn m = action) : e.WeaklyFair action := by
  intro n enabled
  obtain ⟨m, le, rfl⟩ := recurs n
  exact ⟨m, le, turns m (enabled m le)⟩

/-- While the goal is not reached the rank never grows, and from every such point
on it is bound to drop; then the goal is reached. -/
theorem eventually {I goal : σ → Prop} (rank : σ → ℕ)
    (step : ∀ s l t out, I s → sys.step s l = some (t, out) →
      goal s ∨ goal t ∨ I t ∧ rank t ≤ rank s)
    (drops : ∀ n, (∀ m, n ≤ m → I (e.state m) ∧ rank (e.state m) = rank (e.state n)) → False)
    {n : ℕ} (inv : I (e.state n)) : ∃ m, n ≤ m ∧ goal (e.state m) := by
  induction bound : rank (e.state n) using Nat.strongRecOn generalizing n with
  | ind r ih =>
      by_contra never
      have avoid : ∀ m, n ≤ m → ¬ goal (e.state m) := fun m le reached => never ⟨m, le, reached⟩
      -- Up to the goal, the invariant is kept and the rank does not grow.
      have descend : ∀ m, n ≤ m → I (e.state m) ∧ rank (e.state m) ≤ r := by
        intro m le
        induction le with
        | refl => exact ⟨inv, Nat.le_of_eq bound⟩
        | step le ihm =>
            rcases step _ _ _ _ ihm.1 (e.steps _) with here | next | ⟨keep, smaller⟩
            · exact absurd here (avoid _ le)
            · exact absurd next (avoid _ (Nat.le_succ_of_le le))
            · exact ⟨keep, Nat.le_trans smaller ihm.2⟩
      by_cases constant : ∀ m, n ≤ m → rank (e.state m) = r
      · exact drops n fun m le => ⟨(descend m le).1, (constant m le).trans bound.symm⟩
      · obtain ⟨m, changed⟩ := not_forall.mp constant
        obtain ⟨le, changed⟩ := Classical.not_imp.mp changed
        obtain ⟨m', le', reached⟩ :=
          ih _ (Nat.lt_of_le_of_ne (descend m le).2 changed) (descend m le).1 rfl
        exact never ⟨m', Nat.le_trans le le', reached⟩

end Execution

/-- From a state of an invariant that always allows a step, there is an infinite
run inside the invariant, all of whose steps are of the kind allowed at their time. -/
theorem exists_execution {I : σ → Prop} {A : ℕ → σ → ι → Prop}
    (progress : ∀ n s, I s → ∃ l t out, A n s l ∧ sys.step s l = some (t, out) ∧ I t) {s : σ}
    (inv : I s) :
    ∃ e : sys.Execution, e.state 0 = s ∧ ∀ n, I (e.state n) ∧ A n (e.state n) (e.label n) := by
  classical
  choose l t out allowed steps keep using progress
  let next : ℕ → {s // I s} → {s // I s} := fun n s => ⟨t n s s.2, keep n s s.2⟩
  let states : ℕ → {s // I s} := fun n => n.rec ⟨s, inv⟩ next
  refine ⟨⟨fun n => (states n).1, fun n => l n _ (states n).2, fun n => out n _ (states n).2, ?_⟩,
    rfl, ?_⟩
  · intro n
    exact steps n _ (states n).2
  · intro n
    exact ⟨(states n).2, allowed n _ (states n).2⟩

/-- Where a step is always possible, turns can be taken. -/
theorem exists_takingTurns {I : σ → Prop}
    (keep : ∀ s l t out, I s → sys.step s l = some (t, out) → I t)
    (progress : ∀ s, I s → ∃ l next, sys.step s l = some next) (turn : ℕ → ι → Prop) {s : σ}
    (inv : I s) :
    ∃ e : sys.Execution, e.state 0 = s ∧ (∀ n, I (e.state n)) ∧ e.TakesTurns turn := by
  obtain ⟨e, first, kept⟩ := exists_execution (I := I)
    (A := fun n s l => (∃ l' next, turn n l' ∧ sys.step s l' = some next) → turn n l)
    (fun n s inv => by
      by_cases enabled : ∃ l next, turn n l ∧ sys.step s l = some next
      · obtain ⟨l, ⟨t, out⟩, its, stepped⟩ := enabled
        exact ⟨l, t, out, fun _ => its, stepped, keep _ _ _ _ inv stepped⟩
      · obtain ⟨l, ⟨t, out⟩, stepped⟩ := progress s inv
        exact ⟨l, t, out, fun now => absurd now enabled, stepped, keep _ _ _ _ inv stepped⟩)
    inv
  exact ⟨e, first, fun n => (kept n).1, fun n => (kept n).2⟩

end System

end BlazeBee.Lib
