import Mathlib.Data.List.Nodup
import Mathlib.Tactic.Common

/-!
An interval timer that skips missed ticks.

Its deadlines lie on a grid: a start instant plus multiples of the period. A tick
is ready from its deadline on; however late it is taken, the next deadline is the
first grid instant after the present (`lt_deadline_fire`), so missed ticks are not
replayed. A reset starts a new grid one period from now.

`Paced` says of what was started when a tick was taken, or at a reset, that no two
starts share a window of the grid; taking a tick keeps it, however late (`Paced.fire`).
-/

namespace BlazeBee.Lib

/-- A timer with a period, and the instant from which its next tick can be taken. The period
is not zero, so the grid has no two instants in one place. A tick that is taken late moves to
the next instant of the grid and makes up for none. -/
structure Interval where
  period : Nat
  deadline : Nat
  period_pos : 0 < period

namespace Interval

/-- The first tick is ready immediately. -/
def start (period : Nat) (period_pos : 0 < period) (now : Nat) : Interval :=
  ⟨period, now, period_pos⟩

/-- Whether a tick can be taken. -/
def Ready (t : Interval) (now : Nat) : Prop := t.deadline ≤ now

instance (t : Interval) (now : Nat) : Decidable (t.Ready now) :=
  inferInstanceAs (Decidable (_ ≤ _))

/-- Takes a tick at `now`: the next deadline is the next grid instant. -/
def fire (t : Interval) (now : Nat) : Interval :=
  { t with deadline := t.deadline + t.period * ((now - t.deadline) / t.period + 1) }

/-- Restarts the cadence from `now`. -/
def reset (t : Interval) (now : Nat) : Interval := { t with deadline := now + t.period }

variable {t : Interval} {now : Nat}

@[simp] theorem fire_period (t : Interval) (now : Nat) : (t.fire now).period = t.period := rfl
@[simp] theorem reset_period (t : Interval) (now : Nat) : (t.reset now).period = t.period := rfl

/-- After a tick the next deadline lies in the future. -/
theorem lt_deadline_fire (ready : t.Ready now) : now < (t.fire now).deadline := by
  have quotient := Nat.lt_mul_div_succ (now - t.deadline) t.period_pos
  unfold Ready at ready
  simp only [fire]
  omega

/-- The instant `x` lies between the `k`-th and the next instant of the grid that starts
at `anchor`. -/
def InWindow (period anchor k x : Nat) : Prop :=
  anchor + k * period ≤ x ∧ x < anchor + (k + 1) * period

instance (period anchor k x : Nat) : Decidable (InWindow period anchor k x) :=
  inferInstanceAs (Decidable (_ ∧ _))

/-- The window that an instant lies in. -/
def window (period anchor x : Nat) : Nat := (x - anchor) / period

/-- From the anchor on, each instant lies in exactly one window. -/
theorem inWindow_iff {period anchor k x : Nat} (pos : 0 < period) (le : anchor ≤ x) :
    InWindow period anchor k x ↔ window period anchor x = k := by
  unfold InWindow window
  rw [Nat.div_eq_iff pos, Nat.add_mul, Nat.one_mul]
  omega

/-- Instants on both sides of a grid instant lie in different windows. -/
theorem window_lt {period anchor k x y : Nat} (pos : 0 < period) (le : anchor ≤ x)
    (before : x < anchor + k * period) (after : anchor + k * period ≤ y) :
    window period anchor x < window period anchor y := by
  have lower : (x - anchor) / period < k := by
    rw [Nat.div_lt_iff_lt_mul pos]
    omega
  have upper : k ≤ (y - anchor) / period := by
    rw [Nat.le_div_iff_mul_le pos]
    omega
  exact Nat.lt_of_lt_of_le lower upper

/-- The next deadline is an instant of the grid that starts at `anchor`. -/
def OnGrid (t : Interval) (anchor : Nat) : Prop := ∃ k, t.deadline = anchor + k * t.period

/-- Taking a tick stays on the grid, however late it is taken. -/
theorem OnGrid.fire {anchor : Nat} (grid : t.OnGrid anchor) (now : Nat) :
    (t.fire now).OnGrid anchor := by
  obtain ⟨k, deadline⟩ := grid
  refine ⟨k + ((now - t.deadline) / t.period + 1), ?_⟩
  rw [Interval.fire, deadline, Nat.add_mul, Nat.mul_comm t.period, Nat.add_assoc]

/-- The starts since `anchor`: all before the next deadline, in different windows. -/
structure Paced (interval : Interval) (anchor : Nat) (starts : List Nat) : Prop where
  grid : interval.OnGrid anchor
  from_anchor : ∀ x ∈ starts, anchor ≤ x
  before : ∀ x ∈ starts, x < interval.deadline
  apart : (starts.map (window interval.period anchor)).Pairwise (· < ·)

namespace Paced

variable {anchor : Nat} {starts : List Nat}

/-- A tick that is taken, with a start or without. -/
theorem fire (paced : t.Paced anchor starts) (ready : t.Ready now) {n : Nat} (one : n ≤ 1) :
    (t.fire now).Paced anchor (starts ++ List.replicate n now) := by
  have later := lt_deadline_fire ready
  obtain ⟨k, deadline⟩ := paced.grid
  have due : anchor + k * t.period ≤ now := deadline ▸ ready
  have earlier : ∀ x ∈ starts, x < now := fun x mem =>
    Nat.lt_of_lt_of_le (paced.before x mem) ready
  refine ⟨paced.grid.fire now, fun x mem => ?_, fun x mem => ?_, ?_⟩
  · rcases List.mem_append.mp mem with old | new
    · exact paced.from_anchor x old
    · rw [(List.mem_replicate.mp new).2]
      omega
  · rcases List.mem_append.mp mem with old | new
    · exact Nat.lt_trans (earlier x old) later
    · rw [(List.mem_replicate.mp new).2]
      exact later
  · rw [List.map_append, List.pairwise_append]
    refine ⟨paced.apart, ?_, ?_⟩
    · rw [List.map_replicate, List.pairwise_replicate]
      exact Or.inl one
    · intro a old b new
      obtain ⟨x, mem, rfl⟩ := List.mem_map.mp old
      obtain ⟨y, mem', rfl⟩ := List.mem_map.mp new
      rw [(List.mem_replicate.mp mem').2]
      exact window_lt t.period_pos (paced.from_anchor x mem) (deadline ▸ paced.before x mem) due

/-- A reset starts a new grid, with a start or without. -/
theorem reset (t : Interval) (now : Nat) {n : Nat} (one : n ≤ 1) :
    (t.reset now).Paced now (List.replicate n now) := by
  have pos := t.period_pos
  refine ⟨⟨1, by simp [Interval.reset]⟩, fun x mem => ?_, fun x mem => ?_, ?_⟩
  · exact Nat.le_of_eq (List.mem_replicate.mp mem).2.symm
  · rw [(List.mem_replicate.mp mem).2]
    simp only [Interval.reset]
    omega
  · rw [List.map_replicate, List.pairwise_replicate]
    exact Or.inl one

/-- A new timer has its grid from now on, and nothing was started. -/
theorem start (period : Nat) (pos : 0 < period) (now : Nat) :
    (Interval.start period pos now).Paced now [] :=
  ⟨⟨0, by simp [Interval.start]⟩, by simp, by simp, List.Pairwise.nil⟩

/-- No window has two starts. -/
theorem countP_le_one (paced : t.Paced anchor starts) (k : Nat) :
    starts.countP (fun x => decide (InWindow t.period anchor k x)) ≤ 1 := by
  have nodup : (starts.map (window t.period anchor)).Nodup := paced.apart.imp Nat.ne_of_lt
  have count := List.nodup_iff_count_le_one.mp nodup k
  rw [List.count, List.countP_map] at count
  refine Nat.le_trans (Nat.le_of_eq (List.countP_congr fun x mem => ?_)) count
  simp [inWindow_iff t.period_pos (paced.from_anchor x mem)]

end Paced

end Interval

end BlazeBee.Lib
