import Mathlib

/-!
# Filling to a level

Some columns are filled up to a common level, no column above its own height.
One level more adds a unit to every column which is higher than the level.
The highest level whose units do not exceed a total is found by bisection,
which narrows a range of levels until one is left; what the level leaves of
the total is less than one unit for each higher column.
-/

namespace Eris.Foundation.WaterFill

section Levels

variable {heights : List Nat} {level : Nat}

def filled (heights : List Nat) (level : Nat) : Nat :=
  (heights.map fun height => min height level).sum

/-- The columns which are higher than a level. -/
def higher (heights : List Nat) (level : Nat) : Nat :=
  heights.countP fun height => level < height

theorem filled_zero : filled heights 0 = 0 := by
  simp [filled]

theorem filled_succ :
    filled heights (level + 1) = filled heights level + higher heights level := by
  induction heights with
  | nil => rfl
  | cons height rest ih =>
      rw [filled, filled, higher, List.map_cons, List.sum_cons,
        List.map_cons, List.sum_cons, List.countP_cons]
      rw [filled, filled, higher] at ih
      split
      · next above =>
          have above' : level < height := of_decide_eq_true above
          omega
      · next below =>
          have below' : ¬ level < height := by simpa using below
          omega

theorem filled_eq_sum (bounded : ∀ height ∈ heights, height ≤ level) :
    filled heights level = heights.sum := by
  rw [filled]
  congr 1
  calc
    heights.map (fun height => min height level) = heights.map id :=
      List.map_congr_left fun height member =>
        min_eq_left (bounded height member)
    _ = heights := List.map_id heights

theorem filled_mono : Monotone (filled heights) :=
  monotone_nat_of_le_succ fun level => by
    rw [filled_succ]
    exact Nat.le_add_right _ _

end Levels

section Bisection

variable {fits : Nat → Prop} [DecidablePred fits] {lo hi : Nat}

/-- Narrow a range to the half in which the highest level that fits is. -/
def narrow (fits : Nat → Prop) [DecidablePred fits] (range : Nat × Nat) :
    Nat × Nat :=
  if range.1 < range.2 then
    if fits ((range.1 + range.2 + 1) / 2) then
      ((range.1 + range.2 + 1) / 2, range.2)
    else (range.1, (range.1 + range.2 + 1) / 2 - 1)
  else range

theorem narrow_single : narrow fits (lo, lo) = (lo, lo) := by
  rw [narrow, if_neg (lt_irrefl lo)]

/-- A range whose lower end fits and above whose upper end nothing does. -/
structure Enclosing (fits : Nat → Prop) (most lo hi : Nat) : Prop where
  ordered : lo ≤ hi
  fitting : fits lo
  beyond : ∀ level, hi < level → level ≤ most → ¬ fits level

variable {most : Nat}

theorem Enclosing.narrow
    (enclosing : Enclosing fits most lo hi)
    (downward : ∀ low high, low ≤ high → fits high → fits low) :
    Enclosing fits most (narrow fits (lo, hi)).1
      (WaterFill.narrow fits (lo, hi)).2 := by
  rcases Nat.lt_or_ge lo hi with wide | single
  · rw [WaterFill.narrow, if_pos wide]
    split
    · next fitting =>
        exact ⟨by dsimp only; omega, fitting, enclosing.beyond⟩
    · next fails =>
        refine ⟨by dsimp only; omega, enclosing.fitting, ?_⟩
        intro level above below fitting
        refine fails (downward _ level ?_ fitting)
        dsimp only at above
        omega
  · have same : lo = hi := le_antisymm enclosing.ordered single
    subst same
    rw [narrow_single]
    exact enclosing

end Bisection

end Eris.Foundation.WaterFill
