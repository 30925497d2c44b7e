import Mathlib

/-!
# The next point of a grid

A grid has an origin and a positive step.  The next point after a time is the
end of the cell which contains it; a time before the origin counts as within
the first cell.  The next point is the same from any time of the cell on, so
a clock which remembers it agrees with one which computes it anew.
-/

namespace Eris.Foundation.Grid

variable {Time : Type} [Field Time] [LinearOrder Time] [FloorRing Time]
    {origin step now earlier : Time}

/-- The number of the cell which contains a time. -/
def cell (origin step now : Time) : Int := max 0 ⌊(now - origin) / step⌋

/-- The end of the cell which contains a time. -/
def nextPoint (origin step now : Time) : Time :=
  origin + (cell origin step now + 1) * step

theorem cell_nonneg : 0 ≤ cell origin step now := le_max_left _ _

theorem exists_nextPoint_eq :
    ∃ number : Nat, nextPoint origin step now =
      origin + (number + 1) * step := by
  rcases Int.eq_ofNat_of_zero_le
    (cell_nonneg : 0 ≤ cell origin step now) with ⟨number, same⟩
  refine ⟨number, ?_⟩
  rw [nextPoint, same, Int.cast_natCast]

variable [IsStrictOrderedRing Time]

theorem cell_mono
    (positive : 0 < step) (ordered : earlier ≤ now) :
    cell origin step earlier ≤ cell origin step now := by
  refine max_le_max_left _ (Int.floor_le_floor ?_)
  exact div_le_div_of_nonneg_right (sub_le_sub_right ordered _) positive.le

theorem lt_nextPoint (positive : 0 < step) :
    now < nextPoint origin step now := by
  have within : (now - origin) / step < ⌊(now - origin) / step⌋ + 1 :=
    Int.lt_floor_add_one _
  have counted : (⌊(now - origin) / step⌋ : Time) ≤ cell origin step now :=
    Int.cast_le.mpr (le_max_right _ _)
  have bound : now - origin < (cell origin step now + 1) * step := by
    rw [← div_lt_iff₀ positive]
    linarith
  rw [nextPoint]
  linarith

theorem cell_le_of_lt_nextPoint
    (positive : 0 < step) (before : now < nextPoint origin step earlier) :
    cell origin step now ≤ cell origin step earlier := by
  refine max_le cell_nonneg ?_
  rw [← Int.lt_add_one_iff, Int.floor_lt, div_lt_iff₀ positive]
  rw [nextPoint] at before
  push_cast
  linarith

theorem nextPoint_eq_of_between
    (positive : 0 < step) (ordered : earlier ≤ now)
    (before : now < nextPoint origin step earlier) :
    nextPoint origin step now = nextPoint origin step earlier := by
  have same : cell origin step now = cell origin step earlier :=
    le_antisymm (cell_le_of_lt_nextPoint positive before)
      (cell_mono positive ordered)
  rw [nextPoint, nextPoint, same]

theorem cell_lt_of_nextPoint_le
    (positive : 0 < step) (reached : nextPoint origin step earlier ≤ now) :
    cell origin step earlier < cell origin step now := by
  by_contra within
  have later : nextPoint origin step now ≤ nextPoint origin step earlier := by
    rw [nextPoint, nextPoint]
    have ordered : (cell origin step now : Time) ≤ cell origin step earlier :=
      Int.cast_le.mpr (not_lt.mp within)
    have scaled := mul_le_mul_of_nonneg_right
      (add_le_add_left ordered 1) positive.le
    linarith
  exact absurd (lt_nextPoint positive) (not_lt.mpr (later.trans reached))

end Eris.Foundation.Grid
