import Eris.Foundation.Cursor

/-!
# The boundaries of an epoch

An epoch starts on a block and ends on another.  Its evaluation boundaries
are the start, every interval after it, and the end itself, so that the last
interval may be short.  `intervalBoundaryBlocks` lists them at once;
`nextIntervalBoundary` is the step of a scorer which reads them as the chain
goes past them.
-/

namespace Eris.Scoring.Extent

open Foundation.Cursor

/-- The boundary after `boundary`: one interval on, but never past the end. -/
def nextIntervalBoundary
    (boundary : Int) (intervalBlocks : Int) (endBlock : Option Int) :
    Option Int :=
  match endBlock with
  | none => some (boundary + intervalBlocks)
  | some last =>
      if boundary ≥ last then none
      else some (min (boundary + intervalBlocks) last)

theorem nextIntervalBoundary_lt
    {boundary follower : Int} {intervalBlocks : Int} {endBlock : Option Int}
    (advances : 1 ≤ intervalBlocks)
    (follows :
      nextIntervalBoundary boundary intervalBlocks endBlock = some follower) :
    boundary < follower := by
  cases endBlock with
  | none =>
      cases follows
      omega
  | some last =>
      simp only [nextIntervalBoundary] at follows
      split at follows
      · cases follows
      · cases follows
        omega

/-- The boundaries after `boundary`, up to and including `toBlock`. -/
def boundariesAfter
    (step : Int) (advances : 1 ≤ step) (toBlock boundary : Int) :
    List Int :=
  match follows : nextIntervalBoundary boundary step (some toBlock) with
  | none => []
  | some next => next :: boundariesAfter step advances toBlock next
termination_by (toBlock - boundary).toNat
decreasing_by
  have later := nextIntervalBoundary_lt advances follows
  simp only [nextIntervalBoundary] at follows
  split at follows
  · cases follows
  · omega

/--
Every boundary of an epoch, or none when the series is disabled or the
window has no block after its first.
-/
def intervalBoundaryBlocks
    (fromBlock toBlock : Int) (intervalBlocks : Int) : List Int :=
  if advances : 1 ≤ intervalBlocks then
    if toBlock > fromBlock then
      fromBlock :: boundariesAfter intervalBlocks advances toBlock fromBlock
    else []
  else []

theorem boundariesAfter_visits
    {step : Int} (advances : 1 ≤ step) (toBlock boundary : Int) :
    Visits (nextIntervalBoundary · step (some toBlock))
      (nextIntervalBoundary boundary step (some toBlock))
      (boundariesAfter step advances toBlock boundary) none := by
  rw [boundariesAfter]
  split
  · next follows =>
      rw [follows]
      exact .rest
  · next follower follows =>
      rw [follows]
      exact .visit (boundariesAfter_visits advances toBlock follower)
termination_by (toBlock - boundary).toNat
decreasing_by
  rename_i follows
  have later := nextIntervalBoundary_lt advances follows
  simp only [nextIntervalBoundary] at follows
  split at follows
  · cases follows
  · omega

theorem intervalBoundaryBlocks_visits
    {fromBlock toBlock : Int} {intervalBlocks : Int}
    (advances : 1 ≤ intervalBlocks) (longer : fromBlock < toBlock) :
    Visits (nextIntervalBoundary · intervalBlocks (some toBlock))
      (some fromBlock)
      (intervalBoundaryBlocks fromBlock toBlock intervalBlocks) none := by
  rw [intervalBoundaryBlocks, dif_pos advances, if_pos longer]
  exact .visit (boundariesAfter_visits advances toBlock fromBlock)

end Eris.Scoring.Extent
