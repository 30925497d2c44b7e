import Eris.Foundation.Grid
import Eris.Foundation.Transition
import Eris.Period.Segments

/-!
# When a period rolls

`core/src/segments.ts` and `sdk/src/periodClock.ts`.  The environment
remembers the next time at which it rolls; an agent computes the end of the
day which contains the present.  Both are points of the grid of days which
starts with the first block, and they are the same point at every moment
from a roll to the next one, however late the rolls come.

Times are exact numbers of milliseconds.
-/

namespace Eris.Period.RollClock

open Foundation Foundation.Transition Segments

/-- The end of the day that contains `nowMs`. -/
def nextDayBoundaryMs (startedAtMs dayHours nowMs : ℚ) : ℚ :=
  let dayMs := dayHours * 3600000
  let k := max 0 ⌊(nowMs - startedAtMs) / dayMs⌋
  startedAtMs + (k + 1) * dayMs

/-- A run with its clock; there is no next roll before the first block. -/
structure TimedRun where
  run : SegmentedRun
  segmentStartedAtMs : ℚ
  periodStartedAtMs : Option ℚ
  nextRollAtMs : Option ℚ

namespace TimedRun

/-- A run whose first block is not known yet. -/
def created (nowMs : ℚ) : TimedRun := ⟨.created, nowMs, none, none⟩

def noteFirstBlock
    (timed : TimedRun) (hours : ℚ) (blockNumber : ℕ) (atMs : ℚ) :
    TimedRun :=
  if timed.run.segmentStartBlock ≠ 0 then timed
  else
    { run := timed.run.noteFirstBlock blockNumber
      segmentStartedAtMs := atMs
      periodStartedAtMs := some atMs
      nextRollAtMs := some (nextDayBoundaryMs atMs hours atMs) }

def dueToRoll (timed : TimedRun) (nowMs : ℚ) : Bool :=
  if timed.run.segmentStartBlock = 0 then false
  else timed.nextRollAtMs.any (· ≤ nowMs)

/-- Close the current segment and open the next. -/
def roll (timed : TimedRun) (hours : ℚ) (atBlock : ℕ) (nowMs : ℚ) :
    TimedRun where
  run := timed.run.roll atBlock
  segmentStartedAtMs := nowMs
  periodStartedAtMs := timed.periodStartedAtMs
  nextRollAtMs := some
      (nextDayBoundaryMs (timed.periodStartedAtMs.getD nowMs) hours nowMs)

/-- Continue after a restart: the entries of later segments are gone, and the
entry of the current one is open again. -/
def resumed (saved : TimedRun) (index : List SegmentIndexEntry) : TimedRun :=
  let current := saved.run.segment
  let reopened (entry : SegmentIndexEntry) :=
    if entry.seed = current then { entry with toBlock := entry.fromBlock }
    else entry
  let kept := (index.filter (·.seed ≤ current)).map reopened
  { saved with
    run := SegmentedRun.writeIndex { saved.run with index := kept } }

end TimedRun

/-- What happens to a run; a block is checked at one time and the roll it
causes takes place at another one. -/
inductive Happening where
  | firstBlock (blockNumber : ℕ) (atMs : ℚ)
  | block (atBlock : ℕ) (checkedAtMs rolledAtMs : ℚ)
  | resume (index : List SegmentIndexEntry)

def happen (hours : ℚ) (timed : TimedRun) : Happening → TimedRun
  | .firstBlock blockNumber atMs =>
      timed.noteFirstBlock hours blockNumber atMs
  | .block atBlock checkedAtMs rolledAtMs =>
      if timed.dueToRoll checkedAtMs then
        timed.roll hours atBlock rolledAtMs
      else timed
  | .resume index => timed.resumed index

/-- The clock of a run whose days last `hours`. -/
def clock (hours : ℚ) : System TimedRun Happening where
  initial := fun timed => ∃ nowMs, timed = .created nowMs
  step := fun timed happening next => next = happen hours timed happening

variable {hours origin next : ℚ} {timed timed' : TimedRun}

def dayMs (hours : ℚ) : ℚ := hours * 3600000

theorem dayMs_pos (positive : 0 < hours) : 0 < dayMs hours :=
  mul_pos positive (by norm_num)

/-- The next roll is the end of the day in which the segment started. -/
def OnGrid (hours : ℚ) (timed : TimedRun) : Prop :=
  timed.nextRollAtMs = timed.periodStartedAtMs.map fun origin =>
      nextDayBoundaryMs origin hours timed.segmentStartedAtMs

theorem dueToRoll_iff {nowMs : ℚ} :
    timed.dueToRoll nowMs = true ↔ timed.run.segmentStartBlock ≠ 0 ∧
        ∃ next, timed.nextRollAtMs = some next ∧ next ≤ nowMs := by
  rw [TimedRun.dueToRoll]
  split
  · next unknown => simp [unknown]
  · next known =>
      cases timed.nextRollAtMs <;> simp [known]

theorem roll_onGrid
    {atBlock : ℕ} {nowMs : ℚ}
    (started : timed.periodStartedAtMs = some origin) :
    OnGrid hours (timed.roll hours atBlock nowMs) := by
  rw [OnGrid, TimedRun.roll]
  simp only [started, Option.getD_some, Option.map_some]

theorem happen_onGrid
    (onGrid : OnGrid hours timed) (happening : Happening) :
    OnGrid hours (happen hours timed happening) := by
  cases happening with
  | firstBlock blockNumber atMs =>
      rw [happen, TimedRun.noteFirstBlock]
      split
      · exact onGrid
      · rfl
  | block atBlock checkedAtMs rolledAtMs =>
      rw [happen]
      split
      · next due =>
          rcases dueToRoll_iff.mp due with ⟨_, next, planned, _⟩
          rw [OnGrid, planned] at onGrid
          rcases Option.map_eq_some_iff.mp onGrid.symm with
            ⟨origin, started, _⟩
          exact roll_onGrid started
      · exact onGrid
  | resume index => exact onGrid

theorem happen_block_origin
    (timed : TimedRun) (atBlock : ℕ) (checkedAtMs rolledAtMs : ℚ) :
    (happen hours timed
        (.block atBlock checkedAtMs rolledAtMs)).periodStartedAtMs =
      timed.periodStartedAtMs := by
  simp only [happen]
  split
  · rfl
  · rfl

theorem reachable_onGrid
    (reachable : (clock hours).Reachable System.anything timed) :
    OnGrid hours timed := by
  refine @System.Reachable.invariant _ _ _ _ (OnGrid hours) _ ?_ ?_ reachable
  · rintro state ⟨nowMs, rfl⟩
    rfl
  · rintro state happening later onGrid _ rfl
    exact happen_onGrid onGrid happening

def IsDayEnd (origin hours time : ℚ) : Prop :=
  ∃ number : ℕ, time = origin + (number + 1) * dayMs hours

/--
The next roll is the end of a day, later than the segment's start, and the
day's end for every time from there until it is reached; a block checked at
any such time does not roll.
-/
structure Agrees (hours origin : ℚ) (timed : TimedRun) (next : ℚ) : Prop where
  planned : timed.nextRollAtMs = some next
  dayEnd : IsDayEnd origin hours next
  later : timed.segmentStartedAtMs < next
  same : ∀ nowMs, timed.segmentStartedAtMs ≤ nowMs → nowMs < next →
    nextDayBoundaryMs origin hours nowMs = next
  quiet : ∀ nowMs, nowMs < next → timed.dueToRoll nowMs = false

theorem agrees_of_onGrid
    (positive : 0 < hours) (onGrid : OnGrid hours timed)
    (started : timed.periodStartedAtMs = some origin) :
    Agrees hours origin timed
      (nextDayBoundaryMs origin hours timed.segmentStartedAtMs) := by
  have long := dayMs_pos positive
  have planned : timed.nextRollAtMs =
      some (nextDayBoundaryMs origin hours timed.segmentStartedAtMs) := by
    rw [onGrid, started]
    rfl
  refine ⟨planned, ?_, ?_, ?_, ?_⟩
  · exact Grid.exists_nextPoint_eq
  · exact Grid.lt_nextPoint long
  · intro nowMs since before
    exact Grid.nextPoint_eq_of_between long since before
  · intro nowMs before
    rw [← Bool.not_eq_true, dueToRoll_iff]
    rintro ⟨_, next, found, reached⟩
    rw [planned] at found
    cases found
    exact absurd before (not_lt.mpr reached)

/-- The number of the day which contains a time. -/
def dayOf (origin hours nowMs : ℚ) : ℤ := Grid.cell origin (dayMs hours) nowMs

theorem dayOf_lt_of_due
    (positive : 0 < hours) (onGrid : OnGrid hours timed)
    (started : timed.periodStartedAtMs = some origin) {nowMs : ℚ}
    (due : timed.dueToRoll nowMs = true) :
    dayOf origin hours timed.segmentStartedAtMs < dayOf origin hours nowMs := by
  rcases dueToRoll_iff.mp due with ⟨_, next, planned, reached⟩
  rw [onGrid, started] at planned
  cases planned
  exact Grid.cell_lt_of_nextPoint_le (dayMs_pos positive) reached

/-- The first block at time 5, and a stall over several days of a minute. -/
def stalled : TimedRun :=
  happen (1 / 60) (happen (1 / 60) (.created 0) (.firstBlock 100 5))
    (.block 200 250000 250007)

theorem stalled_reachable :
    (clock (1 / 60)).Reachable System.anything stalled := by
  refine ⟨.created 0, ⟨0, rfl⟩, ?_⟩
  have first : (clock (1 / 60)).Moves System.anything (.created 0)
        (happen (1 / 60) (.created 0) (.firstBlock 100 5)) :=
    ⟨_, trivial, rfl⟩
  have second : (clock (1 / 60)).Moves System.anything
        (happen (1 / 60) (.created 0) (.firstBlock 100 5)) stalled :=
    ⟨_, trivial, rfl⟩
  exact (Relation.ReflTransGen.single first).tail second

theorem stalled_started : stalled.periodStartedAtMs = some 5 :=
  happen_block_origin _ _ _ _

end Eris.Period.RollClock
