import Eris.Period.Segments
import Eris.Scoring.LineSeries

/-!
# A segment whose coordinator died

`core/src/segmentRecovery.ts`.  A segment gets its summary when the day rolls,
from the series in memory.  One whose coordinator died before that is closed
afterwards from files: the previous segment's summary and the lines which the
segment appended.  Both summaries show the same boundaries, values and profits.

The coordinator scores as in `Scoring.RunSeries`, rolls as in `realtime/
coordinator.ts` and is restored from a checkpoint after a restart.  Values are
those which JSON keeps, as the summaries are files.
-/

namespace Eris.Period.SegmentRecovery

open Foundation Foundation.Transition Segments Scoring.Extent Scoring.RunSeries
  Scoring.LineSeries Scoring.Profit
open Scoring.LiveScoring (Options ReconstructionAgent LiveIntervalBoundary Usdc
  enabled)

/-! ## The summary of a roll -/

/-- What a segment's summary says of its boundaries and agents. -/
structure SegmentSummary where
  fromBlock : ℕ
  toBlock : ℕ
  valueSeries : Option (IntervalSeries Usdc)
  agents : List (String × Option (EpochPnl Usdc))

/-- `LiveScorer.series`, as it is written: nothing below two boundaries. -/
def seriesOf (scorer : SeriesScorer) : Option (IntervalSeries Usdc) :=
  if scorer.boundaries.length < 2 then none
  else
    some
      { boundaryBlocks := scorer.boundaries.map Int.toNat
        valuesByAgent := scorer.agents.map fun agent =>
            (agent.id, ((scorer.valuesByAgent agent.id).getD []).map written) }

/-- `closeSegment`: the summary which a roll writes. -/
def closeSegment (scorer : SeriesScorer) (fromBlock atBlock : ℕ) :
    SegmentSummary :=
  let sliced := (seriesOf scorer).map fun whole =>
      sliceIntervalSeries whole fromBlock atBlock
  { fromBlock := fromBlock
    toBlock := atBlock
    valueSeries := sliced
    agents := scorer.agents.map fun agent =>
        (agent.id, sliced.bind fun series =>
            epochPnlFromSeries (series.valuesOf agent.id)) }

/-- What is left of a segment whose coordinator died. -/
structure CrashedSegmentInput where
  fromBlock : ℕ
  previous : IntervalSeries Usdc
  lines : List LiveIntervalBoundary
  identities : List String

namespace CrashedSegmentInput

variable (input : CrashedSegmentInput)

/-- Everybody named by the previous summary, the lines or the identities. -/
def ids : List String :=
  (input.previous.valuesByAgent.map Prod.fst ++
    (input.lines.flatMap fun line => line.values.map Prod.fst) ++
      input.identities).eraseDups

/-- The values of an agent in the previous summary; null without one. -/
def previousValues (id : String) : List (Option Usdc) :=
  ((input.previous.valuesByAgent.find? (·.1 = id)).map Prod.snd).getD
    (List.replicate input.previous.boundaryBlocks.length none)

/-- The previous summary's series, continued by the lines. -/
def whole : IntervalSeries Usdc where
  boundaryBlocks := input.previous.boundaryBlocks ++
      input.lines.map fun line => line.blockNumber.toNat
  valuesByAgent := input.ids.map fun id =>
      (id, input.previousValues id ++ input.lines.map (lineValue id))

/-- The block of the last line, or where the segment starts. -/
def toBlock : ℕ :=
  match input.lines.getLast? with
  | some last => last.blockNumber.toNat
  | none => input.fromBlock

end CrashedSegmentInput

def closeCrashedSegment (input : CrashedSegmentInput) : SegmentSummary :=
  let sliced := sliceIntervalSeries input.whole input.fromBlock input.toBlock
  { fromBlock := input.fromBlock
    toBlock := input.toBlock
    valueSeries := some sliced
    agents := input.identities.map fun id =>
        (id, epochPnlFromSeries (sliced.valuesOf id)) }

variable (options : Options)

/-- The scorer, and what the current segment has on disk. -/
structure Coordinator where
  scorer : SeriesScorer
  fromBlock : ℕ
  previous : Option SegmentSummary
  lines : List LiveIntervalBoundary

/-- A coordinator and the checkpoints it has written. -/
structure PracticePeriod where
  now : Coordinator
  checkpoints : List Coordinator

/-- The coordinator after its scorer's step, the new lines appended. -/
def Coordinator.scored (coordinator : Coordinator) (scorer : SeriesScorer) :
    Coordinator :=
  { coordinator with
    scorer := scorer
    lines := coordinator.lines ++
        scorer.intervals.drop coordinator.scorer.intervals.length }

/-- `rollSegment`: close the segment, and open the next at the same block. -/
def Coordinator.rolled (coordinator : Coordinator) (atBlock : ℕ) :
    Coordinator where
  scorer := coordinator.scorer
  fromBlock := atBlock
  previous :=
    some (closeSegment coordinator.scorer coordinator.fromBlock atBlock)
  lines := []

/-- `LiveScorer.restore`: the series is read back from the lines. -/
def restore (scorer : SeriesScorer) (endBlock : Option ℤ) : SeriesScorer :=
  { scorer with
    boundaries := scorer.intervals.map (·.blockNumber)
    valuesByAgent := fun id =>
      (scorer.valuesByAgent id).map fun _ =>
        scorer.intervals.map fun line =>
          (lineValue id line).map Figure.finite
    endBlock := match scorer.endBlock, endBlock with
      | some saved, some constructed => some (max saved constructed)
      | saved, _ => saved }

inductive Label where
  | score (label : Scoring.RunSeries.Label)
  | roll (atBlock : ℕ)
  | checkpoint
  | resume (checkpoint : Coordinator) (endBlock : Option ℤ)

/--
The steps of a period.  A roll comes after the reads of its pass: it lies past
what was read and before what is read next.  The run does not end before its
current segment starts.
-/
inductive Step : PracticePeriod → Label → PracticePeriod → Prop where
  | score {period : PracticePeriod} {label : Scoring.RunSeries.Label}
      {scorer : SeriesScorer}
      (step : Scoring.RunSeries.Step options period.now.scorer label scorer)
      (ends : ∀ finalBlock, label = .close finalBlock →
          period.now.fromBlock ≤ finalBlock) :
      Step period (.score label) { period with now := period.now.scored scorer }
  | roll {period : PracticePeriod} {atBlock : ℕ} {next : ℤ}
      (starts : period.now.fromBlock ≤ atBlock)
      (reads : ∀ block ∈ period.now.scorer.boundaries, block ≤ atBlock)
      (pending : pendingBoundary options period.now.scorer = some next)
      (later : (atBlock : ℤ) < next) :
      Step period (.roll atBlock)
        { period with now := period.now.rolled atBlock }
  | checkpoint (period : PracticePeriod) : Step period .checkpoint
        { period with checkpoints := period.now :: period.checkpoints }
  | resume {period : PracticePeriod} {checkpoint : Coordinator}
      (written : checkpoint ∈ period.checkpoints) (endBlock : Option ℤ) :
      Step period (.resume checkpoint endBlock) { period with
          now := { checkpoint with
              scorer := restore checkpoint.scorer endBlock } }

/-- A period starts with a fresh scorer, at the run's first block. -/
def Initial (period : PracticePeriod) : Prop :=
  ∃ (agents : List ReconstructionAgent) (startBlock : ℕ),
    (agents.map (·.id)).Nodup ∧ options.runStartBlock = startBlock ∧
      (∀ last, options.endBlock = some last → options.runStartBlock ≤ last) ∧
        period = ⟨⟨create options agents, startBlock, none, []⟩, []⟩

def periods : System PracticePeriod Label where
  initial := Initial options
  step := Step options

/-- Once its reads are done, a boundary gets its line. -/
def AppendsLines (period : PracticePeriod) : Label → Prop
  | .score label => OnlyReadsFail period.now.scorer label
  | _ => True

section Slices

variable {blocks : List ℕ} {cut fromBlock toBlock : ℕ}
    {Value : Type} {values : List Value}

theorem reached_drop
    (increasing : blocks.Pairwise (· < ·))
    (within : cut ≤ reached blocks fromBlock) :
    reached (blocks.drop cut) fromBlock = reached blocks fromBlock - cut := by
  rcases split_below increasing (fromBlock + 1) with
    ⟨lower, upper, rfl, below, above⟩
  have lowerReached : reached lower fromBlock = lower.length :=
    reached_of_le fun block listed => Nat.le_of_lt_succ (below block listed)
  have upperReached : reached upper fromBlock = 0 := reached_of_lt above
  rw [reached_append, lowerReached, upperReached, Nat.add_zero] at within ⊢
  have cutReached :
      reached (lower.drop cut) fromBlock = (lower.drop cut).length :=
    reached_of_le fun block listed =>
      Nat.le_of_lt_succ (below block (List.mem_of_mem_drop listed))
  rw [List.drop_append_of_le_length within, reached_append, cutReached,
    upperReached, Nat.add_zero, List.length_drop]

theorem slice_drop
    (increasing : blocks.Pairwise (· < ·)) (ordered : fromBlock ≤ toBlock)
    (sameLength : values.length = blocks.length)
    (within : cut ≤ reached blocks fromBlock - 1) (absent : Value) :
    (sliceIndices (blocks.drop cut) fromBlock toBlock).map
        ((values.drop cut).getD · absent) =
      (sliceIndices blocks fromBlock toBlock).map (values.getD · absent) := by
  have early : cut ≤ reached blocks fromBlock := within.trans (Nat.sub_le _ _)
  have late : cut ≤ reached blocks toBlock :=
    early.trans (reached_mono blocks ordered)
  have sameDropped : (values.drop cut).length = (blocks.drop cut).length := by
    rw [List.length_drop, List.length_drop, sameLength]
  have cutIncreasing : (blocks.drop cut).Pairwise (· < ·) := increasing.drop
  rw [slice_eq_window cutIncreasing ordered sameDropped,
    slice_eq_window increasing ordered sameLength,
    reached_drop increasing early, reached_drop increasing late,
    Nat.sub_right_comm]
  exact window_drop within

theorem slice_eq_drop
    (increasing : blocks.Pairwise (· < ·)) (ordered : fromBlock ≤ toBlock)
    (reads : ∀ block ∈ blocks, block ≤ toBlock)
    (sameLength : values.length = blocks.length) (absent : Value) :
    (sliceIndices blocks fromBlock toBlock).map (values.getD · absent) =
      values.drop (reached blocks fromBlock - 1) := by
  rw [slice_eq_window increasing ordered sameLength, window,
    reached_of_le reads, ← sameLength, List.take_length]

theorem slice_append
    {later : List ℕ} (increasing : (blocks ++ later).Pairwise (· < ·))
    (ordered : fromBlock ≤ toBlock) (past : ∀ block ∈ later, toBlock < block)
    {others : List Value} (sameLength : values.length = blocks.length)
    (sameLater : others.length = later.length) (absent : Value) :
    (sliceIndices (blocks ++ later) fromBlock toBlock).map
        ((values ++ others).getD · absent) =
      (sliceIndices blocks fromBlock toBlock).map (values.getD · absent) := by
  have sameWhole : (values ++ others).length = (blocks ++ later).length := by
    rw [List.length_append, List.length_append, sameLength, sameLater]
  rw [slice_eq_window increasing ordered sameWhole,
    slice_eq_window (List.pairwise_append.mp increasing).1 ordered sameLength,
    reached_append, reached_append, reached_of_lt past,
    reached_of_lt fun block listed => ordered.trans_lt (past block listed),
    Nat.add_zero, Nat.add_zero, window, window,
    List.take_append_of_le_length]
  rw [sameLength]
  exact reached_le blocks toBlock

theorem steps_slices
    {middle : ℕ} (increasing : blocks.Pairwise (· < ·))
    (early : fromBlock ≤ middle) (late : middle ≤ toBlock)
    (sameLength : values.length = blocks.length) (absent : Value) :
    steps ((sliceIndices blocks fromBlock middle).map (values.getD · absent)) ++
        steps ((sliceIndices blocks middle toBlock).map
            (values.getD · absent)) =
      steps ((sliceIndices blocks fromBlock toBlock).map
          (values.getD · absent)) := by
  rw [slice_eq_window increasing early sameLength,
    slice_eq_window increasing late sameLength,
    slice_eq_window increasing (early.trans late) sameLength,
    steps_window, steps_window, steps_window]
  exact window_append (Nat.sub_le_sub_right (reached_mono blocks early) 1)
    (Nat.sub_le_sub_right (reached_mono blocks late) 1)

end Slices

/-! ## What a coordinator keeps -/

variable {options} {coordinator : Coordinator} {scorer : SeriesScorer}
    {lines : List LiveIntervalBoundary} {next : ℤ} {id : String}

def blocksOf (lines : List LiveIntervalBoundary) : List ℕ :=
  lines.map fun line => line.blockNumber.toNat

theorem blocksOf_append (lines others : List LiveIntervalBoundary) :
    blocksOf (lines ++ others) = blocksOf lines ++ blocksOf others :=
  List.map_append

/-- The series which some lines give these agents. -/
def lineSeries (ids : List String) (lines : List LiveIntervalBoundary) :
    IntervalSeries Usdc where
  boundaryBlocks := blocksOf lines
  valuesByAgent := ids.map fun id => (id, lines.map (lineValue id))

/-- A series shows the lines from one of them on. -/
structure Shows
    (agents : List ReconstructionAgent) (lines : List LiveIntervalBoundary)
    (fromBlock : ℕ) (cut : ℕ) (series : IntervalSeries Usdc)
    (ids : List String) :
    Prop where
  within : cut ≤ reached (blocksOf lines) fromBlock - 1
  scored : 2 ≤ lines.length
  series : series = lineSeries ids (lines.drop cut)
  known : ∀ id ∈ ids, id ∈ agents.map (·.id)
  unnamed : ∀ id, id ∉ ids → ∀ line ∈ lines, line.values.lookup id = none

/-- The lines before the segment and those of it, and the last summary. -/
structure Parted (coordinator : Coordinator)
    (earlier : List LiveIntervalBoundary) : Prop where
  lines : coordinator.scorer.intervals = earlier ++ coordinator.lines
  before : ∀ line ∈ earlier,
      0 ≤ line.blockNumber ∧ line.blockNumber ≤ coordinator.fromBlock
  within :
    ∀ line ∈ coordinator.lines, (coordinator.fromBlock : ℤ) ≤ line.blockNumber
  previous : ∀ summary series, coordinator.previous = some summary →
      summary.valueSeries = some series → ∃ cut ids,
          Shows coordinator.scorer.agents earlier coordinator.fromBlock cut
            series ids

/-- What holds of a coordinator after every step. -/
structure Consistent (options : Options) (coordinator : Coordinator) :
    Prop where
  kept : Kept options coordinator.scorer
  ended : ∀ last, coordinator.scorer.endBlock = some last →
      (coordinator.fromBlock : ℤ) ≤ last
  ahead : ∀ endBlock next,
      (∀ last, endBlock = some last → (coordinator.fromBlock : ℤ) ≤ last) →
        pendingBoundary options
            { coordinator.scorer with endBlock := endBlock } = some next →
          (coordinator.fromBlock : ℤ) ≤ next
  parted : ∃ earlier, Parted coordinator earlier

theorem Shows.addAgents
    {agents others : List ReconstructionAgent} {fromBlock cut : ℕ}
    {series : IntervalSeries Usdc} {ids : List String}
    (shows_ : Shows agents lines fromBlock cut series ids)
    (more : ∀ id ∈ agents.map (·.id), id ∈ others.map (·.id)) :
    Shows others lines fromBlock cut series ids :=
  { shows_ with known := fun id listed => more id (shows_.known id listed) }

theorem consistent_initial
    (agents : List ReconstructionAgent) (distinct : (agents.map (·.id)).Nodup)
    {startBlock : ℕ} (starts : options.runStartBlock = startBlock)
    (ends : ∀ last, options.endBlock = some last →
      options.runStartBlock ≤ last) :
    Consistent options ⟨create options agents, startBlock, none, []⟩ where
  kept := kept_create options distinct
  ended last found := starts ▸ ends last found
  ahead endBlock next _ pending := by
    unfold pendingBoundary at pending
    dsimp only [create] at pending
    cases endBlock with
    | none =>
        cases pending
        exact starts.ge
    | some last =>
        dsimp only at pending
        split at pending
        · cases pending
        · cases pending
          exact starts.ge
  parted := ⟨[],
      { lines := rfl
        before := List.forall_mem_nil _
        within := List.forall_mem_nil _
        previous := fun _ _ none => by cases none }⟩

theorem ahead_of_attempted
    {fromBlock attempted : ℤ} (scores : enabled options)
    (attempts : scorer.lastAttempted = some attempted)
    (past : fromBlock ≤ attempted) (endBlock : Option ℤ)
    (pending : pendingBoundary options { scorer with endBlock := endBlock } =
        some next) :
    fromBlock ≤ next := by
  unfold pendingBoundary at pending
  dsimp only at pending
  rw [attempts] at pending
  exact past.trans (nextIntervalBoundary_lt scores pending).le

theorem endBlock_recorded
    {taken : CrossSection} {first : Bool}
    (agents : List ReconstructionAgent) (scorer : SeriesScorer) :
    (agents.foldl (recordAgent options taken first) scorer).endBlock =
      scorer.endBlock := by
  induction agents generalizing scorer with
  | nil => rfl
  | cons agent agents ih =>
      rw [List.foldl_cons, ih]
      rfl

theorem endBlock_appended
    {blockNumber : ℤ} {taken : CrossSection} {failedAfter : Bool} :
    (appended options scorer blockNumber taken failedAfter).endBlock =
      scorer.endBlock := by
  unfold appended scoreBoundary
  cases isFirst options scorer blockNumber with
  | false => exact endBlock_recorded scorer.agents _
  | true => exact endBlock_recorded scorer.agents _

theorem Parted.same
    {earlier : List LiveIntervalBoundary} (parted : Parted coordinator earlier)
    (same : scorer.intervals = coordinator.scorer.intervals)
    (more : ∀ id ∈ coordinator.scorer.agents.map (·.id),
        id ∈ scorer.agents.map (·.id)) :
    Parted (coordinator.scored scorer) earlier := by
  have lines : (coordinator.scored scorer).lines = coordinator.lines := by
    change coordinator.lines ++ _ = _
    rw [same, List.drop_length, List.append_nil]
  constructor
  · rw [lines, ← parted.lines]
    exact same
  · exact parted.before
  · rw [lines]
    exact parted.within
  · intro summary series found valued
    rcases parted.previous summary series found valued with
      ⟨cut, ids, shown⟩
    exact ⟨cut, ids, shown.addAgents more⟩

theorem Parted.append
    {earlier : List LiveIntervalBoundary} (parted : Parted coordinator earlier)
    {line : LiveIntervalBoundary}
    (appends : scorer.intervals = coordinator.scorer.intervals ++ [line])
    (agents : scorer.agents = coordinator.scorer.agents)
    (past : (coordinator.fromBlock : ℤ) ≤ line.blockNumber) :
    Parted (coordinator.scored scorer) earlier := by
  have lines :
      (coordinator.scored scorer).lines = coordinator.lines ++ [line] := by
    change coordinator.lines ++ _ = _
    rw [appends, List.drop_left]
  constructor
  · rw [lines, ← List.append_assoc, ← parted.lines]
    exact appends
  · exact parted.before
  · rw [lines]
    intro other listed
    rcases List.mem_append.mp listed with before | added
    · exact parted.within other before
    · rw [List.mem_singleton.mp added]
      exact past
  · intro summary series found valued
    rcases parted.previous summary series found valued with
      ⟨cut, ids, shown⟩
    exact ⟨cut, ids, shown.addAgents fun id listed => agents ▸ listed⟩

theorem Consistent.score
    (consistent : Consistent options coordinator)
    {label : Scoring.RunSeries.Label}
    (allowed : OnlyReadsFail coordinator.scorer label)
    (step : Scoring.RunSeries.Step options coordinator.scorer label scorer)
    (ends : ∀ finalBlock, label = .close finalBlock →
        (coordinator.fromBlock : ℤ) ≤ finalBlock) :
    Consistent options (coordinator.scored scorer) := by
  have kept := consistent.kept.step allowed step
  rcases consistent.parted with ⟨earlier, parted⟩
  cases step with
  | addAgent agent =>
      have added : (addAgent coordinator.scorer agent).intervals =
            coordinator.scorer.intervals ∧
          (addAgent coordinator.scorer agent).endBlock =
            coordinator.scorer.endBlock ∧
          (addAgent coordinator.scorer agent).lastAttempted =
            coordinator.scorer.lastAttempted ∧
          ∀ id ∈ coordinator.scorer.agents.map (·.id),
            id ∈ (addAgent coordinator.scorer agent).agents.map (·.id) := by
        unfold addAgent
        split
        · exact ⟨rfl, rfl, rfl, fun _ listed => listed⟩
        · refine ⟨rfl, rfl, rfl, fun id listed => ?_⟩
          rw [List.map_append]
          exact List.mem_append_left _ listed
      rcases added with ⟨intervals, endBlock, attempted, more⟩
      refine ⟨kept, ?_, ?_, earlier, parted.same intervals more⟩
      · intro last found
        exact consistent.ended last (endBlock.symm.trans found)
      · intro end_ next within pending
        apply consistent.ahead end_ next within
        unfold pendingBoundary at pending ⊢
        dsimp only [Coordinator.scored] at pending
        rw [attempted] at pending
        exact pending
  | close finalBlock =>
      refine ⟨kept, ?_, consistent.ahead, earlier,
        parted.same rfl fun _ listed => listed⟩
      intro last found
      have final := ends finalBlock rfl
      unfold Coordinator.scored closeAt at found
      dsimp only at found
      split at found
      · cases found
        exact final
      next known =>
      split at found
      · cases found
        exact final
      · cases found
        exact consistent.ended _ known
  | @attempt ending blockNumber scores pending =>
      have past : (coordinator.fromBlock : ℤ) ≤ blockNumber :=
        consistent.ahead coordinator.scorer.endBlock blockNumber
          consistent.ended pending
      cases ending with
      | interrupted taken recorded => exact allowed.elim
      | unread =>
          exact ⟨kept, consistent.ended, fun endBlock next _ later =>
                ahead_of_attempted scores rfl past endBlock later,
              earlier, parted.same rfl fun _ listed => listed⟩
      | appended taken failedAfter =>
          have begun := consistent.kept.started scores pending
          have grown :=
            @grown_appended options _ blockNumber taken begun.distinct
              failedAfter
          refine ⟨kept, ?_, ?_, earlier,
            parted.append grown.intervals grown.agents past⟩
          · intro last found
            exact consistent.ended last ((@endBlock_appended options
              (started coordinator.scorer blockNumber) blockNumber taken
              failedAfter).symm.trans found)
          · intro endBlock next _ later
            exact ahead_of_attempted scores grown.lastAttempted past endBlock
              later

theorem increasing_of_natural
    (kept : Kept options scorer)
    (natural : ∀ line ∈ scorer.intervals, 0 ≤ line.blockNumber) :
    (blocksOf scorer.intervals).Pairwise (· < ·) := by
  have ordered := kept.increasing
  rw [kept.blocks, List.pairwise_map] at ordered
  rw [blocksOf, List.pairwise_map]
  apply ordered.imp_of_mem
  intro line later listed _ before
  have low := natural line listed
  omega

theorem Consistent.increasing (consistent : Consistent options coordinator) :
    (blocksOf coordinator.scorer.intervals).Pairwise (· < ·) ∧
      ∀ line ∈ coordinator.scorer.intervals, 0 ≤ line.blockNumber := by
  rcases consistent.parted with ⟨earlier, parted⟩
  have natural :
      ∀ line ∈ coordinator.scorer.intervals, 0 ≤ line.blockNumber := by
    intro line listed
    rw [parted.lines, List.mem_append] at listed
    rcases listed with before | within
    · exact (parted.before line before).1
    · exact (Int.natCast_nonneg _).trans (parted.within line within)
  exact ⟨increasing_of_natural consistent.kept natural, natural⟩

theorem seriesOf_eq
    (kept : Kept options scorer) (enough : 2 ≤ scorer.intervals.length) :
    seriesOf scorer =
      some (lineSeries (scorer.agents.map (·.id)) scorer.intervals) := by
  have counted : ¬scorer.boundaries.length < 2 := by
    rw [kept.blocks, List.length_map]
    exact not_lt.mpr enough
  rw [seriesOf, if_neg counted, kept.blocks, List.map_map]
  congr 1
  unfold lineSeries blocksOf
  congr 1
  rw [List.map_map]
  apply List.map_congr_left
  intro agent listed
  have known :=
    (kept.listed agent.id).mpr (List.mem_map_of_mem (f := (·.id)) listed)
  rcases Option.isSome_iff_exists.mp known with ⟨values, found⟩
  rw [found, Option.getD_some, kept.values agent.id values found]
  rfl

theorem slice_lineSeries
    {ids : List String} {fromBlock toBlock : ℕ}
    (increasing : (blocksOf lines).Pairwise (· < ·))
    (ordered : fromBlock ≤ toBlock)
    (reads : ∀ block ∈ blocksOf lines, block ≤ toBlock) :
    sliceIntervalSeries (lineSeries ids lines) fromBlock toBlock =
      lineSeries ids (lines.drop (reached (blocksOf lines) fromBlock - 1)) := by
  unfold sliceIntervalSeries lineSeries
  dsimp only
  rw [slice_eq_drop increasing ordered reads rfl, List.map_map]
  congr 1
  · exact (List.map_drop).symm
  · apply List.map_congr_left
    intro id _
    dsimp only [Function.comp_apply]
    rw [slice_eq_drop increasing ordered reads
      (by rw [blocksOf, List.length_map, List.length_map]), List.map_drop]

theorem slice_lineSeries_drop
    {ids : List String} {fromBlock toBlock cut : ℕ}
    (increasing : (blocksOf lines).Pairwise (· < ·))
    (ordered : fromBlock ≤ toBlock)
    (within : cut ≤ reached (blocksOf lines) fromBlock - 1) :
    sliceIntervalSeries (lineSeries ids (lines.drop cut)) fromBlock toBlock =
      sliceIntervalSeries (lineSeries ids lines) fromBlock toBlock := by
  have blocks : blocksOf (lines.drop cut) = (blocksOf lines).drop cut :=
    List.map_drop
  unfold sliceIntervalSeries lineSeries
  dsimp only
  rw [blocks, slice_drop increasing ordered rfl within, List.map_map,
    List.map_map]
  congr 1
  apply List.map_congr_left
  intro id _
  dsimp only [Function.comp_apply]
  rw [List.map_drop, slice_drop increasing ordered
    (by rw [blocksOf, List.length_map, List.length_map]) within]

theorem pending_le_end
    {last : ℤ} (pending : pendingBoundary options scorer = some next)
    (ends : scorer.endBlock = some last) : next ≤ last := by
  unfold pendingBoundary at pending
  rw [ends] at pending
  cases attempted : scorer.lastAttempted with
  | none =>
      rw [attempted] at pending
      dsimp only at pending
      split at pending
      · cases pending
      next before =>
      cases pending
      exact not_lt.mp before
  | some attempted_ =>
      rw [attempted] at pending
      simp only [nextIntervalBoundary] at pending
      split at pending
      · cases pending
      · cases pending
        exact min_le_right _ _

theorem ahead_of_pending
    {atBlock after : ℤ} {endBlock : Option ℤ}
    (pending : pendingBoundary options scorer = some next)
    (later : atBlock < next)
    (within : ∀ last, endBlock = some last → atBlock ≤ last)
    (ahead : pendingBoundary options { scorer with endBlock := endBlock } =
        some after) : atBlock ≤ after := by
  unfold pendingBoundary at pending ahead
  dsimp only at ahead
  cases attempted : scorer.lastAttempted with
  | none =>
      rw [attempted] at pending ahead
      have started : next = options.runStartBlock := by
        dsimp only at pending
        split at pending
        · split at pending
          · cases pending
          · exact (Option.some.inj pending).symm
        · exact (Option.some.inj pending).symm
      have again : after = options.runStartBlock := by
        dsimp only at ahead
        split at ahead
        · split at ahead
          · cases ahead
          · exact (Option.some.inj ahead).symm
        · exact (Option.some.inj ahead).symm
      rw [again, ← started]
      exact later.le
  | some attempted_ =>
      rw [attempted] at pending ahead
      dsimp only at pending ahead
      have grid : next ≤ attempted_ + options.intervalBlocks := by
        unfold nextIntervalBoundary at pending
        split at pending
        · exact (Option.some.inj pending).ge
        · split at pending
          · cases pending
          · exact (Option.some.inj pending) ▸ min_le_left _ _
      unfold nextIntervalBoundary at ahead
      split at ahead
      · exact (later.le.trans grid).trans (Option.some.inj ahead).le
      next last =>
      split at ahead
      · cases ahead
      · rw [← Option.some.inj ahead]
        exact le_min (later.le.trans grid) (within last rfl)

theorem Consistent.roll
    (consistent : Consistent options coordinator) {atBlock : ℕ}
    (starts : coordinator.fromBlock ≤ atBlock)
    (reads : ∀ block ∈ coordinator.scorer.boundaries, block ≤ atBlock)
    (pending : pendingBoundary options coordinator.scorer = some next)
    (later : (atBlock : ℤ) < next) :
    Consistent options (coordinator.rolled atBlock) := by
  rcases consistent.increasing with ⟨increasing, natural⟩
  have early :
      ∀ line ∈ coordinator.scorer.intervals, line.blockNumber ≤ atBlock := by
    intro line listed
    apply reads
    rw [consistent.kept.blocks]
    exact List.mem_map_of_mem listed
  have below : ∀ block ∈ blocksOf coordinator.scorer.intervals,
      block ≤ atBlock := by
    intro block listed
    rcases List.mem_map.mp listed with ⟨line, among, rfl⟩
    exact Int.toNat_le.mpr (early line among)
  refine ⟨consistent.kept, ?_, ?_, coordinator.scorer.intervals, ?_⟩
  · intro last found
    exact later.le.trans (pending_le_end pending found)
  · intro endBlock after within ahead
    exact ahead_of_pending pending later within ahead
  · refine
      { lines := (List.append_nil _).symm
        before := fun line listed => ⟨natural line listed, early line listed⟩
        within := List.forall_mem_nil _
        previous := ?_ }
    rintro _ series ⟨⟩ valued
    have enough : 2 ≤ coordinator.scorer.intervals.length := by
      by_contra few
      have none_ : seriesOf coordinator.scorer = none := by
        apply if_pos
        rw [consistent.kept.blocks, List.length_map]
        exact not_le.mp few
      unfold closeSegment at valued
      dsimp only at valued
      rw [none_] at valued
      cases valued
    refine
      ⟨reached (blocksOf coordinator.scorer.intervals) coordinator.fromBlock
          - 1,
        coordinator.scorer.agents.map (·.id), ?_, enough, ?_,
        fun _ listed => listed, consistent.kept.unnamed⟩
    · exact Nat.sub_le_sub_right (reached_mono _ starts) 1
    · unfold closeSegment at valued
      dsimp only at valued
      rw [seriesOf_eq consistent.kept enough, Option.map_some,
        slice_lineSeries increasing starts below] at valued
      exact (Option.some.inj valued).symm

theorem kept_restore (kept : Kept options scorer) (endBlock : Option ℤ) :
    Kept options (restore scorer endBlock) where
  distinct := kept.distinct
  listed id := by
    change ((scorer.valuesByAgent id).map _).isSome ↔ _
    rw [Option.isSome_map]
    exact kept.listed id
  blocks := rfl
  increasing := by
    change (scorer.intervals.map (·.blockNumber)).Pairwise _
    rw [← kept.blocks]
    exact kept.increasing
  reached := by
    change ∀ block ∈ scorer.intervals.map (·.blockNumber), _
    rw [← kept.blocks]
    exact kept.reached
  values id series found := by
    rcases Option.map_eq_some_iff.mp found with ⟨earlier, -, rfl⟩
    rw [List.map_map]
    apply List.map_congr_left
    intro line _
    dsimp only [Function.comp_apply]
    cases lineValue id line <;> rfl
  unnamed := kept.unnamed
  opened line member := by
    have opened := kept.opened line member
    refine ⟨fun start => ?_, opened.unfloored⟩
    rcases opened.floored start with ⟨noted, fields, written, told⟩
    exact ⟨noted, fields, written, fun id =>
        ⟨(told id).source, (told id).measured, (told id).endowment⟩⟩
  fresh := kept.fresh

theorem Consistent.resume
    (consistent : Consistent options coordinator) (endBlock : Option ℤ) :
    Consistent options { coordinator with
        scorer := restore coordinator.scorer endBlock } := by
  refine ⟨kept_restore consistent.kept endBlock, ?_, consistent.ahead, ?_⟩
  · intro last found
    unfold restore at found
    dsimp only at found
    split at found
    · next saved constructed known =>
        cases found
        exact (consistent.ended _ known).trans (le_max_left _ _)
    · exact consistent.ended last found
  · rcases consistent.parted with ⟨earlier, parted⟩
    exact ⟨earlier, parted.lines, parted.before, parted.within, parted.previous⟩

/-- Every coordinator of a period is consistent. -/
structure Sound (options : Options) (period : PracticePeriod) : Prop where
  now : Consistent options period.now
  checkpoints : ∀ checkpoint ∈ period.checkpoints, Consistent options checkpoint

theorem sound_of_reachable
    {period : PracticePeriod}
    (reachable : (periods options).Reachable AppendsLines period) :
    Sound options period := by
  apply @System.Reachable.invariant _ _ _ _ (Sound options) _ _ _ reachable
  · rintro _ ⟨agents, startBlock, distinct, starts, ends, rfl⟩
    exact
      ⟨consistent_initial agents distinct starts ends, List.forall_mem_nil _⟩
  · intro before label after sound allowed step
    cases step with
    | score step ends =>
        exact ⟨sound.now.score allowed step ends, sound.checkpoints⟩
    | roll starts reads pending later =>
        exact ⟨sound.now.roll starts reads pending later, sound.checkpoints⟩
    | checkpoint =>
        exact
          ⟨sound.now, List.forall_mem_cons.mpr ⟨sound.now, sound.checkpoints⟩⟩
    | resume written endBlock =>
        exact ⟨(sound.checkpoints _ written).resume endBlock, sound.checkpoints⟩

/-! ## The recovered summary -/

/-- What a coordinator leaves of its current segment when it dies. -/
structure LeftBy (coordinator : Coordinator) (input : CrashedSegmentInput) :
    Prop where
  fromBlock : input.fromBlock = coordinator.fromBlock
  previous : ∃ summary, coordinator.previous = some summary ∧
      summary.valueSeries = some input.previous
  lines : input.lines = coordinator.lines
  identities :
    ∀ id, id ∈ input.identities ↔ id ∈ coordinator.scorer.agents.map (·.id)

/-- The same boundaries, values and profits. -/
structure Agrees (recovered rolled : SegmentSummary) : Prop where
  fromBlock : recovered.fromBlock = rolled.fromBlock
  toBlock : recovered.toBlock = rolled.toBlock
  series : ∃ shown written, recovered.valueSeries = some shown ∧
      rolled.valueSeries = some written ∧
        shown.boundaryBlocks = written.boundaryBlocks ∧
          ∀ id, shown.valuesOf id = written.valuesOf id
  profits : ∀ record, record ∈ recovered.agents ↔ record ∈ rolled.agents

/-- The intervals and steps of two series are, in order, those of a third. -/
structure Continues
    (first second whole : IntervalSeries Usdc) (ids : List String) : Prop where
  intervals : steps first.boundaryBlocks ++ steps second.boundaryBlocks =
      steps whole.boundaryBlocks
  once : (steps first.boundaryBlocks ++ steps second.boundaryBlocks).Nodup
  values : ∀ id ∈ ids, steps (first.valuesOf id) ++ steps (second.valuesOf id) =
      steps (whole.valuesOf id)

/--
Whatever the scorer reads past the recovered segment: the segment which opens
there continues it, without an interval lost or counted twice.
-/
def FollowedBy
    (options : Options) (scorer : SeriesScorer) (recovered : SegmentSummary)
    (ids : List String) :
    Prop :=
  ∀ after series shown final, (runs options).Runs OnlyReadsFail scorer after →
      (∀ line ∈ after.intervals.drop scorer.intervals.length,
        (recovered.toBlock : ℤ) < line.blockNumber) →
        seriesOf after = some series → recovered.valueSeries = some shown →
            recovered.toBlock ≤ final → Continues shown
                (sliceIntervalSeries series recovered.toBlock final)
                (sliceIntervalSeries series recovered.fromBlock final) ids

theorem find_lineSeries
    {ids : List String} (listed : id ∈ ids) :
    (lineSeries ids lines).valuesByAgent.find? (·.1 = id) =
      some (id, lines.map (lineValue id)) := by
  unfold lineSeries
  induction ids with
  | nil => cases listed
  | cons other ids ih =>
      by_cases same : other = id
      · subst same
        simp
      · rw [List.map_cons, List.find?_cons_of_neg (by simpa using same)]
        exact ih (List.mem_of_ne_of_mem (Ne.symm same) listed)

theorem find_lineSeries_unlisted
    {ids : List String} (unlisted : id ∉ ids) :
    (lineSeries ids lines).valuesByAgent.find? (·.1 = id) = none := by
  apply List.find?_eq_none.mpr
  intro agent among
  rcases List.mem_map.mp among with ⟨other, listed, rfl⟩
  simpa using fun same : other = id => unlisted (same ▸ listed)

theorem valuesOf_lineSeries
    {ids : List String} (listed : id ∈ ids) :
    (lineSeries ids lines).valuesOf id = lines.map (lineValue id) := by
  rw [IntervalSeries.valuesOf, find_lineSeries listed]
  rfl

theorem valuesOf_lineSeries_unlisted
    {ids : List String} (unlisted : id ∉ ids) :
    (lineSeries ids lines).valuesOf id = [] := by
  rw [IntervalSeries.valuesOf, find_lineSeries_unlisted unlisted]
  rfl

theorem valuesOf_lineSeries_congr
    {ids others : List String} {lines : List LiveIntervalBoundary}
    (same : ∀ id, id ∈ ids ↔ id ∈ others) (id : String) :
    (lineSeries ids lines).valuesOf id =
      (lineSeries others lines).valuesOf id := by
  by_cases listed : id ∈ ids
  · rw [valuesOf_lineSeries listed, valuesOf_lineSeries ((same id).mp listed)]
  · rw [valuesOf_lineSeries_unlisted listed,
      valuesOf_lineSeries_unlisted fun other =>
        listed ((same id).mpr other)]

theorem slice_lineSeries_append
    {ids : List String} {more : List LiveIntervalBoundary}
    {fromBlock toBlock : ℕ}
    (increasing : (blocksOf (lines ++ more)).Pairwise (· < ·))
    (ordered : fromBlock ≤ toBlock)
    (later : ∀ line ∈ more, (toBlock : ℤ) < line.blockNumber) :
    sliceIntervalSeries (lineSeries ids (lines ++ more)) fromBlock toBlock =
      sliceIntervalSeries (lineSeries ids lines) fromBlock toBlock := by
  rw [blocksOf_append] at increasing
  have past : ∀ block ∈ blocksOf more, toBlock < block := by
    intro block listed
    rcases List.mem_map.mp listed with ⟨line, among, rfl⟩
    have low := later line among
    omega
  unfold sliceIntervalSeries lineSeries
  dsimp only
  rw [blocksOf_append, slice_append increasing ordered past rfl rfl,
    List.map_map, List.map_map]
  congr 1
  apply List.map_congr_left
  intro id _
  dsimp only [Function.comp_apply]
  rw [List.map_append, slice_append increasing ordered past
    (by rw [blocksOf, List.length_map, List.length_map])
    (by rw [blocksOf, List.length_map, List.length_map])]

theorem continues_slices
    {ids others known : List String} {fromBlock middle toBlock : ℕ}
    (increasing : (blocksOf lines).Pairwise (· < ·))
    (early : fromBlock ≤ middle) (late : middle ≤ toBlock)
    (listed : ∀ id ∈ known, id ∈ ids ∧ id ∈ others) :
    Continues (sliceIntervalSeries (lineSeries ids lines) fromBlock middle)
      (sliceIntervalSeries (lineSeries others lines) middle toBlock)
      (sliceIntervalSeries (lineSeries others lines) fromBlock toBlock)
      known := by
  have intervals := steps_slices increasing early late rfl 0
  refine ⟨intervals, ?_, ?_⟩
  · unfold sliceIntervalSeries lineSeries
    dsimp only
    rw [intervals, slice_eq_window increasing (early.trans late) rfl]
    have ordered : (window (reached (blocksOf lines) fromBlock - 1)
          (reached (blocksOf lines) toBlock) (blocksOf lines)).Pairwise
            (· < ·) :=
      increasing.take.drop
    apply (steps_pairwise ordered).imp
    rintro earlier later before rfl
    exact before.false
  · intro id among
    rcases listed id among with ⟨first, second⟩
    have sameLength (names : List String) (named : id ∈ names) :
        ((lineSeries names lines).valuesOf id).length =
          (lineSeries names lines).boundaryBlocks.length := by
      rw [valuesOf_lineSeries named, List.length_map]
      exact (List.length_map _).symm
    rw [valuesOf_slice (sameLength ids first),
      valuesOf_slice (sameLength others second),
      valuesOf_slice (sameLength others second),
      valuesOf_lineSeries first, valuesOf_lineSeries second]
    apply steps_slices increasing early late
    rw [List.length_map]
    exact (List.length_map _).symm

section Recovered

variable {input : CrashedSegmentInput}

theorem mem_ids
    (consistent : Consistent options coordinator)
    (left : LeftBy coordinator input) (id : String) :
    id ∈ input.ids ↔ id ∈ coordinator.scorer.agents.map (·.id) := by
  rcases consistent.parted with ⟨earlier, parted⟩
  rcases left.previous with ⟨summary, found, valued⟩
  rcases parted.previous summary input.previous found valued with
    ⟨cut, ids, shown⟩
  unfold CrashedSegmentInput.ids
  rw [List.mem_eraseDups, List.mem_append, List.mem_append, left.identities]
  constructor
  · rintro ((named | named) | known)
    · rw [shown.series] at named
      rcases List.mem_map.mp named with ⟨agent, among, rfl⟩
      rcases List.mem_map.mp among with ⟨other, listed, rfl⟩
      exact shown.known other listed
    · by_contra unknown
      rcases List.mem_flatMap.mp named with ⟨line, among, named⟩
      rw [left.lines] at among
      have unnamed := consistent.kept.unnamed id unknown line
          (parted.lines ▸ List.mem_append_right _ among)
      rcases List.mem_map.mp named with ⟨entry, member, rfl⟩
      rw [List.lookup_eq_none_iff] at unnamed
      exact absurd (unnamed entry member) (by simp)
    · exact known
  · exact Or.inr

theorem previousValues_eq
    {agents : List ReconstructionAgent} {fromBlock cut : ℕ} {ids : List String}
    (shown : Shows agents lines fromBlock cut input.previous ids)
    (id : String) :
    input.previousValues id = (lines.drop cut).map (lineValue id) := by
  unfold CrashedSegmentInput.previousValues
  rw [shown.series]
  by_cases listed : id ∈ ids
  · rw [find_lineSeries listed]
    rfl
  · rw [find_lineSeries_unlisted listed]
    apply (List.eq_replicate_iff.mpr ⟨?_, ?_⟩).symm
    · rw [List.length_map]
      exact (List.length_map _).symm
    · intro value among
      rcases List.mem_map.mp among with ⟨line, member, rfl⟩
      rw [lineValue, shown.unnamed id listed line (List.mem_of_mem_drop member)]
      rfl

theorem whole_eq
    (consistent : Consistent options coordinator)
    (left : LeftBy coordinator input) :
    ∃ cut, cut ≤ reached (blocksOf coordinator.scorer.intervals)
            coordinator.fromBlock - 1 ∧
        2 ≤ coordinator.scorer.intervals.length ∧ input.whole =
            lineSeries input.ids (coordinator.scorer.intervals.drop cut) := by
  rcases consistent.parted with ⟨earlier, parted⟩
  rcases left.previous with ⟨summary, found, valued⟩
  rcases parted.previous summary input.previous found valued with
    ⟨cut, ids, shown⟩
  have fewer : cut ≤ earlier.length := by
    have bounded := reached_le (blocksOf earlier) coordinator.fromBlock
    rw [blocksOf, List.length_map] at bounded
    exact shown.within.trans ((Nat.sub_le _ _).trans bounded)
  have cuts : coordinator.scorer.intervals.drop cut =
      earlier.drop cut ++ coordinator.lines := by
    rw [parted.lines, List.drop_append_of_le_length fewer]
  refine ⟨cut, shown.within.trans ?_, ?_, ?_⟩
  · rw [parted.lines, blocksOf_append, reached_append]
    exact Nat.sub_le_sub_right (Nat.le_add_right _ _) 1
  · rw [parted.lines, List.length_append]
    exact shown.scored.trans (Nat.le_add_right _ _)
  · unfold CrashedSegmentInput.whole lineSeries
    rw [cuts, left.lines, shown.series]
    congr 1
    · exact (List.map_append).symm
    · apply List.map_congr_left
      intro id _
      rw [List.map_append]
      rw [previousValues_eq shown]

theorem Consistent.ordered
    (consistent : Consistent options coordinator)
    (left : LeftBy coordinator input) :
    input.fromBlock ≤ input.toBlock ∧ ∀ line ∈ coordinator.scorer.intervals,
        line.blockNumber ≤ input.toBlock := by
  rcases consistent.parted with ⟨earlier, parted⟩
  rcases consistent.increasing with ⟨-, natural⟩
  unfold CrashedSegmentInput.toBlock
  rw [left.lines, left.fromBlock]
  rcases List.eq_nil_or_concat coordinator.lines with none_ | ⟨init, last, lines⟩
  · rw [none_]
    refine ⟨le_rfl, fun line listed => ?_⟩
    rw [parted.lines, none_, List.append_nil] at listed
    exact (parted.before line listed).2
  · rw [List.concat_eq_append] at lines
    have within := parted.within last (by
        rw [lines]
        exact List.mem_append_right _ (List.mem_singleton_self _))
    rw [lines, List.getLast?_concat]
    refine ⟨by dsimp only; omega, fun line listed => ?_⟩
    have ordered := consistent.kept.increasing
    rw [consistent.kept.blocks, List.pairwise_map, parted.lines, lines,
      ← List.append_assoc, List.pairwise_append] at ordered
    rw [parted.lines, lines, ← List.append_assoc, List.mem_append] at listed
    dsimp only
    rcases listed with before | here
    · have low := ordered.2.2 line before last (List.mem_singleton_self _)
      omega
    · rw [List.mem_singleton.mp here]
      omega

theorem toBlock_eq
    (consistent : Consistent options coordinator)
    (left : LeftBy coordinator input)
    {last : ℤ} (ends : coordinator.scorer.boundaries.getLast? = some last) :
    (input.toBlock : ℤ) = max last input.fromBlock := by
  rcases consistent.parted with ⟨earlier, parted⟩
  unfold CrashedSegmentInput.toBlock
  rw [left.lines, left.fromBlock]
  rw [consistent.kept.blocks, parted.lines] at ends
  rcases List.eq_nil_or_concat coordinator.lines with none_ | ⟨init, line, lines⟩
  · rw [none_, List.append_nil, List.getLast?_map] at ends
    rw [none_]
    rcases Option.map_eq_some_iff.mp ends with ⟨line, found, rfl⟩
    exact (max_eq_right
      (parted.before line (List.mem_of_getLast? found)).2).symm
  · rw [List.concat_eq_append] at lines
    have within := parted.within line (by
        rw [lines]
        exact List.mem_append_right _ (List.mem_singleton_self _))
    rw [lines, ← List.append_assoc, List.getLast?_map,
      List.getLast?_concat] at ends
    cases ends
    rw [lines, List.getLast?_concat, max_eq_left within]
    exact Int.toNat_of_nonneg ((Int.natCast_nonneg _).trans within)

theorem recovered_series
    (consistent : Consistent options coordinator)
    (left : LeftBy coordinator input) :
    (closeCrashedSegment input).valueSeries = some (sliceIntervalSeries
            (lineSeries input.ids coordinator.scorer.intervals)
            input.fromBlock input.toBlock) ∧
      (closeSegment coordinator.scorer input.fromBlock
          input.toBlock).valueSeries =
        some (sliceIntervalSeries
            (lineSeries (coordinator.scorer.agents.map (·.id))
              coordinator.scorer.intervals)
            input.fromBlock input.toBlock) := by
  rcases whole_eq consistent left with ⟨cut, within, enough, whole⟩
  have ordered := (consistent.ordered left).1
  rw [← left.fromBlock] at within
  constructor
  · unfold closeCrashedSegment
    dsimp only
    rw [whole, slice_lineSeries_drop consistent.increasing.1 ordered within]
  · unfold closeSegment
    dsimp only
    rw [seriesOf_eq consistent.kept enough, Option.map_some]

theorem agrees
    (consistent : Consistent options coordinator)
    (left : LeftBy coordinator input) :
    Agrees (closeCrashedSegment input)
      (closeSegment coordinator.scorer input.fromBlock input.toBlock) := by
  rcases recovered_series consistent left with ⟨recovered, rolled⟩
  rcases consistent.increasing with ⟨increasing, -⟩
  rcases consistent.ordered left with ⟨ordered, reads⟩
  have below : ∀ block ∈ blocksOf coordinator.scorer.intervals,
      block ≤ input.toBlock := by
    intro block listed
    rcases List.mem_map.mp listed with ⟨line, among, rfl⟩
    exact Int.toNat_le.mpr (reads line among)
  rw [slice_lineSeries increasing ordered below] at recovered rolled
  have values := @valuesOf_lineSeries_congr input.ids
      (coordinator.scorer.agents.map (·.id))
      (coordinator.scorer.intervals.drop
        (reached (blocksOf coordinator.scorer.intervals) input.fromBlock - 1))
      (mem_ids consistent left)
  refine ⟨rfl, rfl, ⟨_, _, recovered, rolled, rfl, values⟩, ?_⟩
  have recoveredAgents : (closeCrashedSegment input).agents =
      input.identities.map fun id =>
          (id, (closeCrashedSegment input).valueSeries.bind fun series =>
              epochPnlFromSeries (series.valuesOf id)) :=
    rfl
  have rolledAgents : (closeSegment coordinator.scorer input.fromBlock
        input.toBlock).agents =
      (coordinator.scorer.agents.map (·.id)).map fun id =>
          (id, (closeSegment coordinator.scorer input.fromBlock
              input.toBlock).valueSeries.bind fun series =>
              epochPnlFromSeries (series.valuesOf id)) := by
    rw [List.map_map]
    rfl
  intro record
  rw [recoveredAgents, rolledAgents, recovered, rolled, List.mem_map,
    List.mem_map]
  constructor
  · rintro ⟨id, listed, rfl⟩
    refine ⟨id, (left.identities id).mp listed, ?_⟩
    rw [Option.bind_some, Option.bind_some, values]
  · rintro ⟨id, listed, rfl⟩
    refine ⟨id, (left.identities id).mpr listed, ?_⟩
    rw [Option.bind_some, Option.bind_some, values]

/-- Scoring appends lines, and forgets no agent. -/
structure Extends (scorer after : SeriesScorer) : Prop where
  lines : scorer.intervals <+: after.intervals
  agents : ∀ id ∈ scorer.agents.map (·.id), id ∈ after.agents.map (·.id)

theorem extends_step
    {after : SeriesScorer} {label : Scoring.RunSeries.Label}
    (allowed : OnlyReadsFail scorer label) (kept : Kept options scorer)
    (step : Scoring.RunSeries.Step options scorer label after) :
    Extends scorer after := by
  cases step with
  | addAgent agent =>
      unfold addAgent
      split
      · exact ⟨List.prefix_rfl, fun _ listed => listed⟩
      · refine ⟨List.prefix_rfl, fun id listed => ?_⟩
        rw [List.map_append]
        exact List.mem_append_left _ listed
  | close finalBlock => exact ⟨List.prefix_rfl, fun _ listed => listed⟩
  | @attempt ending blockNumber scores pending =>
      cases ending with
      | interrupted taken recorded => exact allowed.elim
      | unread => exact ⟨List.prefix_rfl, fun _ listed => listed⟩
      | appended taken failedAfter =>
          have grown := @grown_appended options _ blockNumber taken
              (kept.started scores pending).distinct failedAfter
          constructor
          · exact ⟨_, grown.intervals.symm⟩
          · intro id listed
            exact grown.agents ▸ listed

theorem extends_run
    {after : SeriesScorer} (kept : Kept options scorer)
    (run : (runs options).Runs OnlyReadsFail scorer after) :
    Kept options after ∧ Extends scorer after := by
  induction run with
  | refl =>
      exact ⟨kept, List.prefix_rfl, fun _ listed => listed⟩
  | tail _ move ih =>
      rcases ih with ⟨keptBefore, lines, agents⟩
      rcases move with ⟨label, allowed, step⟩
      rcases extends_step allowed keptBefore step with ⟨more, others⟩
      exact ⟨keptBefore.step allowed step, lines.trans more,
        fun id listed => others id (agents id listed)⟩

theorem followedBy
    (consistent : Consistent options coordinator)
    (left : LeftBy coordinator input) :
    FollowedBy options coordinator.scorer (closeCrashedSegment input)
      input.identities := by
  intro after series shown final run past found valued ends
  rcases extends_run consistent.kept run with ⟨kept, ⟨more, lines⟩, agents⟩
  rcases consistent.ordered left with ⟨ordered, -⟩
  have later : ∀ line ∈ more, (input.toBlock : ℤ) < line.blockNumber := by
    intro line listed
    apply past line
    rw [← lines, List.drop_left]
    exact listed
  have natural : ∀ line ∈ after.intervals, 0 ≤ line.blockNumber := by
    intro line listed
    rw [← lines, List.mem_append] at listed
    rcases listed with before | new
    · exact consistent.increasing.2 line before
    · exact (Int.natCast_nonneg _).trans (later line new).le
  have increasing : (blocksOf after.intervals).Pairwise (· < ·) :=
    increasing_of_natural kept natural
  have enough : 2 ≤ after.intervals.length := by
    rcases whole_eq consistent left with ⟨-, -, enough, -⟩
    rw [← lines, List.length_append]
    exact enough.trans (Nat.le_add_right _ _)
  have whole : series = lineSeries (after.agents.map (·.id)) after.intervals :=
    Option.some.inj (found.symm.trans (seriesOf_eq kept enough))
  have recovered : shown = sliceIntervalSeries
          (lineSeries input.ids coordinator.scorer.intervals)
          input.fromBlock input.toBlock :=
    Option.some.inj (valued.symm.trans (recovered_series consistent left).1)
  rw [← lines] at increasing whole
  rw [recovered, whole, ← slice_lineSeries_append increasing ordered later]
  apply continues_slices increasing ordered ends
  intro id listed
  have known := (left.identities id).mp listed
  exact ⟨(mem_ids consistent left id).mpr known, agents id known⟩

end Recovered

def tens : Options where
  runStartBlock := 100
  endBlock := none
  intervalBlocks := 10
  readLagBlocks := 0
  sampleMarket := false
  v0Rule := .floor

/-- A cross-section which gives an agent a value. -/
def worth (amount : Usdc) : CrossSection where
  fairPriceUsdcPerWeth := 3000
  values := [("a", .finite amount)]
  endowmentValueAt _ := .notFinite
  elapsedMs := 0

def reads (scorer : SeriesScorer) (blockNumber : ℤ) (amount : Usdc) :
    SeriesScorer :=
  scoreBoundary tens (started scorer blockNumber) blockNumber
    (.appended (worth amount) false)

def opening : PracticePeriod :=
  ⟨⟨create tens [⟨"a", "0xa", none⟩], 100, none, []⟩, []⟩

def scoredAt
    (period : PracticePeriod) (blockNumber : ℤ) (amount : Usdc) :
    PracticePeriod :=
  { period with
    now := period.now.scored (reads period.now.scorer blockNumber amount) }

/-- Two boundaries, a roll off them, one boundary more and a crash. -/
def crashed : PracticePeriod :=
  scoredAt { scoredAt (scoredAt opening 100 10) 110 12 with
      now := (scoredAt (scoredAt opening 100 10) 110 12).now.rolled 115 }
    120 17

theorem reachable_scoredAt
    {period : PracticePeriod} {blockNumber : ℤ} (amount : Usdc)
    (reachable : (periods tens).Reachable AppendsLines period)
    (pending : pendingBoundary tens period.now.scorer = some blockNumber) :
    (periods tens).Reachable AppendsLines
      (scoredAt period blockNumber amount) := by
  apply reachable.extend
  exact @System.Runs.single _ _ _ _ _ _
    (Label.score (.attempt (.appended (worth amount) false))) trivial
    (Step.score (.attempt period.now.scorer (.appended (worth amount) false)
        (show (1 : ℤ) ≤ 10 by decide) pending)
      (fun _ other => by cases other))

theorem reachable_crashed :
    (periods tens).Reachable AppendsLines crashed := by
  have opened : (periods tens).Reachable AppendsLines opening := ⟨opening,
      ⟨[⟨"a", "0xa", none⟩], 100, List.nodup_singleton _, rfl,
        (fun _ none => by cases none), rfl⟩,
      Relation.ReflTransGen.refl⟩
  have first := @reachable_scoredAt _ 100 10 opened rfl
  have second := @reachable_scoredAt _ 110 12 first rfl
  refine reachable_scoredAt 17 (second.extend ?_) rfl
  exact @System.Runs.single _ _ _ _ _ _ (Label.roll 115) trivial
    (Step.roll (by decide) (by decide) rfl (by decide))

def leftOver : CrashedSegmentInput where
  fromBlock := 115
  previous := ⟨[100, 110], [("a", [some 10, some 12])]⟩
  lines := crashed.now.lines
  identities := ["a"]

end Eris.Period.SegmentRecovery
