import Eris.Backtest.ScenarioScores
import Eris.Scoring.LineSeries

/-!
# Scores do not depend on the record they are read from

A finished run leaves its series twice: in the summary which the coordinator
writes, and in the lines which the scorer appended.  Both give every agent of
a roster the same profit, source of V_0 and V_0 flags exactly when the run's
first block was read and every agent of the run has a first and a later
value.  A summary read back forgets that the floor was skipped, and an agent
without a profit is given its `netPnlUsdc` instead.
-/

namespace Eris.Backtest.RecordAgreement

open Foundation Foundation.Transition Scoring.Profit Scoring.RunSeries
  Scoring.LineSeries ScenarioScores
open Scoring.LiveScoring (Usdc V0Source V0Rule Options ReconstructionAgent
  LiveIntervalBoundary FirstBoundaryFields v0GapBeyondTolerance enabled)

/-! ## Looking a score up -/

/-- The score of an agent among the scores of an epoch. -/
def scoreIn (scores : List AgentScore) (id : String) : Option AgentScore :=
  scores.find? (·.id = id)

/-- A flag about V_0: its floor, or the gap to the endowment. -/
def aboutV0 : Flag → Bool
  | .floorSkipped _ => true
  | .v0Gap .. => true
  | _ => false

/-- What two records of a run should agree on. -/
structure View where
  pnlUsdc : Option Usdc
  v0Source : Option V0Source
  v0Flags : List Flag
  deriving DecidableEq

def view (score : AgentScore) : View where
  pnlUsdc := score.pnlUsdc
  v0Source := score.v0Source
  v0Flags := score.flags.filter aboutV0

/-- The score given for an id by a summary. -/
def scoreFor (summary : RunSummary) (id : String) : AgentScore :=
  match reported summary id with
  | none => unplaced id
  | some agent => scoreOf summary agent

variable {id : String} {ids : List String}

theorem reported_id
    {summary : RunSummary} {agent : AgentSummary}
    (found : reported summary id = some agent) :
    agent.id = id := by
  simpa using List.find?_some found

theorem scoreFor_id (summary : RunSummary) (id : String) :
    (scoreFor summary id).id = id := by
  unfold scoreFor
  cases found : reported summary id with
  | none => rfl
  | some agent => exact reported_id found

theorem find_map_of_mem
    {Entry : Type} (entry : String → Entry)
    (idOf : Entry → String) (named : ∀ id, idOf (entry id) = id)
    (listed : id ∈ ids) :
    (ids.map entry).find? (fun found => idOf found = id) = some (entry id) := by
  induction ids with
  | nil => cases listed
  | cons other ids ih =>
      rw [List.map_cons, List.find?_cons]
      by_cases same : other = id
      · subst same
        simp [named]
      · rcases List.mem_cons.1 listed with rfl | listed
        · exact absurd rfl same
        · simp only [named, same, decide_false]
          exact ih listed

theorem scoresFromSummary_of_expected
    (summary : RunSummary) (some : ids ≠ []) :
    scoresFromSummary summary ids = ids.map (scoreFor summary) := by
  rw [scoresFromSummary, if_neg some]
  rfl

theorem scoreIn_summary
    (summary : RunSummary) (listed : id ∈ ids) :
    scoreIn (scoresFromSummary summary ids) id =
      some (scoreFor summary id) := by
  rw [scoresFromSummary_of_expected summary (List.ne_nil_of_mem listed)]
  exact find_map_of_mem _ _ (scoreFor_id summary) listed

theorem reported_of_mem
    {summary : RunSummary} {agent : AgentSummary}
    (listed : agent ∈ summary.agents)
    (determined :
      ∀ other ∈ summary.agents, other.id = agent.id → other = agent) :
    reported summary agent.id = some agent := by
  unfold reported
  cases found : summary.agents.reverse.find? (·.id = agent.id) with
  | none =>
      rw [List.find?_eq_none] at found
      have missed := found agent (List.mem_reverse.2 listed)
      simp at missed
  | some other =>
      have member := List.mem_of_find?_eq_some found
      have same : other.id = agent.id := reported_id found
      rw [determined other (List.mem_reverse.1 member) same]

theorem reported_of_not_mem
    {summary : RunSummary}
    (unlisted : ∀ agent ∈ summary.agents, agent.id ≠ id) :
    reported summary id = none := by
  rw [reported, List.find?_eq_none]
  intro agent member
  simpa using unlisted agent (List.mem_reverse.1 member)

theorem filter_gapFlags (agent : AgentSummary) :
    (gapFlags agent).filter aboutV0 = gapFlags agent := by
  unfold gapFlags
  split
  · next measured endowment _ _ =>
      cases v0GapBeyondTolerance measured endowment <;> rfl
  · rfl

theorem filter_transferFlags (agent : AgentSummary) :
    (transferFlags agent).filter aboutV0 = [] := by
  rw [List.filter_eq_nil_iff]
  intro flag member
  rcases List.mem_map.1 member with ⟨transfer, -, rfl⟩
  simp [aboutV0]

theorem v0Flags_scoreOf (summary : RunSummary) (agent : AgentSummary) :
    (view (scoreOf summary agent)).v0Flags =
      (summary.v0FloorSkipped.map Flag.floorSkipped).toList ++
        gapFlags agent := by
  have fee : (if some agent.id ∈ summary.violations then [Flag.priorityFee]
        else []).filter aboutV0 = [] := by
    split <;> rfl
  have floor :
      ((summary.v0FloorSkipped.map Flag.floorSkipped).toList).filter aboutV0 =
        (summary.v0FloorSkipped.map Flag.floorSkipped).toList := by
    cases summary.v0FloorSkipped <;> rfl
  have exit : ((agent.processExitedEarly.map Flag.exitedEarly).toList).filter
      aboutV0 = [] := by
    cases agent.processExitedEarly <;> rfl
  have unlogged : (if agent.unloggedTxCount.getD 0 > 0 then
          [Flag.unlogged (agent.unloggedTxCount.getD 0)]
        else []).filter aboutV0 = [] := by
    split <;> rfl
  have derived : (if agent.derivedSenders = [] then []
        else
          [Flag.derivedSenders (agent.derivedSenders.map Prod.snd).sum
            agent.derivedSenders.length]).filter aboutV0 = [] := by
    split <;> rfl
  have missing : (if (pnlOf agent).1 = none then [Flag.noPnl] else []).filter
        aboutV0 = [] := by
    split <;> rfl
  simp only [view, scoreOf, flagsOf, List.filter_append, fee, floor, exit,
    unlogged, filter_transferFlags, derived, filter_gapFlags, missing,
    List.nil_append, List.append_nil]

theorem pnlOf_fst (agent : AgentSummary) :
    (pnlOf agent).1 = agent.pnlUsdc.or agent.netPnlUsdc := by
  unfold pnlOf
  cases agent.pnlUsdc <;> cases agent.netPnlUsdc <;> rfl

theorem view_scoreOf (summary : RunSummary) (agent : AgentSummary) :
    view (scoreOf summary agent) = ⟨(pnlOf agent).1, agent.v0Source,
        (summary.v0FloorSkipped.map Flag.floorSkipped).toList ++
          gapFlags agent⟩ := by
  rw [← v0Flags_scoreOf]
  rfl

/-- What a finished run leaves behind for its scores to be read from. -/
structure FinishedRun (Symbol : Type) where
  options : Options
  runBlocks : ℚ
  scorer : SeriesScorer
  facts : String → AgentFacts
  violations : List (Option String)
  blocksProcessed : ℤ
  exited : String → Option String
  runDir : String
  missingBecause : String
  format : LineFormat Symbol LiveIntervalBoundary

namespace FinishedRun

variable {Symbol : Type} (run : FinishedRun Symbol)
    (roster : List RosterIdentity)

/-- The content of `run-start.json`. -/
def start : RunStart := ⟨run.options.runStartBlock, run.runBlocks⟩

/-- The content of `intervals.jsonl`. -/
def file : List Symbol := run.format.text run.scorer.intervals

/-- The content of `summary.json`. -/
def summaryFile : SummaryFile :=
  summaryOf run.options run.scorer run.facts run.violations run.blocksProcessed

def summary : RunSummary :=
  { runDir := run.runDir
    blocksProcessed := run.summaryFile.blocksProcessed
    agents := run.scorer.agents.map (agentSummary run.scorer run.facts)
    violations := run.violations
    v0FloorSkipped := none }

def fromSummary : List AgentScore :=
  ((readRunSummary run.runDir (some run.summaryFile)).map
    (scoresFromSummary · (roster.map (·.id)))).getD []

variable [DecidableEq Symbol]

def fromLines (file : List Symbol) : Except String (List AgentScore × ℤ) :=
  scoresFromIntervals run.format run.runDir (some run.start) (some file)
    run.exited roster run.missingBecause

/-- The live series reached the end block of the epoch. -/
def ReachedEnd : Prop :=
  ∃ live endBlock, series run.scorer = some live ∧
    epochEndBlock run.options.runStartBlock run.runBlocks = some endBlock ∧
      live.boundaryBlocks.getLast? = some endBlock

/-- Both records give every agent of the roster the same view. -/
def SameView : Prop :=
  ∃ scores endBlock, run.fromLines roster run.file = .ok (scores, endBlock) ∧
      ∀ agent ∈ roster, (scoreIn scores agent.id).map view =
          (scoreIn (run.fromSummary roster) agent.id).map view

/-- Cut anywhere, the lines give the same profits or refuse. -/
def SameWhenCut : Prop :=
  ∀ cut, cut <+: run.file →
    (∃ reason, run.fromLines roster cut = .error reason) ∨ ∃ scores endBlock,
        run.fromLines roster cut = .ok (scores, endBlock) ∧ ∀ agent ∈ roster,
            (scoreIn scores agent.id).map (·.pnlUsdc) =
              (scoreIn (run.fromSummary roster) agent.id).map (·.pnlUsdc)

/-- An epoch's scores do not depend on the record they are read from. -/
def Agreement : Prop := run.SameView roster ∧ run.SameWhenCut roster

/-- The values have a finite first one and a finite later one. -/
def EndsReported (values : List Reading) : Prop :=
  (valueAt (values.map written) 0).isSome ∧
    ∃ later, 0 < later ∧ (valueAt (values.map written) later).isSome

/-- The run's first block was read, and so were the roster's two ends. -/
def EndsRead : Prop :=
  (roster ≠ [] → run.scorer.boundaries.head? = some run.options.runStartBlock) ∧
    ∀ agent ∈ roster, ∀ values,
      run.scorer.valuesByAgent agent.id = some values → EndsReported values

end FinishedRun

/-! ## What the lines say -/

section Lines

variable {Symbol : Type}

theorem unseen_of_nodup
    {seen : List ℤ} {lines : List LiveIntervalBoundary}
    (distinct : (lines.map (·.blockNumber)).Nodup)
    (fresh : ∀ line ∈ lines, line.blockNumber ∉ seen) :
    unseen seen lines = lines := by
  induction lines generalizing seen with
  | nil => rfl
  | cons line lines ih =>
      rw [List.map_cons, List.nodup_cons] at distinct
      rw [List.forall_mem_cons] at fresh
      rw [unseen, if_neg fresh.1, ih distinct.2]
      intro other member
      rw [List.mem_cons, not_or]
      constructor
      · intro same
        exact distinct.1
          (same ▸ List.mem_map_of_mem (f := (·.blockNumber)) member)
      · exact fresh.2 other member

/-- What the lines say of an agent, by its id. -/
def lineSummary
    (run : FinishedRun Symbol) (first : LiveIntervalBoundary)
    (lines : List LiveIntervalBoundary) (id : String) :
    AgentSummary :=
  summaryFromLines (first.blockNumber = run.options.runStartBlock) first lines
    run.exited ⟨id, none, none⟩

def lineFloor (run : FinishedRun Symbol) (first : LiveIntervalBoundary) :
    Option FloorSkipped :=
  if first.blockNumber = run.options.runStartBlock then
    none
  else
    some ⟨some first.blockNumber, some run.options.runStartBlock⟩

def lineView
    (run : FinishedRun Symbol) (first : LiveIntervalBoundary)
    (lines : List LiveIntervalBoundary) (id : String) :
    View :=
  ⟨(lineSummary run first lines id).pnlUsdc,
    (lineSummary run first lines id).v0Source,
    ((lineFloor run first).map Flag.floorSkipped).toList ++
      gapFlags (lineSummary run first lines id)⟩

theorem view_fromIntervals (because : String) (score : AgentScore) :
    view (fromIntervals because score) = view score := by
  simp [view, fromIntervals, List.filter_append, aboutV0]

theorem scoreIn_scoresOfLines
    (run : FinishedRun Symbol) {roster : List RosterIdentity}
    (first : LiveIntervalBoundary) (lines : List LiveIntervalBoundary)
    {agent : RosterIdentity} (listed : agent ∈ roster) :
    (scoreIn (scoresOfLines run.runDir run.start run.exited roster
          run.missingBecause first lines)
        agent.id).map view =
      some (lineView run first lines agent.id) := by
  have ids : agent.id ∈ roster.map (·.id) := List.mem_map_of_mem listed
  rw [scoresOfLines, if_neg (List.ne_nil_of_mem listed)]
  generalize summarized :
    summaryOfLines run.runDir run.start run.exited roster first lines = summary
  have floor : summary.v0FloorSkipped = lineFloor run first := by
    rw [← summarized]
    by_cases floored : first.blockNumber = run.options.runStartBlock
    · simp [summaryOfLines, lineFloor, FinishedRun.start, floored]
    · simp [summaryOfLines, lineFloor, FinishedRun.start, floored]
  have entries : summary.agents = roster.map (summaryFromLines
      (first.blockNumber = run.options.runStartBlock) first lines
      run.exited) := by
    rw [← summarized]
    rfl
  have known : ∃ other ∈ roster, other.id = agent.id ∧
      reported summary agent.id = some (summaryFromLines
          (first.blockNumber = run.options.runStartBlock) first lines
          run.exited other) := by
    cases found : reported summary agent.id with
    | none =>
        rw [reported, entries, List.find?_eq_none] at found
        have missed := found _ (List.mem_reverse.2 (List.mem_map_of_mem listed))
        simp [summaryFromLines] at missed
    | some entry =>
        have member := List.mem_of_find?_eq_some found
        rw [List.mem_reverse, entries] at member
        rcases List.mem_map.1 member with ⟨other, within, rfl⟩
        exact ⟨other, within, reported_id found, rfl⟩
  rcases known with ⟨other, -, same, found⟩
  have score :=
    find_map_of_mem (fromIntervals run.missingBecause ∘ scoreFor summary)
      (·.id) (scoreFor_id summary) ids
  rw [scoresFromSummary_of_expected summary (List.ne_nil_of_mem ids),
    List.map_map, scoreIn, score]
  simp only [Function.comp_apply, Option.map_some, view_fromIntervals,
    scoreFor, found]
  rw [view_scoreOf, pnlOf_fst, floor, lineView, lineSummary, ← same]
  simp only [summaryFromLines, gapFlags, Option.or_none]

variable [DecidableEq Symbol]

theorem fromLines_of_read
    (run : FinishedRun Symbol) (roster : List RosterIdentity)
    {file : List Symbol} {first second : LiveIntervalBoundary}
    {rest : List LiveIntervalBoundary} {endBlock : ℤ}
    (read : readIntervalLines run.format file = first :: second :: rest)
    (ends :
      epochEndBlock run.options.runStartBlock run.runBlocks = some endBlock) :
    run.fromLines roster file =
      if ((second :: rest).getLast (List.cons_ne_nil _ _)).blockNumber ≠
          endBlock then
        .error <| "the interval series ends at block " ++
            toString
              ((second :: rest).getLast (List.cons_ne_nil _ _)).blockNumber ++
            ", the epoch at " ++ toString endBlock ++
            ": the epoch did not finish, so there is no V_K"
      else
        .ok (scoresOfLines run.runDir run.start run.exited roster
            run.missingBecause first (first :: second :: rest), endBlock) := by
  simp only [FinishedRun.fromLines, scoresFromIntervals, FinishedRun.start,
    ends, Option.map_some, Option.getD_some, read]

theorem fromLines_of_short
    (run : FinishedRun Symbol) (roster : List RosterIdentity)
    {file : List Symbol} {endBlock : ℤ}
    (short : (readIntervalLines run.format file).length < 2)
    (ends :
      epochEndBlock run.options.runStartBlock run.runBlocks = some endBlock) :
    run.fromLines roster file =
      .error "no interval series in the run directory" := by
  simp only [FinishedRun.fromLines, scoresFromIntervals, FinishedRun.start,
    ends, Option.map_some, Option.getD_some]
  rcases lines : readIntervalLines run.format file with
    _ | ⟨first, _ | ⟨second, rest⟩⟩
  · rfl
  · rfl
  · rw [lines] at short
    simp at short

end Lines

/-! ## What the summary says -/

section Summary

variable {Symbol : Type} (run : FinishedRun Symbol)

/-- The summary's view of an agent of the run. -/
def summaryView (agent : ReconstructionAgent) : View :=
  view (scoreOf run.summary (agentSummary run.scorer run.facts agent))

theorem scoreIn_fromSummary
    {roster : List RosterIdentity} {agent : RosterIdentity}
    (listed : agent ∈ roster) :
    scoreIn (run.fromSummary roster) agent.id =
      some (scoreFor run.summary agent.id) :=
  scoreIn_summary run.summary (List.mem_map_of_mem listed)

theorem scoreFor_agent
    (distinct : (run.scorer.agents.map (·.id)).Nodup)
    {agent : ReconstructionAgent} (placed : agent ∈ run.scorer.agents) :
    scoreFor run.summary agent.id =
      scoreOf run.summary (agentSummary run.scorer run.facts agent) := by
  have known :
      reported run.summary (agentSummary run.scorer run.facts agent).id =
        some (agentSummary run.scorer run.facts agent) := by
    apply reported_of_mem
    · exact List.mem_map_of_mem placed
    · intro other member same
      rcases List.mem_map.1 member with ⟨found, within, rfl⟩
      have equal : found = agent :=
        List.inj_on_of_nodup_map distinct within placed same
      rw [equal]
  have sameId : (agentSummary run.scorer run.facts agent).id = agent.id := rfl
  rw [scoreFor, ← sameId, known]

theorem scoreFor_stranger
    (unplaced : id ∉ run.scorer.agents.map (·.id)) :
    scoreFor run.summary id = ScenarioScores.unplaced id := by
  have unknown : reported run.summary id = none := by
    apply reported_of_not_mem
    intro entry member same
    rcases List.mem_map.1 member with ⟨agent, within, rfl⟩
    exact unplaced (List.mem_map.2 ⟨agent, within, same⟩)
  rw [scoreFor, unknown]

end Summary

section Comparison

variable {Symbol : Type} {run : FinishedRun Symbol}
    {first : LiveIntervalBoundary} {rest : List LiveIntervalBoundary}
    {live : IntervalSeries} {values : List Reading}

theorem valueAt_zero (values : List Reading) :
    valueAt (values.map written) 0 = written values.head?.join := by
  cases values <;> rfl

theorem lineSummary_pnlUsdc
    (kept : Kept run.options run.scorer)
    (tracked : run.scorer.valuesByAgent id = some values) :
    (lineSummary run first run.scorer.intervals id).pnlUsdc =
      (epochPnlFromSeries (values.map written)).map (·.pnlUsdc) := by
  rw [kept.values id values tracked]
  rfl

theorem agentSummary_pnlUsdc
    {agent : ReconstructionAgent} (known : series run.scorer = some live)
    (tracked : run.scorer.valuesByAgent agent.id = some values) :
    (agentSummary run.scorer run.facts agent).pnlUsdc =
      (epochPnlFromSeries (values.map written)).map (·.pnlUsdc) := by
  have valuesOf : live.valuesByAgent = run.scorer.valuesByAgent := by
    unfold series at known
    split at known
    · cases known
    · cases known
      rfl
  simp only [agentSummary, known, Option.bind_some, valuesOf, tracked,
    Option.getD_some]

theorem lineSummary_of_stranger
    (kept : Kept run.options run.scorer)
    {id : String} (unplaced : id ∉ run.scorer.agents.map (·.id)) :
    (lineSummary run first run.scorer.intervals id).pnlUsdc = none ∧
      (lineSummary run first run.scorer.intervals id).v0Source = none ∧
        gapFlags (lineSummary run first run.scorer.intervals id) = [] := by
  have silent : ∀ index,
      valueAt (run.scorer.intervals.map (lineValue id)) index = none := by
    intro index
    simp only [valueAt, List.getD_eq_getElem?_getD, List.getElem?_map]
    cases found : run.scorer.intervals[index]? with
    | none => rfl
    | some line =>
        have unnamed :=
          kept.unnamed id unplaced line (List.mem_of_getElem? found)
        simp [lineValue, unnamed]
  have none :
      epochPnlFromSeries (run.scorer.intervals.map (lineValue id)) = none := by
    rw [← Option.not_isSome_iff_eq_none, isSome_epochPnlFromSeries, silent 0]
    simp
  refine ⟨?_, ?_, ?_⟩
  · simp only [lineSummary, summaryFromLines, none, Option.map_none]
  · simp only [lineSummary, summaryFromLines, silent, Option.map_none]
  · simp only [gapFlags, lineSummary, summaryFromLines, silent,
      Option.bind_none]

theorem series_eq_some
    {scorer : SeriesScorer} (known : series scorer = some live) :
    2 ≤ scorer.boundaries.length ∧
      live = ⟨scorer.boundaries, scorer.valuesByAgent⟩ := by
  unfold series at known
  split at known
  · cases known
  · next long =>
      cases known
      exact ⟨not_lt.1 long, rfl⟩

theorem lineView_eq_summaryView
    (kept : Kept run.options run.scorer) (known : series run.scorer = some live)
    (opens : run.scorer.intervals = first :: rest)
    (floored : first.blockNumber = run.options.runStartBlock)
    {agent : ReconstructionAgent}
    (tracked : run.scorer.valuesByAgent agent.id = some values)
    (ends : FinishedRun.EndsReported values) :
    lineView run first run.scorer.intervals agent.id =
      summaryView run agent := by
  have opened := kept.opened first (by rw [opens]; rfl)
  rcases opened.floored floored with ⟨noted, fields, marked, told⟩
  have reported := ends.1
  rw [valueAt_zero] at reported
  rcases Option.isSome_iff_exists.1 reported with ⟨amount, finite⟩
  rcases Option.bind_eq_some_iff.1 finite with ⟨figure, head, amountOf⟩
  have profit : (lineSummary run first run.scorer.intervals agent.id).pnlUsdc =
      (agentSummary run.scorer run.facts agent).pnlUsdc := by
    rw [lineSummary_pnlUsdc kept tracked, agentSummary_pnlUsdc known tracked]
  have earned : (agentSummary run.scorer run.facts agent).pnlUsdc.isSome := by
    rw [agentSummary_pnlUsdc known tracked, Option.isSome_map,
      isSome_epochPnlFromSeries]
    exact ends
  have seen : valueAt (run.scorer.intervals.map (lineValue agent.id)) 0 =
      some amount := by
    rw [← kept.values _ values tracked, valueAt_zero, finite]
  have liveEq := (series_eq_some known).2
  have value : firstValue agent.id live = some figure := by
    rw [firstValue, liveEq]
    simp only [tracked, Option.getD_some]
    exact head
  have record : v0FirstOf run.scorer agent.id live =
      run.scorer.firstBoundaryByAgent agent.id := by
    have start : live.boundaryBlocks.head? = run.scorer.firstBoundaryBlock := by
      rw [liveEq, noted, kept.blocks, opens]
      rfl
    rw [v0FirstOf, if_pos start]
  rcases told agent.id with ⟨source, measured, endowment⟩
  have pnl : (lineSummary run first run.scorer.intervals agent.id).pnlUsdc =
      (pnlOf (agentSummary run.scorer run.facts agent)).1 := by
    rw [profit, pnlOf_fst]
    rcases Option.isSome_iff_exists.1 earned with ⟨amount, same⟩
    rw [same, Option.some_or]
  have floor : lineFloor run first = run.summary.v0FloorSkipped :=
    if_pos floored
  have lines : (lineSummary run first run.scorer.intervals agent.id).v0Source =
        (agentSummary run.scorer run.facts agent).v0Source ∧
      (lineSummary run first run.scorer.intervals agent.id).v0MeasuredUsdc =
          (agentSummary run.scorer run.facts agent).v0MeasuredUsdc ∧
        (lineSummary run first run.scorer.intervals agent.id).v0EndowmentUsdc =
          (agentSummary run.scorer run.facts agent).v0EndowmentUsdc := by
    simp only [lineSummary, summaryFromLines, agentSummary, seen, known,
      floored, decide_true, if_true, marked, Option.bind_some, value, record,
      Option.map_some, source, endowment]
    cases account : run.scorer.firstBoundaryByAgent agent.id with
    | none => simp [written, amountOf]
    | some v0 =>
        rw [account] at measured
        simp [measured]
  rcases lines with ⟨sameSource, sameMeasured, sameEndowment⟩
  rw [lineView, summaryView, view_scoreOf, ← pnl, ← floor, ← sameSource]
  rw [gapFlags, gapFlags, sameMeasured, sameEndowment]

end Comparison

/-! ## Agreement -/

section Agreement

variable {Symbol : Type} {run : FinishedRun Symbol}
    {roster : List RosterIdentity} {endBlock : ℤ}

theorem nodup_blocks (kept : Kept run.options run.scorer) :
    (run.scorer.intervals.map (·.blockNumber)).Nodup := by
  rw [← kept.blocks]
  exact kept.increasing.imp fun earlier => earlier.ne

theorem exists_lines
    (kept : Kept run.options run.scorer) (reached : run.ReachedEnd) :
    ∃ first second rest endBlock,
      run.scorer.intervals = first :: second :: rest ∧
        epochEndBlock run.options.runStartBlock run.runBlocks = some endBlock ∧
          ((second :: rest).getLast (List.cons_ne_nil _ _)).blockNumber =
            endBlock := by
  rcases reached with ⟨live, endBlock, known, ends, last⟩
  rcases series_eq_some known with ⟨long, rfl⟩
  simp only [kept.blocks] at last long
  rcases lines : run.scorer.intervals with _ | ⟨first, _ | ⟨second, rest⟩⟩
  · rw [lines] at long
    simp at long
  · rw [lines] at long
    simp at long
  · refine ⟨first, second, rest, endBlock, rfl, ends, ?_⟩
    rw [lines, List.getLast?_map, List.getLast?_cons_cons,
      List.getLast?_eq_some_getLast (List.cons_ne_nil second rest)] at last
    exact Option.some.inj last

theorem view_stranger
    {agent : RosterIdentity} (listed : agent ∈ roster)
    (unplaced : agent.id ∉ run.scorer.agents.map (·.id)) :
    (scoreIn (run.fromSummary roster) agent.id).map view =
      some ⟨none, none, []⟩ := by
  rw [scoreIn_fromSummary run listed, scoreFor_stranger run unplaced]
  rfl

theorem view_placed
    (kept : Kept run.options run.scorer)
    {agent : RosterIdentity} (listed : agent ∈ roster)
    {member : ReconstructionAgent} (placed : member ∈ run.scorer.agents)
    (same : member.id = agent.id) :
    (scoreIn (run.fromSummary roster) agent.id).map view =
      some (summaryView run member) := by
  rw [scoreIn_fromSummary run listed, ← same,
    scoreFor_agent run kept.distinct placed]
  rfl

theorem sameViews_of_endsRead
    (kept : Kept run.options run.scorer) (reached : run.ReachedEnd)
    (ends : run.EndsRead roster)
    {first : LiveIntervalBoundary} {rest : List LiveIntervalBoundary}
    (lines : run.scorer.intervals = first :: rest)
    {agent : RosterIdentity} (listed : agent ∈ roster) :
    (scoreIn (scoresOfLines run.runDir run.start run.exited roster
          run.missingBecause first run.scorer.intervals)
        agent.id).map view =
      (scoreIn (run.fromSummary roster) agent.id).map view := by
  have floored : first.blockNumber = run.options.runStartBlock := by
    have start := ends.1 (List.ne_nil_of_mem listed)
    rw [kept.blocks, lines] at start
    exact Option.some.inj start
  rw [scoreIn_scoresOfLines run first run.scorer.intervals listed]
  by_cases placed : agent.id ∈ run.scorer.agents.map (·.id)
  · rcases List.mem_map.1 placed with ⟨member, within, same⟩
    have tracked := (kept.listed agent.id).2 placed
    rcases Option.isSome_iff_exists.1 tracked with ⟨values, found⟩
    rcases reached with ⟨live, -, known, -⟩
    rw [view_placed kept listed within same, ← same]
    apply congrArg
    apply lineView_eq_summaryView kept known lines floored
    · rw [same]
      exact found
    · exact ends.2 agent listed values found
  · rcases @lineSummary_of_stranger _ run first kept _ placed with
      ⟨pnl, source, gap⟩
    rw [view_stranger listed placed, lineView, pnl, source, gap, lineFloor,
      if_pos floored]
    rfl

theorem endsRead_of_sameViews
    (kept : Kept run.options run.scorer) (reached : run.ReachedEnd)
    {first : LiveIntervalBoundary} {rest : List LiveIntervalBoundary}
    (lines : run.scorer.intervals = first :: rest)
    (same : ∀ agent ∈ roster, (scoreIn
          (scoresOfLines run.runDir run.start run.exited roster
            run.missingBecause first run.scorer.intervals)
          agent.id).map view =
        (scoreIn (run.fromSummary roster) agent.id).map view) :
    run.EndsRead roster := by
  rcases reached with ⟨live, -, known, -⟩
  constructor
  · intro some
    rcases List.exists_mem_of_ne_nil roster some with ⟨agent, listed⟩
    have views := same agent listed
    rw [scoreIn_scoresOfLines run first run.scorer.intervals listed] at views
    have unskipped : ∀ skipped, ∀ view,
        (scoreIn (run.fromSummary roster) agent.id).map
            RecordAgreement.view = Option.some view →
          Flag.floorSkipped skipped ∉ view.v0Flags := by
      intro skipped seen found
      rw [scoreIn_fromSummary run listed, Option.map_some,
        Option.some.injEq] at found
      rw [← found]
      unfold scoreFor
      cases reported run.summary agent.id with
      | none => simp [view, unplaced, aboutV0]
      | some entry =>
          simp only [view_scoreOf]
          simp only [FinishedRun.summary, Option.map_none, Option.toList_none,
            List.nil_append, gapFlags]
          split
          · simp
          · simp
    have flags := unskipped ⟨Option.some first.blockNumber,
      Option.some run.options.runStartBlock⟩ _ views.symm
    have floored : first.blockNumber = run.options.runStartBlock := by
      by_contra elsewhere
      apply flags
      rw [lineView, lineFloor, if_neg elsewhere]
      simp
    rw [kept.blocks, lines]
    exact congrArg Option.some floored
  · intro agent listed values tracked
    have placed : agent.id ∈ run.scorer.agents.map (·.id) := by
      rw [← kept.listed, tracked]
      rfl
    rcases List.mem_map.1 placed with ⟨member, within, sameId⟩
    have views := same agent listed
    rw [scoreIn_scoresOfLines run first run.scorer.intervals listed,
      view_placed kept listed within sameId, Option.some.injEq] at views
    have pnl := congrArg View.pnlUsdc views
    simp only [lineView, summaryView, view_scoreOf, pnlOf_fst] at pnl
    rw [lineSummary_pnlUsdc kept tracked] at pnl
    rw [← sameId] at tracked
    rw [agentSummary_pnlUsdc known tracked] at pnl
    have profit : (epochPnlFromSeries (values.map written)).isSome := by
      cases found : epochPnlFromSeries (values.map written) with
      | none =>
          rw [found] at pnl
          simp [agentSummary] at pnl
      | some _ => rfl
    exact (isSome_epochPnlFromSeries _).1 profit

variable [DecidableEq Symbol]

theorem readIntervalLines_of_prefix
    (kept : Kept run.options run.scorer)
    (reads : ∀ line ∈ run.scorer.intervals, run.format.Reads line)
    {cut : List Symbol} (within : cut <+: run.file) :
    readIntervalLines run.format cut <+: run.scorer.intervals := by
  have read := LineFormat.read_of_prefix reads within
  have distinct : ((run.format.read cut).map (·.blockNumber)).Nodup :=
    (nodup_blocks kept).sublist (read.sublist.map _)
  rw [readIntervalLines, unseen_of_nodup distinct (by simp)]
  exact read

theorem readIntervalLines_file
    (kept : Kept run.options run.scorer)
    (reads : ∀ line ∈ run.scorer.intervals, run.format.Reads line) :
    readIntervalLines run.format run.file = run.scorer.intervals := by
  have read : run.format.read run.file = run.scorer.intervals :=
    LineFormat.read_text reads
  rw [readIntervalLines, read]
  exact unseen_of_nodup (nodup_blocks kept) (by simp)

theorem fromLines_file
    {first second : LiveIntervalBoundary} {rest : List LiveIntervalBoundary}
    (lines : run.scorer.intervals = first :: second :: rest)
    (ends :
      epochEndBlock run.options.runStartBlock run.runBlocks = some endBlock)
    (last :
      ((second :: rest).getLast (List.cons_ne_nil _ _)).blockNumber = endBlock)
    {file : List Symbol}
    (whole : readIntervalLines run.format file = run.scorer.intervals) :
    run.fromLines roster file = .ok
        (scoresOfLines run.runDir run.start run.exited roster
          run.missingBecause first run.scorer.intervals, endBlock) := by
  rw [lines] at whole ⊢
  rw [fromLines_of_read run roster whole ends, if_neg (by simp [last])]

theorem fromLines_of_lost
    (kept : Kept run.options run.scorer)
    {first second : LiveIntervalBoundary} {rest : List LiveIntervalBoundary}
    (lines : run.scorer.intervals = first :: second :: rest)
    (ends :
      epochEndBlock run.options.runStartBlock run.runBlocks = some endBlock)
    (last :
      ((second :: rest).getLast (List.cons_ne_nil _ _)).blockNumber = endBlock)
    {file : List Symbol}
    (part : readIntervalLines run.format file <+: run.scorer.intervals)
    (lost : readIntervalLines run.format file ≠ run.scorer.intervals) :
    ∃ reason, run.fromLines roster file = .error reason := by
  rcases remaining : readIntervalLines run.format file with
    _ | ⟨head, _ | ⟨follower, tail⟩⟩
  · exact ⟨_, fromLines_of_short run roster (by rw [remaining]; simp) ends⟩
  · exact ⟨_, fromLines_of_short run roster (by rw [remaining]; simp) ends⟩
  · rw [fromLines_of_read run roster remaining ends]
    have early :
        ((follower :: tail).getLast (List.cons_ne_nil _ _)).blockNumber ≠
          endBlock := by
      rw [remaining] at part lost
      rcases part with ⟨after, whole⟩
      have some : after ≠ [] := by
        rintro rfl
        exact lost (by rw [← whole, List.append_nil])
      have increasing := kept.increasing
      rw [kept.blocks, ← whole, List.map_append,
        List.pairwise_append] at increasing
      have final : (after.getLast some).blockNumber = endBlock := by
        have sameLast : run.scorer.intervals.getLast? = after.getLast? := by
          rw [← whole, List.getLast?_append_of_ne_nil _ some]
        rw [lines, List.getLast?_cons_cons,
          List.getLast?_eq_some_getLast (List.cons_ne_nil second rest),
          List.getLast?_eq_some_getLast some] at sameLast
        rw [← Option.some.inj sameLast]
        exact last
      have before := increasing.2.2
          ((follower :: tail).getLast (List.cons_ne_nil _ _)).blockNumber
          (List.mem_map_of_mem (List.mem_cons_of_mem _ (List.getLast_mem _)))
          (after.getLast some).blockNumber
          (List.mem_map_of_mem (List.getLast_mem _))
      rw [final] at before
      exact before.ne
    rw [if_pos early]
    exact ⟨_, rfl⟩

theorem endsRead_of_agreement
    (kept : Kept run.options run.scorer) (reached : run.ReachedEnd)
    (reads : ∀ line ∈ run.scorer.intervals, run.format.Reads line)
    (agreement : run.Agreement roster) :
    run.EndsRead roster := by
  rcases exists_lines kept reached with
    ⟨first, second, rest, endBlock, lines, ends, last⟩
  rcases agreement with ⟨⟨scores, scoredEnd, scored, same⟩, -⟩
  rw [fromLines_file lines ends last (readIntervalLines_file kept reads)]
    at scored
  cases scored
  exact endsRead_of_sameViews kept reached lines same

theorem agreement_of_endsRead
    (kept : Kept run.options run.scorer) (reached : run.ReachedEnd)
    (reads : ∀ line ∈ run.scorer.intervals, run.format.Reads line)
    (endsRead : run.EndsRead roster) :
    run.Agreement roster := by
  rcases exists_lines kept reached with
    ⟨first, second, rest, endBlock, lines, ends, last⟩
  have whole := @fromLines_file _ run roster endBlock _ _ _ _ lines ends last
  have same :=
    @sameViews_of_endsRead _ run roster kept reached endsRead _ _ lines
  constructor
  · exact ⟨_, _, whole (readIntervalLines_file kept reads),
      fun agent listed => same listed⟩
  · intro cut within
    have part := readIntervalLines_of_prefix kept reads within
    by_cases lost : readIntervalLines run.format cut = run.scorer.intervals
    · refine Or.inr ⟨_, _, whole lost, ?_⟩
      intro agent listed
      have views := congrArg (Option.map View.pnlUsdc) (same listed)
      rw [Option.map_map, Option.map_map] at views
      exact views
    · exact Or.inl (fromLines_of_lost kept lines ends last part lost)

/--
In every finished run in which only reads fail, both records agree on the
roster, and cut lines agree or are refused, exactly when the run's first block
was read and every agent of the roster which is in the run has a finite first
value and a finite later one.
-/
theorem agreement_iff
    (run : FinishedRun Symbol) (roster : List RosterIdentity)
    (reachable : (runs run.options).Reachable OnlyReadsFail run.scorer)
    (reached : run.ReachedEnd)
    (reads : ∀ line ∈ run.scorer.intervals, run.format.Reads line) :
    run.Agreement roster ↔ run.EndsRead roster := by
  have kept := kept_of_reachable reachable
  constructor
  · exact endsRead_of_agreement kept reached reads
  · exact agreement_of_endsRead kept reached reads

end Agreement

/-! ## Three runs of twenty blocks -/

/-- Boundaries at blocks `100`, `110` and `120`. -/
def exampleOptions : Options := ⟨100, some 120, 10, 0, false, .pinned⟩

def exampleAgent : ReconstructionAgent :=
  ⟨"a", "0x01", some ⟨0, 0, 5000000, [], []⟩⟩

/-- The agent is worth this much, and its endowment five. -/
def worth (value : Usdc) : Ending :=
  .appended ⟨3000, [("a", .finite value)], fun _ => .finite 5, 0⟩ false

/-- The line of a boundary at which the agent's value is known. -/
def exampleLine
    (index : ℕ) (blockNumber : ℤ) (values : List (String × Option Usdc))
    (first : Option FirstBoundaryFields) :
    LiveIntervalBoundary :=
  ⟨index, blockNumber, 3000, values, 0, first⟩

def bytes (text : String) : List UInt8 := text.toUTF8.data.toList

/-- The lines which the three runs append. -/
def exampleTable : List (List UInt8 × LiveIntervalBoundary) :=
  [(bytes "\x7b\"index\":0,\"blockNumber\":100,\"fairPriceUsdcPerWeth\":3000,\"values\":\x7b\"a\":5\x7d,\"elapsedMs\":0,\"v0SourceByAgent\":\x7b\"a\":\"endowment\"\x7d,\"v0MeasuredByAgent\":\x7b\"a\":5\x7d,\"v0EndowmentByAgent\":\x7b\"a\":5\x7d\x7d",
      exampleLine 0 100 [("a", some 5)]
        (some ⟨[("a", .endowment)], [("a", some 5)], [("a", 5)]⟩)),
    (bytes "\x7b\"index\":0,\"blockNumber\":100,\"fairPriceUsdcPerWeth\":3000,\"values\":\x7b\x7d,\"elapsedMs\":0,\"v0SourceByAgent\":\x7b\x7d,\"v0MeasuredByAgent\":\x7b\x7d,\"v0EndowmentByAgent\":\x7b\x7d\x7d",
      exampleLine 0 100 [] (some ⟨[], [], []⟩)),
    (bytes "\x7b\"index\":0,\"blockNumber\":110,\"fairPriceUsdcPerWeth\":3000,\"values\":\x7b\"a\":6\x7d,\"elapsedMs\":0\x7d",
      exampleLine 0 110 [("a", some 6)] none),
    (bytes "\x7b\"index\":1,\"blockNumber\":110,\"fairPriceUsdcPerWeth\":3000,\"values\":\x7b\"a\":6\x7d,\"elapsedMs\":0\x7d",
      exampleLine 1 110 [("a", some 6)] none),
    (bytes "\x7b\"index\":1,\"blockNumber\":120,\"fairPriceUsdcPerWeth\":3000,\"values\":\x7b\"a\":7\x7d,\"elapsedMs\":0\x7d",
      exampleLine 1 120 [("a", some 7)] none),
    (bytes "\x7b\"index\":2,\"blockNumber\":120,\"fairPriceUsdcPerWeth\":3000,\"values\":\x7b\"a\":7\x7d,\"elapsedMs\":0\x7d",
      exampleLine 2 120 [("a", some 7)] none)]

theorem exampleTable_apart :
    (∀ entry ∈ exampleTable, entry.1 ≠ [] ∧ 10 ∉ entry.1) ∧
      ∀ first ∈ exampleTable, ∀ second ∈ exampleTable,
        (first.1 <+: second.1 → first = second) ∧
          (first.2 = second.2 → first = second) := by
  decide +kernel

def exampleFormat : LineFormat UInt8 LiveIntervalBoundary :=
  LineFormat.tabulated 10 exampleTable fun entry member =>
    (exampleTable_apart.1 entry member).1

theorem exampleFormat_reads
    {line : LiveIntervalBoundary} (listed : line ∈ exampleTable.map Prod.snd) :
    exampleFormat.Reads line := by
  rcases List.mem_map.1 listed with ⟨entry, member, rfl⟩
  apply LineFormat.tabulated_reads
  · intro other found
    exact (exampleTable_apart.1 other found).2
  · intro first found second alsoFound
    exact (exampleTable_apart.2 first found second alsoFound).1
  · exact member
  · intro other found
    exact (exampleTable_apart.2 other found entry member).2

/-- The run which these labels play, with a net profit of nine at the end. -/
def exampleRun
    (labels : List Label) (agents : List ReconstructionAgent) :
    FinishedRun UInt8 where
  options := exampleOptions
  runBlocks := 20
  scorer := played exampleOptions labels agents
  facts _ := ⟨none, none, 0, 9, none, none, none, [], []⟩
  violations := []
  blocksProcessed := 20
  exited _ := none
  runDir := "runs/example"
  missingBecause := "summary.json not found"
  format := exampleFormat

def readThrough : FinishedRun UInt8 :=
  exampleRun [.attempt (worth 5), .attempt (worth 6), .attempt (worth 7)]
    [exampleAgent]

def startUnread : FinishedRun UInt8 :=
  exampleRun [.attempt .unread, .attempt (worth 6), .attempt (worth 7)]
    [exampleAgent]

/-- The agent registers after the first boundary. -/
def registeredLate : FinishedRun UInt8 :=
  exampleRun
    [.attempt (.appended ⟨3000, [], fun _ => .finite 5, 0⟩ false),
      .addAgent exampleAgent, .attempt (worth 6), .attempt (worth 7)]
    []

def exampleRoster : List RosterIdentity := [⟨"a", none, none⟩]

/-- A finished run in which only reads fail, and whose lines read back. -/
structure Finishes (run : FinishedRun UInt8) : Prop where
  reachable : (runs run.options).Reachable OnlyReadsFail run.scorer
  reached : run.ReachedEnd
  reads : ∀ line ∈ run.scorer.intervals, run.format.Reads line

theorem finishes_exampleRun
    {labels : List Label} {agents : List ReconstructionAgent}
    (distinct : (agents.map (·.id)).Nodup)
    (boundaries : 2 ≤ (exampleRun labels agents).scorer.boundaries.length ∧
        (exampleRun labels agents).scorer.boundaries.getLast? = some 120)
    (listed : ∀ line ∈ (exampleRun labels agents).scorer.intervals,
        line ∈ exampleTable.map Prod.snd) :
    Finishes (exampleRun labels agents) where
  reachable := reachable_played exampleOptions labels distinct
  reached := by
    have ends : epochEndBlock 100 20 = some 120 := by decide
    exact ⟨_, 120, if_neg (not_lt.2 boundaries.1), ends, boundaries.2⟩
  reads line member := exampleFormat_reads (listed line member)

theorem finishes_readThrough : Finishes readThrough :=
  finishes_exampleRun (by decide) (by decide) (by decide)

theorem finishes_startUnread : Finishes startUnread :=
  finishes_exampleRun (by decide) (by decide) (by decide)

theorem finishes_registeredLate : Finishes registeredLate :=
  finishes_exampleRun (by decide) (by decide) (by decide)

theorem agreement_readThrough : readThrough.Agreement exampleRoster := by
  have values : readThrough.scorer.valuesByAgent "a" =
      some [some (.finite 5), some (.finite 6), some (.finite 7)] := by
    decide
  refine (agreement_iff readThrough exampleRoster finishes_readThrough.reachable
    finishes_readThrough.reached finishes_readThrough.reads).2 ⟨?_, ?_⟩
  · intro _
    decide
  · intro agent listed series tracked
    cases List.mem_singleton.1 listed
    rw [values] at tracked
    cases tracked
    exact ⟨rfl, 1, by decide, rfl⟩

/--
Without the first block the lines say that the floor was skipped and the
summary does not; an agent which registered late has no profit in the lines
and its net profit in the summary.
-/
theorem agreement_fails :
    (Finishes startUnread ∧ ¬ startUnread.Agreement exampleRoster) ∧
      Finishes registeredLate ∧ ¬ registeredLate.Agreement exampleRoster := by
  refine ⟨⟨finishes_startUnread, ?_⟩, finishes_registeredLate, ?_⟩
  · intro agreement
    have ends := endsRead_of_agreement
        (kept_of_reachable finishes_startUnread.reachable)
        finishes_startUnread.reached finishes_startUnread.reads agreement
    have late : startUnread.scorer.boundaries.head? = some 110 := by
      decide
    have start := ends.1 (List.cons_ne_nil _ _)
    rw [late] at start
    cases start
  · intro agreement
    have ends := endsRead_of_agreement
        (kept_of_reachable finishes_registeredLate.reachable)
        finishes_registeredLate.reached finishes_registeredLate.reads
        agreement
    have values : registeredLate.scorer.valuesByAgent "a" =
        some [none, some (.finite 6), some (.finite 7)] := by
      decide
    have first := (ends.2 _ List.mem_cons_self _ values).1
    cases first

end Eris.Backtest.RecordAgreement
