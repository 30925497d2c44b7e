import Eris.Foundation.LineFile
import Eris.Attribution.RosterTransfers
import Eris.Scoring.Profit
import Eris.Scoring.RunSeries

/-!
# The scores of a scenario

`core/src/backtest/scenarioScores.ts`, and the part of the coordinator which
writes the summary it reads.  One epoch's scores come from `summary.json`, or
from `intervals.jsonl` when there is no summary and the series reached the
end block of the epoch.

The texts of flags take the printed form of amounts and of roster transfers
as parameters.
-/

namespace Eris.Backtest.ScenarioScores

open Foundation Scoring.Profit Scoring.RunSeries
open Attribution.RosterTransfers (RosterTransfer RosterFlagSide)
open Scoring.LiveScoring (Usdc V0Source Options ReconstructionAgent
  LiveIntervalBoundary v0GapBeyondTolerance)

/-! ## Data -/

/-- What the summary of a run says about an agent. -/
structure AgentSummary where
  id : String
  baseline : Option Bool
  participant : Option String
  pnlUsdc : Option Usdc
  v0Source : Option V0Source
  v0Usdc : Option Usdc
  v0MeasuredUsdc : Option Usdc
  v0EndowmentUsdc : Option Usdc
  alphaUsdc : Option Usdc
  netPnlUsdc : Option Usdc
  initialValueUsdc : Option Usdc
  finalValueUsdc : Option Usdc
  processExitedEarly : Option String
  unloggedTxCount : Option ℕ
  rosterTransfers : List (RosterTransfer Usdc)
  derivedSenders : List (String × ℕ)
  deriving DecidableEq

/-- The block V_0 was read at, and the one it was to be read at. -/
structure FloorSkipped where
  boundaryBlock : Option ℤ
  runStartBlock : Option ℤ
  deriving DecidableEq

structure RunSummary where
  runDir : String
  blocksProcessed : Option ℤ
  agents : List AgentSummary
  violations : List (Option String)
  v0FloorSkipped : Option FloorSkipped

/-- The fields of `summary.json` which concern the scores. -/
structure SummaryFile where
  blocksProcessed : Option ℤ
  agents : Option (List AgentSummary)
  violations : Option (List (Option String))
  v0FloorSkipped : Option FloorSkipped

inductive Flag where
  | absent
  | priorityFee
  | floorSkipped (skipped : FloorSkipped)
  | exitedEarly (reason : String)
  | unlogged (count : ℕ)
  | rosterTransfer (transfer : RosterTransfer Usdc) (agentId : String)
  | derivedSenders (txs addresses : ℕ)
  | v0Gap (gap measured endowment : Usdc)
  | noPnl
  | fromIntervals (missingBecause : String)
  deriving DecidableEq

/-- A block in a flag, or a question mark. -/
def blockText (block : Option ℤ) : String := (block.map toString).getD "?"

def Flag.text
    (usdc : Usdc → String)
    (rosterTransferFlag : RosterTransfer Usdc → String → String) :
    Flag → String
  | .absent => "absent from summary.json (was not placed)"
  | .priorityFee =>
      "priority fee rule violation: over the cap, or maxFeePerGas above the tip " ++
        "(rules §2.6 / §8; for the operator to judge)"
  | .floorSkipped skipped =>
      "V_0 has no endowment floor in this epoch: the run's first block (" ++
        blockText skipped.runStartBlock ++
        ") was not read, so V_0 is the measured value at block " ++
        blockText skipped.boundaryBlock ++
        " (issue #207). A value moved out before that block counts as this " ++
        "agent's PnL, and the check that would name it has no endowment V_0 " ++
        "to compare against"
  | .exitedEarly reason => "process exited early: " ++ reason
  | .unlogged count =>
      toString count ++ " on-chain tx(s) absent from the agent's submitted log"
  | .rosterTransfer transfer agentId => rosterTransferFlag transfer agentId
  | .derivedSenders txs addresses =>
      toString txs ++ " on-chain tx(s) sent from " ++ toString addresses ++
        " address(es) the agent's wallet funded (attributed to the agent; " ++
        "rules §8, for the operator to judge)"
  | .v0Gap gap measured endowment =>
      if gap < 0 then
        "V_0 measured at the first boundary was " ++ usdc (-gap) ++
          " USDC below the endowment (" ++ usdc measured ++ " vs " ++
          usdc endowment ++
          "): the holdings at the first boundary were worth less than the " ++
          "endowment (moved out, or spent on trades that landed before the " ++
          "bell); V_0 was taken at the endowment (issue #207)"
      else
        "V_0 measured at the first boundary was " ++ usdc gap ++
          " USDC above the endowment (" ++ usdc measured ++ " vs " ++
          usdc endowment ++
          "): value the environment did not fund was there before the " ++
          "epoch's first boundary; V_0 was taken as measured (issue #207)"
  | .noPnl => "no P in summary.json"
  | .fromIntervals missingBecause =>
      "scored from intervals.jsonl: summary.json was not written (" ++
        missingBecause ++
        "). P is the same two boundaries the summary reads; netPnlUsdc, " ++
        "alpha and the post-run rule checks (fee cap, gas budget, unlogged " ++
        "txs, roster transfers) did not run for this epoch"

inductive PnlSource where
  | epochBoundaries
  | endpoints
  | intervalsFallback
  deriving DecidableEq

structure AgentScore where
  id : String
  pnlUsdc : Option Usdc
  pnlSource : Option PnlSource
  v0Source : Option V0Source
  netPnlUsdc : Option Usdc
  alphaUsdc : Option Usdc
  initialValueUsdc : Option Usdc
  finalValueUsdc : Option Usdc
  baseline : Option Bool
  participant : Option String
  flags : List Flag
  deriving DecidableEq

/-- The summary of a run, if it wrote one. -/
def readRunSummary (runDir : String) (file : Option SummaryFile) :
    Option RunSummary :=
  file.map fun parsed =>
    { runDir := runDir
      blocksProcessed := parsed.blocksProcessed
      agents := parsed.agents.getD []
      violations := parsed.violations.getD []
      v0FloorSkipped := none }

/-- The flag of a gap between the chain and the endowment. -/
def gapFlags (agent : AgentSummary) : List Flag :=
  match agent.v0MeasuredUsdc, agent.v0EndowmentUsdc with
  | some measured, some endowment =>
      ((v0GapBeyondTolerance measured endowment).map
        (Flag.v0Gap · measured endowment)).toList
  | _, _ => []

/-- The flags of an agent's flagged movements, on the sides which chose them. -/
def transferFlags (agent : AgentSummary) : List Flag :=
  (agent.rosterTransfers.filter fun transfer =>
      !(transfer.flagSide = some RosterFlagSide.sender &&
        transfer.sender ≠ agent.id)).map
    (Flag.rosterTransfer · agent.id)

/-- The facts about an agent in a summary. -/
def flagsOf (summary : RunSummary) (agent : AgentSummary) : List Flag :=
  (if some agent.id ∈ summary.violations then [.priorityFee] else []) ++
  (summary.v0FloorSkipped.map Flag.floorSkipped).toList ++
  (agent.processExitedEarly.map Flag.exitedEarly).toList ++
  (if agent.unloggedTxCount.getD 0 > 0 then
    [.unlogged (agent.unloggedTxCount.getD 0)]
  else
    []) ++
  transferFlags agent ++
  (if agent.derivedSenders = [] then
    []
  else
    [.derivedSenders (agent.derivedSenders.map Prod.snd).sum
      agent.derivedSenders.length]) ++
  gapFlags agent

/-- P of an agent in a summary, and where it comes from. -/
def pnlOf (agent : AgentSummary) : Option Usdc × Option PnlSource :=
  match agent.pnlUsdc, agent.netPnlUsdc with
  | some pnl, _ => (some pnl, some .epochBoundaries)
  | none, some netPnl => (some netPnl, some .endpoints)
  | none, none => (none, none)

/-- The score of an agent which a summary reports. -/
def scoreOf (summary : RunSummary) (agent : AgentSummary) : AgentScore where
  id := agent.id
  pnlUsdc := (pnlOf agent).1
  pnlSource := (pnlOf agent).2
  v0Source := agent.v0Source
  netPnlUsdc := agent.netPnlUsdc
  alphaUsdc := agent.alphaUsdc
  initialValueUsdc := agent.initialValueUsdc
  finalValueUsdc := agent.finalValueUsdc
  baseline := some (agent.baseline.getD false)
  participant := agent.participant
  flags :=
    flagsOf summary agent ++ if (pnlOf agent).1 = none then [.noPnl] else []

/-- The score of an agent which a summary does not know. -/
def unplaced (id : String) : AgentScore where
  id := id
  pnlUsdc := none
  pnlSource := none
  v0Source := none
  netPnlUsdc := none
  alphaUsdc := none
  initialValueUsdc := none
  finalValueUsdc := none
  baseline := none
  participant := none
  flags := [.absent]

/-- What a summary reports for an id, the last entry winning. -/
def reported (summary : RunSummary) (id : String) : Option AgentSummary :=
  summary.agents.reverse.find? (·.id = id)

/-- One score for each expected agent, or for each reported one. -/
def scoresFromSummary
    (summary : RunSummary) (expectedAgentIds : List String) :
    List AgentScore :=
  let ids := if expectedAgentIds = [] then
      (summary.agents.map (·.id)).eraseDups
    else
      expectedAgentIds
  ids.map fun id =>
    match reported summary id with
    | none => unplaced id
    | some agent => scoreOf summary agent

/-! ## Scores from the lines of the series -/

structure RosterIdentity where
  id : String
  baseline : Option Bool
  participant : Option String
  deriving DecidableEq

/-- The declaration of a run's first block and block budget. -/
structure RunStart where
  runStartBlock : ℤ
  runBlocks : ℚ

/-- The block an epoch ends on, when it has a block budget. -/
def epochEndBlock (runStartBlock : ℤ) (runBlocks : ℚ) : Option ℤ :=
  if runBlocks > 0 then some (runStartBlock + ⌊runBlocks⌋) else none

def unseen : List ℤ → List LiveIntervalBoundary → List LiveIntervalBoundary
  | _, [] => []
  | seen, line :: lines =>
      if line.blockNumber ∈ seen then
        unseen seen lines
      else
        line :: unseen (line.blockNumber :: seen) lines

/-- The ids which lines name, in the order they first appear. -/
def namedIds (lines : List LiveIntervalBoundary) : List String :=
  (lines.flatMap fun line => line.values.map Prod.fst).eraseDups

variable {Symbol : Type} [DecidableEq Symbol]

/-- The lines of the series, one for each block. -/
def readIntervalLines
    (format : LineFormat Symbol LiveIntervalBoundary) (file : List Symbol) :
    List LiveIntervalBoundary :=
  unseen [] (format.read file)

def summaryFromLines
    (floored : Bool) (first : LiveIntervalBoundary)
    (lines : List LiveIntervalBoundary) (exited : String → Option String)
    (agent : RosterIdentity) :
    AgentSummary :=
  let values := lines.map (lineValue agent.id)
  let v0 := valueAt values 0
  let fields := if floored then first.first else none
  let source := fields.bind (·.v0SourceByAgent.lookup agent.id)
  let measured := fields.bind (·.v0MeasuredByAgent.lookup agent.id)
  let endowment := fields.bind (·.v0EndowmentByAgent.lookup agent.id)
  { id := agent.id
    baseline := agent.baseline
    participant := agent.participant
    pnlUsdc := (epochPnlFromSeries values).map (·.pnlUsdc)
    v0Source := v0.map fun _ => source.getD .measured
    v0Usdc := v0
    v0MeasuredUsdc :=
      v0.bind fun v0 => if source.isSome then measured.join else some v0
    v0EndowmentUsdc :=
      v0.bind fun _ => if source.isSome then endowment else none
    alphaUsdc := none
    netPnlUsdc := none
    initialValueUsdc := none
    finalValueUsdc := none
    processExitedEarly := exited agent.id
    unloggedTxCount := none
    rosterTransfers := []
    derivedSenders := [] }

/-- A score read off the lines is marked as such. -/
def fromIntervals (missingBecause : String) (score : AgentScore) :
    AgentScore :=
  { score with
    pnlSource :=
      if score.pnlUsdc.isSome then some .intervalsFallback else score.pnlSource
    flags := score.flags ++ [.fromIntervals missingBecause] }

/-- The summary which lines stand in for. -/
def summaryOfLines
    (runDir : String) (start : RunStart) (exited : String → Option String)
    (ids : List RosterIdentity)
    (first : LiveIntervalBoundary) (lines : List LiveIntervalBoundary) :
    RunSummary :=
  let floored : Bool := first.blockNumber = start.runStartBlock
  { runDir := runDir
    blocksProcessed := none
    agents := ids.map (summaryFromLines floored first lines exited)
    violations := []
    v0FloorSkipped := if floored then
        none
      else
        some ⟨some first.blockNumber, some start.runStartBlock⟩ }

/-- The scores of lines which reach the end block. -/
def scoresOfLines
    (runDir : String) (start : RunStart) (exited : String → Option String)
    (roster : List RosterIdentity) (missingBecause : String)
    (first : LiveIntervalBoundary) (lines : List LiveIntervalBoundary) :
    List AgentScore :=
  let ids := if roster = [] then
      (namedIds lines).map fun id => ⟨id, none, none⟩
    else
      roster
  (scoresFromSummary (summaryOfLines runDir start exited ids first lines)
    (roster.map (·.id))).map (fromIntervals missingBecause)

/-- The scores of an epoch without a summary, and its end block. -/
def scoresFromIntervals
    (format : LineFormat Symbol LiveIntervalBoundary)
    (runDir : String) (start : Option RunStart) (file : Option (List Symbol))
    (exited : String → Option String) (roster : List RosterIdentity)
    (missingBecause : String) :
    Except String (List AgentScore × ℤ) :=
  match start with
  | none => .error "no run-start.json (the epoch never started)"
  | some start =>
      match epochEndBlock start.runStartBlock start.runBlocks with
      | none =>
          .error <|
            "the run has no block budget, so there is no end block to check " ++
              "the series against"
      | some endBlock =>
          match (file.map (readIntervalLines format)).getD [] with
          | first :: second :: rest =>
              let lines := first :: second :: rest
              let last := (second :: rest).getLast (List.cons_ne_nil _ _)
              if last.blockNumber ≠ endBlock then
                .error <| "the interval series ends at block " ++
                    toString last.blockNumber ++ ", the epoch at " ++
                    toString endBlock ++
                    ": the epoch did not finish, so there is no V_K"
              else
                .ok (scoresOfLines runDir start exited roster missingBecause
                    first lines, endBlock)
          | _ => .error "no interval series in the run directory"

/-- The record with the median P, or the first one when none has a P. -/
def medianOf (first : AgentScore) (rest : List AgentScore) : AgentScore :=
  let scored := (first :: rest).filter (·.pnlUsdc.isSome)
  let sorted := scored.insertionSort fun left right =>
      left.pnlUsdc.getD 0 ≤ right.pnlUsdc.getD 0
  sorted.getD ((scored.length - 1) / 2) first

/-- One record for each agent of the repeats, with the flags of all. -/
def foldRepeats : List (List AgentScore) → List AgentScore
  | [run] => run
  | runs =>
      let ids := (runs.flatten.map (·.id)).eraseDups
      ids.flatMap fun id =>
        match runs.filterMap fun run => run.find? (·.id = id) with
        | [] => []
        | first :: rest =>
            [{ medianOf first rest with
                id := id
                flags := ((first :: rest).flatMap (·.flags)).eraseDups }]

theorem foldRepeats_ne_nil
    {runs : List (List AgentScore)} (scored : ∃ run ∈ runs, run ≠ []) :
    foldRepeats runs ≠ [] := by
  rcases scored with ⟨run, member, some⟩
  rcases List.exists_mem_of_ne_nil run some with ⟨score, listed⟩
  unfold foldRepeats
  split
  · next only =>
      cases List.mem_singleton.1 member
      exact some
  · intro none
    have known : score.id ∈ (runs.flatten.map (·.id)).eraseDups := by
      rw [List.mem_eraseDups]
      apply List.mem_map_of_mem
      exact List.mem_flatten.2 ⟨run, member, listed⟩
    have silent := List.flatMap_eq_nil_iff.1 none score.id known
    split at silent
    · next nobody =>
        rw [List.filterMap_eq_nil_iff] at nobody
        have missed := List.find?_eq_none.1 (nobody run member) score listed
        simp at missed
    · cases silent

/-- What a coordinator knows of an agent beside its series. -/
structure AgentFacts where
  baseline : Option Bool
  participant : Option String
  initialValueUsdc : Usdc
  finalValueUsdc : Usdc
  alphaUsdc : Option Usdc
  exitedEarly : Option String
  unloggedTxCount : Option ℕ
  rosterTransfers : List (RosterTransfer Usdc)
  derivedSenders : List (String × ℕ)

/-- The boundaries read and every agent's values at them. -/
structure IntervalSeries where
  boundaryBlocks : List ℤ
  valuesByAgent : String → Option (List Reading)

/-- The series of a scorer, once there are two boundaries. -/
def series (scorer : SeriesScorer) : Option IntervalSeries :=
  if scorer.boundaries.length < 2 then
    none
  else
    some ⟨scorer.boundaries, scorer.valuesByAgent⟩

/-- How V_0 was derived, for a series which opens on the first boundary. -/
def v0FirstOf
    (scorer : SeriesScorer) (id : String) (series : IntervalSeries) :
    Option FirstBoundaryV0 :=
  if series.boundaryBlocks.head? = scorer.firstBoundaryBlock then
    scorer.firstBoundaryByAgent id
  else
    none

/-- The first value of an agent's series; none when it is null. -/
def firstValue (id : String) (series : IntervalSeries) : Reading :=
  ((series.valuesByAgent id).getD []).head?.join

def agentSummary
    (scorer : SeriesScorer) (facts : String → AgentFacts)
    (agent : ReconstructionAgent) :
    AgentSummary :=
  let facts := facts agent.id
  let live := series scorer
  let rulesPnl := live.bind fun live =>
      epochPnlFromSeries (((live.valuesByAgent agent.id).getD []).map written)
  let v0 := live.bind (firstValue agent.id)
  let first := live.bind (v0FirstOf scorer agent.id)
  { id := agent.id
    baseline := some (facts.baseline.getD false)
    participant := facts.participant
    pnlUsdc := rulesPnl.map (·.pnlUsdc)
    v0Source := v0.map fun _ => (first.map (·.source)).getD .measured
    v0Usdc := written v0
    v0MeasuredUsdc := v0.bind fun v0 =>
        match first with
        | some first => written first.measuredUsdc
        | none => written (some v0)
    v0EndowmentUsdc := v0.bind fun _ => first.bind (·.endowmentUsdc)
    alphaUsdc := facts.alphaUsdc
    netPnlUsdc := some (facts.finalValueUsdc - facts.initialValueUsdc)
    initialValueUsdc := some facts.initialValueUsdc
    finalValueUsdc := some facts.finalValueUsdc
    processExitedEarly := facts.exitedEarly
    unloggedTxCount := facts.unloggedTxCount
    rosterTransfers := facts.rosterTransfers
    derivedSenders := facts.derivedSenders }

/-- The summary a coordinator writes at the end of a run. -/
def summaryOf
    (options : Options) (scorer : SeriesScorer)
    (facts : String → AgentFacts) (violations : List (Option String))
    (blocksProcessed : ℤ) :
    SummaryFile where
  blocksProcessed := some blocksProcessed
  agents := some (scorer.agents.map (agentSummary scorer facts))
  violations := some violations
  v0FloorSkipped := (series scorer).bind fun live =>
      if scorer.firstBoundaryBlock ≠ some options.runStartBlock then
        some ⟨live.boundaryBlocks.head?, some options.runStartBlock⟩
      else
        none

end Eris.Backtest.ScenarioScores
