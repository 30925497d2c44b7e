import Eris.Foundation.Effect
import Eris.Scoring.Extent

/-!
# The live scorer

A scorer reads every agent's value at each interval boundary as the chain
goes past it.  It keeps the boundaries read, one value series per agent, and
the last boundary it attempted.  Scoring a boundary is one computation over
several awaited reads and writes, any of which may throw; a throw is caught
once, for the whole of it, and what was pushed before it stays pushed.

Values are finite numbers of USDC, as rationals.  The trackers of shortfalls
and of position ownership appear as the answers of their `syncTo`.
-/

namespace Eris.Scoring.LiveScoring

open Foundation.Effect Extent

abbrev Usdc := Rat

abbrev Failure := String

/-! ## V_0 at the first boundary -/

inductive V0Source where
  | endowment
  | measured
deriving DecidableEq, Repr

inductive V0Rule where
  | floor
  | pinned
deriving DecidableEq, Repr

structure FirstBoundaryV0 where
  valueUsdc : Option Usdc
  source : V0Source
  measuredUsdc : Option Usdc
  endowmentUsdc : Option Usdc
deriving DecidableEq, Repr

/-- V_0 for one agent: the endowment, as a floor or pinned. -/
def firstBoundaryV0
    (measuredUsdc endowmentUsdc : Option Usdc) (rule : V0Rule) :
    FirstBoundaryV0 :=
  match endowmentUsdc, measuredUsdc with
  | none, _ => ⟨measuredUsdc, .measured, measuredUsdc, none⟩
  | some endowment, some measured =>
      if rule = .floor ∧ measured > endowment then
        ⟨measured, .measured, measured, endowment⟩
      else ⟨endowment, .endowment, measured, endowment⟩
  | some endowment, none => ⟨endowment, .endowment, none, endowment⟩

def v0GapToleranceFrac : Usdc := 1 / 1000

def v0GapToleranceUsdc : Usdc := 10

/-- The gap between measured and endowment, when it is beyond tolerance. -/
def v0GapBeyondTolerance (measuredUsdc endowmentUsdc : Usdc) : Option Usdc :=
  let gap := measuredUsdc - endowmentUsdc
  let tolerance := max v0GapToleranceUsdc (|endowmentUsdc| * v0GapToleranceFrac)
  if |gap| > tolerance then some gap else none

/-- What the environment funded an agent with. -/
structure BalanceSnapshot where
  ethWei : Nat
  wethWei : Nat
  usdcUnits : Nat
  bases : List (String × Nat)
  stables : List (String × Nat)
deriving DecidableEq, Repr

structure ReconstructionAgent where
  id : String
  address : String
  endowment : Option BalanceSnapshot
deriving DecidableEq, Repr

structure AgentValueSnapshot where
  id : String
  valueUsdc : Usdc
  shortfallChargedUsd : Option Usdc
deriving DecidableEq, Repr

/-- A cross-section of every agent's value at one block. -/
structure ValueSnapshot where
  fairPriceUsdcPerWeth : Usdc
  values : List AgentValueSnapshot
deriving DecidableEq, Repr

/-- The fields only the first boundary's line carries. -/
structure FirstBoundaryFields where
  v0SourceByAgent : List (String × V0Source)
  v0MeasuredByAgent : List (String × Option Usdc)
  v0EndowmentByAgent : List (String × Usdc)
deriving DecidableEq, Repr

structure LiveIntervalBoundary where
  index : Nat
  blockNumber : Int
  fairPriceUsdcPerWeth : Usdc
  values : List (String × Option Usdc)
  elapsedMs : Nat
  first : Option FirstBoundaryFields
deriving DecidableEq, Repr

abbrev MarketSeriesRow := String

inductive Event where
  | v0FloorSkipped (boundaryBlock runStartBlock : Int)
  | v0EndowmentGap (blockNumber : Int) (agents : List (String × Usdc))
  | boundary (line : LiveIntervalBoundary)
  | boundaryFailed (blockNumber : Int) (error : Failure)
deriving DecidableEq, Repr

def Event.type : Event → String
  | .v0FloorSkipped .. => "interval_v0_floor_skipped"
  | .v0EndowmentGap .. => "interval_v0_endowment_gap"
  | .boundary .. => "interval_boundary"
  | .boundaryFailed .. => "interval_boundary_failed"

/-- The run's files, as far as the scorer writes them. -/
structure Artifacts where
  events : List Event
  intervals : List LiveIntervalBoundary
  market : List MarketSeriesRow
deriving DecidableEq, Repr

structure Options where
  runStartBlock : Int
  endBlock : Option Int
  intervalBlocks : Int
  readLagBlocks : Int
  sampleMarket : Bool
  v0Rule : V0Rule
deriving DecidableEq, Repr

structure LiveScorer where
  agents : List ReconstructionAgent
  logger : Artifacts
  boundaries : List Int
  valuesByAgent : String → Option (List (Option Usdc))
  endBlock : Option Int
  lastAttempted : Option Int
  failures : Nat
  firstBoundaryByAgent : String → Option FirstBoundaryV0
  firstBoundaryBlock : Option Int
  lastShortfallCharge : String → Option Usdc

variable (options : Options)

def create (agents : List ReconstructionAgent) (logger : Artifacts) :
    LiveScorer where
  agents := agents
  logger := logger
  boundaries := []
  valuesByAgent id := if id ∈ agents.map (·.id) then some [] else none
  endBlock := options.endBlock
  lastAttempted := none
  failures := 0
  firstBoundaryByAgent _ := none
  firstBoundaryBlock := none
  lastShortfallCharge _ := none

def enabled : Prop := 1 ≤ options.intervalBlocks

instance : Decidable (enabled options) :=
  inferInstanceAs (Decidable (1 ≤ options.intervalBlocks))

/-- An agent registered late: null at the boundaries already recorded. -/
def addAgent (scorer : LiveScorer) (agent : ReconstructionAgent) :
    LiveScorer :=
  if (scorer.valuesByAgent agent.id).isSome then scorer
  else
    { scorer with
      agents := scorer.agents ++ [agent]
      valuesByAgent := Function.update scorer.valuesByAgent agent.id
          (some (scorer.boundaries.map fun _ => none)) }

/-- The next boundary to read, or none when the end has been read. -/
def pendingBoundary (scorer : LiveScorer) : Option Int :=
  match scorer.lastAttempted with
  | none =>
      match scorer.endBlock with
      | some last =>
          if options.runStartBlock > last then none
          else some options.runStartBlock
      | none => some options.runStartBlock
  | some attempted =>
      nextIntervalBoundary attempted options.intervalBlocks scorer.endBlock

/-! ## Scoring a boundary -/

/-- What every outside call of one attempt answers, when it is made. -/
structure Answers where
  markMedian : Except Failure (Option (List (String × Usdc)))
  gmxSync : Except Failure Unit
  lpSync : Except Failure Unit
  readValueSnapshot :
    Option (List (String × Usdc)) → Except Failure ValueSnapshot
  endowmentValueAt : BalanceSnapshot → ValueSnapshot → Except Failure Usdc
  floorSkippedEvent : Except Failure Unit
  gapEvent : Except Failure Unit
  intervalsAppend : Except Failure Unit
  boundaryEvent : Except Failure Unit
  sampleMarket : Except Failure (Option MarketSeriesRow)
  marketAppend : Except Failure Unit
  failedEvent : Except Failure Unit
  elapsedMs : Nat

abbrev Attempt (Value : Type) := Throwing Failure LiveScorer Value

variable (answers : Answers)

/-- Log an event, unless the logger throws. -/
def logEvent (written : Except Failure Unit) (event : Event) :
    Attempt Unit := do
  awaited written
  modify fun scorer =>
    { scorer with
      logger :=
        { scorer.logger with events := scorer.logger.events ++ [event] } }

/-- The awaited reads, in order, up to the cross-section. -/
def readSnapshot : Attempt ValueSnapshot := do
  let stablePricesOverride ← awaited answers.markMedian
  awaited answers.gmxSync
  awaited answers.lpSync
  awaited (answers.readValueSnapshot stablePricesOverride)

/-- The value the cross-section reports for an agent. -/
def measuredOf (snapshot : ValueSnapshot) (id : String) : Option Usdc :=
  (snapshot.values.reverse.find? (·.id = id)).map (·.valueUsdc)

/-- The last charge the cross-section reports for an agent, if not zero. -/
def shortfallOf (snapshot : ValueSnapshot) (id : String) : Option Usdc :=
  ((snapshot.values.filter fun value =>
      value.id = id ∧ value.shortfallChargedUsd.getD 0 ≠ 0).getLast?).bind
    (·.shortfallChargedUsd)

/-- Push the boundary and what it charged. -/
def openBoundary (blockNumber : Int) (snapshot : ValueSnapshot)
    (scorer : LiveScorer) : LiveScorer :=
  { scorer with
    boundaries := scorer.boundaries ++ [blockNumber]
    lastShortfallCharge := shortfallOf snapshot }

/-- Push an agent's value onto its series. -/
def pushValue (id : String) (value : Option Usdc) (scorer : LiveScorer) :
    LiveScorer :=
  { scorer with
    valuesByAgent := Function.update scorer.valuesByAgent id
        ((scorer.valuesByAgent id).map (· ++ [value])) }

def noteFirstBoundary (id : String) (v0 : FirstBoundaryV0)
    (scorer : LiveScorer) : LiveScorer :=
  { scorer with
    firstBoundaryByAgent :=
      Function.update scorer.firstBoundaryByAgent id (some v0) }

/-- What the loop over the agents gathers for the line and the warning. -/
structure Detail where
  values : List (String × Option Usdc)
  sources : List (String × V0Source)
  measured : List (String × Option Usdc)
  endowments : List (String × Usdc)
  gaps : List (String × Usdc)

def Detail.empty : Detail := ⟨[], [], [], [], []⟩

/-- The gap of an agent's V_0, when it is worth a warning. -/
def gapOf (v0 : FirstBoundaryV0) : Option Usdc :=
  match v0.measuredUsdc, v0.endowmentUsdc with
  | some measured, some endowment =>
      v0GapBeyondTolerance measured endowment
  | _, _ => none

def Detail.record (detail : Detail) (id : String) (v0 : FirstBoundaryV0) :
    Detail where
  values := detail.values ++ [(id, v0.valueUsdc)]
  sources := detail.sources ++ [(id, v0.source)]
  measured := detail.measured ++ [(id, v0.measuredUsdc)]
  endowments := detail.endowments ++ (v0.endowmentUsdc.map (id, ·)).toList
  gaps := detail.gaps ++ ((gapOf v0).map (id, ·)).toList

def Detail.fields (detail : Detail) : FirstBoundaryFields :=
  ⟨detail.sources, detail.measured, detail.endowments⟩

/-- The endowment at the boundary's marks, for an agent which has one. -/
def endowmentOf (snapshot : ValueSnapshot) (agent : ReconstructionAgent) :
    Except Failure (Option Usdc) :=
  match agent.endowment with
  | none => .ok none
  | some endowment =>
      (answers.endowmentValueAt endowment snapshot).map some

/-- Record one agent: floored at its endowment on the first boundary. -/
def recordAgent (snapshot : ValueSnapshot) (first : Bool)
    (detail : Detail) (agent : ReconstructionAgent) : Attempt Detail :=
  let measured := measuredOf snapshot agent.id
  match first with
  | true => do
      let endowment ← awaited (endowmentOf answers snapshot agent)
      let v0 := firstBoundaryV0 measured endowment options.v0Rule
      modify fun scorer =>
        pushValue agent.id v0.valueUsdc (noteFirstBoundary agent.id v0 scorer)
      pure (detail.record agent.id v0)
  | false => do
      modify (pushValue agent.id measured)
      pure { detail with values := detail.values ++ [(agent.id, measured)] }

/-- Say once that V_0 has no endowment floor under it. -/
def reportSkippedFloor (index : Nat) (blockNumber : Int) : Attempt Unit :=
  if index = 0 ∧ blockNumber ≠ options.runStartBlock then
    logEvent answers.floorSkippedEvent
      (.v0FloorSkipped blockNumber options.runStartBlock)
  else pure ()

/-- Note the block of the first boundary, and warn about its gaps. -/
def closeFirst (first : Bool) (blockNumber : Int) (detail : Detail) :
    Attempt Unit :=
  match first with
  | true => do
      modify fun scorer =>
        { scorer with firstBoundaryBlock := some blockNumber }
      if detail.gaps = [] then pure ()
      else
        logEvent answers.gapEvent (.v0EndowmentGap blockNumber detail.gaps)
  | false => pure ()

/-- Append the boundary's line and log it. -/
def writeLine (line : LiveIntervalBoundary) : Attempt Unit := do
  awaited answers.intervalsAppend
  modify fun scorer =>
    { scorer with
      logger := { scorer.logger with
          intervals := scorer.logger.intervals ++ [line] } }
  logEvent answers.boundaryEvent (.boundary line)

/-- Sample the venues' state, and append the row if there is one. -/
def writeMarket : Attempt Unit :=
  if options.sampleMarket then do
    let row ← awaited answers.sampleMarket
    match row with
    | none => pure ()
    | some row => do
        awaited answers.marketAppend
        modify fun scorer =>
          { scorer with
            logger :=
              { scorer.logger with market := scorer.logger.market ++ [row] } }
  else pure ()

/-- Everything after the reads: push the boundary, the values, the line. -/
def recordBoundary (blockNumber : Int) (snapshot : ValueSnapshot) :
    Attempt Unit := do
  let scorer ← get
  let index := scorer.boundaries.length
  modify (openBoundary blockNumber snapshot)
  let first := decide (index = 0 ∧ blockNumber = options.runStartBlock)
  reportSkippedFloor options answers index blockNumber
  let detail ← scorer.agents.foldlM (recordAgent options answers snapshot first)
      Detail.empty
  closeFirst answers first blockNumber detail
  writeLine answers
    { index := index
      blockNumber := blockNumber
      fairPriceUsdcPerWeth := snapshot.fairPriceUsdcPerWeth
      values := detail.values
      elapsedMs := answers.elapsedMs
      first := if first then some detail.fields else none }
  writeMarket options answers

/-- Score a boundary; a boundary which could not be read is counted. -/
def scoreBoundary (blockNumber : Int) : Attempt Unit :=
  tryCatch (do
      let snapshot ← readSnapshot answers
      recordBoundary options answers blockNumber snapshot)
    fun error => do
      modify fun scorer => { scorer with failures := scorer.failures + 1 }
      logEvent answers.failedEvent (.boundaryFailed blockNumber error)

structure LiveScorerSnapshot where
  lastAttempted : Option Int
  failures : Nat
  endBlock : Option Int
  firstBoundaryBlock : Option Int
  firstBoundaryByAgent : String → Option FirstBoundaryV0

def snapshot (scorer : LiveScorer) : LiveScorerSnapshot where
  lastAttempted := scorer.lastAttempted
  failures := scorer.failures
  endBlock := scorer.endBlock
  firstBoundaryBlock := scorer.firstBoundaryBlock
  firstBoundaryByAgent := scorer.firstBoundaryByAgent

/-- One boundary line read back: its block, and the values it names. -/
structure SavedBoundary where
  blockNumber : Int
  values : String → Option Usdc

def savedBoundary (line : LiveIntervalBoundary) : SavedBoundary where
  blockNumber := line.blockNumber
  values id := (line.values.reverse.find? (·.1 = id)).bind (·.2)

/-- The first adjacent pair of blocks which does not increase. -/
def outOfOrder : List Int → Option (Int × Int)
  | first :: second :: rest =>
      if second ≤ first then some (second, first)
      else outOfOrder (second :: rest)
  | _ => none

/-- The later of two ends, when both are known. -/
def laterEnd (saved current : Option Int) : Option Int :=
  match saved, current with
  | some saved, some current => some (max saved current)
  | saved, _ => saved

/-- Refuse a last boundary which the snapshot never attempted. -/
def neverAttempted (last lastAttempted : Option Int) : Option Failure :=
  match last, lastAttempted with
  | none, _ => none
  | some last, none =>
      some
        s!"interval boundary {last} is past the last one the snapshot attempted (null)"
  | some last, some attempted =>
      if last > attempted then
        some
          s!"interval boundary {last} is past the last one the snapshot attempted ({attempted})"
      else none

/-- Continue a series from its lines and the snapshot's bookkeeping. -/
def restore (saved : LiveScorerSnapshot) (boundaries : List SavedBoundary)
    (scorer : LiveScorer) : Except Failure LiveScorer :=
  let blocks := boundaries.map (·.blockNumber)
  match outOfOrder blocks with
  | some (second, first) =>
      .error s!"interval boundaries out of order at {second} (after {first})"
  | none =>
      match neverAttempted blocks.getLast? saved.lastAttempted with
      | some failure => .error failure
      | none =>
          .ok { scorer with
              boundaries := blocks
              valuesByAgent := fun id =>
                (scorer.valuesByAgent id).map fun _ =>
                  boundaries.map (·.values id)
              lastAttempted := saved.lastAttempted
              failures := saved.failures
              endBlock := laterEnd saved.endBlock scorer.endBlock
              firstBoundaryBlock := saved.firstBoundaryBlock
              firstBoundaryByAgent := saved.firstBoundaryByAgent }

end Eris.Scoring.LiveScoring
