import Eris.Foundation.Transition
import Eris.Scoring.LiveScoring

/-!
# The series of a run and its lines

`core/src/realtime/liveScoring.ts`, what an attempt at a boundary leaves in
the series in memory and in `intervals.jsonl`.  A value may be null, finite,
or a number which is not finite; JSON writes the last one as null.

An attempt whose read threw leaves nothing.  One which threw later leaves the
boundary and the values of some agents, and no line.  Which calls throw is
described in `LiveScoring`; here only where an attempt stopped matters.
-/

namespace Eris.Scoring.RunSeries

open Foundation.Transition Extent LiveScoring

/-! ## Numbers -/

/-- A number: finite, or one of NaN and the infinities. -/
inductive Figure where
  | finite (amount : Usdc)
  | notFinite
  deriving DecidableEq

/-- The number itself, when it is finite. -/
def Figure.amount : Figure → Option Usdc
  | .finite amount => some amount
  | .notFinite => none

/-- A value of a series; null where the cross-section did not report one. -/
abbrev Reading := Option Figure

/-- What JSON keeps of a value: null unless it is finite. -/
def written (reading : Reading) : Option Usdc := reading.bind Figure.amount

structure FirstBoundaryV0 where
  valueUsdc : Reading
  source : V0Source
  measuredUsdc : Reading
  endowmentUsdc : Option Usdc
  deriving DecidableEq

/-- V_0 for one agent: its endowment, as a floor or pinned. -/
def firstBoundaryV0
    (measuredUsdc : Reading) (endowmentUsdc : Option Figure) (rule : V0Rule) :
    FirstBoundaryV0 :=
  match written endowmentUsdc with
  | none => ⟨measuredUsdc, .measured, measuredUsdc, none⟩
  | some endowment =>
      match written measuredUsdc with
      | some measured =>
          if rule = .floor ∧ measured > endowment then
            ⟨some (.finite measured), .measured, some (.finite measured),
              some endowment⟩
          else
            ⟨some (.finite endowment), .endowment, some (.finite measured),
              some endowment⟩
      | none =>
          ⟨some (.finite endowment), .endowment, none, some endowment⟩

/-- The agents' values at a block, and endowments at its marks. -/
structure CrossSection where
  fairPriceUsdcPerWeth : Usdc
  values : List (String × Figure)
  endowmentValueAt : BalanceSnapshot → Figure
  elapsedMs : ℕ

/-- The scorer's series and the lines it has appended. -/
structure SeriesScorer where
  agents : List ReconstructionAgent
  boundaries : List ℤ
  valuesByAgent : String → Option (List Reading)
  endBlock : Option ℤ
  lastAttempted : Option ℤ
  failures : ℕ
  firstBoundaryByAgent : String → Option FirstBoundaryV0
  firstBoundaryBlock : Option ℤ
  intervals : List LiveIntervalBoundary

/-- Where an attempt at a boundary ended. -/
inductive Ending where
  | unread
  | interrupted (taken : CrossSection) (recorded : ℕ)
  | appended (taken : CrossSection) (failedAfter : Bool)

variable (options : Options)

def create (agents : List ReconstructionAgent) : SeriesScorer where
  agents := agents
  boundaries := []
  valuesByAgent id := if id ∈ agents.map (·.id) then some [] else none
  endBlock := options.endBlock
  lastAttempted := none
  failures := 0
  firstBoundaryByAgent _ := none
  firstBoundaryBlock := none
  intervals := []

/-- An agent registered late: null at the boundaries already recorded. -/
def addAgent (scorer : SeriesScorer) (agent : ReconstructionAgent) :
    SeriesScorer :=
  if (scorer.valuesByAgent agent.id).isSome then
    scorer
  else
    { scorer with
      agents := scorer.agents ++ [agent]
      valuesByAgent := Function.update scorer.valuesByAgent agent.id
          (some (scorer.boundaries.map fun _ => none)) }

/-- The next boundary to read, or none when the end has been read. -/
def pendingBoundary (scorer : SeriesScorer) : Option ℤ :=
  match scorer.lastAttempted with
  | none =>
      match scorer.endBlock with
      | some last =>
          if options.runStartBlock > last then
            none
          else
            some options.runStartBlock
      | none => some options.runStartBlock
  | some attempted =>
      nextIntervalBoundary attempted options.intervalBlocks scorer.endBlock

/-- The run is over: learn its end, or move it earlier. -/
def closeAt (finalBlock : ℤ) (scorer : SeriesScorer) : SeriesScorer :=
  { scorer with
    endBlock := match scorer.endBlock with
      | none => some finalBlock
      | some last =>
          if finalBlock < last then some finalBlock else some last }

variable (taken : CrossSection) (first : Bool)

/-- The value the cross-section reports for an agent. -/
def measuredOf (id : String) : Reading := taken.values.reverse.lookup id

def v0Of (agent : ReconstructionAgent) : FirstBoundaryV0 :=
  firstBoundaryV0 (measuredOf taken agent.id)
    (agent.endowment.map taken.endowmentValueAt) options.v0Rule

/-- The value of an agent at a boundary, V_0 on the first one. -/
def valueOf (agent : ReconstructionAgent) : Reading :=
  if first then
    (v0Of options taken agent).valueUsdc
  else
    measuredOf taken agent.id

/-- Push an agent's value onto its series. -/
def recordAgent (scorer : SeriesScorer) (agent : ReconstructionAgent) :
    SeriesScorer :=
  { scorer with
    valuesByAgent := Function.update scorer.valuesByAgent agent.id
        ((scorer.valuesByAgent agent.id).map
          (· ++ [valueOf options taken first agent]))
    firstBoundaryByAgent := if first then
        Function.update scorer.firstBoundaryByAgent agent.id
          (some (v0Of options taken agent))
      else
        scorer.firstBoundaryByAgent }

/-- Push the boundary, and the values of these agents. -/
def recordAgents
    (blockNumber : ℤ) (agents : List ReconstructionAgent)
    (scorer : SeriesScorer) :
    SeriesScorer :=
  agents.foldl (recordAgent options taken first)
    { scorer with boundaries := scorer.boundaries ++ [blockNumber] }

/-- Note the block of the first boundary. -/
def closeFirst (blockNumber : ℤ) (scorer : SeriesScorer) : SeriesScorer :=
  if first then
    { scorer with firstBoundaryBlock := some blockNumber }
  else
    scorer

/-- The fields only the first boundary's line carries. -/
def firstFields (agents : List ReconstructionAgent) : FirstBoundaryFields where
  v0SourceByAgent :=
    agents.map fun agent => (agent.id, (v0Of options taken agent).source)
  v0MeasuredByAgent := agents.map fun agent =>
      (agent.id, written (v0Of options taken agent).measuredUsdc)
  v0EndowmentByAgent := agents.filterMap fun agent =>
      (v0Of options taken agent).endowmentUsdc.map (agent.id, ·)

def lineOf
    (index : ℕ) (blockNumber : ℤ) (agents : List ReconstructionAgent) :
    LiveIntervalBoundary where
  index := index
  blockNumber := blockNumber
  fairPriceUsdcPerWeth := taken.fairPriceUsdcPerWeth
  values := agents.map fun agent =>
      (agent.id, written (valueOf options taken first agent))
  elapsedMs := taken.elapsedMs
  first := if first then some (firstFields options taken agents) else none

/-- The boundary is the run's first block, with none recorded before it. -/
def isFirst (scorer : SeriesScorer) (blockNumber : ℤ) : Bool :=
  scorer.boundaries.isEmpty && blockNumber = options.runStartBlock

/-- What an attempt at a boundary leaves. -/
def scoreBoundary (scorer : SeriesScorer) (blockNumber : ℤ) :
    Ending → SeriesScorer
  | .unread => { scorer with failures := scorer.failures + 1 }
  | .interrupted taken recorded =>
      let first := isFirst options scorer blockNumber
      let after := recordAgents options taken first blockNumber
          (scorer.agents.take recorded) scorer
      if recorded < scorer.agents.length then
        { after with failures := after.failures + 1 }
      else
        { closeFirst first blockNumber after with
          failures := after.failures + 1 }
  | .appended taken failedAfter =>
      let first := isFirst options scorer blockNumber
      let after := closeFirst first blockNumber
          (recordAgents options taken first blockNumber scorer.agents scorer)
      { after with
        intervals := after.intervals ++
            [lineOf options taken first scorer.boundaries.length blockNumber
              scorer.agents]
        failures := if failedAfter then after.failures + 1 else after.failures }

/-! ## Runs -/

inductive Label where
  | addAgent (agent : ReconstructionAgent)
  | attempt (ending : Ending)
  | close (finalBlock : ℤ)

/-- The scorer once `lastAttempted` names the boundary it is about to read. -/
def started (scorer : SeriesScorer) (blockNumber : ℤ) : SeriesScorer :=
  { scorer with lastAttempted := some blockNumber }

inductive Step : SeriesScorer → Label → SeriesScorer → Prop where
  | addAgent (scorer : SeriesScorer) (agent : ReconstructionAgent) :
      Step scorer (.addAgent agent) (addAgent scorer agent)
  | attempt (scorer : SeriesScorer) (ending : Ending) {blockNumber : ℤ}
      (scores : enabled options)
      (pending : pendingBoundary options scorer = some blockNumber) :
      Step scorer (.attempt ending)
        (scoreBoundary options (started scorer blockNumber) blockNumber ending)
  | close (scorer : SeriesScorer) (finalBlock : ℤ) :
      Step scorer (.close finalBlock) (closeAt finalBlock scorer)

/-- A run starts with a fresh scorer over a roster of distinct ids. -/
def Initial (scorer : SeriesScorer) : Prop :=
  ∃ agents : List ReconstructionAgent,
    (agents.map (·.id)).Nodup ∧ scorer = create options agents

def runs : System SeriesScorer Label where
  initial := Initial options
  step := Step options

/-- Once its reads are done, an attempt appends its line. -/
def OnlyReadsFail (_ : SeriesScorer) : Label → Prop
  | .attempt (.interrupted ..) => False
  | _ => True

/-- Perform a step, when the scorer can make it. -/
def perform (scorer : SeriesScorer) : Label → Option SeriesScorer
  | .addAgent agent => some (addAgent scorer agent)
  | .attempt ending =>
      if enabled options then
        (pendingBoundary options scorer).map fun blockNumber =>
          scoreBoundary options (started scorer blockNumber) blockNumber ending
      else
        none
  | .close finalBlock => some (closeAt finalBlock scorer)

theorem perform_step
    {scorer next : SeriesScorer} {label : Label}
    (performed : perform options scorer label = some next) :
    Step options scorer label next := by
  cases label with
  | addAgent agent =>
      cases performed
      exact .addAgent scorer agent
  | attempt ending =>
      simp only [perform] at performed
      split at performed
      · next scores =>
          rcases Option.map_eq_some_iff.1 performed with
            ⟨blockNumber, pending, rfl⟩
          exact .attempt scorer ending scores pending
      · cases performed
  | close finalBlock =>
      cases performed
      exact .close scorer finalBlock

instance (scorer : SeriesScorer) (label : Label) :
    Decidable (OnlyReadsFail scorer label) :=
  match label with
  | .attempt (.interrupted ..) => .isFalse id
  | .attempt .unread => .isTrue trivial
  | .attempt (.appended ..) => .isTrue trivial
  | .addAgent _ => .isTrue trivial
  | .close _ => .isTrue trivial

/-- Perform labels in order, as long as only reads fail. -/
def scripted (labels : List Label) (agents : List ReconstructionAgent) :
    Option SeriesScorer :=
  script (fun scorer label => (perform options scorer label).map (label, ·))
    OnlyReadsFail labels (create options agents)

/-- The scorer at the end of a script, or the fresh one. -/
def played (labels : List Label) (agents : List ReconstructionAgent) :
    SeriesScorer :=
  (scripted options labels agents).getD (create options agents)

theorem reachable_played
    (labels : List Label) {agents : List ReconstructionAgent}
    (distinct : (agents.map (·.id)).Nodup) :
    (runs options).Reachable OnlyReadsFail (played options labels agents) := by
  refine ⟨create options agents, ⟨agents, distinct, rfl⟩, ?_⟩
  unfold played
  cases ran : scripted options labels agents with
  | none => exact Relation.ReflTransGen.refl
  | some scorer =>
      exact performed_runs (fun _ _ _ => perform_step options) ran

variable {options} {taken first}
    {agents : List ReconstructionAgent} {scorer next : SeriesScorer}
    {blockNumber : ℤ}

/-- The value a line gives an agent; null when it does not name it. -/
def lineValue (id : String) (line : LiveIntervalBoundary) : Option Usdc :=
  (line.values.lookup id).join

theorem lookup_of_mem
    {Value : Type} (value : ReconstructionAgent → Value)
    (distinct : (agents.map (·.id)).Nodup)
    {agent : ReconstructionAgent} (listed : agent ∈ agents) :
    (agents.map fun agent => (agent.id, value agent)).lookup agent.id =
      some (value agent) := by
  induction agents with
  | nil => cases listed
  | cons other agents ih =>
      rw [List.map_cons, List.nodup_cons] at distinct
      rcases List.mem_cons.1 listed with rfl | listed
      · simp
      · have different : agent.id ≠ other.id := by
          intro same
          exact distinct.1 (same ▸ List.mem_map_of_mem (f := (·.id)) listed)
        simp only [List.map_cons, List.lookup_cons]
        rw [beq_eq_false_iff_ne.2 different]
        exact ih distinct.2 listed

theorem lookup_of_not_mem
    {Value : Type} (value : ReconstructionAgent → Value)
    {id : String} (unlisted : id ∉ agents.map (·.id)) :
    (agents.map fun agent => (agent.id, value agent)).lookup id = none := by
  induction agents with
  | nil => rfl
  | cons agent agents ih =>
      rw [List.map_cons, List.mem_cons, not_or] at unlisted
      simp only [List.map_cons, List.lookup_cons]
      rw [beq_eq_false_iff_ne.2 unlisted.1]
      exact ih unlisted.2

theorem lookup_filterMap
    {Value : Type} (value : ReconstructionAgent → Option Value)
    (distinct : (agents.map (·.id)).Nodup) (id : String) :
    (agents.filterMap fun agent =>
        (value agent).map (agent.id, ·)).lookup id =
      ((agents.map fun agent => (agent.id, value agent)).lookup id).join := by
  induction agents with
  | nil => rfl
  | cons agent agents ih =>
      rw [List.map_cons, List.nodup_cons] at distinct
      specialize ih distinct.2
      simp only [List.map_cons, List.lookup_cons]
      by_cases same : id = agent.id
      · subst same
        cases valued : value agent with
        | none =>
            simp only [List.filterMap_cons, valued, Option.map_none,
              beq_self_eq_true, Option.join_some]
            rw [ih, lookup_of_not_mem value distinct.1]
            rfl
        | some _ => simp [valued]
      · rw [beq_eq_false_iff_ne.2 same]
        cases valued : value agent with
        | none =>
            simpa [List.filterMap_cons, valued] using ih
        | some _ =>
            simp only [List.filterMap_cons, valued, Option.map_some,
              List.lookup_cons]
            rw [beq_eq_false_iff_ne.2 same]
            exact ih

theorem foldl_recordAgent_values
    (distinct : (agents.map (·.id)).Nodup) (scorer : SeriesScorer)
    (id : String) :
    (agents.foldl (recordAgent options taken first) scorer).valuesByAgent id =
      match (agents.map fun agent =>
          (agent.id, valueOf options taken first agent)).lookup id
      with
      | none => scorer.valuesByAgent id
      | some value => (scorer.valuesByAgent id).map (· ++ [value]) := by
  induction agents generalizing scorer with
  | nil => rfl
  | cons agent agents ih =>
      rw [List.map_cons, List.nodup_cons] at distinct
      rw [List.foldl_cons, ih distinct.2]
      simp only [List.map_cons, List.lookup_cons]
      by_cases same : id = agent.id
      · subst same
        rw [lookup_of_not_mem _ distinct.1, beq_self_eq_true]
        simp [recordAgent]
      · rw [beq_eq_false_iff_ne.2 same]
        simp [recordAgent, Function.update_of_ne same]

theorem foldl_recordAgent_first
    (distinct : (agents.map (·.id)).Nodup) (scorer : SeriesScorer)
    (id : String) :
    (agents.foldl (recordAgent options taken true)
        scorer).firstBoundaryByAgent id =
      ((agents.map fun agent =>
          (agent.id, v0Of options taken agent)).lookup id).or
        (scorer.firstBoundaryByAgent id) := by
  induction agents generalizing scorer with
  | nil => rfl
  | cons agent agents ih =>
      rw [List.map_cons, List.nodup_cons] at distinct
      rw [List.foldl_cons, ih distinct.2]
      simp only [List.map_cons, List.lookup_cons]
      by_cases same : id = agent.id
      · subst same
        rw [lookup_of_not_mem _ distinct.1, beq_self_eq_true]
        simp [recordAgent]
      · rw [beq_eq_false_iff_ne.2 same]
        simp [recordAgent, Function.update_of_ne same]

/-- What recording agents does not touch. -/
structure Recorded (before after : SeriesScorer) : Prop where
  agents : after.agents = before.agents
  boundaries : after.boundaries = before.boundaries
  lastAttempted : after.lastAttempted = before.lastAttempted
  firstBoundaryBlock : after.firstBoundaryBlock = before.firstBoundaryBlock
  intervals : after.intervals = before.intervals

theorem foldl_recordAgent_recorded
    (agents : List ReconstructionAgent) (scorer : SeriesScorer) :
    Recorded scorer
      (agents.foldl (recordAgent options taken first) scorer) := by
  induction agents generalizing scorer with
  | nil => exact ⟨rfl, rfl, rfl, rfl, rfl⟩
  | cons agent agents ih =>
      have rest := ih (recordAgent options taken first scorer agent)
      exact ⟨rest.agents, rest.boundaries, rest.lastAttempted,
        rest.firstBoundaryBlock, rest.intervals⟩

end Eris.Scoring.RunSeries
