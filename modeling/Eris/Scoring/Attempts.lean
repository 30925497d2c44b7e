import Eris.Scoring.LiveScoring

/-!
# What one attempt at a boundary does

Scoring a boundary ends in one of three ways.  Either a read threw, and only
the failure is counted; or everything succeeded, and the boundary and one
value per agent are recorded; or something threw after the reads, and the
boundary is recorded and counted as failed.  Which of them happens depends on
the answers of the outside calls alone.
-/

namespace Eris.Scoring.Attempts

open Foundation.Effect LiveScoring

variable (options : Options) (answers : Answers)
    (before : LiveScorer) (blockNumber : Int)

/-! ## The reads -/

def readOutcome : Except Failure ValueSnapshot := do
  let stablePricesOverride ← answers.markMedian
  answers.gmxSync
  answers.lpSync
  answers.readValueSnapshot stablePricesOverride

theorem exec_readSnapshot (scorer : LiveScorer) :
    exec (readSnapshot answers) scorer = (readOutcome answers, scorer) := by
  simp only [readSnapshot, readOutcome, exec_bind, exec_awaited]
  cases answers.markMedian with
  | error failure => rfl
  | ok override =>
      cases answers.gmxSync with
      | error failure => rfl
      | ok _ =>
          cases answers.lpSync with
          | error failure => rfl
          | ok _ => rfl

/-- The boundary is the run's first, with nothing recorded before it. -/
def First : Prop := before.boundaries = [] ∧ blockNumber = options.runStartBlock

/-- The gap of one agent's V_0, when its endowment can be valued. -/
def agentGaps (snapshot : ValueSnapshot) (agent : ReconstructionAgent) :
    List (String × Usdc) :=
  match endowmentOf answers snapshot agent with
  | .error _ => []
  | .ok endowment =>
      ((gapOf (firstBoundaryV0 (measuredOf snapshot agent.id) endowment
            options.v0Rule)).map
        (agent.id, ·)).toList

/-- The skipped floor is reported, when there is one to report. -/
def FloorReported : Prop :=
  before.boundaries = [] → blockNumber ≠ options.runStartBlock →
    answers.floorSkippedEvent = .ok ()

/-- On the first boundary, every endowment of these agents has a value. -/
def EndowmentsValued
    (snapshot : ValueSnapshot) (agents : List ReconstructionAgent) : Prop :=
  First options before blockNumber →
    ∀ agent ∈ agents, ∃ value, endowmentOf answers snapshot agent = .ok value

/-- On the first boundary, the gaps are reported if there are any. -/
def GapsReported (snapshot : ValueSnapshot) : Prop :=
  First options before blockNumber →
    before.agents.flatMap (agentGaps options answers snapshot) ≠ [] →
      answers.gapEvent = .ok ()

/-- The boundary's line is appended and logged. -/
def LineWritten : Prop :=
  answers.intervalsAppend = .ok () ∧ answers.boundaryEvent = .ok ()

/-- The venues are sampled, and the row appended if there is one. -/
def MarketWritten : Prop :=
  options.sampleMarket = true → ∃ row, answers.sampleMarket = .ok row ∧
      (row ≠ none → answers.marketAppend = .ok ())

/-- Every outside call after the reads that is made at all succeeds. -/
structure WritesSucceed (snapshot : ValueSnapshot) : Prop where
  floor : FloorReported options answers before blockNumber
  endowments : EndowmentsValued options answers before blockNumber snapshot
      before.agents
  gaps : GapsReported options answers before blockNumber snapshot
  line : LineWritten answers
  market : MarketWritten options answers

/-- The boundary is pushed; the bookkeeping of other methods is untouched. -/
structure Pushed (after : LiveScorer) : Prop where
  boundaries : after.boundaries = before.boundaries ++ [blockNumber]
  agents : after.agents = before.agents
  endBlock : after.endBlock = before.endBlock
  lastAttempted : after.lastAttempted = before.lastAttempted
  failures : after.failures = before.failures
  tracked :
    ∀ id, (after.valuesByAgent id).isSome = (before.valuesByAgent id).isSome
  intervals : after.logger.intervals = before.logger.intervals ∨
      ∃ line, line.blockNumber = blockNumber ∧
        after.logger.intervals = before.logger.intervals ++ [line]

/-- One more value on the series of some agents, the others as they were. -/
structure Extended (ids : List String) (after : LiveScorer) : Prop where
  kept : ∀ id, id ∉ ids → after.valuesByAgent id = before.valuesByAgent id
  grown : ∀ id ∈ ids, ∃ value,
      after.valuesByAgent id = (before.valuesByAgent id).map (· ++ [value])

variable {options answers before blockNumber}
    {middle after : LiveScorer} {snapshot : ValueSnapshot}
    {ids : List String} {first : Bool}

theorem Pushed.of_unwritten
    (pushed : Pushed before blockNumber middle)
    (boundaries : after.boundaries = middle.boundaries)
    (agents : after.agents = middle.agents)
    (endBlock : after.endBlock = middle.endBlock)
    (lastAttempted : after.lastAttempted = middle.lastAttempted)
    (failures : after.failures = middle.failures)
    (tracked :
      ∀ id, (after.valuesByAgent id).isSome = (middle.valuesByAgent id).isSome)
    (intervals : after.logger.intervals = middle.logger.intervals) :
    Pushed before blockNumber after where
  boundaries := boundaries.trans pushed.boundaries
  agents := agents.trans pushed.agents
  endBlock := endBlock.trans pushed.endBlock
  lastAttempted := lastAttempted.trans pushed.lastAttempted
  failures := failures.trans pushed.failures
  tracked id := (tracked id).trans (pushed.tracked id)
  intervals := by
    rw [intervals]
    exact pushed.intervals

theorem pushValue_tracked
    (id : String) (value : Option Usdc) (scorer : LiveScorer) (other : String) :
    ((pushValue id value scorer).valuesByAgent other).isSome =
      (scorer.valuesByAgent other).isSome := by
  simp only [pushValue]
  by_cases same : other = id
  · subst same
    rw [Function.update_self, Option.isSome_map]
  · rw [Function.update_of_ne same]

theorem Extended.of_unwritten
    (extended : Extended before ids middle)
    (values : after.valuesByAgent = middle.valuesByAgent) :
    Extended before ids after where
  kept := by
    intro id outside
    rw [values]
    exact extended.kept id outside
  grown := by
    intro id member
    rw [values]
    exact extended.grown id member

theorem Extended.push
    {id : String} {value : Option Usdc} (extended : Extended before ids middle)
    (fresh : id ∉ ids)
    (pushed : after.valuesByAgent = (pushValue id value middle).valuesByAgent) :
    Extended before (ids ++ [id]) after where
  kept := by
    intro other outside
    rw [List.mem_append, List.mem_singleton, not_or] at outside
    rw [pushed]
    simp only [pushValue]
    rw [Function.update_of_ne outside.2]
    exact extended.kept other outside.1
  grown := by
    intro other member
    rw [pushed]
    simp only [pushValue]
    by_cases same : other = id
    · subst same
      refine ⟨value, ?_⟩
      rw [Function.update_self, extended.kept other fresh]
    · rw [Function.update_of_ne same]
      refine extended.grown other ?_
      rcases List.mem_append.1 member with member | member
      · exact member
      · exact absurd (List.mem_singleton.1 member) same

/-- Before the line is written: these agents have their value pushed. -/
def Partway
    (before : LiveScorer) (blockNumber : Int) (ids : List String)
    (scorer : LiveScorer) : Prop :=
  Pushed before blockNumber scorer ∧ Extended before ids scorer ∧
    scorer.logger.intervals = before.logger.intervals

/-- Once the line is written: every agent has its value pushed. -/
structure Recorded
    (before : LiveScorer) (blockNumber : Int) (after : LiveScorer) :
    Prop where
  pushed : Pushed before blockNumber after
  extended : Extended before (before.agents.map (·.id)) after
  line : ∃ line, line.blockNumber = blockNumber ∧
      after.logger.intervals = before.logger.intervals ++ [line]

theorem Recorded.of_unwritten
    {before middle after : LiveScorer} {blockNumber : Int}
    (recorded : Recorded before blockNumber middle)
    (boundaries : after.boundaries = middle.boundaries)
    (values : after.valuesByAgent = middle.valuesByAgent)
    (agents : after.agents = middle.agents)
    (endBlock : after.endBlock = middle.endBlock)
    (lastAttempted : after.lastAttempted = middle.lastAttempted)
    (failures : after.failures = middle.failures)
    (intervals : after.logger.intervals = middle.logger.intervals) :
    Recorded before blockNumber after where
  pushed :=
    recorded.pushed.of_unwritten boundaries agents endBlock lastAttempted
      failures (fun _ => by rw [values]) intervals
  extended := recorded.extended.of_unwritten values
  line := by
    rw [intervals]
    exact recorded.line

theorem partway_opened
    (snapshot : ValueSnapshot) :
    Partway before blockNumber []
      (openBoundary blockNumber snapshot before) := by
  refine
    ⟨⟨rfl, rfl, rfl, rfl, rfl, fun _ => rfl, Or.inl rfl⟩,
      ⟨fun id _ => rfl, ?_⟩, rfl⟩
  intro id member
  cases member

theorem Partway.of_unwritten
    (partway : Partway before blockNumber ids middle)
    (boundaries : after.boundaries = middle.boundaries)
    (values : after.valuesByAgent = middle.valuesByAgent)
    (agents : after.agents = middle.agents)
    (endBlock : after.endBlock = middle.endBlock)
    (lastAttempted : after.lastAttempted = middle.lastAttempted)
    (failures : after.failures = middle.failures)
    (intervals : after.logger.intervals = middle.logger.intervals) :
    Partway before blockNumber ids after := by
  exact ⟨partway.1.of_unwritten boundaries agents endBlock lastAttempted
      failures (fun _ => by rw [values]) intervals,
    partway.2.1.of_unwritten values,
    intervals.trans partway.2.2⟩

theorem logEvent_partway
    (ids : List String) (written : Except Failure Unit) (event : Event) :
    Triple (Partway before blockNumber ids) (logEvent written event)
      (fun _ scorer =>
        written = .ok () ∧ Partway before blockNumber ids scorer)
      (fun scorer =>
        Pushed before blockNumber scorer ∧ written ≠ .ok ()) := by
  unfold logEvent
  refine triple_through (fun _ scorer =>
        written = .ok () ∧ Partway before blockNumber ids scorer)
      (triple_awaited ?_ ?_) ?_
  · rintro ⟨⟩ answered scorer partway
    exact ⟨answered, partway⟩
  · intro failure answered scorer partway
    refine ⟨partway.1, ?_⟩
    rw [answered]
    simp
  · rintro ⟨⟩
    refine triple_modify ?_
    rintro scorer ⟨answered, partway⟩
    exact ⟨answered, partway.of_unwritten rfl rfl rfl rfl rfl rfl rfl⟩

theorem reportSkippedFloor_partway :
    Triple (Partway before blockNumber [])
      (reportSkippedFloor options answers before.boundaries.length blockNumber)
      (fun _ scorer =>
        FloorReported options answers before blockNumber ∧
          Partway before blockNumber [] scorer)
      (fun scorer =>
        Pushed before blockNumber scorer ∧
          ¬ FloorReported options answers before blockNumber) := by
  unfold reportSkippedFloor
  split
  · next skipped =>
      have unread : before.boundaries = [] :=
        List.length_eq_zero_iff.1 skipped.1
      refine triple_consequence (logEvent_partway [] _ _)
        (fun _ holds => holds) ?_ ?_
      · rintro _ scorer ⟨answered, partway⟩
        exact ⟨fun _ _ => answered, partway⟩
      · rintro scorer ⟨pushed, failed⟩
        exact ⟨pushed, fun reported => failed (reported unread skipped.2)⟩
  · next unskipped =>
      refine triple_pure ?_
      intro scorer partway
      refine ⟨?_, partway⟩
      intro unread elsewhere
      exact absurd ⟨List.length_eq_zero_iff.2 unread, elsewhere⟩ unskipped

/-- What the loop over the agents keeps, after going through `done`. -/
def Recording
    (options : Options) (answers : Answers) (before : LiveScorer)
    (blockNumber : Int) (snapshot : ValueSnapshot)
    (done : List ReconstructionAgent) (detail : Detail)
    (scorer : LiveScorer) : Prop :=
  EndowmentsValued options answers before blockNumber snapshot done ∧
    (First options before blockNumber →
      detail.gaps = done.flatMap (agentGaps options answers snapshot)) ∧
    Partway before blockNumber (done.map (·.id)) scorer

theorem recordAgent_recording
    {done : List ReconstructionAgent} {agent : ReconstructionAgent}
    (fresh : agent.id ∉ done.map (·.id)) (listed : agent ∈ before.agents)
    (decides : first = true ↔ First options before blockNumber)
    (detail : Detail) :
    Triple (Recording options answers before blockNumber snapshot done detail)
      (recordAgent options answers snapshot first detail agent)
      (Recording options answers before blockNumber snapshot (done ++ [agent]))
      (fun scorer =>
        Pushed before blockNumber scorer ∧
          ¬ EndowmentsValued options answers before blockNumber snapshot
            before.agents) := by
  have extended : ∀ {scorer after : LiveScorer} {value : Option Usdc},
      Partway before blockNumber (done.map (·.id)) scorer →
        Pushed before blockNumber after → after.valuesByAgent =
              (pushValue agent.id value scorer).valuesByAgent →
            after.logger = scorer.logger →
              Partway before blockNumber ((done ++ [agent]).map (·.id))
                after := by
    intro scorer after value partway pushed values written
    rw [List.map_append]
    refine ⟨pushed, partway.2.1.push fresh values, ?_⟩
    rw [written]
    exact partway.2.2
  cases first with
  | false =>
      have notFirst : ¬ First options before blockNumber := by
        intro isFirst
        cases decides.2 isFirst
      unfold recordAgent
      refine triple_through (fun _ =>
            Partway before blockNumber ((done ++ [agent]).map (·.id)))
          (triple_modify ?_) fun _ => triple_pure ?_
      · rintro scorer ⟨-, -, partway⟩
        exact extended partway (partway.1.of_unwritten rfl rfl rfl rfl rfl
          (pushValue_tracked _ _ _) rfl) rfl rfl
      · intro scorer partway
        refine ⟨?_, ?_, partway⟩
        · intro isFirst
          exact absurd isFirst notFirst
        · intro isFirst
          exact absurd isFirst notFirst
  | true =>
      have isFirst : First options before blockNumber := decides.1 rfl
      unfold recordAgent
      refine triple_through (fun endowment scorer =>
            endowmentOf answers snapshot agent = .ok endowment ∧
              Recording options answers before blockNumber snapshot done
                detail scorer)
          (triple_awaited ?_ ?_) ?_
      · intro endowment answered scorer recording
        exact ⟨answered, recording⟩
      · rintro failure answered scorer ⟨-, -, partway⟩
        refine ⟨partway.1, ?_⟩
        intro valued
        rcases valued isFirst agent listed with ⟨value, answeredOk⟩
        rw [answered] at answeredOk
        cases answeredOk
      · intro endowment
        refine triple_given fun answered => ?_
        refine triple_through (fun _ scorer =>
              EndowmentsValued options answers before blockNumber snapshot
                  done ∧
                (First options before blockNumber → detail.gaps =
                    done.flatMap (agentGaps options answers snapshot)) ∧
                Partway before blockNumber ((done ++ [agent]).map (·.id))
                  scorer)
            (triple_modify ?_) fun _ => triple_pure ?_
        · rintro scorer ⟨valued, gaps, partway⟩
          exact ⟨valued, gaps, extended partway
              (partway.1.of_unwritten rfl rfl rfl rfl rfl
            (pushValue_tracked _ _ _) rfl) rfl rfl⟩
        · rintro scorer ⟨valued, gaps, partway⟩
          refine ⟨?_, ?_, partway⟩
          · intro _ other member
            rcases List.mem_append.1 member with member | member
            · exact valued isFirst other member
            · cases List.mem_singleton.1 member
              exact ⟨endowment, answered⟩
          · intro _
            rw [List.flatMap_append, List.flatMap_singleton]
            simp only [Detail.record, gaps isFirst, agentGaps, answered]

theorem recordAgents_recording
    (distinct : (before.agents.map (·.id)).Nodup)
    (decides : first = true ↔ First options before blockNumber) :
    Triple (Partway before blockNumber [])
      (before.agents.foldlM (recordAgent options answers snapshot first)
        Detail.empty)
      (Recording options answers before blockNumber snapshot before.agents)
      (fun scorer =>
        Pushed before blockNumber scorer ∧
          ¬ EndowmentsValued options answers before blockNumber snapshot
            before.agents) := by
  refine triple_consequence (triple_foldlM
      (Recording options answers before blockNumber snapshot)
      before.agents Detail.empty ?_)
    ?_ (fun _ _ holds => holds) (fun _ holds => holds)
  · intro done agent rest split detail
    refine recordAgent_recording ?_ ?_ decides detail
    · rw [split, List.map_append, List.map_cons] at distinct
      intro member
      exact (List.nodup_append.1 distinct).2.2 _ member _ List.mem_cons_self rfl
    · rw [split]
      exact List.mem_append_right _ List.mem_cons_self
  · intro scorer partway
    refine ⟨?_, fun _ => rfl, partway⟩
    intro _ agent member
    cases member

theorem closeFirst_partway
    {detail : Detail}
    (decides : first = true ↔ First options before blockNumber)
    (gaps : First options before blockNumber → detail.gaps =
        before.agents.flatMap (agentGaps options answers snapshot)) :
    Triple (Partway before blockNumber ids)
      (closeFirst answers first blockNumber detail)
      (fun _ scorer =>
        GapsReported options answers before blockNumber snapshot ∧
          Partway before blockNumber ids scorer)
      (fun scorer =>
        Pushed before blockNumber scorer ∧
          ¬ GapsReported options answers before blockNumber snapshot) := by
  cases first with
  | false =>
      refine triple_pure ?_
      intro scorer partway
      refine ⟨?_, partway⟩
      intro isFirst
      cases decides.2 isFirst
  | true =>
      have isFirst : First options before blockNumber := decides.1 rfl
      unfold closeFirst
      refine triple_through (fun _ => Partway before blockNumber ids)
          (triple_modify ?_) fun _ => ?_
      · intro scorer partway
        exact partway.of_unwritten rfl rfl rfl rfl rfl rfl rfl
      · split
        · next none =>
            refine triple_pure ?_
            intro scorer partway
            refine ⟨?_, partway⟩
            intro _ some
            rw [gaps isFirst] at none
            exact absurd none some
        · next some =>
            refine triple_consequence (logEvent_partway ids _ _)
              (fun _ holds => holds) ?_ ?_
            · rintro _ scorer ⟨answered, partway⟩
              exact ⟨fun _ _ => answered, partway⟩
            · rintro scorer ⟨pushed, failed⟩
              rw [gaps isFirst] at some
              exact ⟨pushed, fun reported => failed (reported isFirst some)⟩

theorem writeLine_recorded
    {line : LiveIntervalBoundary} (placed : line.blockNumber = blockNumber) :
    Triple (Partway before blockNumber (before.agents.map (·.id)))
      (writeLine answers line)
      (fun _ scorer =>
        LineWritten answers ∧ Recorded before blockNumber scorer)
      (fun scorer =>
        Pushed before blockNumber scorer ∧ ¬ LineWritten answers) := by
  unfold writeLine
  refine triple_through (fun _ scorer =>
        answers.intervalsAppend = .ok () ∧
          Partway before blockNumber (before.agents.map (·.id)) scorer)
      (triple_awaited ?_ ?_) fun _ =>
        triple_given fun appended =>
          triple_through (fun _ => Recorded before blockNumber)
            (triple_modify ?_) fun _ => ?_
  · rintro ⟨⟩ answered scorer partway
    exact ⟨answered, partway⟩
  · intro failure answered scorer partway
    refine ⟨partway.1, ?_⟩
    rintro ⟨appended, -⟩
    rw [answered] at appended
    cases appended
  · rintro scorer ⟨pushed, extended, unwritten⟩
    have appended : scorer.logger.intervals ++ [line] =
        before.logger.intervals ++ [line] := by
      rw [unwritten]
    exact ⟨⟨pushed.boundaries, pushed.agents, pushed.endBlock,
        pushed.lastAttempted, pushed.failures, pushed.tracked,
        Or.inr ⟨line, placed, appended⟩⟩,
      extended.of_unwritten rfl, line, placed, appended⟩
  · refine triple_through (fun _ scorer =>
          LineWritten answers ∧ Recorded before blockNumber scorer)
        (triple_awaited ?_ ?_) fun _ => triple_modify ?_
    · rintro ⟨⟩ answered scorer recorded
      exact ⟨⟨appended, answered⟩, recorded⟩
    · intro failure answered scorer recorded
      refine ⟨recorded.pushed, ?_⟩
      rintro ⟨-, logged⟩
      rw [answered] at logged
      cases logged
    · rintro scorer ⟨written, recorded⟩
      exact ⟨written, recorded.of_unwritten rfl rfl rfl rfl rfl rfl rfl⟩

theorem writeMarket_recorded :
    Triple (Recorded before blockNumber) (writeMarket options answers)
      (fun _ scorer =>
        MarketWritten options answers ∧ Recorded before blockNumber scorer)
      (fun scorer =>
        Pushed before blockNumber scorer ∧
          ¬ MarketWritten options answers) := by
  unfold writeMarket
  split
  · next samples =>
      refine triple_through (fun row scorer =>
            answers.sampleMarket = .ok row ∧ Recorded before blockNumber scorer)
          (triple_awaited ?_ ?_) fun row => triple_given fun sampled => ?_
      · intro row answered scorer recorded
        exact ⟨answered, recorded⟩
      · intro failure answered scorer recorded
        refine ⟨recorded.pushed, ?_⟩
        intro written
        rcases written samples with ⟨row, sampled, -⟩
        rw [answered] at sampled
        cases sampled
      · cases row with
        | none =>
            refine triple_pure ?_
            intro scorer recorded
            refine ⟨fun _ => ⟨none, sampled, ?_⟩, recorded⟩
            intro some
            exact absurd rfl some
        | some row =>
            refine triple_through (fun _ scorer =>
                  answers.marketAppend = .ok () ∧
                    Recorded before blockNumber scorer)
                (triple_awaited ?_ ?_) fun _ => triple_modify ?_
            · rintro ⟨⟩ answered scorer recorded
              exact ⟨answered, recorded⟩
            · intro failure answered scorer recorded
              refine ⟨recorded.pushed, ?_⟩
              intro written
              rcases written samples with ⟨other, resampled, appended⟩
              rw [sampled] at resampled
              cases resampled
              rw [answered] at appended
              cases appended (by simp)
            · rintro scorer ⟨appended, recorded⟩
              exact
                ⟨fun _ => ⟨some row, sampled, fun _ => appended⟩,
                  recorded.of_unwritten rfl rfl rfl rfl rfl rfl rfl⟩
  · next unsampled =>
      refine triple_pure ?_
      intro scorer recorded
      exact ⟨fun samples => absurd samples unsampled, recorded⟩

theorem recordBoundary_recorded
    (distinct : (before.agents.map (·.id)).Nodup) :
    Triple (· = before) (recordBoundary options answers blockNumber snapshot)
      (fun _ after =>
        WritesSucceed options answers before blockNumber snapshot ∧
          Recorded before blockNumber after)
      (fun after =>
        Pushed before blockNumber after ∧
          ¬ WritesSucceed options answers before blockNumber snapshot) := by
  unfold recordBoundary
  refine triple_through (fun scorer state => scorer = before ∧ state = before)
      (triple_get fun _ same => ⟨same, same⟩) fun scorer =>
        triple_given fun same => ?_
  subst same
  have decides : decide (scorer.boundaries.length = 0 ∧
          blockNumber = options.runStartBlock) = true ↔
      First options scorer blockNumber := by
    rw [decide_eq_true_iff, List.length_eq_zero_iff]
    exact Iff.rfl
  refine triple_through (fun _ => Partway scorer blockNumber [])
      (triple_modify ?_) fun _ => ?_
  · rintro state rfl
    exact partway_opened snapshot
  refine triple_bind (triple_thrown reportSkippedFloor_partway ?_) fun _ =>
        triple_given fun floor => ?_
  · rintro state ⟨pushed, failed⟩
    exact ⟨pushed, fun writes => failed writes.floor⟩
  refine triple_bind
    (triple_thrown (recordAgents_recording distinct decides) ?_)
    fun detail =>
        triple_given fun endowments => triple_given fun gathered => ?_
  · rintro state ⟨pushed, failed⟩
    exact ⟨pushed, fun writes => failed writes.endowments⟩
  refine triple_bind
    (triple_thrown (closeFirst_partway decides gathered) ?_) fun _ =>
        triple_given fun gaps => ?_
  · rintro state ⟨pushed, failed⟩
    exact ⟨pushed, fun writes => failed writes.gaps⟩
  refine triple_bind (triple_thrown (writeLine_recorded rfl) ?_) fun _ =>
      triple_given fun line => ?_
  · rintro state ⟨pushed, failed⟩
    exact ⟨pushed, fun writes => failed writes.line⟩
  refine triple_consequence writeMarket_recorded (fun _ recorded => recorded)
      ?_ ?_
  · rintro _ state ⟨market, recorded⟩
    exact ⟨⟨floor, endowments, gaps, line, market⟩, recorded⟩
  · rintro state ⟨pushed, failed⟩
    exact ⟨pushed, fun writes => failed writes.market⟩

/-! ## The whole attempt -/

variable (options answers before blockNumber)

/-- The scorer after an attempt at a boundary. -/
def attempted : LiveScorer :=
  (exec (scoreBoundary options answers blockNumber) before).2

variable {options answers before blockNumber}

/-- A failure is counted; nothing else of the scorer changes but its log. -/
structure Counted (middle after : LiveScorer) : Prop where
  failures : after.failures = middle.failures + 1
  boundaries : after.boundaries = middle.boundaries
  values : after.valuesByAgent = middle.valuesByAgent
  agents : after.agents = middle.agents
  endBlock : after.endBlock = middle.endBlock
  lastAttempted : after.lastAttempted = middle.lastAttempted
  intervals : after.logger.intervals = middle.logger.intervals

theorem counted_of_handled (failure : Failure) :
    Counted middle (exec (do
          modify fun scorer =>
            { scorer with failures := scorer.failures + 1 }
          logEvent answers.failedEvent (.boundaryFailed blockNumber failure)
          : Attempt Unit)
        middle).2 := by
  simp only [exec_bind, exec_modify, logEvent, exec_awaited]
  cases answers.failedEvent with
  | error _ => exact ⟨rfl, rfl, rfl, rfl, rfl, rfl, rfl⟩
  | ok _ => exact ⟨rfl, rfl, rfl, rfl, rfl, rfl, rfl⟩

theorem attempted_of_unread
    (options : Options) (before : LiveScorer) (blockNumber : Int)
    {failure : Failure} (unread : readOutcome answers = .error failure) :
    Counted before (attempted options answers before blockNumber) := by
  have handled : attempted options answers before blockNumber = (exec (do
            modify fun scorer =>
              { scorer with failures := scorer.failures + 1 }
            logEvent answers.failedEvent (.boundaryFailed blockNumber failure)
            : Attempt Unit)
          before).2 := by
    simp only [attempted, scoreBoundary, exec_tryCatch, exec_bind,
      exec_readSnapshot, unread]
  rw [handled]
  exact counted_of_handled failure

theorem attempted_of_read
    (options : Options) (blockNumber : Int)
    (distinct : (before.agents.map (·.id)).Nodup)
    (read : readOutcome answers = .ok snapshot) :
    (WritesSucceed options answers before blockNumber snapshot ∧
        Recorded before blockNumber
          (attempted options answers before blockNumber)) ∨
      (¬ WritesSucceed options answers before blockNumber snapshot ∧
        ∃ middle, Pushed before blockNumber middle ∧ Counted middle
            (attempted options answers before blockNumber)) := by
  have record : Triple (· = before)
      (recordBoundary options answers blockNumber snapshot)
      (fun _ after =>
          WritesSucceed options answers before blockNumber snapshot ∧
            Recorded before blockNumber after)
        (fun after =>
          Pushed before blockNumber after ∧
            ¬ WritesSucceed options answers before blockNumber snapshot) :=
    recordBoundary_recorded distinct
  have ending := record before rfl
  rcases run :
    exec (recordBoundary options answers blockNumber snapshot) before with
    ⟨failure | ⟨⟩, middle⟩
  · rw [run] at ending
    have handled : attempted options answers before blockNumber = (exec (do
              modify fun scorer =>
                { scorer with failures := scorer.failures + 1 }
              logEvent answers.failedEvent (.boundaryFailed blockNumber failure)
              : Attempt Unit)
            middle).2 := by
      simp only [attempted, scoreBoundary, exec_tryCatch, exec_bind,
        exec_readSnapshot, read, run]
    refine Or.inr ⟨ending.2, middle, ending.1, ?_⟩
    rw [handled]
    exact counted_of_handled failure
  · rw [run] at ending
    have done : attempted options answers before blockNumber = middle := by
      simp only [attempted, scoreBoundary, exec_tryCatch, exec_bind,
        exec_readSnapshot, read, run]
    refine Or.inl ⟨ending.1, ?_⟩
    rw [done]
    exact ending.2

/-- What no attempt changes, however it ends. -/
structure Tried
    (before : LiveScorer) (blockNumber : Int) (after : LiveScorer) :
    Prop where
  agents : after.agents = before.agents
  endBlock : after.endBlock = before.endBlock
  lastAttempted : after.lastAttempted = before.lastAttempted
  tracked :
    ∀ id, (after.valuesByAgent id).isSome = (before.valuesByAgent id).isSome
  intervals : after.logger.intervals = before.logger.intervals ∨
      ∃ line, line.blockNumber = blockNumber ∧
        after.logger.intervals = before.logger.intervals ++ [line]

theorem Pushed.tried (pushed : Pushed before blockNumber after) :
    Tried before blockNumber after :=
  ⟨pushed.agents, pushed.endBlock, pushed.lastAttempted, pushed.tracked,
    pushed.intervals⟩

theorem Tried.counted
    (tried : Tried before blockNumber middle) (counted : Counted middle after) :
    Tried before blockNumber after where
  agents := counted.agents.trans tried.agents
  endBlock := counted.endBlock.trans tried.endBlock
  lastAttempted := counted.lastAttempted.trans tried.lastAttempted
  tracked id := by
    rw [counted.values]
    exact tried.tracked id
  intervals := by
    rw [counted.intervals]
    exact tried.intervals

theorem attempted_tried
    (options : Options) (answers : Answers) (blockNumber : Int)
    (distinct : (before.agents.map (·.id)).Nodup) :
    Tried before blockNumber
      (attempted options answers before blockNumber) := by
  cases read : readOutcome answers with
  | error failure =>
      have unchanged : Tried before blockNumber before :=
        ⟨rfl, rfl, rfl, fun _ => rfl, Or.inl rfl⟩
      exact unchanged.counted (attempted_of_unread options before blockNumber read)
  | ok snapshot =>
      rcases attempted_of_read options blockNumber distinct read with
        ⟨-, recorded⟩ | ⟨-, middle, pushed, counted⟩
      · exact recorded.pushed.tried
      · exact pushed.tried.counted counted

end Eris.Scoring.Attempts
