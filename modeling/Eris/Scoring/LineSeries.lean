import Eris.Scoring.RunSeries

/-!
# The series and the lines agree

When an attempt either leaves nothing or appends its line, the series in
memory and the lines in `intervals.jsonl` tell the same story: the same
boundaries in increasing order, the same values up to what JSON keeps of them,
and the same account of how V_0 was derived.
-/

namespace Eris.Scoring.LineSeries

open Foundation.Transition Extent RunSeries
open LiveScoring (Options ReconstructionAgent LiveIntervalBoundary
  FirstBoundaryFields enabled)

variable {options : Options}
    {agents : List ReconstructionAgent} {scorer next : SeriesScorer}
    {blockNumber : ℤ} {taken : CrossSection} {first : Bool}

/-! ## What lines and scorer tell -/

/-- The fields of a line tell how an agent's V_0 was derived. -/
structure Told
    (scorer : SeriesScorer) (fields : FirstBoundaryFields) (id : String) :
    Prop where
  source : fields.v0SourceByAgent.lookup id =
      (scorer.firstBoundaryByAgent id).map (·.source)
  measured : (fields.v0MeasuredByAgent.lookup id).join =
      (scorer.firstBoundaryByAgent id).bind fun v0 => written v0.measuredUsdc
  endowment : fields.v0EndowmentByAgent.lookup id =
      (scorer.firstBoundaryByAgent id).bind (·.endowmentUsdc)

/-- The first line tells of V_0 what the scorer does. -/
structure Opened
    (options : Options) (scorer : SeriesScorer) (line : LiveIntervalBoundary) :
    Prop where
  floored : line.blockNumber = options.runStartBlock →
      scorer.firstBoundaryBlock = some line.blockNumber ∧
        ∃ fields, line.first = some fields ∧ ∀ id, Told scorer fields id
  unfloored :
    line.blockNumber ≠ options.runStartBlock → scorer.firstBoundaryBlock = none

/-- The series in memory and the lines tell the same story. -/
structure Kept (options : Options) (scorer : SeriesScorer) : Prop where
  distinct : (scorer.agents.map (·.id)).Nodup
  listed :
    ∀ id, (scorer.valuesByAgent id).isSome ↔ id ∈ scorer.agents.map (·.id)
  blocks : scorer.boundaries = scorer.intervals.map (·.blockNumber)
  increasing : scorer.boundaries.Pairwise (· < ·)
  reached : ∀ block ∈ scorer.boundaries, ∃ last,
      scorer.lastAttempted = some last ∧ block ≤ last
  values : ∀ id series, scorer.valuesByAgent id = some series →
      series.map written = scorer.intervals.map (lineValue id)
  unnamed : ∀ id, id ∉ scorer.agents.map (·.id) →
      ∀ line ∈ scorer.intervals, line.values.lookup id = none
  opened : ∀ line ∈ scorer.intervals.head?, Opened options scorer line
  fresh : scorer.intervals = [] → scorer.firstBoundaryBlock = none ∧
      ∀ id, scorer.firstBoundaryByAgent id = none

theorem kept_create
    (options : Options) (distinct : (agents.map (·.id)).Nodup) :
    Kept options (create options agents) where
  distinct := distinct
  listed id := by
    simp only [create]
    split <;> simp_all
  blocks := rfl
  increasing := List.Pairwise.nil
  reached block member := by cases member
  values id series found := by
    simp only [create] at found ⊢
    split at found
    · cases found
      rfl
    · cases found
  unnamed id _ line member := by cases member
  opened line member := by cases member
  fresh _ := ⟨rfl, fun _ => rfl⟩

theorem Kept.of_same
    (kept : Kept options scorer) (agents : next.agents = scorer.agents)
    (boundaries : next.boundaries = scorer.boundaries)
    (values : next.valuesByAgent = scorer.valuesByAgent)
    (reached : ∀ block ∈ scorer.boundaries, ∃ last,
        next.lastAttempted = some last ∧ block ≤ last)
    (firstBoundaryByAgent :
      next.firstBoundaryByAgent = scorer.firstBoundaryByAgent)
    (firstBoundaryBlock : next.firstBoundaryBlock = scorer.firstBoundaryBlock)
    (intervals : next.intervals = scorer.intervals) :
    Kept options next where
  distinct := by
    rw [agents]
    exact kept.distinct
  listed id := by
    rw [values, agents]
    exact kept.listed id
  blocks := by
    rw [boundaries, intervals]
    exact kept.blocks
  increasing := by
    rw [boundaries]
    exact kept.increasing
  reached := by
    rw [boundaries]
    exact reached
  values id series found := by
    rw [values] at found
    rw [intervals]
    exact kept.values id series found
  unnamed id unlisted := by
    rw [agents] at unlisted
    rw [intervals]
    exact kept.unnamed id unlisted
  opened line member := by
    rw [intervals] at member
    rcases kept.opened line member with ⟨floored, unfloored⟩
    constructor
    · intro start
      rcases floored start with ⟨noted, fields, written, told⟩
      refine ⟨firstBoundaryBlock.trans noted, fields, written, ?_⟩
      intro id
      rcases told id with ⟨source, measured, endowment⟩
      constructor
      · rw [firstBoundaryByAgent]
        exact source
      · rw [firstBoundaryByAgent]
        exact measured
      · rw [firstBoundaryByAgent]
        exact endowment
    · intro elsewhere
      exact firstBoundaryBlock.trans (unfloored elsewhere)
  fresh none := by
    rw [intervals] at none
    rw [firstBoundaryBlock, firstBoundaryByAgent]
    exact kept.fresh none

theorem Kept.addAgent
    (kept : Kept options scorer) (agent : ReconstructionAgent) :
    Kept options (addAgent scorer agent) := by
  unfold RunSeries.addAgent
  split
  · exact kept
  · next absent =>
      rw [kept.listed] at absent
      refine
        { distinct := ?_
          listed := ?_
          blocks := kept.blocks
          increasing := kept.increasing
          reached := kept.reached
          values := ?_
          unnamed := ?_
          opened := ?_
          fresh := kept.fresh }
      · rw [List.map_append, List.nodup_append]
        refine ⟨kept.distinct, by simp, ?_⟩
        intro id member other added same
        rw [List.map_singleton, List.mem_singleton] at added
        rw [same, added] at member
        exact absent member
      · intro id
        rw [List.map_append, List.mem_append, List.map_singleton,
          List.mem_singleton]
        dsimp only
        by_cases same : id = agent.id
        · subst same
          simp
        · rw [Function.update_of_ne same, kept.listed]
          simp [same]
      · intro id series found
        dsimp only at found
        by_cases same : id = agent.id
        · subst same
          rw [Function.update_self] at found
          cases found
          have unnamed := kept.unnamed agent.id absent
          rw [kept.blocks, List.map_map, List.map_map]
          apply List.map_congr_left
          intro line member
          simp [lineValue, unnamed line member, written]
        · rw [Function.update_of_ne same] at found
          exact kept.values id series found
      · intro id unlisted
        apply kept.unnamed id
        intro member
        apply unlisted
        rw [List.map_append]
        exact List.mem_append_left _ member
      · intro line member
        rcases kept.opened line member with ⟨floored, unfloored⟩
        constructor
        · intro start
          rcases floored start with ⟨noted, fields, written, told⟩
          refine ⟨noted, fields, written, ?_⟩
          intro id
          exact ⟨(told id).source, (told id).measured, (told id).endowment⟩
        · exact unfloored

/-! ## The step which appends a line -/

theorem Kept.lt_pending
    (kept : Kept options scorer) (scores : enabled options)
    (pending : pendingBoundary options scorer = some blockNumber)
    {block : ℤ} (read : block ∈ scorer.boundaries) :
    block < blockNumber := by
  rcases kept.reached block read with ⟨last, known, bounded⟩
  rw [pendingBoundary, known] at pending
  exact bounded.trans_lt (nextIntervalBoundary_lt scores pending)

theorem Kept.started
    (kept : Kept options scorer) (scores : enabled options)
    (pending : pendingBoundary options scorer = some blockNumber) :
    Kept options (started scorer blockNumber) :=
  kept.of_same rfl rfl rfl
    (fun _ read => ⟨blockNumber, rfl, (kept.lt_pending scores pending read).le⟩)
    rfl rfl rfl

theorem isFirst_iff :
    isFirst options scorer blockNumber = true ↔
      scorer.boundaries = [] ∧ blockNumber = options.runStartBlock := by
  simp [isFirst, List.isEmpty_iff]

/-- The scorer after an attempt which appended its line. -/
def appended
    (options : Options) (scorer : SeriesScorer) (blockNumber : ℤ)
    (taken : CrossSection) (failedAfter : Bool) :
    SeriesScorer :=
  scoreBoundary options scorer blockNumber (.appended taken failedAfter)

/-- What the step adds to everything the lines are compared with. -/
structure Grown
    (options : Options) (scorer : SeriesScorer) (blockNumber : ℤ)
    (taken : CrossSection) (first : Bool) (after : SeriesScorer) :
    Prop where
  agents : after.agents = scorer.agents
  boundaries : after.boundaries = scorer.boundaries ++ [blockNumber]
  lastAttempted : after.lastAttempted = scorer.lastAttempted
  values : ∀ id, after.valuesByAgent id = match (scorer.agents.map fun agent =>
            (agent.id, valueOf options taken first agent)).lookup id
        with
        | none => scorer.valuesByAgent id
        | some value => (scorer.valuesByAgent id).map (· ++ [value])
  firstBoundaryBlock : after.firstBoundaryBlock =
      if first then some blockNumber else scorer.firstBoundaryBlock
  firstBoundaryByAgent : ∀ id, after.firstBoundaryByAgent id = if first then
          ((scorer.agents.map fun agent =>
              (agent.id, v0Of options taken agent)).lookup id).or
            (scorer.firstBoundaryByAgent id)
        else
          scorer.firstBoundaryByAgent id
  intervals : after.intervals = scorer.intervals ++
      [lineOf options taken first scorer.boundaries.length blockNumber
        scorer.agents]

theorem foldl_recordAgent_unfirst
    (agents : List ReconstructionAgent) (scorer : SeriesScorer) :
    (agents.foldl (recordAgent options taken false)
        scorer).firstBoundaryByAgent =
      scorer.firstBoundaryByAgent := by
  induction agents generalizing scorer with
  | nil => rfl
  | cons agent agents ih =>
      rw [List.foldl_cons, ih]
      rfl

theorem grown_appended
    (distinct : (scorer.agents.map (·.id)).Nodup) (failedAfter : Bool) :
    Grown options scorer blockNumber taken (isFirst options scorer blockNumber)
      (appended options scorer blockNumber taken failedAfter) := by
  have recorded (first : Bool) :=
    @foldl_recordAgent_recorded options taken first scorer.agents
      { scorer with boundaries := scorer.boundaries ++ [blockNumber] }
  have values (first : Bool) :=
    @foldl_recordAgent_values options taken first scorer.agents distinct
      { scorer with boundaries := scorer.boundaries ++ [blockNumber] }
  unfold appended scoreBoundary
  cases isFirst options scorer blockNumber with
  | false =>
      constructor
      · exact (recorded false).agents
      · exact (recorded false).boundaries
      · exact (recorded false).lastAttempted
      · exact values false
      · exact (recorded false).firstBoundaryBlock
      · intro id
        exact congrFun (foldl_recordAgent_unfirst scorer.agents _) id
      · exact congrArg (· ++ [_]) (recorded false).intervals
  | true =>
      constructor
      · exact (recorded true).agents
      · exact (recorded true).boundaries
      · exact (recorded true).lastAttempted
      · exact values true
      · rfl
      · intro id
        exact foldl_recordAgent_first distinct _ id
      · exact congrArg (· ++ [_]) (recorded true).intervals

theorem lineValue_lineOf
    (index : ℕ) (id : String) :
    (lineOf options taken first index blockNumber agents).values.lookup id =
      ((agents.map fun agent =>
          (agent.id, valueOf options taken first agent)).lookup id).map
        written := by
  induction agents with
  | nil => rfl
  | cons agent agents ih =>
      simp only [lineOf, List.map_cons, List.lookup_cons] at ih ⊢
      by_cases same : id = agent.id
      · subst same
        simp
      · rw [beq_eq_false_iff_ne.2 same]
        exact ih

theorem lookup_map
    {Value Other : Type} (value : ReconstructionAgent → Value)
    (change : Value → Other) (id : String) :
    (agents.map fun agent => (agent.id, change (value agent))).lookup id =
      ((agents.map fun agent => (agent.id, value agent)).lookup id).map
        change := by
  induction agents with
  | nil => rfl
  | cons agent agents ih =>
      simp only [List.map_cons, List.lookup_cons]
      cases id == agent.id with
      | true => rfl
      | false => exact ih

theorem told_of_first
    (distinct : (agents.map (·.id)).Nodup)
    (account : ∀ id, next.firstBoundaryByAgent id = (agents.map fun agent =>
            (agent.id, v0Of options taken agent)).lookup id)
    (id : String) :
    Told next (firstFields options taken agents) id := by
  constructor
  · rw [account]
    exact @lookup_map agents _ _ (v0Of options taken) (·.source) id
  · rw [account]
    have measured := @lookup_map agents _ _ (v0Of options taken)
        (fun v0 => written v0.measuredUsdc) id
    simp only [firstFields]
    rw [measured]
    cases (agents.map fun agent =>
        (agent.id, v0Of options taken agent)).lookup id <;> rfl
  · rw [account]
    have endowment :=
      @lookup_map agents _ _ (v0Of options taken) (·.endowmentUsdc) id
    simp only [firstFields]
    rw [lookup_filterMap _ distinct, endowment]
    cases (agents.map fun agent =>
        (agent.id, v0Of options taken agent)).lookup id <;> rfl

theorem Kept.appended
    (kept : Kept options scorer)
    (past : ∀ block ∈ scorer.boundaries, block < blockNumber)
    (attempted : scorer.lastAttempted = some blockNumber) (failedAfter : Bool) :
    Kept options (appended options scorer blockNumber taken failedAfter) := by
  have grown :=
    @grown_appended options scorer blockNumber taken kept.distinct failedAfter
  have first := @isFirst_iff options scorer blockNumber
  revert grown first
  generalize isFirst options scorer blockNumber = first
  generalize LineSeries.appended options scorer blockNumber taken failedAfter =
    after
  intro grown isFirst
  have unread : scorer.boundaries = [] ↔ scorer.intervals = [] := by
    rw [kept.blocks, List.map_eq_nil_iff]
  refine
    { distinct := ?_
      listed := ?_
      blocks := ?_
      increasing := ?_
      reached := ?_
      values := ?_
      unnamed := ?_
      opened := ?_
      fresh := ?_ }
  · rw [grown.agents]
    exact kept.distinct
  · intro id
    rw [grown.agents, grown.values, ← kept.listed id]
    split
    · exact Iff.rfl
    · rw [Option.isSome_map]
  · rw [grown.boundaries, grown.intervals, List.map_append, ← kept.blocks]
    rfl
  · rw [grown.boundaries, List.pairwise_append]
    refine ⟨kept.increasing, List.pairwise_singleton _ _, ?_⟩
    intro block member other added
    rw [List.mem_singleton] at added
    rw [added]
    exact past block member
  · intro block member
    refine ⟨blockNumber, grown.lastAttempted.trans attempted, ?_⟩
    rw [grown.boundaries, List.mem_append] at member
    rcases member with member | member
    · exact (past block member).le
    · exact (List.mem_singleton.1 member).le
  · intro id series found
    have tracked : id ∈ scorer.agents.map (·.id) := by
      rw [← kept.listed id]
      rw [grown.values] at found
      split at found
      · rw [found]
        rfl
      · rcases Option.map_eq_some_iff.1 found with ⟨earlier, known, -⟩
        rw [known]
        rfl
    rcases List.mem_map.1 tracked with ⟨agent, listed, rfl⟩
    have value :=
      lookup_of_mem (valueOf options taken first) kept.distinct listed
    rw [grown.values, value] at found
    rcases Option.map_eq_some_iff.1 found with ⟨earlier, known, rfl⟩
    rw [grown.intervals, List.map_append, List.map_append,
      kept.values _ earlier known]
    simp only [List.map_singleton, lineValue, lineValue_lineOf, value,
      Option.map_some, Option.join_some]
  · intro id unlisted line member
    rw [grown.agents] at unlisted
    rw [grown.intervals, List.mem_append, List.mem_singleton] at member
    rcases member with member | rfl
    · exact kept.unnamed id unlisted line member
    · rw [lineValue_lineOf, lookup_of_not_mem _ unlisted]
      rfl
  · intro line member
    rw [grown.intervals] at member
    cases earlier : scorer.intervals with
    | nil =>
        rw [earlier, List.nil_append, List.head?_cons,
          Option.mem_some_iff] at member
        subst member
        have fresh := kept.fresh earlier
        constructor
        · intro start
          have opens : first = true := isFirst.2 ⟨unread.2 earlier, start⟩
          subst opens
          refine
            ⟨grown.firstBoundaryBlock, firstFields options taken scorer.agents,
              rfl, ?_⟩
          apply told_of_first kept.distinct
          intro id
          rw [grown.firstBoundaryByAgent, if_pos rfl, fresh.2 id,
            Option.or_none]
        · intro elsewhere
          have opens : first = false := by
            rw [Bool.eq_false_iff]
            intro opens
            exact elsewhere (isFirst.1 opens).2
          subst opens
          exact grown.firstBoundaryBlock.trans fresh.1
    | cons head rest =>
        have opens : first = false := by
          rw [Bool.eq_false_iff]
          intro opens
          have none := unread.1 (isFirst.1 opens).1
          rw [earlier] at none
          cases none
        subst opens
        rw [earlier, List.cons_append, List.head?_cons,
          Option.mem_some_iff] at member
        subst member
        have opened := kept.opened head (by rw [earlier]; rfl)
        constructor
        · intro start
          rcases opened.floored start with ⟨noted, fields, written, told⟩
          refine ⟨grown.firstBoundaryBlock.trans noted, fields, written, ?_⟩
          intro id
          have account : after.firstBoundaryByAgent id =
              scorer.firstBoundaryByAgent id :=
            grown.firstBoundaryByAgent id
          constructor
          · rw [account]
            exact (told id).source
          · rw [account]
            exact (told id).measured
          · rw [account]
            exact (told id).endowment
        · intro elsewhere
          exact grown.firstBoundaryBlock.trans (opened.unfloored elsewhere)
  · intro none
    rw [grown.intervals] at none
    simp at none

theorem Kept.step
    {label : Label}
    (kept : Kept options scorer) (allowed : OnlyReadsFail scorer label)
    (step : Step options scorer label next) :
    Kept options next := by
  cases step with
  | addAgent agent => exact kept.addAgent agent
  | close finalBlock =>
      exact kept.of_same rfl rfl rfl kept.reached rfl rfl rfl
  | @attempt ending blockNumber scores pending =>
      have started := kept.started scores pending
      cases ending with
      | unread =>
          exact started.of_same rfl rfl rfl started.reached rfl rfl rfl
      | interrupted taken recorded => exact allowed.elim
      | appended taken failedAfter =>
          apply started.appended
          · intro block read
            exact kept.lt_pending scores pending read
          · rfl

theorem kept_of_reachable
    (reachable : (runs options).Reachable OnlyReadsFail scorer) :
    Kept options scorer := by
  apply reachable.invariant
  · rintro start ⟨agents, distinct, rfl⟩
    exact kept_create options distinct
  · intro before label after kept allowed step
    exact kept.step allowed step

end Eris.Scoring.LineSeries
