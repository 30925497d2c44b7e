import Eris.Foundation.Transition
import Eris.Scoring.Attempts

/-!
# Scoring sessions

A session is a scorer together with the call it is serving and a history of
its attempts.  Its steps are the calls of the coordinator, the rounds of the
reading loop which a call starts, and a restart which restores a fresh scorer
from the snapshot and the lines of the one before it.  Agents may register
between any two steps.
-/

namespace Eris.Scoring.Protocol

open Foundation.Effect Foundation.Transition Extent LiveScoring Attempts

/-- One attempt: its block, and the scorer before and after it. -/
structure Attempted where
  blockNumber : Int
  before : LiveScorer
  after : LiveScorer

/-- A `readThrough` in progress: how far it reads, and whether for `close`. -/
structure Reading where
  through : Int
  closing : Bool

structure Session where
  scorer : LiveScorer
  reading : Option Reading
  closed : Bool
  history : List Attempted

inductive Label where
  | addAgent (agent : ReconstructionAgent)
  | onBlock (head : Int)
  | close (finalBlock : Int)
  | attempt (answers : Answers)
  | settle
  | resume (agents : List ReconstructionAgent)

def Distinct (agents : List ReconstructionAgent) : Prop :=
  (agents.map (·.id)).Nodup

/-- `close` learns the end of the run, or moves it earlier. -/
def closeAt (finalBlock : Int) (scorer : LiveScorer) : LiveScorer :=
  { scorer with
    endBlock := match scorer.endBlock with
      | none => some finalBlock
      | some last => if finalBlock < last then some finalBlock else some last }

/-- The scorer once `lastAttempted` names the boundary it is about to read. -/
def started (scorer : LiveScorer) (blockNumber : Int) : LiveScorer :=
  { scorer with lastAttempted := some blockNumber }

instance (agents : List ReconstructionAgent) : Decidable (Distinct agents) :=
  inferInstanceAs (Decidable (agents.map (·.id)).Nodup)

variable (options : Options)

/-- The scorer of a restarted coordinator, before it is restored. -/
def recreated
    (agents : List ReconstructionAgent) (scorer : LiveScorer) : LiveScorer :=
  create options agents scorer.logger

/-- Restore a restarted scorer from what the one before it left behind. -/
def resumed
    (agents : List ReconstructionAgent) (scorer : LiveScorer) :
    Except Failure LiveScorer :=
  restore (snapshot scorer) (scorer.logger.intervals.map savedBoundary)
    (recreated options agents scorer)

/-- An attempt made; when even its failure could not be logged, it throws. -/
def attempting
    (session : Session) (reading : Reading) (answers : Answers)
    (blockNumber : Int) : Session where
  scorer := attempted options answers (started session.scorer blockNumber)
      blockNumber
  reading := match (exec (scoreBoundary options answers blockNumber)
        (started session.scorer blockNumber)).1
    with
    | .ok _ => some reading
    | .error _ => none
  closed := session.closed
  history := session.history ++
      [⟨blockNumber, started session.scorer blockNumber,
        attempted options answers (started session.scorer blockNumber)
          blockNumber⟩]

def settled (session : Session) (reading : Reading) : Session :=
  { session with
    reading := none
    closed := session.closed || reading.closing }

/-- A restarted coordinator goes on with this scorer. -/
def resuming (session : Session) (scorer : LiveScorer) : Session :=
  { session with scorer := scorer, reading := none, closed := false }

inductive Step : Session → Label → Session → Prop where
  | addAgent (session : Session) (agent : ReconstructionAgent) :
      Step session (.addAgent agent)
        { session with scorer := addAgent session.scorer agent }
  | onBlock (session : Session) (head : Int) (scores : enabled options)
      (idle : session.reading = none) :
      Step session (.onBlock head) { session with
          reading := some ⟨head - options.readLagBlocks, false⟩ }
  | onBlockDisabled (session : Session) (head : Int)
      (disabled : ¬ enabled options) :
      Step session (.onBlock head) session
  | close (session : Session) (finalBlock : Int) (scores : enabled options)
      (idle : session.reading = none) :
      Step session (.close finalBlock) { session with
          scorer := closeAt finalBlock session.scorer
          reading := some ⟨finalBlock, true⟩ }
  | closeDisabled (session : Session) (finalBlock : Int)
      (disabled : ¬ enabled options) :
      Step session (.close finalBlock) { session with closed := true }
  | attempt (session : Session) (answers : Answers)
      {reading : Reading} {blockNumber : Int}
      (serving : session.reading = some reading)
      (pending : pendingBoundary options session.scorer = some blockNumber)
      (due : blockNumber ≤ reading.through) :
      Step session (.attempt answers)
        (attempting options session reading answers blockNumber)
  | settle (session : Session) {reading : Reading}
      (serving : session.reading = some reading)
      (through : ∀ blockNumber,
          pendingBoundary options session.scorer = some blockNumber →
            reading.through < blockNumber) :
      Step session .settle (settled session reading)
  | resume (session : Session) (agents : List ReconstructionAgent)
      {scorer : LiveScorer}
      (distinct : Distinct agents)
      (restored : resumed options agents session.scorer = .ok scorer) :
      Step session (.resume agents) (resuming session scorer)

/-- Sessions start with a fresh scorer over a roster of distinct ids. -/
def Initial (session : Session) : Prop :=
  ∃ agents, Distinct agents ∧ session =
      { scorer := create options agents ⟨[], [], []⟩
        reading := none
        closed := false
        history := [] }

def protocol : System Session Label where
  initial := Initial options
  step := Step options

/-- Perform a step, when the session can make it. -/
def perform (session : Session) : Label → Option Session
  | .addAgent agent =>
      some { session with scorer := addAgent session.scorer agent }
  | .onBlock head =>
      if enabled options then
        match session.reading with
        | none =>
            some { session with
                reading := some ⟨head - options.readLagBlocks, false⟩ }
        | some _ => none
      else some session
  | .close finalBlock =>
      if enabled options then
        match session.reading with
        | none =>
            some { session with
                scorer := closeAt finalBlock session.scorer
                reading := some ⟨finalBlock, true⟩ }
        | some _ => none
      else some { session with closed := true }
  | .attempt answers =>
      match session.reading, pendingBoundary options session.scorer with
      | some reading, some blockNumber =>
          if blockNumber ≤ reading.through then
            some (attempting options session reading answers blockNumber)
          else none
      | _, _ => none
  | .settle =>
      match session.reading, pendingBoundary options session.scorer with
      | some reading, some blockNumber =>
          if reading.through < blockNumber then
            some (settled session reading)
          else none
      | some reading, none => some (settled session reading)
      | none, _ => none
  | .resume agents =>
      if Distinct agents then
        match resumed options agents session.scorer with
        | .ok scorer => some (resuming session scorer)
        | .error _ => none
      else none

variable {options} {session next : Session} {label : Label}
    {agents : List ReconstructionAgent} {scorer : LiveScorer}
    {allowed : Session → Label → Prop}

theorem perform_step
    (performed : perform options session label = some next) :
    Step options session label next := by
  cases label with
  | addAgent agent =>
      cases performed
      exact .addAgent session agent
  | onBlock head =>
      simp only [perform] at performed
      split at performed
      · next scores =>
          split at performed
          · next idle =>
              cases performed
              exact .onBlock session head scores idle
          · cases performed
      · next disabled =>
          cases performed
          exact .onBlockDisabled session head disabled
  | close finalBlock =>
      simp only [perform] at performed
      split at performed
      · next scores =>
          split at performed
          · next idle =>
              cases performed
              exact .close session finalBlock scores idle
          · cases performed
      · next disabled =>
          cases performed
          exact .closeDisabled session finalBlock disabled
  | attempt answers =>
      simp only [perform] at performed
      split at performed
      · next serving pending =>
          split at performed
          · next due =>
              cases performed
              exact .attempt session answers serving pending due
          · cases performed
      · cases performed
  | settle =>
      simp only [perform] at performed
      split at performed
      · next serving pending =>
          split at performed
          · next past =>
              cases performed
              refine .settle session serving ?_
              intro blockNumber due
              rw [pending] at due
              cases due
              exact past
          · cases performed
      · next serving none =>
          cases performed
          refine .settle session serving ?_
          intro blockNumber due
          rw [none] at due
          cases due
      · cases performed
  | resume agents =>
      simp only [perform] at performed
      split at performed
      · next distinct =>
          split at performed
          · next restored =>
              cases performed
              exact .resume session agents distinct restored
          · cases performed
      · cases performed

theorem exists_perform
    {reading : Reading}
    (serving : session.reading = some reading) (answers : Answers) :
    (perform options session (.attempt answers)).isSome ∨
      (perform options session .settle).isSome := by
  simp only [perform, serving]
  cases pendingBoundary options session.scorer with
  | none => exact Or.inr rfl
  | some blockNumber =>
      by_cases due : blockNumber ≤ reading.through
      · exact Or.inl (by simp [due])
      · exact Or.inr (by simp [not_le.1 due])

/-- Every agent of the roster has a series, and nobody else has one. -/
structure Rostered (scorer : LiveScorer) : Prop where
  distinct : Distinct scorer.agents
  listed :
    ∀ id, (scorer.valuesByAgent id).isSome ↔ id ∈ scorer.agents.map (·.id)

theorem rostered_create
    (options : Options) (logger : Artifacts) (distinct : Distinct agents) :
    Rostered (create options agents logger) where
  distinct := distinct
  listed := by
    intro id
    simp only [create]
    split <;> simp_all

theorem Rostered.addAgent
    (rostered : Rostered scorer) (agent : ReconstructionAgent) :
    Rostered (addAgent scorer agent) := by
  unfold LiveScoring.addAgent
  split
  · exact rostered
  · next absent =>
      rw [rostered.listed] at absent
      refine ⟨?_, ?_⟩
      · unfold Distinct
        rw [List.map_append, List.nodup_append]
        refine ⟨rostered.distinct, by simp, ?_⟩
        intro id member other added same
        rw [List.map_singleton, List.mem_singleton] at added
        rw [same, added] at member
        exact absent member
      · intro id
        rw [List.map_append, List.mem_append, List.map_singleton,
          List.mem_singleton]
        dsimp only
        by_cases same : id = agent.id
        · subst same
          simp
        · rw [Function.update_of_ne same, rostered.listed]
          simp [same]

theorem Rostered.tried
    {before after : LiveScorer} {blockNumber : Int} (rostered : Rostered before)
    (tried : Tried before blockNumber after) :
    Rostered after where
  distinct := by
    rw [tried.agents]
    exact rostered.distinct
  listed := by
    intro id
    rw [tried.tracked, tried.agents]
    exact rostered.listed id

theorem outOfOrder_eq_none
    {blocks : List Int} (increasing : blocks.Pairwise (· < ·)) :
    outOfOrder blocks = none := by
  fun_induction outOfOrder blocks with
  | case1 first second rest late =>
      have early : first < second :=
        (List.pairwise_cons.1 increasing).1 second List.mem_cons_self
      omega
  | case2 first second rest _ ih =>
      exact ih (List.pairwise_cons.1 increasing).2
  | case3 => rfl

/-- The scorer which a successful restore leaves. -/
def restoredFrom
    (saved : LiveScorerSnapshot) (boundaries : List SavedBoundary)
    (scorer : LiveScorer) : LiveScorer :=
  { scorer with
    boundaries := boundaries.map (·.blockNumber)
    valuesByAgent := fun id =>
      (scorer.valuesByAgent id).map fun _ => boundaries.map (·.values id)
    lastAttempted := saved.lastAttempted
    failures := saved.failures
    endBlock := laterEnd saved.endBlock scorer.endBlock
    firstBoundaryBlock := saved.firstBoundaryBlock
    firstBoundaryByAgent := saved.firstBoundaryByAgent }

theorem restore_eq_ok
    {saved : LiveScorerSnapshot} {boundaries : List SavedBoundary}
    {result : LiveScorer}
    (restored : restore saved boundaries scorer = .ok result) :
    result = restoredFrom saved boundaries scorer := by
  unfold restore at restored
  simp only at restored
  split at restored
  · cases restored
  · split at restored
    · cases restored
    · cases restored
      rfl

theorem restore_ok
    {saved : LiveScorerSnapshot} {boundaries : List SavedBoundary}
    (scorer : LiveScorer)
    (increasing : (boundaries.map (·.blockNumber)).Pairwise (· < ·))
    (reached : ∀ boundary ∈ boundaries, ∃ last,
        saved.lastAttempted = some last ∧ boundary.blockNumber ≤ last) :
    restore saved boundaries scorer =
      .ok (restoredFrom saved boundaries scorer) := by
  have attempted : neverAttempted (boundaries.map (·.blockNumber)).getLast?
      saved.lastAttempted = none := by
    cases final : (boundaries.map (·.blockNumber)).getLast? with
    | none => rfl
    | some block =>
        have member := List.mem_of_getLast? final
        rcases List.mem_map.1 member with ⟨boundary, listed, rfl⟩
        rcases reached boundary listed with ⟨last, known, bounded⟩
        rw [known]
        simp only [neverAttempted]
        rw [if_neg (by omega)]
  unfold restore
  simp only [outOfOrder_eq_none increasing, attempted]
  rfl

/-- The boundaries a session has attempted, in order. -/
def attemptedBlocks (session : Session) : List Int :=
  session.history.map (·.blockNumber)

/-- The blocks of the boundary lines written so far. -/
def writtenBlocks (scorer : LiveScorer) : List Int :=
  scorer.logger.intervals.map (·.blockNumber)

theorem attemptedBlocks_attempting
    (reading : Reading) (answers : Answers) (blockNumber : Int) :
    attemptedBlocks (attempting options session reading answers blockNumber) =
      attemptedBlocks session ++ [blockNumber] := by
  unfold attemptedBlocks attempting
  rw [List.map_append, List.map_singleton]

structure Orderly (options : Options) (session : Session) : Prop where
  rostered : Rostered session.scorer
  serving : session.reading ≠ none → enabled options
  increasing : (attemptedBlocks session).Pairwise (· < ·)
  reached : ∀ block ∈ attemptedBlocks session, ∃ last,
      session.scorer.lastAttempted = some last ∧ block ≤ last
  written : (writtenBlocks session.scorer).Sublist (attemptedBlocks session)

theorem pendingBoundary_gt
    {last blockNumber : Int} (scores : enabled options)
    (attempted : scorer.lastAttempted = some last)
    (pending : pendingBoundary options scorer = some blockNumber) :
    last < blockNumber := by
  unfold pendingBoundary at pending
  rw [attempted] at pending
  exact nextIntervalBoundary_lt scores pending

theorem restored_lines (scorer : LiveScorer) :
    ((scorer.logger.intervals.map savedBoundary).map (·.blockNumber)) =
      writtenBlocks scorer := by
  rw [List.map_map]
  rfl

theorem orderly_of_initial (initial : Initial options session) :
    Orderly options session := by
  rcases initial with ⟨agents, distinct, rfl⟩
  refine ⟨rostered_create options _ distinct, ?_, List.Pairwise.nil, ?_, ?_⟩
  · intro serving
    exact absurd rfl serving
  · intro block member
    cases member
  · exact List.Sublist.slnil

theorem Orderly.step
    (orderly : Orderly options session)
    (step : Step options session label next) :
    Orderly options next := by
  cases step with
  | addAgent agent =>
      have kept : (addAgent session.scorer agent).lastAttempted =
            session.scorer.lastAttempted ∧
          (addAgent session.scorer agent).logger = session.scorer.logger := by
        unfold LiveScoring.addAgent
        split <;> exact ⟨rfl, rfl⟩
      refine ⟨orderly.rostered.addAgent agent, orderly.serving,
        orderly.increasing, ?_, ?_⟩
      · rw [kept.1]
        exact orderly.reached
      · unfold writtenBlocks
        rw [kept.2]
        exact orderly.written
  | onBlock head scores idle =>
      exact
        ⟨orderly.rostered, fun _ => scores, orderly.increasing,
          orderly.reached, orderly.written⟩
  | onBlockDisabled head disabled => exact orderly
  | close finalBlock scores idle =>
      exact ⟨⟨orderly.rostered.distinct, orderly.rostered.listed⟩,
        fun _ => scores, orderly.increasing, orderly.reached,
        orderly.written⟩
  | closeDisabled finalBlock disabled =>
      exact ⟨orderly.rostered, orderly.serving, orderly.increasing,
        orderly.reached, orderly.written⟩
  | @attempt answers reading blockNumber serving pending due =>
      have scores : enabled options := by
        refine orderly.serving ?_
        rw [serving]
        exact Option.some_ne_none _
      have rostered : Rostered (started session.scorer blockNumber) :=
        ⟨orderly.rostered.distinct, orderly.rostered.listed⟩
      have tried :=
        attempted_tried options answers blockNumber rostered.distinct
      refine ⟨rostered.tried tried, fun _ => scores, ?_, ?_, ?_⟩
      · rw [attemptedBlocks_attempting, List.pairwise_append]
        refine ⟨orderly.increasing, List.pairwise_singleton _ _, ?_⟩
        intro block member other added
        rw [List.mem_singleton] at added
        subst added
        rcases orderly.reached block member with ⟨last, known, bounded⟩
        exact bounded.trans_lt (pendingBoundary_gt scores known pending)
      · intro block member
        refine ⟨blockNumber, tried.lastAttempted, ?_⟩
        rw [attemptedBlocks_attempting, List.mem_append] at member
        rcases member with member | member
        · rcases orderly.reached block member with ⟨last, known, bounded⟩
          exact bounded.trans (pendingBoundary_gt scores known pending).le
        · exact (List.mem_singleton.1 member).le
      · rw [attemptedBlocks_attempting]
        unfold writtenBlocks attempting
        rcases tried.intervals with same | ⟨line, placed, added⟩
        · rw [same]
          exact orderly.written.trans (List.sublist_append_left _ _)
        · rw [added, List.map_append, List.map_singleton, placed]
          exact List.Sublist.append_right orderly.written _
  | @settle reading serving through =>
      refine ⟨orderly.rostered, ?_, orderly.increasing, orderly.reached,
        orderly.written⟩
      intro stillServing
      exact absurd rfl stillServing
  | @resume agents scorer distinct restored =>
      have restoredAs := restore_eq_ok restored
      subst restoredAs
      have created := rostered_create options session.scorer.logger distinct
      refine ⟨⟨distinct, ?_⟩, ?_, orderly.increasing, orderly.reached,
        orderly.written⟩
      · intro id
        simp only [resuming, restoredFrom, Option.isSome_map]
        exact created.listed id
      · intro serving
        exact absurd rfl serving

theorem orderly_of_reachable
    (reachable : (protocol options).Reachable allowed session) :
    Orderly options session :=
  reachable.invariant (fun _ => orderly_of_initial)
    fun _ _ _ orderly _ step => orderly.step step

theorem Orderly.resumes
    (orderly : Orderly options session) (agents : List ReconstructionAgent) :
    resumed options agents session.scorer = .ok
        (restoredFrom (snapshot session.scorer)
          (session.scorer.logger.intervals.map savedBoundary)
          (recreated options agents session.scorer)) := by
  refine restore_ok _ ?_ ?_
  · rw [restored_lines]
    exact orderly.increasing.sublist orderly.written
  · intro boundary member
    refine orderly.reached _ (orderly.written.subset ?_)
    rw [← restored_lines]
    exact List.mem_map_of_mem member

/-- A session which has not been called yet. -/
def fresh (options : Options) (agents : List ReconstructionAgent) :
    Session where
  scorer := create options agents ⟨[], [], []⟩
  reading := none
  closed := false
  history := []

/-- Perform labels in order, as long as each can be and is allowed. -/
def scripted
    (options : Options) (allowed : Session → Label → Prop)
    [∀ session label, Decidable (allowed session label)]
    (labels : List Label) (agents : List ReconstructionAgent) :
    Option Session :=
  script (fun session label => (perform options session label).map (label, ·))
    allowed labels (fresh options agents)

theorem reachable_of_scripted
    [∀ session label, Decidable (allowed session label)] {labels : List Label}
    (distinct : Distinct agents)
    (ran : scripted options allowed labels agents = some session) :
    (protocol options).Reachable allowed session :=
  ⟨fresh options agents, ⟨agents, distinct, rfl⟩,
    performed_runs (fun _ _ _ => perform_step) ran⟩

theorem distinct_nil : Distinct [] := List.nodup_nil

theorem reachable_of_labels
    {labels : List Label} (distinct : Distinct agents)
    (always : ∀ label ∈ labels, ∀ session, allowed session label)
    (ran : scripted options System.anything labels agents = some session) :
    (protocol options).Reachable allowed session := by
  refine ⟨fresh options agents, ⟨agents, distinct, rfl⟩, ?_⟩
  refine script_runs ?_ always ran
  intro state transaction done everywhere performed
  rcases Option.map_eq_some_iff.1 performed with ⟨after, performs, rfl⟩
  exact ⟨perform_step performs, everywhere state⟩

/-- Every outside call answers, with nothing to report. -/
def quiet : Answers where
  markMedian := .ok none
  gmxSync := .ok ()
  lpSync := .ok ()
  readValueSnapshot _ := .ok ⟨3000, []⟩
  endowmentValueAt _ _ := .ok 0
  floorSkippedEvent := .ok ()
  gapEvent := .ok ()
  intervalsAppend := .ok ()
  boundaryEvent := .ok ()
  sampleMarket := .ok none
  marketAppend := .ok ()
  failedEvent := .ok ()
  elapsedMs := 0

/-- A run from block `0` with boundaries every ten blocks. -/
def tens : Options where
  runStartBlock := 0
  endBlock := none
  intervalBlocks := 10
  readLagBlocks := 1
  sampleMarket := true
  v0Rule := .floor

end Eris.Scoring.Protocol
