import Eris.Backtest.Resume

/-!
# Runs of a scenario matrix

`core/src/cli/backtest.ts`, the loop over the scenarios of a plan, and
`core/src/realtime/agentState.ts`, the snapshots of the agents' state.  An
invocation may end anywhere; the next one resumes from the stored matrix.  The
matrix is written whole, while a snapshot may be left half written.

A world keeps a history of the states which scenarios started from and ended
with.  Waiting for a scheduled start is left out.
-/

namespace Eris.Backtest.Matrix

open Foundation.Transition ScenarioScores Resume

/-- What the repeats of one scenario came to; each scores its whole roster. -/
structure Outcome where
  perRepeat : List { run : List AgentScore // run ≠ [] }
  lastError : Option String
  runDirs : List String
  fallbackRepeats : ℕ

def exitedEarly (score : AgentScore) : Bool :=
  score.flags.any fun flag =>
    match flag with
    | .exitedEarly _ => true
    | _ => false

/-- What a reader of the standings has to see about an epoch as a whole. -/
def scenarioFlags (agents : List AgentScore) : List String :=
  let field := agents.filter fun score => score.baseline.getD false = false
  let exited := field.filter exitedEarly
  if exited = [] then
    []
  else if exited.length = field.length then
    ["uncontested: every non-baseline agent (" ++ toString field.length ++
      ") exited early; the P of this epoch are the endowment's drift, not a " ++
      "result (rules §4.4.2: re-execution is the remedy, and it is the " ++
      "operator's call)"]
  else
    [toString exited.length ++ " of " ++ toString field.length ++
      " non-baseline agents exited early"]

def intervalsFallbackEpochFlag : String :=
  "scored from intervals.jsonl (no summary.json): P read off the live " ++
    "boundary series, which reached the end block; the post-run checks did " ++
    "not run"

/-- The result which is stored of a scenario. -/
def resultOf (scenario : Scenario) (outcome : Outcome) : ScenarioResult :=
  let folded := foldRepeats (outcome.perRepeat.map Subtype.val)
  let scored : Bool := outcome.perRepeat ≠ []
  { s := scenario.s
    regime := scenario.regime
    seed := scenario.seed
    agents := if scored then some folded else none
    runDir := outcome.runDirs.getLast?
    error := if scored then none else outcome.lastError
    startsAt := scenario.startsAt
    flags := if scored then
        (if outcome.fallbackRepeats > 0 then
          [intervalsFallbackEpochFlag]
        else
          []) ++ scenarioFlags folded
      else
        [] }

def ordered (results : List ScenarioResult) : List ScenarioResult :=
  results.insertionSort fun left right => left.s ≤ right.s

/-- Where the loop of an invocation stands. -/
inductive Phase where
  | idle
  | running (scenario : Scenario)
  | finished (scenario : Scenario) (outcome : Outcome)
  | recording (scenario : Scenario) (outcome : Outcome)

structure Invocation where
  resumed : Bool
  results : List ScenarioResult
  complete : List ℕ
  todo : List Scenario
  phase : Phase

/-- What happened to a matrix, with the agents' state at the time. -/
inductive Event (State : Type) where
  | opened (content : State)
  | started (s : ℕ) (resumed : Bool) (restored : Option StateLabel)
      (content : State)
  | completed (s : ℕ) (content : State)

/-- The stored matrix, the state root with its snapshots, an invocation. -/
structure World (State : Type) where
  matrix : Option (List ScenarioResult)
  root : State
  snapshots : StateLabel → Option State
  running : Option Invocation
  history : List (Event State)

inductive Label (State : Type) where
  | openFresh
  | tearInitial (content : Option State)
  | resume
  | next
  | runEnds (outcome : Outcome) (after : State) (base : Option State)
  | checkpoint
  | record
  | finish
  | interrupt (after : State) (torn : Option State)

variable {State : Type} (plan : Plan) (carry : Bool)

/-- A fresh matrix records the state it starts from. -/
def openFresh (world : World State) : Option (World State) :=
  match world.running, world.matrix with
  | none, none =>
      some { world with
          snapshots := if carry then
              Function.update world.snapshots .initial (some world.root)
            else
              world.snapshots
          running := some ⟨false, [], [], plan.scenarios, .idle⟩
          history := [.opened world.root] }
  | _, _ => none

/-- The first snapshot is left half written. -/
def tearInitial (content : Option State) (world : World State) :
    Option (World State) :=
  match world.running, world.matrix with
  | none, none =>
      some { world with
          snapshots := Function.update world.snapshots .initial content }
  | _, _ => none

def resume (world : World State) : Option (World State) :=
  match world.running, world.matrix with
  | none, some stored =>
      match mergeStoredResults plan.scenarios stored with
      | .ok merged =>
          some { world with
              running := some
                  ⟨true, merged.preloaded, merged.complete, plan.scenarios,
                    .idle⟩ }
      | .error _ => none
  | _, _ => none

/-- Skip the next scenario when it is complete, or start it. -/
def startNext (world : World State) (invocation : Invocation)
    (scenario : Scenario) (rest : List Scenario) :
    World State :=
  if scenario.s ∈ invocation.complete then
    { world with running := some { invocation with todo := rest } }
  else if carry && invocation.resumed then
    match world.snapshots (stateLabelBefore scenario.s invocation.complete) with
    | none => { world with running := none }
    | some content =>
        { world with
          root := content
          running :=
            some { invocation with todo := rest, phase := .running scenario }
          history := world.history ++ [.started scenario.s true
              (some (stateLabelBefore scenario.s invocation.complete))
              content] }
  else
    { world with
      running :=
        some { invocation with todo := rest, phase := .running scenario }
      history := world.history ++
          [.started scenario.s invocation.resumed none world.root] }

/-- The repeats of the running scenario ended. -/
def endRun
    (outcome : Outcome) (after : State) (base : Option State)
    (world : World State) (invocation : Invocation) (scenario : Scenario) :
    World State :=
  { world with
    root := after
    snapshots := Function.update world.snapshots (.repeatBase scenario.s) base
    running := some { invocation with phase := .finished scenario outcome } }

/-- Snapshot the state a scored scenario ended with. -/
def takeCheckpoint
    (world : World State) (invocation : Invocation) (scenario : Scenario)
    (outcome : Outcome) :
    World State :=
  if carry && outcome.perRepeat ≠ [] then
    { world with
      snapshots :=
        Function.update world.snapshots (.after scenario.s) (some world.root)
      running := some { invocation with
            complete := invocation.complete ++ [scenario.s]
            phase := .recording scenario outcome } }
  else
    { world with
      running := some { invocation with phase := .recording scenario outcome } }

def storeResult
    (world : World State) (invocation : Invocation) (scenario : Scenario)
    (outcome : Outcome) :
    World State :=
  { world with
    matrix := some (ordered (invocation.results ++ [resultOf scenario outcome]))
    running := some { invocation with
          results := invocation.results ++ [resultOf scenario outcome]
          phase := .idle }
    history := world.history ++ if outcome.perRepeat ≠ [] then
          [.completed scenario.s world.root]
        else
          [] }

/-- What is left of a snapshot which was being taken. -/
def tornSnapshots
    (torn : Option State) (world : World State) (invocation : Invocation) :
    StateLabel → Option State :=
  match invocation.phase with
  | .running scenario =>
      Function.update world.snapshots (.repeatBase scenario.s) torn
  | .finished scenario _ =>
      Function.update world.snapshots (.after scenario.s) torn
  | _ => world.snapshots

/-- Perform a step, when the world can make it. -/
def perform (world : World State) : Label State → Option (World State)
  | .openFresh => openFresh plan carry world
  | .tearInitial content => tearInitial content world
  | .resume => resume plan world
  | .next =>
      match world.running with
      | some ⟨resumed, results, complete, scenario :: rest, .idle⟩ =>
          some (startNext carry world
              ⟨resumed, results, complete, scenario :: rest, .idle⟩ scenario
              rest)
      | _ => none
  | .runEnds outcome after base =>
      match world.running with
      | some ⟨resumed, results, complete, todo, .running scenario⟩ =>
          some (endRun outcome after base world
              ⟨resumed, results, complete, todo, .running scenario⟩ scenario)
      | _ => none
  | .checkpoint =>
      match world.running with
      | some ⟨resumed, results, complete, todo, .finished scenario outcome⟩ =>
          some (takeCheckpoint carry world
              ⟨resumed, results, complete, todo, .finished scenario outcome⟩
              scenario outcome)
      | _ => none
  | .record =>
      match world.running with
      | some ⟨resumed, results, complete, todo, .recording scenario outcome⟩ =>
          some (storeResult world
              ⟨resumed, results, complete, todo, .recording scenario outcome⟩
              scenario outcome)
      | _ => none
  | .finish =>
      match world.running with
      | some ⟨_, results, _, [], .idle⟩ =>
          some { world with matrix := some (ordered results), running := none }
      | _ => none
  | .interrupt after torn =>
      world.running.map fun invocation =>
        { world with
          root := after
          snapshots := tornSnapshots torn world invocation
          running := none }

def Initial (world : World State) : Prop :=
  world.matrix = none ∧ world.running = none ∧ world.history = []

/-- The worlds of a plan, and what can happen in them. -/
def matrices : System (World State) (Label State) where
  initial := Initial
  step world label next := perform plan carry world label = some next

end Eris.Backtest.Matrix
