import Eris.Events.Data
import Eris.Foundation.Transition

/-!
# The block handler

The coordinator handles a notified head in a pass over every block since the
previous one.  It drops what is notified while a pass runs, and a head it has
already processed, save for the opening report.  A pass is clamped to the end
of the epoch; it moves the last processed block on before it does any work,
then executes the point events of its range, and writes a checkpoint at its
end.  It may throw on the way, and the process may die and resume from its
last checkpoint.
-/

namespace Eris.Loop.BlockHandler

open Events.Data Foundation.Transition

/-- A run without a finite block budget has no end block. -/
def epochEndBlock (runStartBlock : Int) (runBlocks : Option ℚ) : Option Int :=
  match runBlocks with
  | none => none
  | some blocks => if 0 < blocks then some (runStartBlock + ⌊blocks⌋) else none

/-- What one pass of the block handler covers. -/
structure LoopStep where
  fromBlock : Int
  block : Int
  final : Bool
deriving DecidableEq

def loopStep
    (lastProcessedBlock notifiedBlock : Int) (endBlock : Option Int) :
    LoopStep :=
  let block := match endBlock with
    | none => notifiedBlock
    | some last => min notifiedBlock last
  { fromBlock := lastProcessedBlock + 1
    block := block
    final := match endBlock with
      | none => false
      | some last => decide (last ≤ block) }

def LoopStep.Covers (step : LoopStep) (block : Int) : Prop :=
  step.fromBlock ≤ block ∧ block ≤ step.block

instance (step : LoopStep) (block : Int) : Decidable (step.Covers block) :=
  inferInstanceAs (Decidable (_ ∧ _))

section Schedule

variable {Number : Type}

/-- The events executed once, of the indices of a range. -/
def pointEventsAt
    (events : List (ResolvedStressEvent Number)) (fromIndex toIndex : Int) :
    List (ResolvedStressEvent Number) :=
  events.filter fun ev =>
    isPointEvent ev.type && decide (fromIndex ≤ ev.startBlock) &&
      decide (ev.startBlock ≤ toIndex)

/-- What a period declares: its start, its length and its events. -/
structure Period (Number : Type) where
  runStartBlock : Int
  runBlocks : Option ℚ
  events : List (ResolvedStressEvent Number)

def Period.endBlock (period : Period Number) : Option Int :=
  epochEndBlock period.runStartBlock period.runBlocks

def Period.blockOf
    (period : Period Number) (ev : ResolvedStressEvent Number) : Int :=
  period.runStartBlock + ev.startBlock

/-- The point events of a step, in the order of the schedule. -/
def Period.due (period : Period Number) (step : LoopStep) :
    List (ResolvedStressEvent Number) :=
  pointEventsAt period.events (max 0 (step.fromBlock - period.runStartBlock))
    (step.block - period.runStartBlock)

/-- The point events the blocks up to one hold. -/
def Period.scheduled (period : Period Number) (block : Int) :
    List (ResolvedStressEvent Number) :=
  pointEventsAt period.events 0 (block - period.runStartBlock)

/-- A pass under way, and the point events it has not executed. -/
structure Pass (Number : Type) where
  step : LoopStep
  todo : List (ResolvedStressEvent Number)

/--
The handler of one process, with its last checkpoint.  `startedAfter` is the
last processed block it started from, `steps` are its passes, and `executed`
are the events every process of the period executed.
-/
structure Handler (Number : Type) where
  lastProcessedBlock : Int
  passStarted : Bool
  finished : Bool
  pass : Option (Pass Number)
  checkpoint : Option Int
  startedAfter : Int
  timedOut : Bool
  steps : List LoopStep
  executed : List (ResolvedStressEvent Number)

inductive Happening where
  | notified (block : Int)
  | executes
  | throws
  | completes (written : Bool)
  | timeUp
  | resumes

/-- A process which starts after a block. -/
def Handler.started
    (block : Int) (checkpoint : Option Int)
    (executed : List (ResolvedStressEvent Number)) : Handler Number where
  lastProcessedBlock := block
  passStarted := false
  finished := false
  pass := none
  checkpoint := checkpoint
  startedAfter := block
  timedOut := false
  steps := []
  executed := executed

variable (period : Period Number)

/-- The first process starts after the head before the run. -/
def Handler.opened : Handler Number :=
  .started (period.runStartBlock - 1) none []

/-- A pass begins: the last processed block moves on first. -/
def Handler.begins (handler : Handler Number) (notifiedBlock : Int) :
    Handler Number :=
  let step := loopStep handler.lastProcessedBlock notifiedBlock period.endBlock
  { handler with
    passStarted := true
    lastProcessedBlock := max handler.lastProcessedBlock step.block
    pass := some ⟨step, period.due step⟩
    steps := handler.steps ++ [step] }

/-- `onBlock` up to the point where its pass begins. -/
def Handler.onBlock (handler : Handler Number) (notifiedBlock : Int) :
    Handler Number :=
  if handler.pass.isSome ∨ handler.finished then handler
  else if handler.passStarted ∧ notifiedBlock ≤ handler.lastProcessedBlock then
    handler
  else handler.begins period notifiedBlock

/-- The `finally` of a pass: after the last one the run is over. -/
def Handler.settles (handler : Handler Number) (step : LoopStep) :
    Handler Number :=
  { handler with
    pass := none
    finished := handler.finished || step.final }

def Handler.happen (handler : Handler Number) :
    Happening → Option (Handler Number)
  | .notified block => some (handler.onBlock period block)
  | .executes =>
      match handler.pass with
      | some ⟨step, ev :: rest⟩ =>
          some { handler with
              pass := some ⟨step, rest⟩
              executed := handler.executed ++ [ev] }
      | _ => none
  | .throws => handler.pass.map fun pass => handler.settles pass.step
  | .completes written =>
      match handler.pass with
      | some ⟨step, []⟩ =>
          some { handler.settles step with
              checkpoint :=
                if written then some step.block else handler.checkpoint }
      | _ => none
  | .timeUp => some { handler with finished := true, timedOut := true }
  | .resumes =>
      handler.checkpoint.map fun block =>
        .started block handler.checkpoint handler.executed

/-- The handler over a period, its restarts included. -/
def handlers : System (Handler Number) Happening where
  initial handler := handler = .opened period
  step handler happening next := handler.happen period happening = some next

end Schedule

end Eris.Loop.BlockHandler
