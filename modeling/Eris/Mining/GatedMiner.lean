import Eris.Foundation.Trace

/-!
# The gated miner

The miner as a machine which moves from one await to the next.  Between two
of its moves anything else may happen: a block pass stages a price set, the
coordinator halts or stops the miner, and a call of `stop` makes its own
apply once the loop is over.

Time is not measured.  A tick may come and a gate may time out whenever they
are waited for, and a call which does not answer in its time is one which
fails.  The trace lists the calls which the miner makes, their answers, and
what it reports.
-/

namespace Eris.Mining.GatedMiner

open Foundation.Transition

def maxHeldTicks : Nat := 3

/-- A staged price set, with whether it can commit. -/
structure Staged where
  forBlock : Int
  commit : Bool
  applied : Bool
  deriving DecidableEq, Repr

/-- Calls, answers and reports; price sets are named in order of staging. -/
inductive Event where
  | stage (set : Nat)
  | applyAsked (set : Nat) (retried : Bool)
  | applyAnswered (set : Nat) (retried succeeded : Bool)
  | commitAsked (set : Nat)
  | commitAnswered (set : Nat) (answer : Option Int)
  | mineAsked
  | mineAnswered (answer : Option Int)
  | gateTimeout (head stagedFor : Int)
  | writeError (forBlock : Int) (retried : Bool)
  | applyHeld (forBlock : Int) (heldTicks : Nat) (minedAnyway : Bool)
  | mined (head : Int)
  | mineError (head : Int)
  | halt
  | stop
  | stopResolved
  | loopEnded
  deriving DecidableEq, Repr

/-- A call of `applyStaged`: at its await, or returned. -/
inductive ApplyCall where
  | awaiting (set : Nat) (retried : Bool)
  | returned (applied : Bool)
  deriving DecidableEq, Repr

inductive Phase where
  | unstarted
  | sleeping
  | reading
  | gating
  | committing (set : Nat)
  | applying (call : ApplyCall)
  | mining
  | ended
  deriving DecidableEq, Repr

/-- A call of `stop`: waiting for the loop, or applying what it left. -/
inductive StopCall where
  | waiting
  | applying (call : ApplyCall)
  | resolved
  deriving DecidableEq, Repr

/-- The counters of `stats`. -/
structure Stats where
  mined : Nat
  gateTimeouts : Nat
  mineErrors : Nat
  held : Nat
  deriving DecidableEq, Repr

structure Miner where
  sets : Nat → Staged
  staged : Nat
  allocated : Nat
  head : Int
  stopped : Bool
  heldTicks : Nat
  stats : Stats
  phase : Phase
  stops : List StopCall
  trace : List Event

structure Options where
  startHead : Int
  readsHead : Bool

def Miner.current (miner : Miner) : Staged := miner.sets miner.staged

def Miner.observe (miner : Miner) (events : List Event) : Miner :=
  { miner with trace := miner.trace ++ events }

def Miner.mark (miner : Miner) (set : Nat) : Miner :=
  { miner with
    sets := Function.update miner.sets set
        { miner.sets set with applied := true } }

/-- The constructor: the slot holds an applied set for the block before. -/
def create (options : Options) : Miner where
  sets _ := ⟨options.startHead - 1, false, true⟩
  staged := 0
  allocated := 0
  head := options.startHead
  stopped := false
  heldTicks := 0
  stats := ⟨0, 0, 0, 0⟩
  phase := .unstarted
  stops := []
  trace := []

def stage (miner : Miner) (forBlock : Int) (commit : Bool) : Miner :=
  if forBlock < miner.current.forBlock then miner
  else
    { miner with
      sets := Function.update miner.sets (miner.allocated + 1)
          ⟨forBlock, commit, false⟩
      staged := miner.allocated + 1
      allocated := miner.allocated + 1
      trace := miner.trace ++ [.stage (miner.allocated + 1)] }

def finish (miner : Miner) : Miner :=
  { miner.observe [.loopEnded] with phase := .ended }

def start (miner : Miner) : Miner :=
  if miner.phase = .unstarted then
    if miner.stopped then finish miner
    else { miner with phase := .sleeping }
  else miner

def halt (miner : Miner) : Miner :=
  { miner.observe [.halt] with stopped := true }

/-- `stop`, up to its await of the loop. -/
def stop (miner : Miner) : Miner :=
  { miner.observe [.stop] with
    stopped := true
    stops := miner.stops ++ [.waiting] }

/-- `applyStaged`, up to its first await. -/
def applyStaged (miner : Miner) : Miner × ApplyCall :=
  if miner.current.applied then (miner, .returned true)
  else
    (miner.observe [.applyAsked miner.staged false],
      .awaiting miner.staged false)

/-- `applyStaged`, from the answer of an attempt to the next await. -/
def applyAnswered
    (miner : Miner) (set : Nat) (retried succeeded : Bool) :
    Miner × ApplyCall :=
  if succeeded then
    ((miner.observe [.applyAnswered set retried true]).mark set, .returned true)
  else if retried then
    (miner.observe [.applyAnswered set true false,
          .writeError (miner.sets set).forBlock true],
      .returned false)
  else
    (miner.observe [.applyAnswered set false false,
          .writeError (miner.sets set).forBlock false,
          .applyAsked set true],
      .awaiting set true)

/-- The slot is staged for the head, and not yet written. -/
def ready (miner : Miner) : Bool :=
  decide (miner.head ≤ miner.current.forBlock) && !miner.current.applied

def wake (options : Options) (miner : Miner) : Miner :=
  if miner.stopped then finish miner
  else
    { miner with
      phase := if options.readsHead then .reading else .gating }

def headRead (miner : Miner) (answer : Option Int) : Miner :=
  { miner with
    head := match answer with
      | some head => max miner.head head
      | none => miner.head
    phase := .gating }

/-- The loop calls `applyStaged`. -/
def applying (miner : Miner) : Miner :=
  { (applyStaged miner).1 with phase := .applying (applyStaged miner).2 }

/-- The writes of a tick, up to its first await. -/
def write (miner : Miner) : Miner :=
  if !miner.current.applied && miner.current.commit then
    { miner.observe [.commitAsked miner.staged] with
      phase := .committing miner.staged }
  else applying miner

/-- A gate which is left while it is not open has timed out. -/
def gateLeft (miner : Miner) : Miner :=
  if ready miner then miner
  else
    { miner.observe [.gateTimeout miner.head miner.current.forBlock] with
      stats :=
        { miner.stats with gateTimeouts := miner.stats.gateTimeouts + 1 } }

/-- The gate: open, timed out, or left because the miner was stopped. -/
def gate (miner : Miner) : Miner :=
  if miner.stopped then finish miner else write (gateLeft miner)

/-- A block was mined, and the tick is over. -/
def minedAt (miner : Miner) (answer : Int) : Miner :=
  { miner.observe [.mined (max (miner.head + 1) answer)] with
    head := max (miner.head + 1) answer
    stats := { miner.stats with mined := miner.stats.mined + 1 }
    phase := .sleeping }

def committed
    (miner : Miner) (set : Nat) (answer : Option Int) : Miner :=
  match answer with
  | some head =>
      minedAt { (miner.observe [.commitAnswered set (some head)]).mark set with
          heldTicks := 0 }
        head
  | none =>
      applying (miner.observe [.commitAnswered set none,
          .writeError (miner.sets set).forBlock false])

/-- The miner asks for a block, with nothing held. -/
def mine (miner : Miner) : Miner :=
  { miner.observe [.mineAsked] with
    heldTicks := 0
    phase := .mining }

/-- The tick after both attempts failed: hold the block, or give up. -/
def held (miner : Miner) : Miner :=
  if maxHeldTicks ≤ miner.heldTicks + 1 then
    mine ((miner.observe
          [.applyHeld miner.current.forBlock (miner.heldTicks + 1) true]).mark
        miner.staged)
  else
    { miner.observe
        [.applyHeld miner.current.forBlock (miner.heldTicks + 1) false] with
      heldTicks := miner.heldTicks + 1
      stats := { miner.stats with held := miner.stats.held + 1 }
      phase := .sleeping }

/-- The loop goes on once its `applyStaged` has returned. -/
def applyReturned (miner : Miner) (applied : Bool) : Miner :=
  if applied then mine miner else held miner

def mineAnswered (miner : Miner) (answer : Option Int) : Miner :=
  match answer with
  | some head => minedAt (miner.observe [.mineAnswered (some head)]) head
  | none =>
      { miner.observe [.mineAnswered none, .mineError miner.head] with
        stats := { miner.stats with mineErrors := miner.stats.mineErrors + 1 }
        phase := .sleeping }

/-- A call of `stop` applies what the loop left in the slot. -/
def stopApplies (miner : Miner) (index : Nat) : Miner :=
  { (applyStaged miner).1 with
    stops := miner.stops.set index (.applying (applyStaged miner).2) }

def stopAnswered
    (miner : Miner) (index set : Nat) (retried succeeded : Bool) : Miner :=
  { (applyAnswered miner set retried succeeded).1 with
    stops := miner.stops.set index
        (.applying (applyAnswered miner set retried succeeded).2) }

def stopResolves (miner : Miner) (index : Nat) : Miner :=
  { miner.observe [.stopResolved] with
    stops := miner.stops.set index .resolved }

inductive Label where
  | stage (forBlock : Int) (commit : Bool)
  | start
  | halt
  | stop
  | wake
  | headRead (answer : Option Int)
  | gate
  | committed (answer : Option Int)
  | applyAnswered (succeeded : Bool)
  | applyReturned
  | mineAnswered (answer : Option Int)
  | stopApplies (index : Nat)
  | stopAnswered (index : Nat) (succeeded : Bool)
  | stopResolves (index : Nat)

def Phase.Over (phase : Phase) : Prop := phase = .unstarted ∨ phase = .ended

instance (phase : Phase) : Decidable phase.Over :=
  inferInstanceAs (Decidable (_ ∨ _))

variable (options : Options)

inductive Step : Miner → Label → Miner → Prop where
  | stage (miner : Miner) (forBlock : Int) (commit : Bool) :
      Step miner (.stage forBlock commit) (stage miner forBlock commit)
  | start (miner : Miner) : Step miner .start (start miner)
  | halt (miner : Miner) : Step miner .halt (halt miner)
  | stop (miner : Miner) : Step miner .stop (stop miner)
  | wake (miner : Miner) (sleeps : miner.phase = .sleeping) :
      Step miner .wake (wake options miner)
  | headRead (miner : Miner) (answer : Option Int)
      (reads : miner.phase = .reading) :
      Step miner (.headRead answer) (headRead miner answer)
  | gate (miner : Miner) (waits : miner.phase = .gating) :
      Step miner .gate (gate miner)
  | committed (miner : Miner) (set : Nat) (answer : Option Int)
      (commits : miner.phase = .committing set) :
      Step miner (.committed answer) (committed miner set answer)
  | applyAnswered (miner : Miner) (set : Nat) (retried succeeded : Bool)
      (applies : miner.phase = .applying (.awaiting set retried)) :
      Step miner (.applyAnswered succeeded)
        { (applyAnswered miner set retried succeeded).1 with
          phase := .applying (applyAnswered miner set retried succeeded).2 }
  | applyReturned (miner : Miner) (applied : Bool)
      (returned : miner.phase = .applying (.returned applied)) :
      Step miner .applyReturned (applyReturned miner applied)
  | mineAnswered (miner : Miner) (answer : Option Int)
      (mines : miner.phase = .mining) :
      Step miner (.mineAnswered answer) (mineAnswered miner answer)
  | stopApplies (miner : Miner) (index : Nat)
      (waits : miner.stops[index]? = some .waiting)
      (finished : miner.phase.Over) :
      Step miner (.stopApplies index) (stopApplies miner index)
  | stopAnswered (miner : Miner) (index set : Nat) (retried succeeded : Bool)
      (applies :
        miner.stops[index]? = some (.applying (.awaiting set retried))) :
      Step miner (.stopAnswered index succeeded)
        (stopAnswered miner index set retried succeeded)
  | stopResolves (miner : Miner) (index : Nat) (applied : Bool) (returned :
        miner.stops[index]? = some (.applying (.returned applied))) :
      Step miner (.stopResolves index) (stopResolves miner index)

def protocol : System Miner Label where
  initial miner := miner = create options
  step := Step options

/-- Perform a step, when the miner can make it. -/
def perform (miner : Miner) : Label → Option Miner
  | .stage forBlock commit => some (stage miner forBlock commit)
  | .start => some (start miner)
  | .halt => some (halt miner)
  | .stop => some (stop miner)
  | .wake =>
      if miner.phase = .sleeping then some (wake options miner) else none
  | .headRead answer =>
      if miner.phase = .reading then some (headRead miner answer) else none
  | .gate => if miner.phase = .gating then some (gate miner) else none
  | .committed answer =>
      match miner.phase with
      | .committing set => some (committed miner set answer)
      | _ => none
  | .applyAnswered succeeded =>
      match miner.phase with
      | .applying (.awaiting set retried) =>
          some { (applyAnswered miner set retried succeeded).1 with
              phase := .applying (applyAnswered miner set retried succeeded).2 }
      | _ => none
  | .applyReturned =>
      match miner.phase with
      | .applying (.returned applied) => some (applyReturned miner applied)
      | _ => none
  | .mineAnswered answer =>
      if miner.phase = .mining then some (mineAnswered miner answer)
      else none
  | .stopApplies index =>
      if miner.stops[index]? = some .waiting ∧ miner.phase.Over then
        some (stopApplies miner index)
      else none
  | .stopAnswered index succeeded =>
      match miner.stops[index]? with
      | some (.applying (.awaiting set retried)) =>
          some (stopAnswered miner index set retried succeeded)
      | _ => none
  | .stopResolves index =>
      match miner.stops[index]? with
      | some (.applying (.returned _)) => some (stopResolves miner index)
      | _ => none

variable {options} {miner next : Miner} {label : Label}

theorem perform_step
    (performed : perform options miner label = some next) :
    Step options miner label next := by
  cases label with
  | stage forBlock commit =>
      cases performed
      exact .stage miner forBlock commit
  | start =>
      cases performed
      exact .start miner
  | halt =>
      cases performed
      exact .halt miner
  | stop =>
      cases performed
      exact .stop miner
  | wake =>
      simp only [perform, Option.ite_none_right_eq_some] at performed
      rcases performed with ⟨sleeps, performed⟩
      cases performed
      exact .wake miner sleeps
  | headRead answer =>
      simp only [perform, Option.ite_none_right_eq_some] at performed
      rcases performed with ⟨reads, performed⟩
      cases performed
      exact .headRead miner answer reads
  | gate =>
      simp only [perform, Option.ite_none_right_eq_some] at performed
      rcases performed with ⟨waits, performed⟩
      cases performed
      exact .gate miner waits
  | committed answer =>
      simp only [perform] at performed
      split at performed
      · next set commits =>
          cases performed
          exact .committed miner set answer commits
      · cases performed
  | applyAnswered succeeded =>
      simp only [perform] at performed
      split at performed
      · next set retried applies =>
          cases performed
          exact .applyAnswered miner set retried succeeded applies
      · cases performed
  | applyReturned =>
      simp only [perform] at performed
      split at performed
      · next applied returned =>
          cases performed
          exact .applyReturned miner applied returned
      · cases performed
  | mineAnswered answer =>
      simp only [perform, Option.ite_none_right_eq_some] at performed
      rcases performed with ⟨mines, performed⟩
      cases performed
      exact .mineAnswered miner answer mines
  | stopApplies index =>
      simp only [perform, Option.ite_none_right_eq_some] at performed
      rcases performed with ⟨⟨waits, finished⟩, performed⟩
      cases performed
      exact .stopApplies miner index waits finished
  | stopAnswered index succeeded =>
      simp only [perform] at performed
      split at performed
      · next set retried applies =>
          cases performed
          exact .stopAnswered miner index set retried succeeded applies
      · cases performed
  | stopResolves index =>
      simp only [perform] at performed
      split at performed
      · next applied returned =>
          cases performed
          exact .stopResolves miner index applied returned
      · cases performed

/-- Perform labels in order, from a new miner. -/
def scripted (options : Options) (labels : List Label) : Option Miner :=
  script (fun miner label => (perform options miner label).map (label, ·))
    System.anything labels (create options)

theorem reachable_of_scripted
    {labels : List Label} (ran : scripted options labels = some miner) :
    (protocol options).Reachable System.anything miner :=
  ⟨create options, rfl, performed_runs (fun _ _ _ => perform_step) ran⟩

end Eris.Mining.GatedMiner
