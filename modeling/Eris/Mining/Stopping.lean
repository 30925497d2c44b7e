import Eris.Mining.GatedMiner

/-!
# Stopping the gated miner

A miner which is told to stop mines at most the block of the tick past its
gate, and a call of `stop` applies nothing before the loop is over.
-/

namespace Eris.Mining.Stopping

open Foundation.Trace Foundation.Transition GatedMiner

/-- The miner asks for a block, or to write and mine in one. -/
def asksForBlock : Event → Bool
  | .mineAsked => true
  | .commitAsked _ => true
  | _ => false

def isMined : Event → Bool
  | .mined _ => true
  | _ => false

def isStop : Event → Bool
  | .halt => true
  | .stop => true
  | _ => false

/-- How many blocks a tick at this phase can have asked for. -/
def askLimit : Phase → Nat
  | .committing _ => 0
  | .applying _ => 0
  | _ => 1

/-- How many blocks a tick at this phase can have mined. -/
def mineLimit : Phase → Nat
  | .mining => 0
  | phase => askLimit phase

/-- What was asked and mined since the miner was told to stop. -/
structure Stopping (miner : Miner) : Prop where
  told : miner.stopped = miner.trace.any isStop
  asked : countSince isStop asksForBlock miner.trace ≤ askLimit miner.phase
  mined : countSince isStop isMined miner.trace ≤ mineLimit miner.phase

variable {options : Options} {miner next : Miner} {label : Label}

theorem Stopping.extend
    (events : List Event) (stopping : Stopping miner)
    (grown : next.trace = miner.trace ++ events)
    (told : next.stopped = (miner.stopped || events.any isStop))
    (asked : countSince isStop asksForBlock miner.trace +
        events.countP asksForBlock ≤ askLimit next.phase)
    (mined : countSince isStop isMined miner.trace + events.countP isMined ≤
        mineLimit next.phase) :
    Stopping next where
  told := by
    rw [told, grown, List.any_append, stopping.told]
  asked := by
    rw [grown, countSince_append]
    split
    · exact asked
    · have few : countSince isStop asksForBlock events ≤ _ :=
        countSince_le events
      omega
  mined := by
    rw [grown, countSince_append]
    split
    · exact mined
    · have few : countSince isStop isMined events ≤ _ := countSince_le events
      omega

theorem Stopping.quiet
    (events : List Event) (stopping : Stopping miner)
    (grown : next.trace = miner.trace ++ events)
    (told : next.stopped = (miner.stopped || events.any isStop))
    (asksNone : events.countP asksForBlock = 0)
    (minesNone : events.countP isMined = 0)
    (asked : askLimit miner.phase ≤ askLimit next.phase)
    (mined : mineLimit miner.phase ≤ mineLimit next.phase) :
    Stopping next := by
  apply stopping.extend events grown told
  · rw [asksNone]
    exact le_trans stopping.asked asked
  · rw [minesNone]
    exact le_trans stopping.mined mined

theorem Stopping.untold
    (stopping : Stopping miner)
    (going : miner.stopped = false) (kind : Event → Bool) :
    countSince isStop kind miner.trace = 0 := by
  apply countSince_eq_zero
  rw [← stopping.told]
  exact going

theorem stopping_of_going
    (told : miner.stopped = miner.trace.any isStop)
    (going : miner.stopped = false) :
    Stopping miner where
  told := told
  asked := by
    rw [countSince_eq_zero (told.symm.trans going)]
    exact Nat.zero_le _
  mined := by
    rw [countSince_eq_zero (told.symm.trans going)]
    exact Nat.zero_le _

theorem Stopping.stage
    (stopping : Stopping miner) (forBlock : Int) (commit : Bool) :
    Stopping (GatedMiner.stage miner forBlock commit) := by
  unfold GatedMiner.stage
  split
  · exact stopping
  · exact stopping.quiet [.stage (miner.allocated + 1)] rfl
      (Bool.or_false _).symm rfl rfl le_rfl le_rfl

theorem askLimit_le (phase : Phase) : askLimit phase ≤ 1 := by
  cases phase <;> simp [askLimit]

theorem mineLimit_le (phase : Phase) : mineLimit phase ≤ 1 := by
  cases phase <;> simp [mineLimit, askLimit]

theorem Stopping.finish (stopping : Stopping miner) :
    Stopping (finish miner) :=
  stopping.quiet [.loopEnded] rfl (Bool.or_false _).symm rfl rfl
    (askLimit_le _) (mineLimit_le _)

theorem Stopping.applying
    (stopping : Stopping miner)
    (asked : countSince isStop asksForBlock miner.trace = 0)
    (mined : countSince isStop isMined miner.trace = 0) :
    Stopping (applying miner) := by
  unfold GatedMiner.applying applyStaged
  split
  · exact stopping.extend [] (List.append_nil _).symm (Bool.or_false _).symm
      asked.le mined.le
  · exact stopping.extend [.applyAsked miner.staged false] rfl
      (Bool.or_false _).symm asked.le mined.le

theorem Stopping.gate (stopping : Stopping miner) :
    Stopping (gate miner) := by
  unfold GatedMiner.gate
  cases going : miner.stopped with
  | true =>
      rw [if_pos rfl]
      exact stopping.finish
  | false =>
      have left : Stopping (gateLeft miner) := by
        unfold gateLeft
        split
        · exact stopping
        · exact stopping.quiet [.gateTimeout _ _] rfl (Bool.or_false _).symm
            rfl rfl le_rfl le_rfl
      have still : (gateLeft miner).stopped = false := by
        unfold gateLeft
        split <;> exact going
      rw [if_neg (by simp)]
      unfold write
      split
      · apply stopping_of_going
        · simp [Miner.observe, left.told, isStop]
        · exact still
      · exact left.applying (left.untold still _) (left.untold still _)

theorem Stopping.minedAt
    (stopping : Stopping miner)
    (tick : mineLimit miner.phase = 0) (answer : Int) :
    Stopping (minedAt miner answer) := by
  refine stopping.extend [.mined _] rfl (Bool.or_false _).symm ?_ ?_
  · exact le_trans stopping.asked (askLimit_le _)
  · have none := stopping.mined
    rw [tick] at none
    exact Nat.succ_le_succ none

theorem Stopping.mine
    (stopping : Stopping miner) (tick : askLimit miner.phase = 0)
    (unmined : mineLimit miner.phase = 0) :
    Stopping (mine miner) := by
  refine stopping.extend [.mineAsked] rfl (Bool.or_false _).symm ?_ ?_
  · have none := stopping.asked
    rw [tick] at none
    exact Nat.succ_le_succ none
  · have none := stopping.mined
    rw [unmined] at none
    exact none

theorem Stopping.held
    (stopping : Stopping miner) (tick : askLimit miner.phase = 0)
    (unmined : mineLimit miner.phase = 0) :
    Stopping (held miner) := by
  unfold GatedMiner.held
  split
  · have passed : Stopping ((miner.observe
              [.applyHeld miner.current.forBlock (miner.heldTicks + 1)
                true]).mark miner.staged) :=
      stopping.quiet [.applyHeld _ _ true] rfl (Bool.or_false _).symm
        rfl rfl le_rfl le_rfl
    exact passed.mine tick unmined
  · exact stopping.quiet [.applyHeld _ _ false] rfl (Bool.or_false _).symm
      rfl rfl (tick.le.trans (Nat.zero_le _))
      (unmined.le.trans (Nat.zero_le _))

theorem Stopping.committed
    (stopping : Stopping miner) {set : Nat}
    (commits : miner.phase = .committing set) (answer : Option Int) :
    Stopping (committed miner set answer) := by
  cases answer with
  | some head =>
      have answered : Stopping
          { (miner.observe [.commitAnswered set (some head)]).mark set with
              heldTicks := 0 } :=
        stopping.quiet [.commitAnswered set (some head)] rfl
          (Bool.or_false _).symm rfl rfl le_rfl le_rfl
      apply answered.minedAt
      simp only [Miner.observe, Miner.mark, commits]
      rfl
  | none =>
      have answered : Stopping (miner.observe [.commitAnswered set none,
                .writeError (miner.sets set).forBlock false]) :=
        stopping.quiet [.commitAnswered set none,
            .writeError (miner.sets set).forBlock false]
          rfl (Bool.or_false _).symm rfl rfl le_rfl le_rfl
      apply answered.applying
      · have limit := answered.asked
        simp only [Miner.observe, commits] at limit
        exact Nat.le_zero.1 limit
      · have limit := answered.mined
        simp only [Miner.observe, commits] at limit
        exact Nat.le_zero.1 limit

theorem Stopping.mineAnswered
    (stopping : Stopping miner) (mines : miner.phase = .mining)
    (answer : Option Int) :
    Stopping (mineAnswered miner answer) := by
  cases answer with
  | some head =>
      have answered : Stopping (miner.observe [.mineAnswered (some head)]) :=
        stopping.quiet [.mineAnswered (some head)] rfl
          (Bool.or_false _).symm rfl rfl le_rfl le_rfl
      apply answered.minedAt
      simp only [Miner.observe, mines]
      rfl
  | none =>
      refine stopping.quiet [.mineAnswered none, .mineError miner.head] rfl
        (Bool.or_false _).symm rfl rfl ?_ ?_
      · exact askLimit_le _
      · exact mineLimit_le _

theorem Stopping.applyAnswered
    (stopping : Stopping miner) (set : Nat) (retried succeeded : Bool) :
    Stopping (applyAnswered miner set retried succeeded).1 := by
  cases succeeded with
  | true =>
      exact stopping.quiet [.applyAnswered set retried true] rfl
        (Bool.or_false _).symm rfl rfl le_rfl le_rfl
  | false =>
      cases retried with
      | true =>
          exact stopping.quiet
            [.applyAnswered set true false, .writeError _ true] rfl
            (Bool.or_false _).symm rfl rfl le_rfl le_rfl
      | false =>
          exact stopping.quiet
            [.applyAnswered set false false, .writeError _ false,
              .applyAsked set true]
            rfl (Bool.or_false _).symm rfl rfl le_rfl le_rfl

@[simp]
theorem applyAnswered_phase (set : Nat) (retried succeeded : Bool) :
    (applyAnswered miner set retried succeeded).1.phase = miner.phase := by
  cases succeeded <;> cases retried <;> rfl

theorem Stopping.applyStaged (stopping : Stopping miner) :
    Stopping (applyStaged miner).1 := by
  unfold GatedMiner.applyStaged
  split
  · exact stopping
  · exact stopping.quiet [.applyAsked miner.staged false] rfl
      (Bool.or_false _).symm rfl rfl le_rfl le_rfl

theorem Stopping.congr
    (stopping : Stopping miner) (trace : next.trace = miner.trace)
    (stopped : next.stopped = miner.stopped)
    (asked : askLimit miner.phase ≤ askLimit next.phase)
    (mined : mineLimit miner.phase ≤ mineLimit next.phase) :
    Stopping next :=
  stopping.quiet [] (trace.trans (List.append_nil _).symm)
    (stopped.trans (Bool.or_false _).symm) rfl rfl asked mined

theorem stopping_step
    (stopping : Stopping miner) (step : Step options miner label next) :
    Stopping next := by
  cases step with
  | stage forBlock commit => exact stopping.stage forBlock commit
  | start =>
      unfold GatedMiner.start
      split
      · split
        · exact stopping.finish
        · exact stopping.congr rfl rfl (askLimit_le _) (mineLimit_le _)
      · exact stopping
  | halt =>
      exact stopping.quiet [.halt] rfl (Bool.or_true _).symm rfl rfl le_rfl
        le_rfl
  | stop =>
      exact stopping.quiet [.stop] rfl (Bool.or_true _).symm rfl rfl le_rfl
        le_rfl
  | wake sleeps =>
      unfold GatedMiner.wake
      split
      · exact stopping.finish
      · cases options.readsHead <;>
          exact stopping.congr rfl rfl (askLimit_le _) (mineLimit_le _)
  | headRead answer reads =>
      exact stopping.congr rfl rfl (askLimit_le _) (mineLimit_le _)
  | gate waits => exact stopping.gate
  | committed set answer commits =>
      exact stopping.committed commits answer
  | applyAnswered set retried succeeded applies =>
      refine (stopping.applyAnswered set retried succeeded).congr rfl rfl ?_ ?_
      · rw [applyAnswered_phase, applies]
        rfl
      · rw [applyAnswered_phase, applies]
        rfl
  | applyReturned applied returned =>
      have asked : askLimit miner.phase = 0 := by rw [returned]; rfl
      have mined : mineLimit miner.phase = 0 := by rw [returned]; rfl
      cases applied with
      | true => exact stopping.mine asked mined
      | false => exact stopping.held asked mined
  | mineAnswered answer mines =>
      exact stopping.mineAnswered mines answer
  | stopApplies index waits finished =>
      exact stopping.applyStaged.congr rfl rfl le_rfl le_rfl
  | stopAnswered index set retried succeeded applies =>
      exact (stopping.applyAnswered set retried succeeded).congr rfl rfl
        le_rfl le_rfl
  | stopResolves index applied returned =>
      exact stopping.quiet [.stopResolved] rfl (Bool.or_false _).symm rfl rfl
        le_rfl le_rfl

/-- The tick is past its gate, and not over. -/
def pastGate : Phase → Bool
  | .committing _ => true
  | .applying _ => true
  | .mining => true
  | _ => false

/-- Told to stop before a gate, the miner does not come to mine again. -/
structure Settled (base : List Event) (miner : Miner) : Prop where
  stopped : miner.stopped = true
  before : pastGate miner.phase = false
  quiet : ∃ events, miner.trace = base ++ events ∧
      events.countP asksForBlock = 0 ∧ events.countP isMined = 0

variable {base : List Event}

theorem Settled.extend
    (events : List Event) (settled : Settled base miner)
    (grown : next.trace = miner.trace ++ events) (stopped : next.stopped = true)
    (before : pastGate next.phase = false)
    (asksNone : events.countP asksForBlock = 0)
    (minesNone : events.countP isMined = 0) :
    Settled base next where
  stopped := stopped
  before := before
  quiet := by
    rcases settled.quiet with ⟨earlier, trace, asked, mined⟩
    refine ⟨earlier ++ events, ?_, ?_, ?_⟩
    · rw [grown, trace, List.append_assoc]
    · rw [List.countP_append, asked, asksNone]
    · rw [List.countP_append, mined, minesNone]

theorem Settled.finish (settled : Settled base miner) :
    Settled base (finish miner) :=
  settled.extend [.loopEnded] rfl settled.stopped rfl rfl rfl

theorem Settled.applyStaged (settled : Settled base miner) :
    Settled base (applyStaged miner).1 := by
  unfold GatedMiner.applyStaged
  split
  · exact settled
  · exact settled.extend [.applyAsked miner.staged false] rfl settled.stopped
      settled.before rfl rfl

theorem Settled.applyAnswered
    (settled : Settled base miner) (set : Nat) (retried succeeded : Bool) :
    Settled base (applyAnswered miner set retried succeeded).1 := by
  cases succeeded with
  | true =>
      exact settled.extend [.applyAnswered set retried true] rfl
        settled.stopped settled.before rfl rfl
  | false =>
      cases retried with
      | true =>
          exact settled.extend
            [.applyAnswered set true false, .writeError _ true] rfl
            settled.stopped settled.before rfl rfl
      | false =>
          exact settled.extend
            [.applyAnswered set false false, .writeError _ false,
              .applyAsked set true]
            rfl settled.stopped settled.before rfl rfl

theorem settled_step
    (settled : Settled base miner) (step : Step options miner label next) :
    Settled base next := by
  have stopped := settled.stopped
  have before := settled.before
  cases step with
  | stage forBlock commit =>
      unfold GatedMiner.stage
      split
      · exact settled
      · exact settled.extend [.stage (miner.allocated + 1)] rfl stopped before
          rfl rfl
  | start =>
      unfold GatedMiner.start
      rw [stopped]
      split
      · exact settled.finish
      · exact settled
  | halt => exact settled.extend [.halt] rfl rfl before rfl rfl
  | stop => exact settled.extend [.stop] rfl rfl before rfl rfl
  | wake sleeps =>
      unfold GatedMiner.wake
      rw [stopped]
      exact settled.finish
  | headRead answer reads =>
      exact settled.extend [] (List.append_nil _).symm stopped rfl rfl rfl
  | gate waits =>
      unfold GatedMiner.gate
      rw [stopped]
      exact settled.finish
  | committed set answer commits =>
      rw [commits] at before
      cases before
  | applyAnswered set retried succeeded applies =>
      rw [applies] at before
      cases before
  | applyReturned applied returned =>
      rw [returned] at before
      cases before
  | mineAnswered answer mines =>
      rw [mines] at before
      cases before
  | stopApplies index waits finished =>
      have applied := settled.applyStaged
      exact applied.extend [] (List.append_nil _).symm applied.stopped
        applied.before rfl rfl
  | stopAnswered index set retried succeeded applies =>
      have answered := settled.applyAnswered set retried succeeded
      exact answered.extend [] (List.append_nil _).symm answered.stopped
        answered.before rfl rfl
  | stopResolves index applied returned =>
      exact settled.extend [.stopResolved] rfl stopped before rfl rfl

theorem settled_run
    {later : Miner} (stopped : miner.stopped = true)
    (before : pastGate miner.phase = false)
    (run : (protocol options).Runs System.anything miner later) :
    Settled miner.trace later := by
  have settled : Settled miner.trace miner :=
    ⟨stopped, before, [], (List.append_nil _).symm, rfl, rfl⟩
  exact run.invariant
    (fun _ _ _ holds _ step => settled_step holds step) settled

/-- A call of `stop` has stopped the loop before it applies anything. -/
structure Ordered (miner : Miner) : Prop where
  finished : ∀ call ∈ miner.stops, call ≠ .waiting → miner.phase.Over
  told : ∀ call ∈ miner.stops, miner.stopped = true
  ended : miner.phase = .ended → miner.stopped = true

theorem Ordered.congr
    (ordered : Ordered miner) (phase : next.phase = miner.phase)
    (stops : next.stops = miner.stops)
    (stopped : next.stopped = miner.stopped) :
    Ordered next where
  finished := by
    rw [stops, phase]
    exact ordered.finished
  told := by
    rw [stops, stopped]
    exact ordered.told
  ended := by
    rw [phase, stopped]
    exact ordered.ended

theorem Ordered.tick
    (ordered : Ordered miner) (running : ¬ miner.phase.Over)
    (stops : next.stops = miner.stops) (stopped : next.stopped = miner.stopped)
    (goesOn : next.phase ≠ .ended) :
    Ordered next where
  finished := by
    rw [stops]
    intro call member applying
    exact absurd (ordered.finished call member applying) running
  told := by
    rw [stops, stopped]
    exact ordered.told
  ended final := absurd final goesOn

theorem Ordered.finish
    (ordered : Ordered miner) (stopped : miner.stopped = true) :
    Ordered (finish miner) where
  finished _ _ _ := Or.inr rfl
  told := ordered.told
  ended _ := stopped

theorem Ordered.serving
    (ordered : Ordered miner) {index : Nat} {call : StopCall}
    (listed : miner.stops[index]? = some call) (finished : miner.phase.Over)
    (phase : next.phase = miner.phase)
    (stopped : next.stopped = miner.stopped) :
    Ordered next where
  finished := by
    rw [phase]
    intro _ _ _
    exact finished
  told := by
    rw [stopped]
    intro _ _
    exact ordered.told call (List.mem_of_getElem? listed)
  ended := by
    rw [phase, stopped]
    exact ordered.ended

@[simp]
theorem applyAnswered_stops (set : Nat) (retried succeeded : Bool) :
    (applyAnswered miner set retried succeeded).1.stops = miner.stops := by
  cases succeeded <;> cases retried <;> rfl

@[simp]
theorem applyAnswered_stopped (set : Nat) (retried succeeded : Bool) :
    (applyAnswered miner set retried succeeded).1.stopped = miner.stopped := by
  cases succeeded <;> cases retried <;> rfl

@[simp]
theorem applyStaged_phase :
    (applyStaged miner).1.phase = miner.phase := by
  unfold applyStaged
  split <;> rfl

@[simp]
theorem applyStaged_stops :
    (applyStaged miner).1.stops = miner.stops := by
  unfold applyStaged
  split <;> rfl

@[simp]
theorem applyStaged_stopped :
    (applyStaged miner).1.stopped = miner.stopped := by
  unfold applyStaged
  split <;> rfl

theorem Ordered.applying
    (ordered : Ordered miner) (running : ¬ miner.phase.Over) :
    Ordered (applying miner) :=
  ordered.tick running applyStaged_stops applyStaged_stopped Phase.noConfusion

theorem Ordered.gate
    (ordered : Ordered miner) (waits : miner.phase = .gating) :
    Ordered (gate miner) := by
  have left : Ordered (gateLeft miner) ∧ (gateLeft miner).phase = .gating := by
    unfold gateLeft
    split
    · exact ⟨ordered, waits⟩
    · exact ⟨ordered.congr rfl rfl rfl, waits⟩
  have running : ¬ (gateLeft miner).phase.Over := by
    rw [left.2]
    decide
  unfold GatedMiner.gate
  split
  · next stopped => exact ordered.finish stopped
  · unfold write
    split
    · exact left.1.tick running rfl rfl Phase.noConfusion
    · exact left.1.applying running

theorem Ordered.committed
    (ordered : Ordered miner) {set : Nat}
    (commits : miner.phase = .committing set) (answer : Option Int) :
    Ordered (committed miner set answer) := by
  have running : ¬ miner.phase.Over := by
    rw [commits]
    simp [Phase.Over]
  cases answer with
  | some head => exact ordered.tick running rfl rfl Phase.noConfusion
  | none =>
      have answered : Ordered (miner.observe [.commitAnswered set none,
                .writeError (miner.sets set).forBlock false]) :=
        ordered.congr rfl rfl rfl
      exact answered.applying running

theorem ordered_step
    (ordered : Ordered miner) (step : Step options miner label next) :
    Ordered next := by
  cases step with
  | stage forBlock commit =>
      unfold GatedMiner.stage
      split
      · exact ordered
      · exact ordered.congr rfl rfl rfl
  | start =>
      unfold GatedMiner.start
      split
      · split
        · next stopped => exact ordered.finish stopped
        · next going =>
            refine ⟨?_, ordered.told, Phase.noConfusion⟩
            intro call member
            exact absurd (ordered.told call member) going
      · exact ordered
  | halt => exact ⟨ordered.finished, fun _ _ => rfl, fun _ => rfl⟩
  | stop =>
      refine ⟨?_, fun _ _ => rfl, fun _ => rfl⟩
      intro call member applying
      rcases List.mem_append.1 member with earlier | added
      · exact ordered.finished call earlier applying
      · exact absurd (List.mem_singleton.1 added) applying
  | wake sleeps =>
      unfold GatedMiner.wake
      split
      · next stopped => exact ordered.finish stopped
      · refine ordered.tick ?_ rfl rfl ?_
        · rw [sleeps]
          decide
        · dsimp only
          split <;> exact Phase.noConfusion
  | headRead answer reads =>
      refine ordered.tick ?_ rfl rfl Phase.noConfusion
      rw [reads]
      decide
  | gate waits => exact ordered.gate waits
  | committed set answer commits => exact ordered.committed commits answer
  | applyAnswered set retried succeeded applies =>
      refine ordered.tick ?_ (applyAnswered_stops _ _ _)
        (applyAnswered_stopped _ _ _) Phase.noConfusion
      rw [applies]
      simp [Phase.Over]
  | applyReturned applied returned =>
      have running : ¬ miner.phase.Over := by
        rw [returned]
        simp [Phase.Over]
      unfold GatedMiner.applyReturned held
      split
      · exact ordered.tick running rfl rfl Phase.noConfusion
      · split <;> exact ordered.tick running rfl rfl Phase.noConfusion
  | mineAnswered answer mines =>
      have running : ¬ miner.phase.Over := by
        rw [mines]
        decide
      cases answer <;>
        exact ordered.tick running rfl rfl Phase.noConfusion
  | stopApplies index waits finished =>
      exact ordered.serving waits finished applyStaged_phase applyStaged_stopped
  | stopAnswered index set retried succeeded applies =>
      have finished := ordered.finished _ (List.mem_of_getElem? applies)
          StopCall.noConfusion
      exact ordered.serving applies finished (applyAnswered_phase _ _ _)
        (applyAnswered_stopped _ _ _)
  | stopResolves index applied returned =>
      have finished := ordered.finished _ (List.mem_of_getElem? returned)
          StopCall.noConfusion
      exact ordered.serving returned finished rfl rfl

end Eris.Mining.Stopping
