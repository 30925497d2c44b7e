import Eris.Mining.Stopping

/-!
# What the gated miner keeps

A price set passes as applied by its own write or by a give-up, blocks are
mined on whole price sets until a give-up lets a torn one pass, the mined
heads increase, and a stop lets at most the tick past its gate mine.

The trace is read by summaries: the ticks held in a row, the price set which
is half-applied, whether a give-up has let it pass, and whether another set
was staged since the tick began to apply.
-/

namespace Eris.Mining.Gating

open Foundation.Trace Foundation.Transition GatedMiner Stopping

/-! ## Summaries of a trace -/

def heldAfter : List Nat → Event → List Nat
  | sets, .applyAnswered set true false => sets ++ [set]
  | _, .mineAsked => []
  | _, .commitAnswered _ (some _) => []
  | sets, _ => sets

/-- The price sets whose ticks were held in a row up to now. -/
def heldInRow (trace : List Event) : List Nat := trace.foldl heldAfter []

def tornAfter : Option Nat → Event → Option Nat
  | _, .applyAsked set _ => some set
  | _, .commitAsked set => some set
  | _, .applyAnswered _ _ true => none
  | _, .commitAnswered _ (some _) => none
  | torn, _ => torn

/-- The price set whose write was begun last, unless one was completed. -/
def halfApplied (trace : List Event) : Option Nat := trace.foldl tornAfter none

def givenUpAfter : Bool → Event → Bool
  | _, .applyHeld _ _ true => true
  | _, .applyAsked _ _ => false
  | _, .commitAsked _ => false
  | givenUp, _ => givenUp

/-- The miner gave up, and has not tried to write since. -/
def givenUp (trace : List Event) : Bool := trace.foldl givenUpAfter false

def restagedAfter : Bool → Event → Bool
  | _, .stage _ => true
  | _, .applyAsked _ false => false
  | restaged, _ => restaged

/-- A price set was staged since `applyStaged` was last called. -/
def restaged (trace : List Event) : Bool := trace.foldl restagedAfter false

def minedHead? : Event → Option Int
  | .mined head => some head
  | _ => none

/-- The heads of the mined blocks, in order. -/
def minedHeads (trace : List Event) : List Int := trace.filterMap minedHead?

variable {trace : List Event}

@[simp]
theorem heldInRow_snoc (event : Event) :
    heldInRow (trace ++ [event]) = heldAfter (heldInRow trace) event := by
  simp [heldInRow]

@[simp]
theorem halfApplied_snoc (event : Event) :
    halfApplied (trace ++ [event]) = tornAfter (halfApplied trace) event := by
  simp [halfApplied]

@[simp]
theorem givenUp_snoc (event : Event) :
    givenUp (trace ++ [event]) = givenUpAfter (givenUp trace) event := by
  simp [givenUp]

@[simp]
theorem minedHeads_snoc (event : Event) :
    minedHeads (trace ++ [event]) =
      minedHeads trace ++ (minedHead? event).toList := by
  cases event <;> simp [minedHeads, minedHead?]

@[simp]
theorem restaged_snoc (event : Event) :
    restaged (trace ++ [event]) = restagedAfter (restaged trace) event := by
  simp [restaged]

/-- Storage holds a whole price set, or one which a give-up let pass. -/
def Mineable (trace : List Event) : Prop :=
  halfApplied trace = none ∨ givenUp trace = true

/-- Blocks are asked for, and mined, when storage is mineable. -/
def MayMine (before : List Event) (event : Event) : Prop :=
  event = .mineAsked ∨ isMined event = true → Mineable before

/--
The miner gave up after `maxHeldTicks` ticks held in a row.  Unless another
price set was staged while the last of them tried to apply, that tick was
held for this one.
-/
def GivenUp (trace : List Event) (set : Nat) : Prop :=
  ∃ before forBlock after, trace =
      before ++ .applyHeld forBlock (heldInRow before).length true :: after ∧
    maxHeldTicks ≤ (heldInRow before).length ∧
    (restaged before = false → (heldInRow before).getLast? = some set)

/-- What makes a price set pass as applied. -/
def Marked (trace : List Event) (set : Nat) : Prop :=
  (∃ retried, .applyAnswered set retried true ∈ trace) ∨
    (∃ head, .commitAnswered set (some head) ∈ trace) ∨ GivenUp trace set

theorem Marked.append
    {set : Nat} (marked : Marked trace set) (events : List Event) :
    Marked (trace ++ events) set := by
  rcases marked with ⟨retried, applied⟩ | ⟨head, committed⟩ | givenUp
  · exact Or.inl ⟨retried, List.mem_append_left _ applied⟩
  · exact Or.inr (Or.inl ⟨head, List.mem_append_left _ committed⟩)
  · rcases givenUp with ⟨before, forBlock, after, rfl, enough, last⟩
    refine Or.inr (Or.inr ⟨before, forBlock, after ++ events, ?_, enough, last⟩)
    rw [List.append_assoc, List.cons_append]

/-- Between ticks, the slot is unapplied while storage is not mineable. -/
def Rested (miner : Miner) : Prop :=
  (heldInRow miner.trace).length = miner.heldTicks ∧
    (Mineable miner.trace ∨ miner.current.applied = false)

/-- What the trace says when the loop is at a phase. -/
def Placed (miner : Miner) : Phase → Prop
  | .unstarted => miner.stopped = false → Rested miner
  | .sleeping => Rested miner
  | .reading => Rested miner
  | .gating => Rested miner
  | .committing _ =>
      (heldInRow miner.trace).length = miner.heldTicks ∧
        miner.current.applied = false
  | .applying (.awaiting set _) =>
      (heldInRow miner.trace).length = miner.heldTicks ∧
        miner.current.applied = false ∧
          (restaged miner.trace = false → miner.staged = set)
  | .applying (.returned true) => Mineable miner.trace
  | .applying (.returned false) =>
      (heldInRow miner.trace).length = miner.heldTicks + 1 ∧
        miner.current.applied = false ∧ (restaged miner.trace = false →
            (heldInRow miner.trace).getLast? = some miner.staged)
  | .mining =>
      (heldInRow miner.trace).length = miner.heldTicks ∧ Mineable miner.trace
  | .ended => True

variable {options : Options} {miner next : Miner} {label : Label}
  {phase : Phase}

/-- Events which no summary of the trace notices. -/
def isUnnoticed : Event → Bool
  | .commitAnswered _ none => true
  | .mineAnswered _ => true
  | .gateTimeout _ _ => true
  | .writeError _ _ => true
  | .mined _ => true
  | .mineError _ => true
  | .halt => true
  | .stop => true
  | .stopResolved => true
  | .loopEnded => true
  | _ => false

theorem unnoticed_snoc
    (trace : List Event) {event : Event}
    (unnoticed : isUnnoticed event = true) :
    heldInRow (trace ++ [event]) = heldInRow trace ∧
      halfApplied (trace ++ [event]) = halfApplied trace ∧
        givenUp (trace ++ [event]) = givenUp trace ∧
          restaged (trace ++ [event]) = restaged trace := by
  rw [heldInRow_snoc, halfApplied_snoc, givenUp_snoc, restaged_snoc]
  unfold isUnnoticed at unnoticed
  split at unnoticed
  all_goals first
    | exact ⟨rfl, rfl, rfl, rfl⟩
    | cases unnoticed

theorem unnoticed_append
    (trace events : List Event) (unnoticed : events.all isUnnoticed = true) :
    heldInRow (trace ++ events) = heldInRow trace ∧
      halfApplied (trace ++ events) = halfApplied trace ∧
        givenUp (trace ++ events) = givenUp trace ∧
          restaged (trace ++ events) = restaged trace := by
  induction events generalizing trace with
  | nil =>
      rw [List.append_nil]
      exact ⟨rfl, rfl, rfl, rfl⟩
  | cons event rest ih =>
      rw [List.all_cons, Bool.and_eq_true] at unnoticed
      have first := unnoticed_snoc trace unnoticed.1
      have later := ih (trace ++ [event]) unnoticed.2
      rw [List.append_assoc, List.singleton_append] at later
      rw [later.1, later.2.1, later.2.2.1, later.2.2.2]
      exact first

theorem Placed.unnoticed
    (events : List Event) (placed : Placed miner phase)
    (grown : next.trace = miner.trace ++ events)
    (unnoticed : events.all isUnnoticed = true) (sets : next.sets = miner.sets)
    (staged : next.staged = miner.staged)
    (heldTicks : next.heldTicks = miner.heldTicks)
    (stopped : miner.stopped = true → next.stopped = true) :
    Placed next phase := by
  have current : next.current = miner.current := by
    rw [Miner.current, Miner.current, sets, staged]
  rcases unnoticed_append miner.trace events unnoticed with
    ⟨held, torn, gaveUp, moved⟩
  rw [← grown] at held torn gaveUp moved
  unfold Placed Rested Mineable at *
  rw [held, torn, gaveUp, moved, current, staged, heldTicks]
  split at placed <;> grind

theorem Placed.stage
    (placed : Placed miner phase) (forBlock : Int) (commit : Bool) :
    Placed (stage miner forBlock commit) phase := by
  unfold GatedMiner.stage
  split
  · exact placed
  · unfold Placed Rested Mineable Miner.current at *
    simp only [heldInRow_snoc, halfApplied_snoc, givenUp_snoc,
      restaged_snoc, heldAfter, tornAfter, givenUpAfter, restagedAfter,
      Function.update_self]
    split at placed <;> grind

theorem placed_applying
    (held : (heldInRow miner.trace).length = miner.heldTicks)
    (slot : Mineable miner.trace ∨ miner.current.applied = false) :
    Placed (applying miner) (applying miner).phase := by
  unfold applying applyStaged
  split
  · next applied =>
      rw [applied] at slot
      exact slot.resolve_right Bool.noConfusion
  · next unapplied =>
      refine ⟨?_, ?_, fun _ => rfl⟩
      · simpa [Miner.observe, heldAfter] using held
      · simpa [Miner.observe, Miner.current] using unapplied

theorem placed_write (rested : Rested miner) :
    Placed (write miner) (write miner).phase := by
  unfold write
  split
  · next commits =>
      rw [Bool.and_eq_true, Bool.not_eq_true'] at commits
      refine ⟨?_, commits.1⟩
      simpa [Miner.observe, heldAfter] using rested.1
  · exact placed_applying rested.1 rested.2

theorem Placed.gate (placed : Placed miner .gating) :
    Placed (gate miner) (gate miner).phase := by
  unfold GatedMiner.gate
  split
  · exact trivial
  · apply placed_write
    have left : Placed (gateLeft miner) .gating := by
      unfold gateLeft
      split
      · exact placed
      · exact placed.unnoticed [.gateTimeout miner.head miner.current.forBlock]
          rfl rfl rfl rfl rfl id
    exact left

theorem placed_mine (mineable : Mineable miner.trace) :
    Placed (mine miner) (mine miner).phase := by
  refine ⟨?_, ?_⟩
  · simp [mine, Miner.observe, heldAfter]
  · unfold Mineable at *
    simpa [mine, Miner.observe, tornAfter, givenUpAfter] using mineable

theorem placed_minedAt
    (held : (heldInRow miner.trace).length = miner.heldTicks)
    (mineable : Mineable miner.trace) (answer : Int) :
    Placed (minedAt miner answer) (minedAt miner answer).phase := by
  refine ⟨?_, Or.inl ?_⟩
  · simpa [minedAt, Miner.observe, heldAfter] using held
  · unfold Mineable at *
    simpa [minedAt, Miner.observe, tornAfter, givenUpAfter] using mineable

theorem placed_committed
    {set : Nat} (placed : Placed miner (.committing set))
    (answer : Option Int) :
    Placed (committed miner set answer) (committed miner set answer).phase := by
  cases answer with
  | some head =>
      apply placed_minedAt
      · simp [Miner.observe, Miner.mark, heldAfter]
      · left
        simp [Miner.observe, Miner.mark, tornAfter]
  | none =>
      apply placed_applying
      · have quiet := unnoticed_append miner.trace [.commitAnswered set none,
              .writeError (miner.sets set).forBlock false]
            rfl
        exact (congrArg List.length quiet.1).trans placed.1
      · exact Or.inr placed.2

theorem placed_applyAnswered
    {set : Nat} {retried : Bool}
    (placed : Placed miner (.applying (.awaiting set retried)))
    (succeeded : Bool) :
    Placed (applyAnswered miner set retried succeeded).1
      (.applying (applyAnswered miner set retried succeeded).2) := by
  rcases placed with ⟨held, unapplied, same⟩
  cases succeeded with
  | true =>
      left
      simp [applyAnswered, Miner.observe, Miner.mark, tornAfter]
  | false =>
      cases retried with
      | true =>
          refine ⟨?_, unapplied, ?_⟩
          · simp [applyAnswered, Miner.observe, heldInRow, heldAfter]
            exact held
          · intro unmoved
            simp [applyAnswered, Miner.observe, heldInRow, heldAfter,
              restaged, restagedAfter] at unmoved ⊢
            exact (same unmoved).symm
      | false =>
          refine ⟨?_, unapplied, ?_⟩
          · simp [applyAnswered, Miner.observe, heldInRow, heldAfter]
            exact held
          · intro unmoved
            simp [applyAnswered, Miner.observe,
              restaged, restagedAfter] at unmoved ⊢
            exact same unmoved

theorem placed_held (placed : Placed miner (.applying (.returned false))) :
    Placed (held miner) (held miner).phase := by
  rcases placed with ⟨row, unapplied, last⟩
  unfold held
  split
  · apply placed_mine
    right
    simp [Miner.observe, Miner.mark, givenUpAfter]
  · refine ⟨?_, Or.inr unapplied⟩
    simpa [Miner.observe, heldAfter] using row

theorem placed_mineAnswered
    (placed : Placed miner .mining) (answer : Option Int) :
    Placed (mineAnswered miner answer) (mineAnswered miner answer).phase := by
  rcases placed with ⟨row, mineable⟩
  cases answer with
  | some head =>
      apply placed_minedAt
      · simpa [Miner.observe, heldAfter] using row
      · unfold Mineable at *
        simpa [Miner.observe, tornAfter, givenUpAfter] using mineable
  | none =>
      have rested : Placed miner .sleeping := ⟨row, Or.inl mineable⟩
      exact rested.unnoticed [.mineAnswered none, .mineError miner.head]
        rfl rfl rfl rfl rfl id

theorem placed_of_over
    (finished : next.phase.Over) (stopped : next.stopped = true) :
    Placed next next.phase := by
  rcases finished with unstarted | ended
  · rw [unstarted]
    intro going
    rw [stopped] at going
    cases going
  · rw [ended]
    trivial

theorem placed_step
    (ordered : Ordered miner) (placed : Placed miner miner.phase)
    (step : Step options miner label next) :
    Placed next next.phase := by
  cases step with
  | stage forBlock commit =>
      have same :
          (GatedMiner.stage miner forBlock commit).phase = miner.phase := by
        unfold GatedMiner.stage
        split <;> rfl
      rw [same]
      exact placed.stage forBlock commit
  | start =>
      unfold GatedMiner.start
      split
      · next unstarted =>
          split
          · trivial
          · next going =>
              rw [unstarted] at placed
              exact placed (Bool.not_eq_true _ ▸ going)
      · exact placed
  | halt =>
      exact placed.unnoticed [.halt] rfl rfl rfl rfl rfl (fun _ => rfl)
  | stop =>
      exact placed.unnoticed [.stop] rfl rfl rfl rfl rfl (fun _ => rfl)
  | wake sleeps =>
      rw [sleeps] at placed
      unfold GatedMiner.wake
      split
      · trivial
      · cases options.readsHead <;> exact placed
  | headRead answer reads =>
      rw [reads] at placed
      exact placed
  | gate waits =>
      rw [waits] at placed
      exact placed.gate
  | committed set answer commits =>
      rw [commits] at placed
      exact placed_committed placed answer
  | applyAnswered set retried succeeded applies =>
      rw [applies] at placed
      exact placed_applyAnswered placed succeeded
  | applyReturned applied returned =>
      rw [returned] at placed
      cases applied with
      | true => exact placed_mine placed
      | false => exact placed_held placed
  | mineAnswered answer mines =>
      rw [mines] at placed
      exact placed_mineAnswered placed answer
  | stopApplies index waits finished =>
      have stopped := ordered.told _ (List.mem_of_getElem? waits)
      apply placed_of_over
      · exact applyStaged_phase.symm ▸ finished
      · exact applyStaged_stopped.trans stopped
  | stopAnswered index set retried succeeded applies =>
      have listed := List.mem_of_getElem? applies
      have finished := ordered.finished _ listed StopCall.noConfusion
      apply placed_of_over
      · exact (applyAnswered_phase set retried succeeded).symm ▸ finished
      · exact (applyAnswered_stopped set retried succeeded).trans
          (ordered.told _ listed)
  | stopResolves index applied returned =>
      exact placed.unnoticed [.stopResolved] rfl rfl rfl rfl rfl id

/-- The loop and the calls of `stop` are where the trace says. -/
structure Located (miner : Miner) : Prop where
  ordered : Ordered miner
  placed : Placed miner miner.phase

theorem located_of_reachable
    (reachable : (protocol options).Reachable System.anything miner) :
    Located miner := by
  refine reachable.invariant ?_ ?_
  · rintro _ rfl
    refine ⟨?_, fun _ => ⟨rfl, Or.inl (Or.inl rfl)⟩⟩
    exact ⟨by simp [create], by simp [create], Phase.noConfusion⟩
  · rintro _ _ _ ⟨ordered, placed⟩ _ step
    exact ⟨ordered_step ordered step, placed_step ordered placed step⟩

/-! ## What is kept -/

/-- What staging, marking and mining leave behind. -/
structure Kept (options : Options) (miner : Miner) : Prop where
  fresh : ∀ set, .stage set ∈ miner.trace → set ≤ miner.allocated
  marked : ∀ set, .stage set ∈ miner.trace →
      (miner.sets set).applied = true → Marked miner.trace set
  whole : Whenever MayMine miner.trace
  known :
    ∀ head ∈ options.startHead :: minedHeads miner.trace, head ≤ miner.head
  increasing : (options.startHead :: minedHeads miner.trace).Pairwise (· < ·)

/-- Events other than the staging of a set and the mining of a block. -/
def isOther : Event → Bool
  | .stage _ => false
  | .mineAsked => false
  | .mined _ => false
  | _ => true

theorem minedHeads_append
    {events : List Event} (other : events.all isOther = true) :
    minedHeads (trace ++ events) = minedHeads trace := by
  unfold minedHeads
  rw [List.filterMap_append, List.append_right_eq_self,
    List.filterMap_eq_nil_iff]
  intro event member
  have kind := List.all_eq_true.1 other event member
  cases event <;> first | rfl | cases kind

theorem Kept.other
    (events : List Event) (kept : Kept options miner)
    (grown : next.trace = miner.trace ++ events)
    (other : events.all isOther = true) (sets : next.sets = miner.sets)
    (allocated : next.allocated = miner.allocated)
    (head : miner.head ≤ next.head) :
    Kept options next := by
  have old : ∀ set, .stage set ∈ next.trace → .stage set ∈ miner.trace := by
    intro set member
    rw [grown] at member
    rcases List.mem_append.1 member with earlier | added
    · exact earlier
    · cases List.all_eq_true.1 other _ added
  have mined : minedHeads next.trace = minedHeads miner.trace := by
    rw [grown]
    exact minedHeads_append other
  constructor
  · intro set member
    rw [allocated]
    exact kept.fresh set (old set member)
  · intro set member applied
    rw [sets] at applied
    rw [grown]
    exact (kept.marked set (old set member) applied).append events
  · rw [grown]
    apply kept.whole.append
    intro event member before mines
    have kind := List.all_eq_true.1 other event member
    rcases mines with rfl | mines
    · cases kind
    · cases event with
      | mined head => nomatch kind
      | _ => nomatch mines
  · rw [mined]
    intro block member
    exact le_trans (kept.known block member) head
  · rw [mined]
    exact kept.increasing

theorem Kept.stage
    (kept : Kept options miner) (forBlock : Int) (commit : Bool) :
    Kept options (stage miner forBlock commit) := by
  unfold GatedMiner.stage
  split
  · exact kept
  · have heads : minedHeads (miner.trace ++ [.stage (miner.allocated + 1)]) =
          minedHeads miner.trace :=
      (minedHeads_snoc _).trans (List.append_nil _)
    constructor
    · intro set member
      rcases List.mem_append.1 member with earlier | added
      · exact le_trans (kept.fresh set earlier) (Nat.le_succ _)
      · cases List.mem_singleton.1 added
        exact le_rfl
    · intro set member applied
      dsimp only at member applied ⊢
      by_cases same : set = miner.allocated + 1
      · rw [same, Function.update_self] at applied
        cases applied
      · rw [Function.update_of_ne same] at applied
        rcases List.mem_append.1 member with earlier | added
        · exact (kept.marked set earlier applied).append _
        · cases List.mem_singleton.1 added
          exact absurd rfl same
    · dsimp only
      rw [whenever_snoc]
      exact ⟨kept.whole, fun mines => by simp [isMined] at mines⟩
    · rw [heads]
      exact kept.known
    · rw [heads]
      exact kept.increasing

theorem Kept.mark
    {set : Nat} (kept : Kept options miner) (marked : Marked miner.trace set) :
    Kept options (miner.mark set) where
  fresh := kept.fresh
  marked := by
    intro other member applied
    by_cases same : other = set
    · rw [same]
      exact marked
    · rw [Miner.mark] at applied
      dsimp only at applied
      rw [Function.update_of_ne same] at applied
      exact kept.marked other member applied
  whole := kept.whole
  known := kept.known
  increasing := kept.increasing

theorem Kept.mine
    (kept : Kept options miner) (mineable : Mineable miner.trace) :
    Kept options (mine miner) := by
  have heads :
      minedHeads (GatedMiner.mine miner).trace = minedHeads miner.trace :=
    (minedHeads_snoc _).trans (List.append_nil _)
  constructor
  · intro set member
    simp only [GatedMiner.mine, Miner.observe, List.mem_append,
      List.mem_singleton, reduceCtorEq, or_false] at member
    exact kept.fresh set member
  · intro set member applied
    simp only [GatedMiner.mine, Miner.observe, List.mem_append,
      List.mem_singleton, reduceCtorEq, or_false] at member
    exact (kept.marked set member applied).append [.mineAsked]
  · exact (whenever_snoc _).2 ⟨kept.whole, fun _ => mineable⟩
  · rw [heads]
    exact kept.known
  · rw [heads]
    exact kept.increasing

theorem Kept.minedAt
    (kept : Kept options miner) (mineable : Mineable miner.trace)
    (answer : Int) :
    Kept options (minedAt miner answer) := by
  have above : miner.head < max (miner.head + 1) answer :=
    lt_of_lt_of_le (lt_add_one _) (le_max_left _ _)
  have heads : minedHeads (GatedMiner.minedAt miner answer).trace =
        minedHeads miner.trace ++ [max (miner.head + 1) answer] :=
    minedHeads_snoc _
  constructor
  · intro set member
    simp only [GatedMiner.minedAt, Miner.observe, List.mem_append,
      List.mem_singleton, reduceCtorEq, or_false] at member
    exact kept.fresh set member
  · intro set member applied
    simp only [GatedMiner.minedAt, Miner.observe, List.mem_append,
      List.mem_singleton, reduceCtorEq, or_false] at member
    exact (kept.marked set member applied).append [.mined _]
  · exact (whenever_snoc _).2 ⟨kept.whole, fun _ => mineable⟩
  · rw [heads, ← List.cons_append]
    intro block member
    rcases List.mem_append.1 member with earlier | added
    · exact le_trans (kept.known block earlier) above.le
    · exact (List.mem_singleton.1 added).le
  · rw [heads, ← List.cons_append, List.pairwise_append]
    refine ⟨kept.increasing, List.pairwise_singleton _ _, ?_⟩
    intro block earlier other added
    rw [List.mem_singleton.1 added]
    exact lt_of_le_of_lt (kept.known block earlier) above

theorem Kept.applyStaged (kept : Kept options miner) :
    Kept options (applyStaged miner).1 := by
  unfold GatedMiner.applyStaged
  split
  · exact kept
  · exact kept.other [.applyAsked miner.staged false] rfl rfl rfl rfl le_rfl

theorem Kept.applying (kept : Kept options miner) :
    Kept options (applying miner) :=
  kept.applyStaged.other [] (List.append_nil _).symm rfl rfl rfl le_rfl

theorem Kept.applyAnswered
    (kept : Kept options miner) (set : Nat) (retried succeeded : Bool) :
    Kept options (applyAnswered miner set retried succeeded).1 := by
  cases succeeded with
  | true =>
      have answered : Kept options
            (miner.observe [.applyAnswered set retried true]) :=
        kept.other [.applyAnswered set retried true] rfl rfl rfl rfl le_rfl
      apply answered.mark
      left
      exact ⟨retried, List.mem_append_right _ List.mem_cons_self⟩
  | false =>
      cases retried with
      | true =>
          exact kept.other [.applyAnswered set true false, .writeError _ true]
            rfl rfl rfl rfl le_rfl
      | false =>
          exact kept.other [.applyAnswered set false false, .writeError _ false,
              .applyAsked set true]
            rfl rfl rfl rfl le_rfl

theorem Kept.gate (kept : Kept options miner) :
    Kept options (gate miner) := by
  unfold GatedMiner.gate
  split
  · exact kept.other [.loopEnded] rfl rfl rfl rfl le_rfl
  · have left : Kept options (gateLeft miner) := by
      unfold gateLeft
      split
      · exact kept
      · exact kept.other [.gateTimeout _ _] rfl rfl rfl rfl le_rfl
    unfold write
    split
    · exact left.other [.commitAsked _] rfl rfl rfl rfl le_rfl
    · exact left.applying

theorem Kept.committed
    (kept : Kept options miner) (set : Nat) (answer : Option Int) :
    Kept options (committed miner set answer) := by
  cases answer with
  | some head =>
      have answered :
          Kept options (miner.observe [.commitAnswered set (some head)]) :=
        kept.other [.commitAnswered set (some head)] rfl rfl rfl rfl le_rfl
      have marked : Kept options
          ((miner.observe [.commitAnswered set (some head)]).mark set) := by
        apply answered.mark
        right
        left
        exact ⟨head, List.mem_append_right _ List.mem_cons_self⟩
      have cleared : Kept options
            { (miner.observe [.commitAnswered set (some head)]).mark set
              with heldTicks := 0 } :=
        marked.other [] (List.append_nil _).symm rfl rfl rfl le_rfl
      apply cleared.minedAt
      left
      simp [Miner.observe, Miner.mark, tornAfter]
  | none =>
      have answered : Kept options (miner.observe [.commitAnswered set none,
                .writeError (miner.sets set).forBlock false]) :=
        kept.other [.commitAnswered set none,
            .writeError (miner.sets set).forBlock false]
          rfl rfl rfl rfl le_rfl
      exact answered.applying

theorem Kept.held
    (kept : Kept options miner)
    (placed : Placed miner (.applying (.returned false))) :
    Kept options (held miner) := by
  rcases placed with ⟨row, _, last⟩
  unfold GatedMiner.held
  split
  · next enough =>
      have reported : Kept options (miner.observe
              [.applyHeld miner.current.forBlock (miner.heldTicks + 1) true]) :=
        kept.other [.applyHeld _ _ true] rfl rfl rfl rfl le_rfl
      have marked : Kept options ((miner.observe
          [.applyHeld miner.current.forBlock (miner.heldTicks + 1)
            true]).mark miner.staged) := by
        apply reported.mark
        right
        right
        refine ⟨miner.trace, miner.current.forBlock, [], ?_, ?_, last⟩
        · rw [row]
          rfl
        · rw [row]
          exact enough
      apply marked.mine
      right
      simp [Miner.observe, Miner.mark, givenUpAfter]
  · exact kept.other [.applyHeld _ _ false] rfl rfl rfl rfl le_rfl

theorem Kept.mineAnswered
    (kept : Kept options miner) (placed : Placed miner .mining)
    (answer : Option Int) :
    Kept options (mineAnswered miner answer) := by
  cases answer with
  | some head =>
      have answered :
          Kept options (miner.observe [.mineAnswered (some head)]) :=
        kept.other [.mineAnswered (some head)] rfl rfl rfl rfl le_rfl
      apply answered.minedAt
      have mineable := placed.2
      unfold Mineable at mineable ⊢
      simpa [Miner.observe, tornAfter, givenUpAfter] using mineable
  | none =>
      exact kept.other [.mineAnswered none, .mineError _] rfl rfl rfl rfl le_rfl

theorem kept_step
    (located : Located miner) (kept : Kept options miner)
    (step : Step options miner label next) :
    Kept options next := by
  have placed := located.placed
  cases step with
  | stage forBlock commit => exact kept.stage forBlock commit
  | start =>
      unfold GatedMiner.start
      split
      · split
        · exact kept.other [.loopEnded] rfl rfl rfl rfl le_rfl
        · exact kept.other [] (List.append_nil _).symm rfl rfl rfl le_rfl
      · exact kept
  | halt => exact kept.other [.halt] rfl rfl rfl rfl le_rfl
  | stop => exact kept.other [.stop] rfl rfl rfl rfl le_rfl
  | wake sleeps =>
      unfold GatedMiner.wake
      split
      · exact kept.other [.loopEnded] rfl rfl rfl rfl le_rfl
      · exact kept.other [] (List.append_nil _).symm rfl rfl rfl le_rfl
  | headRead answer reads =>
      refine kept.other [] (List.append_nil _).symm rfl rfl rfl ?_
      cases answer with
      | some head => exact le_max_left _ _
      | none => exact le_rfl
  | gate waits => exact kept.gate
  | committed set answer commits => exact kept.committed set answer
  | applyAnswered set retried succeeded applies =>
      exact (kept.applyAnswered set retried succeeded).other []
        (List.append_nil _).symm rfl rfl rfl le_rfl
  | applyReturned applied returned =>
      rw [returned] at placed
      cases applied with
      | true => exact kept.mine placed
      | false => exact kept.held placed
  | mineAnswered answer mines =>
      rw [mines] at placed
      exact kept.mineAnswered placed answer
  | stopApplies index waits finished =>
      exact kept.applyStaged.other [] (List.append_nil _).symm rfl rfl rfl
        le_rfl
  | stopAnswered index set retried succeeded applies =>
      exact (kept.applyAnswered set retried succeeded).other []
        (List.append_nil _).symm rfl rfl rfl le_rfl
  | stopResolves index applied returned =>
      exact kept.other [.stopResolved] rfl rfl rfl rfl le_rfl

/-- What holds of every miner, however its calls are interleaved. -/
structure Laws (options : Options) (miner : Miner) : Prop where
  marked : ∀ set, .stage set ∈ miner.trace →
      (miner.sets set).applied = true → Marked miner.trace set
  whole : Whenever MayMine miner.trace
  increasing : (options.startHead :: minedHeads miner.trace).Pairwise (· < ·)
  asksOnce : countSince isStop asksForBlock miner.trace ≤ 1
  minesOnce : countSince isStop isMined miner.trace ≤ 1
  beforeGate : ∀ later, miner.stopped = true → pastGate miner.phase = false →
      (protocol options).Runs System.anything miner later →
        Settled miner.trace later
  resolved : .resolved ∈ miner.stops →
      miner.stopped = true ∧ pastGate miner.phase = false

structure Sound (options : Options) (miner : Miner) : Prop where
  located : Located miner
  kept : Kept options miner
  stopping : Stopping miner

theorem sound_of_reachable
    (reachable : (protocol options).Reachable System.anything miner) :
    Sound options miner := by
  rcases reachable with ⟨start, rfl, run⟩
  have preserved : ∀ before label after, Sound options before →
      System.anything before label →
        (protocol options).step before label after → Sound options after := by
    rintro before _ after ⟨located, kept, stopping⟩ _ step
    constructor
    · constructor
      · exact ordered_step located.ordered step
      · exact placed_step located.ordered located.placed step
    · exact kept_step located kept step
    · exact stopping_step stopping step
  have initially : Sound options (create options) := by
    constructor
    · exact located_of_reachable ⟨create options, rfl, .refl⟩
    · constructor <;> simp [create, minedHeads]
    · constructor <;>
        simp [create, countSince, since, askLimit, mineLimit]
  exact run.invariant preserved initially

/-- The labels of a tick whose set fails both attempts to apply. -/
def heldTick : List Label :=
  [.stage 100 false, .wake, .gate, .applyAnswered false,
    .applyAnswered false, .applyReturned]

/-- The labels of a tick which is stopped while it applies. -/
def stoppedTick : List Label :=
  [.stage 100 false, .start, .wake, .gate, .stop, .applyAnswered true,
    .applyReturned, .mineAnswered (some 101)]

def fromHundred : Options where
  startHead := 100
  readsHead := false

/-- How many ticks were held for the price set itself. -/
def heldFor (trace : List Event) (set : Nat) : Nat :=
  trace.count (.applyAnswered set true false)

theorem scripted_heldTicks :
    (scripted fromHundred (.start :: (heldTick ++ heldTick ++ heldTick))).map
        (fun miner =>
          (miner.trace, (miner.sets 3).applied)) =
      some ([.stage 1, .applyAsked 1 false, .applyAnswered 1 false false,
          .writeError 100 false, .applyAsked 1 true,
          .applyAnswered 1 true false, .writeError 100 true,
          .applyHeld 100 1 false,
          .stage 2, .applyAsked 2 false, .applyAnswered 2 false false,
          .writeError 100 false, .applyAsked 2 true,
          .applyAnswered 2 true false, .writeError 100 true,
          .applyHeld 100 2 false,
          .stage 3, .applyAsked 3 false, .applyAnswered 3 false false,
          .writeError 100 false, .applyAsked 3 true,
          .applyAnswered 3 true false, .writeError 100 true,
          .applyHeld 100 3 true, .mineAsked],
        true) := by
  decide

theorem scripted_stoppedTick :
    (scripted fromHundred stoppedTick).map (·.trace) = some
        [.stage 1, .applyAsked 1 false, .stop, .applyAnswered 1 false true,
          .mineAsked, .mineAnswered (some 101), .mined 101] := by
  decide

end Eris.Mining.Gating
