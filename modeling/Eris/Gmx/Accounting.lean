import Eris.Foundation.Transition
import Eris.Gmx.Planning

/-!
# The keeper loses and duplicates no order

The keeper passes over consecutive ranges of blocks.  An order created in a
range whose scan succeeds is from then on held back, sent to execution,
refused or found gone: one of these, and once.
-/

namespace Eris.Gmx.Accounting

open Foundation Foundation.Transition Leverage Keeper Planning

variable
    {Address Key : Type} [DecidableEq Address] [DecidableEq Key] [Zero Address]

/-! ## Passes over a chain -/

/-- The logs of a range of blocks, both ends included. -/
def rangeLogs
    (chain : Nat → List (EventLog Key)) (fromBlock toBlock : Nat) :
    List (EventLog Key) :=
  (List.range' fromBlock (toBlock + 1 - fromBlock)).flatMap chain

def Distinct (chain : Nat → List (EventLog Key)) : Prop :=
  ∀ fromBlock toBlock, (createdIn (rangeLogs chain fromBlock toBlock)).Nodup

/-- The orders created which a pass finds. -/
def foundIn (view : PassView Address Key) : List Key :=
  match view.logs with
  | .error _ => []
  | .ok logs => createdIn logs

/-- One pass: what it was answered, the keeper before it, what it did. -/
structure Pass (Address Key : Type) where
  view : PassView Address Key
  before : GmxKeeper Address Key
  report : PassReport Address Key

/-- The keeper, the first block not scanned, and the passes so far. -/
structure World (Address Key : Type) where
  keeper : GmxKeeper Address Key
  start : Nat
  next : Nat
  passes : List (Pass Address Key)

namespace World

def passed (world : World Address Key) (view : PassView Address Key) :
    World Address Key where
  keeper := (afterMine view world.keeper).1
  start := world.start
  next := view.toBlock + 1
  passes :=
    world.passes ++ [⟨view, world.keeper, (afterMine view world.keeper).2⟩]

/-- The orders created in the blocks passed over. -/
def created
    (world : World Address Key) (chain : Nat → List (EventLog Key)) :
    List Key :=
  createdIn ((List.range' world.start (world.next - world.start)).flatMap chain)

/-- The orders created in the ranges whose scan succeeded. -/
def found (world : World Address Key) : List Key :=
  world.passes.flatMap fun pass => foundIn pass.view

def waiting (world : World Address Key) : List Key :=
  world.keeper.deferredOrderKeys

/-- The orders sent to execution, pass by pass. -/
def sent (world : World Address Key) : List Key :=
  world.passes.flatMap fun pass =>
    pass.report.executed.map GmxKeeperReadOrder.key

def refused (world : World Address Key) : List Key :=
  world.passes.flatMap fun pass =>
    pass.report.refused.map GmxKeeperRefusal.key

def gone (world : World Address Key) : List Key :=
  world.passes.flatMap fun pass => pass.report.gone

end World

/--
The passes of a keeper over a chain: each takes up where the last one ended,
and its scan finds the logs of the range or fails.
-/
def keeperPasses (chain : Nat → List (EventLog Key)) :
    System (World Address Key) (PassView Address Key) where
  initial world := world = ⟨.fresh, world.start, world.start, []⟩
  step world view next := world.next ≤ view.toBlock ∧
      (view.logs = .ok (rangeLogs chain world.next view.toBlock) ∨
        ∃ error, view.logs = .error error) ∧
      next = world.passed view

/-- The markets a pass has for its check of the cap. -/
def Pass.props (pass : Pass Address Key) :
    Except String (Address → Option (MarketProps Address)) :=
  match pass.view.logs with
  | .error message => .error message
  | .ok logs =>
      (capProps pass.view pass.before (readOrders pass.view pass.before
          (passKeys pass.before logs)).live).1

structure Limited (pass : Pass Address Key) : Prop where
  few : pass.report.executed.length ≤ MAX_ORDER_FILLS_PER_BLOCK
  apart : (pass.report.executed.filterMap positionOf).Nodup
  checked : ∀ order ∈ pass.report.executed,
      needsCapCheck order = true → CapPassed pass.view pass.props order
  read : ∀ order ∈ pass.report.executed, ReadIn pass.view order

/-- Each order found is in one place, once. -/
structure Accounted (world : World Address Key) : Prop where
  places : ∀ key, world.waiting.count key + world.sent.count key +
        world.refused.count key + world.gone.count key =
      if key ∈ world.found then 1 else 0
  limited : ∀ pass ∈ world.passes, Limited pass

section Steps

variable {view : PassView Address Key} {keeper : GmxKeeper Address Key}
    {logs : List (EventLog Key)}

omit [DecidableEq Address] [Zero Address] in
theorem count_passKeys
    (distinct : (keeper.deferredOrderKeys ++ createdIn logs).Nodup)
    (key : Key) :
    (passKeys keeper logs).count key =
      keeper.deferredOrderKeys.count key + (createdIn logs).count key := by
  unfold passKeys
  rw [InsertionMap.nodup_eraseDups.count, ← List.count_append,
    distinct.count]
  simp only [List.mem_eraseDups]

theorem count_deferred
    {keys : List Key} (distinct : keys.Nodup) (key : Key) :
    (keys.filter fun other =>
        decide (other ∈ (keeperOrderPlan view keeper keys).deferred)).count
        key =
      (keeperOrderPlan view keeper keys).deferred.count key := by
  have single := @outcomes_keeperOrderPlan _ _ _ _ _ view keeper keys key
  have once := List.nodup_iff_count_le_one.mp distinct key
  unfold outcomes at single
  by_cases held : key ∈ (keeperOrderPlan view keeper keys).deferred
  · have positive := List.count_pos_iff.mpr held
    have counted : (keys.filter fun other =>
            decide (other ∈ (keeperOrderPlan view keeper keys).deferred)).count
            key =
          keys.count key :=
      List.count_filter (decide_eq_true held)
    omega
  · rw [List.count_eq_zero_of_not_mem held, List.count_eq_zero]
    intro member
    exact held (of_decide_eq_true (List.mem_filter.mp member).2)

theorem places_afterMine
    (distinct : (keeper.deferredOrderKeys ++ foundIn view).Nodup) (key : Key) :
    (afterMine view keeper).1.deferredOrderKeys.count key +
        ((afterMine view keeper).2.executed.map
          GmxKeeperReadOrder.key).count key +
        ((afterMine view keeper).2.refused.map GmxKeeperRefusal.key).count key +
        (afterMine view keeper).2.gone.count key =
      keeper.deferredOrderKeys.count key + (foundIn view).count key := by
  cases scanned : view.logs with
  | error message =>
      have nothing : afterMine view keeper = (keeper, .nothing) := by
        unfold afterMine
        rw [scanned]
      have none : foundIn view = [] := by
        unfold foundIn
        rw [scanned]
      rw [nothing, none]
      rfl
  | ok logs =>
      have found : foundIn view = createdIn logs := by
        unfold foundIn
        rw [scanned]
      rw [found] at distinct ⊢
      have keysDistinct : (passKeys keeper logs).Nodup :=
        InsertionMap.nodup_eraseDups
      have single := @outcomes_keeperOrderPlan _ _ _ _ _ view keeper
          (passKeys keeper logs) key
      have held := @count_deferred _ _ _ _ _ view keeper _ keysDistinct key
      rw [count_passKeys distinct] at single
      unfold outcomes at single
      unfold afterMine
      rw [scanned]
      dsimp only
      omega

theorem limited_nothing : Limited ⟨view, keeper, .nothing⟩ where
  few := Nat.zero_le _
  apart := List.nodup_nil
  checked _ listed := nomatch listed
  read _ listed := nomatch listed

theorem limited_afterMine :
    Limited ⟨view, keeper, (afterMine view keeper).2⟩ := by
  cases scanned : view.logs with
  | error message =>
      have nothing : (afterMine view keeper).2 = .nothing := by
        unfold afterMine
        rw [scanned]
      rw [nothing]
      exact limited_nothing
  | ok logs =>
      have sendable :=
        @sendable_keeperOrderPlan _ _ _ _ _ view keeper (passKeys keeper logs)
      have executed : (afterMine view keeper).2.executed =
          (keeperOrderPlan view keeper (passKeys keeper logs)).execute := by
        unfold afterMine
        rw [scanned]
      have props : Pass.props ⟨view, keeper, (afterMine view keeper).2⟩ =
          (capProps view keeper
            (readOrders view keeper (passKeys keeper logs)).live).1 := by
        unfold Pass.props
        rw [scanned]
      constructor
      · change (afterMine view keeper).2.executed.length ≤ _
        rw [executed]
        exact sendable.few
      · change ((afterMine view keeper).2.executed.filterMap _).Nodup
        rw [executed, ← sendable.touched]
        exact sendable.apart
      · rw [props]
        change ∀ order ∈ (afterMine view keeper).2.executed, _
        rw [executed]
        exact sendable.checked
      · change ∀ order ∈ (afterMine view keeper).2.executed, _
        rw [executed]
        exact sendable.read

end Steps

/-! ## Along a run -/

section Runs

variable {chain : Nat → List (EventLog Key)} {world : World Address Key}
    {view : PassView Address Key}

structure Kept
    (chain : Nat → List (EventLog Key)) (world : World Address Key) :
    Prop where
  begun : world.start ≤ world.next
  part : world.found.Sublist (world.created chain)
  accounted : Accounted world

theorem created_passed
    (begun : world.start ≤ world.next) (later : world.next ≤ view.toBlock) :
    (world.passed view).created chain = world.created chain ++
        createdIn (rangeLogs chain world.next view.toBlock) := by
  have length : view.toBlock + 1 - world.start =
      (world.next - world.start) + (view.toBlock + 1 - world.next) := by
    omega
  have start : world.next = world.start + (world.next - world.start) := by
    omega
  change createdIn ((List.range' world.start
    (view.toBlock + 1 - world.start)).flatMap chain) = _
  unfold World.created rangeLogs createdIn
  rw [length, ← List.range'_append_1, ← start, List.flatMap_append,
    List.filterMap_append]

theorem found_passed :
    (world.passed view).found = world.found ++ foundIn view := by
  unfold World.found World.passed
  rw [List.flatMap_append, List.flatMap_singleton]

omit [DecidableEq Address] [DecidableEq Key] [Zero Address] in
theorem foundIn_sublist
    (scan : view.logs = .ok (rangeLogs chain world.next view.toBlock) ∨
        ∃ error, view.logs = .error error) :
    (foundIn view).Sublist
      (createdIn (rangeLogs chain world.next view.toBlock)) := by
  unfold foundIn
  rcases scan with scanned | ⟨error, failed⟩
  · rw [scanned]
  · rw [failed]
    exact List.nil_sublist _

theorem accounted_passed
    (accounted : Accounted world)
    (distinct : (world.found ++ foundIn view).Nodup) :
    Accounted (world.passed view) := by
  have places := accounted.places
  have before (key : Key) :=
    (List.Nodup.of_append_left distinct).count (a := key)
  have once := List.nodup_iff_count_le_one.mp distinct
  have fresh : (world.keeper.deferredOrderKeys ++ foundIn view).Nodup := by
    rw [List.nodup_iff_count_le_one]
    intro key
    have place := places key
    have single := once key
    rw [← before key] at place
    unfold World.waiting at place
    rw [List.count_append] at single ⊢
    omega
  constructor
  · intro key
    have place := places key
    have pass := @places_afterMine _ _ _ _ _ view world.keeper fresh key
    rw [← before key] at place
    rw [found_passed, ← distinct.count (a := key), List.count_append]
    simp only [World.waiting, World.sent, World.refused, World.gone,
      World.passed, List.flatMap_append, List.flatMap_cons,
      List.flatMap_nil, List.append_nil, List.count_append] at place ⊢
    omega
  · intro pass listed
    rcases List.mem_append.mp listed with earlier | latest
    · exact accounted.limited pass earlier
    · rw [List.mem_singleton.mp latest]
      exact limited_afterMine

theorem kept_step
    {next : World Address Key}
    (distinct : Distinct chain) (kept : Kept chain world)
    (step : (keeperPasses chain).step world view next) :
    Kept chain next := by
  rcases step with ⟨later, scan, rfl⟩
  have part : (world.passed view).found.Sublist
      ((world.passed view).created chain) := by
    rw [found_passed, created_passed kept.begun later]
    exact kept.part.append (foundIn_sublist scan)
  constructor
  · have begun := kept.begun
    change world.start ≤ view.toBlock + 1
    omega
  · exact part
  · apply accounted_passed kept.accounted
    rw [← found_passed]
    exact part.nodup (distinct world.start view.toBlock)

end Runs

/--
Each order found is in one place, once, whatever fails; and each pass keeps to
its limits.
-/
theorem accounted_of_reachable
    {chain : Nat → List (EventLog Key)} (distinct : Distinct chain)
    {world : World Address Key}
    (reachable : (keeperPasses chain).Reachable System.anything world) :
    Accounted world := by
  have kept : Kept chain world := by
    apply @System.Reachable.invariant _ _ _ _ (Kept chain) _ _ _ reachable
    · intro start initial
      rw [initial]
      exact
        ⟨Nat.le_refl _, List.nil_sublist _, fun _ => rfl,
          fun _ listed => nomatch listed⟩
    · intro source label target kept _ step
      exact kept_step distinct kept step
  exact kept.accounted

/-- One order, created in the tenth block. -/
def exampleChain (block : Nat) : List (EventLog Nat) :=
  if block = 10 then [⟨true, some 1⟩] else []

def exampleOrder (orderType : Int) : OrderProps Nat where
  account := 7
  callbackContract := 0
  market := 1
  initialCollateralToken := 2
  swapPath := []
  orderType := orderType
  callbackGasLimit := 0
  sizeDeltaUsd := 0
  initialCollateralDeltaAmount := 500
  isLong := true

/-- A pass over one block in which the markets cannot be read. -/
def exampleView
    (block : Nat) (answer : Except String (OrderProps Nat)) :
    PassView Nat Nat where
  toBlock := block
  logs := .ok (rangeLogs exampleChain block block)
  order _ := answer
  price _ := none
  capMarkets := .error "timeout"
  capReads := .error "timeout"
  sendOrder _ := none
  positionKeys := .ok []
  positions := .error "timeout"
  liquidationMarkets := .error "timeout"
  verdicts := .error "timeout"
  sendLiquidation _ := none

def exampleOpened : World Nat Nat := ⟨.fresh, 10, 10, []⟩

theorem exampleChain_distinct : Distinct exampleChain := by
  intro fromBlock toBlock
  have found : createdIn (rangeLogs exampleChain fromBlock toBlock) =
      (List.range' fromBlock (toBlock + 1 - fromBlock)).filterMap
        fun block => if block = 10 then some 1 else none := by
    unfold createdIn rangeLogs
    generalize List.range' fromBlock (toBlock + 1 - fromBlock) = blocks
    induction blocks with
    | nil => rfl
    | cons block rest ih =>
        rw [List.flatMap_cons, List.filterMap_append, ih]
        by_cases tenth : block = 10
        · subst tenth
          rfl
        · simp only [exampleChain, tenth, if_false, List.filterMap_cons]
          rfl
  rw [found]
  apply List.Nodup.filterMap _ List.nodup_range'
  intro first second key one other
  rw [Option.mem_def, Option.ite_none_right_eq_some] at one other
  rw [one.1, other.1]

/-- An order which cannot be read at first is sent by the next pass. -/
theorem exampleSwap_accounted :
    Accounted ((exampleOpened.passed (exampleView 10 (.error "timeout"))).passed
          (exampleView 11 (.ok (exampleOrder 0)))) ∧
      ((exampleOpened.passed (exampleView 10 (.error "timeout"))).passed
          (exampleView 11 (.ok (exampleOrder 0)))).sent =
        [1] := by
  constructor
  · apply accounted_of_reachable exampleChain_distinct
    refine ⟨exampleOpened, rfl, ?_⟩
    have first := (Relation.ReflTransGen.refl
        (r := (keeperPasses exampleChain).Moves System.anything)
        (a := exampleOpened)).tail
        ⟨exampleView 10 (.error "timeout"), trivial, by decide, Or.inl rfl, rfl⟩
    exact first.tail
      ⟨exampleView 11 (.ok (exampleOrder 0)), trivial, by decide,
        Or.inl rfl, rfl⟩
  · decide

/-- A deposit, an increase of no size, is sent without a check of the cap. -/
theorem exampleDeposit_unchecked :
    (keeperPasses exampleChain).Reachable System.anything
        (exampleOpened.passed (exampleView 10 (.ok (exampleOrder 2)))) ∧
      ∃ pass ∈
          (exampleOpened.passed (exampleView 10 (.ok (exampleOrder 2)))).passes,
        ∃ order ∈ pass.report.executed,
          order.order.orderType = GmxOrderType.MarketIncrease ∧
            ¬CapPassed pass.view pass.props order := by
  constructor
  · refine ⟨exampleOpened, rfl, Relation.ReflTransGen.single ?_⟩
    exact
      ⟨exampleView 10 (.ok (exampleOrder 2)), trivial, by decide, Or.inl rfl,
        rfl⟩
  · refine
      ⟨_, List.mem_singleton_self _, readOrderOf 1 (exampleOrder 2), ?_, rfl,
        ?_⟩
    · decide
    · rintro ⟨cap, checked, _⟩
      cases checked

end Eris.Gmx.Accounting
