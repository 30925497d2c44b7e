import Eris.Gmx.Accounting
import Eris.Gmx.Epochs

/-!
# What a process carries into an epoch

Passes keep two keepers the same which are the same but for liquidations too
old to matter and for markets whose reads do not fail.  So a process decides
in an epoch as a fresh one, if nothing is carried into it; and if something
is, there is an epoch in which it decides otherwise.
-/

namespace Eris.Gmx.Carried

open Foundation Keeper Planning Accounting Epochs

variable
    {Address Key : Type} [DecidableEq Address] [DecidableEq Key] [Zero Address]
    {chain : Address → MarketProps Address} {unread : Address → Prop}
    {start : Nat} {view : PassView Address Key}
    {keeper one other : GmxKeeper Address Key}
    {plan : Planning Address Key} {rest : List Key}

/-! ## Two keepers through an epoch -/

/-- Two keepers which decide the same from a block on. -/
structure Same
    (chain : Address → MarketProps Address) (unread : Address → Prop)
    (start : Nat) (one other : GmxKeeper Address Key) : Prop where
  orders : one.deferredOrderKeys = other.deferredOrderKeys
  failures : one.keeperReadFailures = other.keeperReadFailures
  sent : SameSent start one.liquidationSentAt other.liquidationSentAt
  markets : ∀ market, unread market →
      one.marketPropsCache market = other.marketPropsCache market
  genuine : Genuine chain one.marketPropsCache
  true_ : Genuine chain other.marketPropsCache

theorem afterMine_same
    (same : Same chain unread start one other)
    (honest : Honest chain unread view) (later : start ≤ view.toBlock) :
    (afterMine view one).2 = (afterMine view other).2 ∧
      Same chain unread start (afterMine view one).1
        (afterMine view other).1 := by
  cases scanned : view.logs with
  | error message =>
      unfold afterMine
      rw [scanned]
      exact ⟨rfl, same⟩
  | ok logs =>
      have keys : passKeys one logs = passKeys other logs := by
        unfold passKeys
        rw [same.orders]
      have read : readOrders view one (passKeys one logs) =
          readOrders view other (passKeys other logs) := by
        unfold readOrders
        rw [keys, same.failures]
      rcases @resolve_same _ _ _ chain unread one.marketPropsCache
        other.marketPropsCache view.capMarkets
        (checkedMarkets (readOrders view other (passKeys other logs)).live)
        same.genuine same.true_ same.markets honest.cap with
        ⟨props, caches⟩
      have plan : keeperOrderPlan view one (passKeys one logs) =
          keeperOrderPlan view other (passKeys other logs) := by
        unfold keeperOrderPlan
        dsimp only
        rw [read]
        apply decides_same
        intro order listed needed
        exact capCheck_same props (mem_checkedMarkets listed needed)
      have genuine : Genuine chain (capProps view one
              (readOrders view other (passKeys other logs)).live).2 :=
        genuine_resolve same.genuine honest.cap
      have true_ : Genuine chain (capProps view other
              (readOrders view other (passKeys other logs)).live).2 :=
        genuine_resolve same.true_ honest.cap
      rcases liquidatable_same genuine true_ caches honest.liquidation with
        ⟨found, kept⟩
      rcases @liquidatePositions_same _ _ _ _ view _ _ later same.sent
        (gmxLiquidatablePositions view (capProps view other
            (readOrders view other (passKeys other logs)).live).2).1 with
        ⟨tried, sent⟩
      unfold afterMine
      rw [scanned]
      dsimp only
      rw [plan, read, keys, found, tried]
      refine ⟨rfl, ?_⟩
      exact
        { orders := rfl
          failures := rfl
          sent := sent
          markets := kept
          genuine := genuine_liquidatable genuine honest.liquidation
          true_ := genuine_liquidatable true_ honest.liquidation }

theorem decisions_same
    {epoch : List (PassView Address Key)}
    (same : Same chain unread start one other)
    (honest : ∀ view ∈ epoch, Honest chain unread view)
    (heights : ∀ view ∈ epoch, start ≤ view.toBlock) :
    decisions one epoch = decisions other epoch := by
  induction epoch generalizing one other with
  | nil => rfl
  | cons view rest ih =>
      rcases afterMine_same same (honest view List.mem_cons_self)
        (heights view List.mem_cons_self) with
        ⟨report, next⟩
      unfold decisions
      rw [report]
      congr 1
      apply ih next
      · intro later listed
        exact honest later (List.mem_cons_of_mem _ listed)
      · intro later listed
        exact heights later (List.mem_cons_of_mem _ listed)

/-- What every keeper of a process satisfies. -/
structure Kept
    (chain : Address → MarketProps Address) (keeper : GmxKeeper Address Key) :
    Prop where
  genuine : Genuine chain keeper.marketPropsCache
  failing :
    ∀ key, keeper.keeperReadFailures key ≠ 0 → key ∈ keeper.deferredOrderKeys

/-- An order whose reads failed is held back, or still to be decided on. -/
def Failing (plan : Planning Address Key) (rest : List Key) : Prop :=
  ∀ key, plan.failures key ≠ 0 → key ∈ plan.deferred ∨ key ∈ rest

omit [DecidableEq Address] [Zero Address] in
theorem Failing.clear
    {cleared : Key} (failing : Failing plan (cleared :: rest)) :
    ∀ key, Function.update plan.failures cleared 0 key ≠ 0 →
      key ∈ plan.deferred ∨ key ∈ rest := by
  intro key failed
  by_cases same : key = cleared
  · subst same
    exact absurd (Function.update_self ..) failed
  · have before : plan.failures key ≠ 0 := by
      intro none
      exact failed ((Function.update_of_ne same ..).trans none)
    rcases failing key before with held | waiting
    · exact .inl held
    · exact .inr ((List.mem_cons.mp waiting).resolve_left same)

omit [DecidableEq Address] [Zero Address] in
theorem Failing.report
    {plan : Planning Address Key} {rest : List Key}
    {refusal : GmxKeeperRefusal Address Key}
    (failing : Failing plan (refusal.key :: rest)) :
    Failing (plan.report refusal) rest :=
  failing.clear

omit [DecidableEq Address] [Zero Address] in
theorem Failing.readFailed
    {failed : Key} (failing : Failing plan (failed :: rest))
    (order : GmxKeeperOrder Address) (what : ReadTarget) (error : String) :
    Failing (plan.readFailed failed order what error) rest := by
  rcases readFailed_cases plan failed order what error with
    ⟨_, refused⟩ | ⟨_, waits⟩
  · rw [refused]
    exact Failing.report failing
  · rw [waits]
    intro key again
    by_cases same : key = failed
    · exact .inl (List.mem_append_right _ (List.mem_singleton.mpr same))
    · have before : plan.failures key ≠ 0 := by
        intro none
        exact again ((Function.update_of_ne same ..).trans none)
      rcases failing key before with held | waiting
      · exact .inl (List.mem_append_left _ held)
      · exact .inr ((List.mem_cons.mp waiting).resolve_left same)

theorem failing_reads
    {read : Key}
    (failing : Failing plan
        (read :: rest ++ plan.live.map GmxKeeperReadOrder.key)) :
    Failing (plan.reads view read)
      (rest ++ (plan.reads view read).live.map GmxKeeperReadOrder.key) := by
  unfold Planning.reads
  split
  · rw [(live_readFailed _ _ _ _ _).1]
    exact failing.readFailed _ _ _
  · next answer _ =>
      split
      · exact failing.clear
      · split
        · exact @Failing.report _ _ _ _ _ ⟨read, keeperOrderOf answer, _⟩
            failing
        · intro key failed
          rcases failing key failed with held | waiting
          · exact .inl held
          · right
            rw [List.map_append]
            rcases List.mem_cons.mp waiting with rfl | elsewhere
            · exact List.mem_append_right _
                (List.mem_append_right _ List.mem_cons_self)
            · rcases List.mem_append.mp elsewhere with later | live
              · exact List.mem_append_left _ later
              · exact List.mem_append_right _ (List.mem_append_left _ live)

theorem failing_reads_all
    {keys : List Key}
    (failing : Failing plan (keys ++ plan.live.map GmxKeeperReadOrder.key)) :
    Failing (keys.foldl (Planning.reads view) plan)
      ((keys.foldl (Planning.reads view) plan).live.map
        GmxKeeperReadOrder.key) := by
  induction keys generalizing plan with
  | nil => exact failing
  | cons read rest ih =>
      exact ih (failing_reads failing)

omit [Zero Address] in
theorem failing_decides
    {props : Except String (Address → Option (MarketProps Address))}
    {order : GmxKeeperReadOrder Address Key}
    (failing : Failing plan (order.key :: rest)) :
    Failing (plan.decides view props order) rest := by
  have held : ∀ key, plan.failures key ≠ 0 →
      key ∈ plan.deferred ++ [order.key] ∨ key ∈ rest := by
    intro key failed
    rcases failing key failed with held | waiting
    · exact .inl (List.mem_append_left _ held)
    · rcases List.mem_cons.mp waiting with rfl | later
      · exact .inl (List.mem_append_right _ (List.mem_singleton_self _))
      · exact .inr later
  have sent : Failing (plan.sends order) rest := failing.clear
  unfold Planning.decides
  split
  · exact held
  · split
    · exact held
    · split
      · split
        · exact failing.readFailed _ _ _
        · split
          · next refused _ =>
              exact @Failing.report _ _ _ _ _
                ⟨order.key, order.order, .cap refused⟩ failing
          · exact sent
      · exact sent

omit [Zero Address] in
theorem failing_decides_all
    {props : Except String (Address → Option (MarketProps Address))}
    {orders : List (GmxKeeperReadOrder Address Key)}
    (failing : Failing plan (orders.map GmxKeeperReadOrder.key)) :
    Failing (orders.foldl (Planning.decides view props) plan) [] := by
  induction orders generalizing plan with
  | nil => exact failing
  | cons order rest ih =>
      exact ih (failing_decides failing)

theorem failing_keeperOrderPlan
    {keys : List Key}
    (failing : ∀ key, keeper.keeperReadFailures key ≠ 0 → key ∈ keys) :
    Failing (keeperOrderPlan view keeper keys) [] := by
  apply failing_decides_all
  apply failing_reads_all
  intro key failed
  exact .inr (List.mem_append_left _ (failing key failed))

theorem kept_afterMine
    (kept : Kept chain keeper) (honest : Honest chain unread view) :
    Kept chain (afterMine view keeper).1 := by
  unfold afterMine
  split
  · exact kept
  · next logs _ =>
      constructor
      · apply genuine_liquidatable _ honest.liquidation
        exact genuine_resolve kept.genuine honest.cap
      · intro key failed
        have known : ∀ key, keeper.keeperReadFailures key ≠ 0 →
            key ∈ passKeys keeper logs := by
          intro key failed
          unfold passKeys
          rw [List.mem_eraseDups]
          exact List.mem_append_left _ (kept.failing key failed)
        rcases failing_keeperOrderPlan known key failed with held | none
        · have single := @outcomes_keeperOrderPlan _ _ _ _ _ view keeper
              (passKeys keeper logs) key
          have positive := List.count_pos_iff.mpr held
          have member : key ∈ passKeys keeper logs := by
            apply List.count_pos_iff.mp
            unfold outcomes at single
            omega
          exact List.mem_filter.mpr ⟨member, decide_eq_true held⟩
        · cases none

theorem kept_keeperAfter
    {history : List (PassView Address Key)} (kept : Kept chain keeper)
    (honest : ∀ view ∈ history, Honest chain unread view) :
    Kept chain (keeperAfter keeper history) := by
  induction history generalizing keeper with
  | nil => exact kept
  | cons view rest ih =>
      apply ih
      · exact kept_afterMine kept (honest view List.mem_cons_self)
      · intro later listed
        exact honest later (List.mem_cons_of_mem _ listed)

omit [DecidableEq Address] [DecidableEq Key] in
theorem kept_fresh : Kept chain (.fresh : GmxKeeper Address Key) where
  genuine _ _ found := nomatch found
  failing _ failed := absurd rfl failed

omit [DecidableEq Address] [DecidableEq Key] in
theorem same_fresh
    (kept : Kept chain keeper) (clear : Clear unread start keeper) :
    Same chain unread start keeper .fresh where
  orders := clear.orders
  failures := by
    funext key
    by_contra failed
    have held := kept.failing key failed
    rw [clear.orders] at held
    cases held
  sent key := .inr ⟨clear.liquidations key, fun _ none => nomatch none⟩
  markets := clear.markets
  genuine := kept.genuine
  true_ := kept_fresh.genuine

/-! ## Epochs which tell -/

theorem unread_reads
    (unreadable : ∀ key, ∃ error, view.order key = .error error)
    {keys : List Key} {plan : Planning Address Key}
    (live : plan.live = []) (gone : plan.gone = []) :
    (keys.foldl (Planning.reads view) plan).live = [] ∧
      (keys.foldl (Planning.reads view) plan).gone = [] := by
  induction keys generalizing plan with
  | nil => exact ⟨live, gone⟩
  | cons key rest ih =>
      rcases unreadable key with ⟨error, failed⟩
      have step : plan.reads view key =
          plan.readFailed key ⟨0, 0, 0, -1⟩ .order error := by
        unfold Planning.reads
        rw [failed]
      rw [List.foldl_cons, step]
      apply ih
      · exact (live_readFailed _ _ _ _ _).1.trans live
      · rcases readFailed_cases plan key ⟨0, 0, 0, -1⟩ .order error with
          ⟨_, refused⟩ | ⟨_, waits⟩
        · rw [refused]
          exact gone
        · rw [waits]
          exact gone

theorem decided_unread
    {logs : List (EventLog Key)} (scanned : view.logs = .ok logs)
    (unreadable : ∀ key, ∃ error, view.order key = .error error)
    {key : Key} (waiting : key ∈ keeper.deferredOrderKeys) :
    key ∈ (decisionsOf (afterMine view keeper).2).deferred ∨
      key ∈ (decisionsOf (afterMine view keeper).2).refused := by
  have asked : key ∈ passKeys keeper logs := by
    unfold passKeys
    rw [List.mem_eraseDups]
    exact List.mem_append_left _ waiting
  rcases @unread_reads _ _ _ _ _ view unreadable (passKeys keeper logs)
    (.opened keeper.keeperReadFailures) rfl rfl with
    ⟨live, gone⟩
  have plan : keeperOrderPlan view keeper (passKeys keeper logs) =
      readOrders view keeper (passKeys keeper logs) := by
    unfold keeperOrderPlan readOrders
    dsimp only
    rw [live]
    rfl
  have single :=
    @outcomes_keeperOrderPlan _ _ _ _ _ view keeper (passKeys keeper logs) key
  have positive := List.count_pos_iff.mpr asked
  have report : (afterMine view keeper).2.refused =
      (keeperOrderPlan view keeper (passKeys keeper logs)).refused := by
    unfold afterMine
    rw [scanned]
  have held : (afterMine view keeper).2.deferred =
      (passKeys keeper logs).filter fun other =>
        decide (other ∈
            (keeperOrderPlan view keeper (passKeys keeper logs)).deferred) := by
    unfold afterMine
    rw [scanned]
  unfold decisionsOf
  dsimp only
  rw [report, held]
  unfold outcomes at single
  by_cases deferred :
      key ∈ (keeperOrderPlan view keeper (passKeys keeper logs)).deferred
  · left
    exact List.mem_filter.mpr ⟨asked, decide_eq_true deferred⟩
  · right
    apply List.count_pos_iff.mp
    have none :
        (keeperOrderPlan view keeper (passKeys keeper logs)).gone = [] := by
      rw [plan]
      exact gone
    have nothing :
        (keeperOrderPlan view keeper (passKeys keeper logs)).execute = [] := by
      rw [plan]
      exact (execute_readOrders _).1
    rw [List.count_eq_zero_of_not_mem deferred, none, nothing] at single
    simp only [List.map_nil, List.count_nil] at single
    omega

/-- A pass over an empty block, with one position open in a market. -/
def probe
    (chain : Address → MarketProps Address) (block : Nat)
    (key : GmxPositionKey Address) (market : Address)
    (read : Address → Option (MarketProps Address)) :
    PassView Address Key where
  toBlock := block
  logs := .ok []
  order _ := .error ""
  price _ := some 1
  capMarkets := .ok fun m => some (chain m)
  capReads := .error ""
  sendOrder _ := none
  positionKeys := .ok [key]
  positions :=
    .ok fun k => some ⟨k.account, market, k.collateralToken, k.isLong, 1, 0⟩
  liquidationMarkets := .ok read
  verdicts := .ok fun _ => some (true, "")
  sendLiquidation _ := none

section Probes

variable {block : Nat} {key : GmxPositionKey Address} {market : Address}
    {read : Address → Option (MarketProps Address)}

omit [DecidableEq Address] [DecidableEq Key] [Zero Address] in
theorem isEpoch_probe
    (later : start ≤ block) (reads : Reads chain unread (.ok read)) :
    IsEpoch chain unread start
      [(probe chain block key market read : PassView Address Key)] where
  honest := by
    intro view listed
    rw [List.mem_singleton.mp listed]
    exact ⟨fun _ => .inl rfl, reads⟩
  heights := by
    intro view listed
    rw [List.mem_singleton.mp listed]
    exact later
  ascending := List.pairwise_singleton _ _

omit [DecidableEq Key] in
theorem liquidatable_probe
    (cache : Address → Option (MarketProps Address)) :
    (gmxLiquidatablePositions
      (probe chain block key market read : PassView Address Key) cache).1 =
      .ok (if (filled cache read [market] market).isSome then
          [⟨key, key.account, market, key.collateralToken, key.isLong, ""⟩]
        else []) := by
  have single : ([market] : List Address).eraseDups = [market] := rfl
  unfold gmxLiquidatablePositions probe openPositions
  simp only [reduceCtorEq, if_false, List.filterMap_cons, List.filterMap_nil,
    Option.bind_some, Int.one_pos, if_true, List.map_cons, List.map_nil,
    single, resolveMarketProps_ok]
  cases found : filled cache read [market] market with
  | none => simp [found]
  | some props => simp [found, priced]

theorem liquidated_probe (none : keeper.deferredOrderKeys = []) :
    (decisionsOf
        (afterMine (probe chain block key market read) keeper).2).liquidated =
      if (filled keeper.marketPropsCache read [market] market).isSome ∧
          sentLately (keeper.liquidationSentAt key) block = false then
        [key]
      else [] := by
  have keys : passKeys keeper [] = [] := by
    unfold passKeys
    rw [none]
    rfl
  change (liquidatePositions _ _ (gmxLiquidatablePositions _ (capProps _ keeper
    (readOrders _ keeper (passKeys keeper [])).live).2).1).tried = _
  have cache : (capProps (probe chain block key market read) keeper
        (readOrders (probe chain block key market read) keeper
          (passKeys keeper [])).live).2 =
      keeper.marketPropsCache := by
    rw [keys]
    rfl
  rw [cache, liquidatable_probe]
  by_cases known : (filled keeper.marketPropsCache read [market] market).isSome
  · rw [if_pos known]
    cases lately : sentLately (keeper.liquidationSentAt key) block with
    | false =>
        rw [if_pos ⟨known, rfl⟩]
        simp [liquidatePositions, Liquidating.liquidates,
          MAX_LIQUIDATIONS_PER_BLOCK, probe, lately]
    | true =>
        rw [if_neg (fun both => nomatch both.2)]
        simp [liquidatePositions, Liquidating.liquidates,
          MAX_LIQUIDATIONS_PER_BLOCK, probe, lately]
  · rw [if_neg known, if_neg (fun both => known both.1)]
    rfl

end Probes

/-! ## When nothing is carried -/

theorem clear_of_decisions [Nontrivial Address]
    (kept : Kept chain keeper)
    (alike : ∀ epoch, IsEpoch chain unread start epoch →
        decisions keeper epoch = decisions .fresh epoch) :
    Clear unread start keeper := by
  have single :
      ∀ view : PassView Address Key, IsEpoch chain unread start [view] →
        decisionsOf (afterMine view keeper).2 =
          decisionsOf (afterMine view .fresh).2 :=
    fun view isEpoch => List.head_eq_of_cons_eq (alike [view] isEpoch)
  rcases exists_ne (0 : Address) with ⟨market, present⟩
  have whole : Reads chain unread (.ok fun m => some (chain m)) :=
    fun _ => .inl rfl
  have orders : keeper.deferredOrderKeys = [] := by
    by_contra waiting
    rcases List.exists_mem_of_ne_nil _ waiting with ⟨order, held⟩
    have equal := single (probe chain start ⟨0, market, 0, true⟩ market fun m =>
          some (chain m))
        (isEpoch_probe (Nat.le_refl _) whole)
    have decided := @decided_unread _ _ _ _ _
        (probe chain start ⟨0, market, 0, true⟩ market fun m =>
          some (chain m)) keeper [] rfl (fun _ => ⟨"", rfl⟩) order held
    rw [equal] at decided
    rcases decided with deferred | refused
    · cases deferred
    · cases refused
  have liquidations : ∀ key, Old start (keeper.liquidationSentAt key) := by
    intro key last sent
    by_contra recent
    have equal := congrArg Decisions.liquidated (single
        (probe chain (max start last) key market fun m => some (chain m))
        (isEpoch_probe (Nat.le_max_left _ _) whole))
    have known : ∀ cache : Address → Option (MarketProps Address),
        (filled cache (fun m => some (chain m)) [market]
          market).isSome := by
      intro cache
      unfold filled
      rw [if_pos ⟨List.mem_singleton_self _, present⟩]
      cases cache market <;> rfl
    have lately :
        sentLately (keeper.liquidationSentAt key) (max start last) = true := by
      rw [sent]
      apply decide_eq_true
      rw [LIQUIDATION_RESEND_BLOCKS] at recent ⊢
      push_cast
      omega
    rw [liquidated_probe orders, liquidated_probe rfl, lately,
      if_neg (fun both => nomatch both.2), if_pos ⟨known _, rfl⟩] at equal
    cases equal
  refine ⟨orders, liquidations, ?_⟩
  intro failing missing
  cases cached : keeper.marketPropsCache failing with
  | none => rfl
  | some props =>
      exfalso
      have nonzero := (kept.genuine failing props cached).1
      let read : Address → Option (MarketProps Address) := fun m =>
        if m = failing then none else some (chain m)
      have reads : Reads chain unread (.ok read) := by
        intro other
        by_cases same : other = failing
        · subst same
          exact .inr ⟨if_pos rfl, missing⟩
        · exact .inl (if_neg same)
      have equal := congrArg Decisions.liquidated
          (single (probe chain start ⟨0, failing, 0, true⟩ failing read)
            (isEpoch_probe (Nat.le_refl _) reads))
      have known : (filled keeper.marketPropsCache read [failing]
          failing).isSome := by
        unfold filled
        rw [if_pos ⟨List.mem_singleton_self _, nonzero⟩, cached]
        rfl
      have unknown :
          ¬(filled (fun _ => none) read [failing] failing).isSome := by
        unfold filled
        rw [if_pos ⟨List.mem_singleton_self _, nonzero⟩]
        change ¬(if failing = failing then none else some _).isSome = true
        rw [if_pos rfl]
        exact Bool.false_ne_true
      rw [liquidated_probe orders, liquidated_probe rfl,
        if_pos ⟨known, sentLately_old (liquidations _) (Nat.le_refl _)⟩,
        if_neg (fun both => unknown both.1)] at equal
      cases equal

/--
After any earlier epochs of its process the keeper decides each epoch as a
fresh one does exactly if nothing is carried into it.
-/
theorem decisions_fresh_iff [Nontrivial Address]
    (start : Nat) (unread : Address → Prop)
    {history : List (PassView Address Key)}
    (honest : ∀ view ∈ history, Honest chain (fun _ => True) view) :
    (∀ epoch, IsEpoch chain unread start epoch →
        decisions (keeperAfter .fresh history) epoch = decisions .fresh epoch) ↔
      Clear unread start (keeperAfter .fresh history) := by
  have kept : Kept chain (keeperAfter .fresh history) :=
    kept_keeperAfter kept_fresh honest
  constructor
  · exact clear_of_decisions kept
  · intro clear epoch isEpoch
    exact decisions_same (same_fresh kept clear) isEpoch.honest isEpoch.heights

def exampleMarkets (market : Nat) : MarketProps Nat :=
  ⟨market, market, market, market⟩

/-- A position which is under, at a block. -/
def exampleUnder (block : Nat) : PassView Nat Nat :=
  probe exampleMarkets block ⟨7, 1, 2, true⟩ 1 fun m =>
    some (exampleMarkets m)

/-- An epoch which ends with nothing left over changes nothing. -/
theorem exampleSent_clear :
    (∀ epoch, IsEpoch exampleMarkets (fun _ => True) 10 epoch →
      decisions (keeperAfter .fresh [exampleView 10 (.ok (exampleOrder 0))])
          epoch =
        decisions .fresh epoch) ∧
      (decisions (.fresh : GmxKeeper Nat Nat)
          [exampleView 10 (.ok (exampleOrder 0))]).map
          Decisions.executed =
        [[1]] := by
  constructor
  · apply
      (decisions_fresh_iff 10 (fun _ => True) (by
        intro view listed
        rw [List.mem_singleton.mp listed]
        exact ⟨fun _ => trivial, fun _ => trivial⟩)).mpr
    exact
      { orders := by decide
        liquidations := fun _ _ none => nomatch none
        markets := fun _ _ => rfl }
  · decide

/--
An order an earlier epoch could not read is executed in the next one; and a
position is not liquidated, because it was at a later block of an earlier one.
-/
theorem exampleCarried_differs :
    (IsEpoch exampleMarkets (fun _ => True) 12
        [exampleView 12 (.ok (exampleOrder 0))] ∧
      (decisions (keeperAfter .fresh [exampleView 10 (.error "timeout")])
          [exampleView 12 (.ok (exampleOrder 0))]).map
          Decisions.executed = [[1]] ∧
      (decisions .fresh [exampleView 12 (.ok (exampleOrder 0))]).map
          Decisions.executed = [[]]) ∧
    (IsEpoch exampleMarkets (fun _ => True) 12 [exampleUnder 400] ∧
      (decisions (keeperAfter .fresh [exampleUnder 500])
          [exampleUnder 400]).map Decisions.liquidated = [[]] ∧
      (decisions .fresh [exampleUnder 400]).map Decisions.liquidated =
        [[⟨7, 1, 2, true⟩]]) := by
  refine ⟨⟨?_, ?_, ?_⟩, ?_, ?_, ?_⟩
  · refine ⟨?_, ?_, List.pairwise_singleton _ _⟩
    · intro view listed
      rw [List.mem_singleton.mp listed]
      exact ⟨fun _ => trivial, fun _ => trivial⟩
    · intro view listed
      rw [List.mem_singleton.mp listed]
      exact Nat.le_refl _
  · decide
  · decide
  · exact isEpoch_probe (by decide) fun _ => .inl rfl
  · decide
  · decide

end Eris.Gmx.Carried
