import Eris.Gmx.Planning

/-!
# One epoch after another

The epochs of a process share one keeper.  The keeper decides in an epoch as
that of a fresh process does, when no order is left waiting, no liquidation
is remembered for a block the epoch reaches back to, and no market the epoch
fails to read had been read before.
-/

namespace Eris.Gmx.Epochs

open Keeper Planning

variable
    {Address Key : Type} [DecidableEq Address] [DecidableEq Key] [Zero Address]

/-! ## Epochs and what is decided in them -/

structure Decisions (Address Key : Type) where
  executed : List Key
  deferred : List Key
  refused : List Key
  liquidated : List (GmxPositionKey Address)
deriving DecidableEq

def decisionsOf (report : PassReport Address Key) : Decisions Address Key where
  executed := report.executed.map GmxKeeperReadOrder.key
  deferred := report.deferred
  refused := report.refused.map GmxKeeperRefusal.key
  liquidated := report.liquidated

def keeperAfter
    (keeper : GmxKeeper Address Key) (views : List (PassView Address Key)) :
    GmxKeeper Address Key :=
  views.foldl (fun before view => (afterMine view before).1) keeper

/-- What the keeper decides, pass by pass. -/
def decisions :
    GmxKeeper Address Key → List (PassView Address Key) →
      List (Decisions Address Key)
  | _, [] => []
  | keeper, view :: rest =>
      decisionsOf (afterMine view keeper).2 ::
        decisions (afterMine view keeper).1 rest

/-- Markets read are those of the chain; only some reads fail. -/
def Reads
    (chain : Address → MarketProps Address) (unread : Address → Prop) :
    Except String (Address → Option (MarketProps Address)) → Prop
  | .error _ => ∀ market, unread market
  | .ok read =>
      ∀ market, read market = some (chain market) ∨
        (read market = none ∧ unread market)

/-- A pass over a chain with these markets. -/
structure Honest
    (chain : Address → MarketProps Address) (unread : Address → Prop)
    (view : PassView Address Key) : Prop where
  cap : Reads chain unread view.capMarkets
  liquidation : Reads chain unread view.liquidationMarkets

/-- The passes of an epoch which starts at a block. -/
structure IsEpoch
    (chain : Address → MarketProps Address) (unread : Address → Prop)
    (start : Nat) (views : List (PassView Address Key)) : Prop where
  honest : ∀ view ∈ views, Honest chain unread view
  heights : ∀ view ∈ views, start ≤ view.toBlock
  ascending : views.Pairwise fun earlier later =>
    earlier.toBlock < later.toBlock

/-- A liquidation remembered makes no difference from a block on. -/
def Old (start : Nat) (last : Option Nat) : Prop :=
  ∀ block, last = some block → (block : Int) + LIQUIDATION_RESEND_BLOCKS ≤ start

structure Clear
    (unread : Address → Prop) (start : Nat)
    (keeper : GmxKeeper Address Key) : Prop where
  orders : keeper.deferredOrderKeys = []
  liquidations : ∀ key, Old start (keeper.liquidationSentAt key)
  markets : ∀ market, unread market → keeper.marketPropsCache market = none

section Markets

variable {chain : Address → MarketProps Address} {unread : Address → Prop}
    {cache first second : Address → Option (MarketProps Address)}
    {answer : Except String (Address → Option (MarketProps Address))}
    {markets : List Address}

/-- The markets kept are the chain's, and none is the zero address. -/
def Genuine
    (chain : Address → MarketProps Address)
    (cache : Address → Option (MarketProps Address)) : Prop :=
  ∀ market found, cache market = some found → market ≠ 0 ∧ found = chain market

omit [DecidableEq Address] in
theorem Genuine.zero (genuine : Genuine chain cache) : cache 0 = none := by
  cases found : cache 0 with
  | none => rfl
  | some props => exact absurd rfl (genuine 0 props found).1

/-- What is known of the markets once they have been read. -/
def filled
    (cache read : Address → Option (MarketProps Address))
    (markets : List Address) (market : Address) :
    Option (MarketProps Address) :=
  if market ∈ markets ∧ market ≠ 0 then (cache market).or (read market)
  else cache market

theorem resolveMarketProps_ok
    (read : Address → Option (MarketProps Address)) :
    resolveMarketProps cache (.ok read) markets =
      (.ok (filled cache read markets), filled cache read markets) := by
  have member : ∀ market, market ∈ markets.filter (fun m =>
            (cache m).isNone && decide (m ≠ 0)) ↔
          (market ∈ markets ∧ market ≠ 0) ∧ cache market = none := by
    intro market
    rw [List.mem_filter, Bool.and_eq_true, Option.isNone_iff_eq_none,
      decide_eq_true_eq]
    tauto
  have known : (fun m =>
          if m ∈ markets.filter (fun m =>
              (cache m).isNone && decide (m ≠ 0)) then
            (read m).or (cache m)
          else cache m) =
        filled cache read markets := by
    funext market
    unfold filled
    by_cases asked : market ∈ markets ∧ market ≠ 0
    · rw [if_pos asked]
      cases kept : cache market with
      | none => rw [if_pos ((member market).mpr ⟨asked, kept⟩)]; simp
      | some props =>
          rw [if_neg]
          · rfl
          · intro listed
            rw [((member market).mp listed).2] at kept
            cases kept
    · rw [if_neg asked, if_neg]
      intro listed
      exact asked ((member market).mp listed).1
  unfold resolveMarketProps
  dsimp only
  by_cases complete :
      markets.filter (fun m => (cache m).isNone && decide (m ≠ 0)) = []
  · rw [if_pos complete]
    rw [complete] at known
    simp only [List.not_mem_nil, if_false] at known
    rw [← known]
  · rw [if_neg complete, known]

theorem resolveMarketProps_error (message : String) :
    (resolveMarketProps cache (.error message) markets).2 = cache := by
  unfold resolveMarketProps
  dsimp only
  split <;> rfl

theorem genuine_resolve
    (genuine : Genuine chain cache) (reads : Reads chain unread answer) :
    Genuine chain (resolveMarketProps cache answer markets).2 := by
  cases answer with
  | error message =>
      rw [resolveMarketProps_error]
      exact genuine
  | ok read =>
      rw [resolveMarketProps_ok]
      intro market found kept
      change filled cache read markets market = some found at kept
      unfold filled at kept
      split at kept
      · next asked =>
          rcases Option.or_eq_some_iff.mp kept with cached | ⟨_, answered⟩
          · exact genuine market found cached
          · refine ⟨asked.2, ?_⟩
            rcases reads market with read | ⟨missing, _⟩
            · rw [answered] at read
              exact Option.some.inj read
            · rw [missing] at answered
              cases answered
      · exact genuine market found kept

/-- The same markets are known, among some. -/
def SameProps
    (markets : List Address)
    (first second :
      Except String (Address → Option (MarketProps Address))) : Prop :=
  match first, second with
  | .error one, .error other => one = other
  | .ok one, .ok other => ∀ market ∈ markets, one market = other market
  | _, _ => False

/--
What two processes know of the markets asked for is the same, when they know
the same of the markets whose reads fail.
-/
theorem resolve_same
    (genuine : Genuine chain first) (other : Genuine chain second)
    (same : ∀ market, unread market → first market = second market)
    (reads : Reads chain unread answer) :
    SameProps markets (resolveMarketProps first answer markets).1
        (resolveMarketProps second answer markets).1 ∧
      ∀ market, unread market →
        (resolveMarketProps first answer markets).2 market =
          (resolveMarketProps second answer markets).2 market := by
  cases answer with
  | error message =>
      have equal : first = second := by
        funext market
        exact same market (reads market)
      subst equal
      constructor
      · cases (resolveMarketProps first (.error message) markets).1 with
        | error message => exact rfl
        | ok known => exact fun market listed => rfl
      · exact fun market failing => rfl
  | ok read =>
      rw [resolveMarketProps_ok, resolveMarketProps_ok]
      have agree : ∀ market, unread market → filled first read markets market =
          filled second read markets market := by
        intro market failing
        unfold filled
        rw [same market failing]
      refine ⟨?_, agree⟩
      intro market listed
      by_cases failing : unread market
      · exact agree market failing
      · have answered : read market = some (chain market) := by
          rcases reads market with answered | ⟨_, missing⟩
          · exact answered
          · exact absurd missing failing
        unfold filled
        by_cases zero : market = 0
        · rw [if_neg (fun asked => asked.2 zero),
            if_neg (fun asked => asked.2 zero), zero, genuine.zero,
            other.zero]
        · rw [if_pos ⟨listed, zero⟩, if_pos ⟨listed, zero⟩, answered]
          have whole : ∀ cache : Address → Option (MarketProps Address),
              Genuine chain cache → (cache market).or (some (chain market)) =
                  some (chain market) := by
            intro cache true_
            cases kept : cache market with
            | none => rfl
            | some found =>
                rw [(true_ market found kept).2]
                rfl
          rw [whole first genuine, whole second other]

end Markets

/-! ## Two keepers -/

section Two

variable {chain : Address → MarketProps Address} {unread : Address → Prop}
    {start : Nat} {view : PassView Address Key}
    {first second : Address → Option (MarketProps Address)}
    {one other : Except String (Address → Option (MarketProps Address))}

omit [DecidableEq Key] [Zero Address] in
theorem capCheck_same
    {markets : List Address} (same : SameProps markets one other)
    {order : GmxKeeperReadOrder Address Key} (asked : order.market ∈ markets) :
    capCheck view one order = capCheck view other order := by
  cases one with
  | error message =>
      cases other with
      | error text =>
          have equal : message = text := same
          rw [equal]
      | ok known => exact same.elim
  | ok found =>
      cases other with
      | error text => exact same.elim
      | ok known =>
          have equal := same order.market asked
          unfold capCheck
          dsimp only
          rw [equal]

omit [Zero Address] in
theorem decides_same
    {orders : List (GmxKeeperReadOrder Address Key)}
    (same : ∀ order ∈ orders, needsCapCheck order = true →
        capCheck view one order = capCheck view other order)
    (plan : Planning Address Key) :
    orders.foldl (Planning.decides view one) plan =
      orders.foldl (Planning.decides view other) plan := by
  apply List.foldl_ext
  intro plan order listed
  unfold Planning.decides
  by_cases needed : needsCapCheck order = true
  · rw [same order listed needed]
  · rw [if_neg needed, if_neg needed]

omit [DecidableEq Key] [Zero Address] in
theorem mem_checkedMarkets
    {orders : List (GmxKeeperReadOrder Address Key)}
    {order : GmxKeeperReadOrder Address Key}
    (listed : order ∈ orders) (needed : needsCapCheck order = true) :
    order.market ∈ checkedMarkets orders := by
  unfold checkedMarkets
  rw [List.mem_eraseDups]
  exact List.mem_map_of_mem (List.mem_filter.mpr ⟨listed, needed⟩)

omit [DecidableEq Key] in
theorem liquidatable_same
    (genuine : Genuine chain first) (other : Genuine chain second)
    (same : ∀ market, unread market → first market = second market)
    (reads : Reads chain unread view.liquidationMarkets) :
    (gmxLiquidatablePositions view first).1 =
        (gmxLiquidatablePositions view second).1 ∧
      ∀ market, unread market → (gmxLiquidatablePositions view first).2 market =
          (gmxLiquidatablePositions view second).2 market := by
  unfold gmxLiquidatablePositions
  cases view.positionKeys with
  | error message => exact ⟨rfl, same⟩
  | ok keys =>
      dsimp only
      split
      · exact ⟨rfl, same⟩
      · cases view.positions with
        | error message => exact ⟨rfl, same⟩
        | ok read =>
            dsimp only
            have resolved := @resolve_same _ _ _ chain unread first second
                view.liquidationMarkets
                ((openPositions keys read).map fun o =>
                  o.2.market).eraseDups
                genuine other same reads
            generalize resolveMarketProps first view.liquidationMarkets
                ((openPositions keys read).map fun o =>
                  o.2.market).eraseDups = left at resolved ⊢
            generalize resolveMarketProps second view.liquidationMarkets
                ((openPositions keys read).map fun o =>
                  o.2.market).eraseDups = right at resolved ⊢
            rcases left with ⟨left, kept⟩
            rcases right with ⟨right, held⟩
            rcases resolved with ⟨props, caches⟩
            cases left with
            | error message =>
                cases right with
                | error text =>
                    have equal : message = text := props
                    rw [equal]
                    exact ⟨rfl, caches⟩
                | ok known => exact props.elim
            | ok found =>
                cases right with
                | error text => exact props.elim
                | ok known =>
                    have checks : ((openPositions keys read).filter fun o =>
                            (found o.2.market).any (priced view)) =
                          (openPositions keys read).filter fun o =>
                            (known o.2.market).any (priced view) := by
                      apply List.filter_congr
                      intro o listed
                      have asked : o.2.market ∈
                          ((openPositions keys read).map fun o =>
                              o.2.market).eraseDups := by
                        rw [List.mem_eraseDups]
                        exact List.mem_map_of_mem listed
                      rw [props _ asked]
                    dsimp only
                    rw [checks]
                    split
                    · exact ⟨rfl, caches⟩
                    · cases view.verdicts with
                      | error message => exact ⟨rfl, caches⟩
                      | ok verdicts => exact ⟨rfl, caches⟩

omit [DecidableEq Key] in
theorem genuine_liquidatable
    (genuine : Genuine chain first)
    (reads : Reads chain unread view.liquidationMarkets) :
    Genuine chain (gmxLiquidatablePositions view first).2 := by
  unfold gmxLiquidatablePositions
  cases view.positionKeys with
  | error message => exact genuine
  | ok keys =>
      dsimp only
      split
      · exact genuine
      · cases view.positions with
        | error message => exact genuine
        | ok read =>
            dsimp only
            have kept := @genuine_resolve _ _ _ chain unread first
                view.liquidationMarkets
                ((openPositions keys read).map fun o =>
                  o.2.market).eraseDups
                genuine reads
            split
            · exact kept
            · split
              · exact kept
              · split <;> exact kept

/-- Two memories of liquidations make no difference from a block on. -/
def SameSent
    (start : Nat) (first second : GmxPositionKey Address → Option Nat) : Prop :=
  ∀ key, first key = second key ∨
    (Old start (first key) ∧ Old start (second key))

omit [DecidableEq Address] [DecidableEq Key] [Zero Address] in
theorem sentLately_old
    {last : Option Nat} {block : Nat}
    (old : Old start last) (later : start ≤ block) :
    sentLately last block = false := by
  unfold sentLately
  cases last with
  | none => rfl
  | some sent =>
      have gap := old sent rfl
      apply decide_eq_false
      omega

omit [DecidableEq Key] [Zero Address] in
theorem liquidates_same
    {pass held : Liquidating Address} (later : start ≤ view.toBlock)
    (sent : pass.sent = held.sent) (tried : pass.tried = held.tried)
    (memory : SameSent start pass.sentAt held.sentAt)
    (found : LiquidatablePosition Address) :
    (pass.liquidates view found).sent = (held.liquidates view found).sent ∧
      (pass.liquidates view found).tried = (held.liquidates view found).tried ∧
      SameSent start (pass.liquidates view found).sentAt
        (held.liquidates view found).sentAt := by
  have lately : sentLately (pass.sentAt found.key) view.toBlock =
      sentLately (held.sentAt found.key) view.toBlock := by
    rcases memory found.key with equal | ⟨old, past⟩
    · rw [equal]
    · rw [sentLately_old old later, sentLately_old past later]
  unfold Liquidating.liquidates
  rw [sent, lately]
  split
  · exact ⟨sent, tried, memory⟩
  · split
    · exact ⟨sent, tried, memory⟩
    · cases view.sendLiquidation found.key with
      | some error =>
          dsimp only
          rw [tried]
          exact ⟨rfl, rfl, memory⟩
      | none =>
          dsimp only
          rw [tried]
          refine ⟨rfl, rfl, ?_⟩
          intro key
          by_cases same : key = found.key
          · subst same
            left
            rw [Function.update_self, Function.update_self]
          · rw [Function.update_of_ne same, Function.update_of_ne same]
            exact memory key

omit [DecidableEq Key] [Zero Address] in
theorem liquidatePositions_same
    {sentAt heldAt : GmxPositionKey Address → Option Nat}
    (later : start ≤ view.toBlock) (memory : SameSent start sentAt heldAt)
    (found : Except String (List (LiquidatablePosition Address))) :
    (liquidatePositions view sentAt found).tried =
        (liquidatePositions view heldAt found).tried ∧
      SameSent start (liquidatePositions view sentAt found).sentAt
        (liquidatePositions view heldAt found).sentAt := by
  unfold liquidatePositions
  cases found with
  | error message => exact ⟨rfl, memory⟩
  | ok positions =>
      have all : ∀ (positions : List (LiquidatablePosition Address))
          (pass held : Liquidating Address),
          pass.sent = held.sent → pass.tried = held.tried →
            SameSent start pass.sentAt held.sentAt →
              (positions.foldl (Liquidating.liquidates view) pass).tried =
                  (positions.foldl (Liquidating.liquidates view) held).tried ∧
                SameSent start (positions.foldl (Liquidating.liquidates view)
                    pass).sentAt
                  (positions.foldl (Liquidating.liquidates view)
                    held).sentAt := by
        intro positions
        induction positions with
        | nil =>
            intro pass held _ tried memory
            exact ⟨tried, memory⟩
        | cons position rest ih =>
            intro pass held sent tried memory
            rcases liquidates_same later sent tried memory position with
              ⟨sentNow, triedNow, memoryNow⟩
            exact ih _ _ sentNow triedNow memoryNow
      exact all positions _ _ rfl rfl memory

end Two

end Eris.Gmx.Epochs
