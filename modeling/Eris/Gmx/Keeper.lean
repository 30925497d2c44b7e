import Eris.Gmx.Leverage

/-!
# The GMX keeper

After each block the keeper scans the blocks mined for orders created, reads
each order, and sends those it may to execution; then it liquidates the
positions which are under.  Orders it holds back, failed reads, the blocks at
which it sent liquidations and the markets it has read are kept for as long
as the process runs.

The key of a position stands for the account, market, collateral token and
side it is made of.
-/

namespace Eris.Gmx.Keeper

open Leverage

/-! ## Orders -/

namespace GmxOrderType

def MarketSwap : Int := 0

def LimitSwap : Int := 1

def MarketIncrease : Int := 2

def LimitIncrease : Int := 3

def MarketDecrease : Int := 4

def LimitDecrease : Int := 5

def StopLossDecrease : Int := 6

def Liquidation : Int := 7

def StopIncrease : Int := 8

end GmxOrderType

def isGmxMarketOrderType (orderType : Int) : Bool :=
  decide (orderType = GmxOrderType.MarketSwap) ||
    decide (orderType = GmxOrderType.MarketIncrease) ||
    decide (orderType = GmxOrderType.MarketDecrease)

def isPositionOrder (orderType : Int) : Bool :=
  decide (orderType = GmxOrderType.MarketIncrease) ||
    decide (orderType = GmxOrderType.MarketDecrease)

/-- What the keeper needs to know about an order before it executes it. -/
structure GmxKeeperOrder (Address : Type) where
  account : Address
  callbackContract : Address
  callbackGasLimit : Nat
  orderType : Int
deriving DecidableEq

/-- What `Reader.getOrder` returns. -/
structure OrderProps (Address : Type) where
  account : Address
  callbackContract : Address
  market : Address
  initialCollateralToken : Address
  swapPath : List Address
  orderType : Int
  callbackGasLimit : Nat
  sizeDeltaUsd : Int
  initialCollateralDeltaAmount : Int
  isLong : Bool
deriving DecidableEq

structure GmxKeeperReadOrder (Address Key : Type) where
  order : GmxKeeperOrder Address
  key : Key
  market : Address
  collateralToken : Address
  swapPath : List Address
  isLong : Bool
  sizeDeltaUsd : Int
  collateralDeltaAmount : Int
deriving DecidableEq

/-- What the key of a position is made of. -/
structure GmxPositionKey (Address : Type) where
  account : Address
  market : Address
  collateralToken : Address
  isLong : Bool
deriving DecidableEq

inductive ReadTarget where
  | order
  | leverageInputs
deriving DecidableEq

inductive RefusalReason where
  | nonMarket (orderType : Int)
  | callback (callbackGasLimit : Nat)
  | swapPath (markets : Nat)
  | unread (what : ReadTarget) (attempt : Nat) (error : String)
  | cap (refusal : GmxCapRefusal)
deriving DecidableEq

structure GmxKeeperRefusal (Address Key : Type) where
  key : Key
  order : GmxKeeperOrder Address
  reason : RefusalReason
deriving DecidableEq

structure GmxKeeperReadRetry (Key : Type) where
  key : Key
  attempt : Nat
  maxAttempts : Nat
  what : ReadTarget
  error : String
deriving DecidableEq

def GMX_KEEPER_READ_ATTEMPTS : Nat := 3

def MAX_ORDER_FILLS_PER_BLOCK : Nat := 5

def MAX_LIQUIDATIONS_PER_BLOCK : Nat := 2

def LIQUIDATION_RESEND_BLOCKS : Int := 3

structure MarketProps (Address : Type) where
  marketToken : Address
  indexToken : Address
  longToken : Address
  shortToken : Address
deriving DecidableEq

structure Position (Address : Type) where
  account : Address
  market : Address
  collateralToken : Address
  isLong : Bool
  sizeInUsd : Int
  collateralAmount : Int
deriving DecidableEq

/-- `Reader.getPositionInfo`, as far as the cap check reads it. -/
structure GmxCapPositionInfo where
  fundingFeeAmount : Int
  borrowingFeeAmount : Int
  totalImpactUsd : Int
  basePnlUsd : Int
deriving DecidableEq

/-- The numbers read from the `DataStore`. -/
inductive UintKey (Address : Type) where
  | maxUiFeeFactor
  | minCollateralFactor (market : Address)
  | positionFeeFactor (market : Address) (improved : Bool)
  | maxPositionImpactFactorForLiquidations (market : Address)
  | minCollateralFactorForOiMultiplier (market : Address) (isLong : Bool)
  | openInterest (market token : Address) (isLong : Bool)
deriving DecidableEq

/-- The answers to the batch of the cap check. -/
structure CapReads (Address Key : Type) where
  uint : UintKey Address → Option Int
  position : Key → Option (Position Address)
  info : Key → Option GmxCapPositionInfo

/-- A log of the event emitter: is it `OrderCreated`, and its second topic. -/
structure EventLog (Key : Type) where
  orderCreated : Bool
  key : Option Key
deriving DecidableEq

/--
What a pass is answered: the logs of its range, each order, the execution
prices of the tokens, the reads of the cap check and of the liquidation scan,
and what goes wrong with each transaction sent.
-/
structure PassView (Address Key : Type) where
  toBlock : Nat
  logs : Except String (List (EventLog Key))
  order : Key → Except String (OrderProps Address)
  price : Address → Option Int
  capMarkets : Except String (Address → Option (MarketProps Address))
  capReads : Except String (CapReads Address Key)
  sendOrder : Key → Option String
  positionKeys : Except String (List (GmxPositionKey Address))
  positions : Except String (GmxPositionKey Address → Option (Position Address))
  liquidationMarkets : Except String (Address → Option (MarketProps Address))
  verdicts : Except String (GmxPositionKey Address → Option (Bool × String))
  sendLiquidation : GmxPositionKey Address → Option String

/-- The orders created according to some logs. -/
def createdIn {Key : Type} (logs : List (EventLog Key)) : List Key :=
  logs.filterMap fun l => if l.orderCreated then l.key else none

structure GmxKeeper (Address Key : Type) where
  deferredOrderKeys : List Key
  keeperReadFailures : Key → Nat
  liquidationSentAt : GmxPositionKey Address → Option Nat
  marketPropsCache : Address → Option (MarketProps Address)

/-- The keeper of a process which has just started. -/
def GmxKeeper.fresh {Address Key : Type} : GmxKeeper Address Key where
  deferredOrderKeys := []
  keeperReadFailures _ := 0
  liquidationSentAt _ := none
  marketPropsCache _ := none

section Pass

variable
    {Address Key : Type} [DecidableEq Address] [DecidableEq Key] [Zero Address]

/-- Read the markets not read before; only successes are kept. -/
def resolveMarketProps
    (cache : Address → Option (MarketProps Address))
    (answer : Except String (Address → Option (MarketProps Address)))
    (markets : List Address) :
    Except String (Address → Option (MarketProps Address)) ×
      (Address → Option (MarketProps Address)) :=
  let missing := markets.filter fun m => (cache m).isNone && decide (m ≠ 0)
  if missing = [] then (.ok cache, cache)
  else
    match answer with
    | .error message => (.error message, cache)
    | .ok read =>
        let filled := fun m =>
          if m ∈ missing then (read m).or (cache m) else cache m
        (.ok filled, filled)

/-! ## Refusals -/

def gmxKeeperRefusal (order : GmxKeeperOrder Address) :
    Option RefusalReason :=
  if !isGmxMarketOrderType order.orderType then
    some (.nonMarket order.orderType)
  else if order.callbackContract ≠ 0 then
    some (.callback order.callbackGasLimit)
  else none

def gmxKeeperSwapPathRefusal (order : GmxKeeperReadOrder Address Key) :
    Option RefusalReason :=
  if order.order.orderType ≠ GmxOrderType.MarketIncrease ∨
      order.swapPath.length = 0 then
    none
  else some (.swapPath order.swapPath.length)

def positionOf (order : GmxKeeperReadOrder Address Key) :
    Option (GmxPositionKey Address) :=
  if isPositionOrder order.order.orderType then
    some
      ⟨order.order.account, order.market, order.collateralToken, order.isLong⟩
  else none

/-- GMX checks the execution of the order against the cap. -/
def needsCapCheck (order : GmxKeeperReadOrder Address Key) : Bool :=
  if order.order.orderType = GmxOrderType.MarketIncrease then
    decide (0 < order.sizeDeltaUsd)
  else if order.order.orderType = GmxOrderType.MarketDecrease then
    decide (0 < order.sizeDeltaUsd) || decide (0 < order.collateralDeltaAmount)
  else false

structure GmxKeeperCapCheckDone where
  use : Option GmxCapUse
  own : Option GmxCapUse
deriving DecidableEq

/-- Why the inputs of a cap check could not be had. -/
inductive CapError where
  | markets (message : String)
  | market
  | price
  | inputs (message : String)
  | factors
  | position
  | info
deriving DecidableEq

def CapError.text : CapError → String
  | .markets message => "markets could not be read: " ++ message
  | .market => "market could not be read"
  | .price => "no execution price for a token of market"
  | .inputs message => "cap inputs could not be read: " ++ message
  | .factors => "the market's cap factors could not be read"
  | .position => "the position could not be read"
  | .info => "the position could not be priced"

/-- The market's side of the check, from the numbers read. -/
def capMarketOf
    (uint : UintKey Address → Option Int) (market : MarketProps Address)
    (isLong : Bool) (collateralPrice : Int) : Option GmxCapMarket := do
  let m := market.marketToken
  let factor ← uint (.minCollateralFactor m)
  let feeImproved ← uint (.positionFeeFactor m true)
  let feeWorsened ← uint (.positionFeeFactor m false)
  let uiFee ← uint .maxUiFeeFactor
  let impactForLiquidations ← uint (.maxPositionImpactFactorForLiquidations m)
  let oiMultiplier ← uint (.minCollateralFactorForOiMultiplier m isLong)
  let oiLong ← uint (.openInterest m market.longToken isLong)
  let oiShort ← uint (.openInterest m market.shortToken isLong)
  pure
    { collateralPrice := collateralPrice
      minCollateralFactor := factor
      oiMultiplierFactor := some oiMultiplier
      openInterestUsd := some (oiLong + oiShort)
      feeFactor :=
        (if feeWorsened < feeImproved then feeImproved else feeWorsened) + uiFee
      maxImpactFactorForLiquidations := some impactForLiquidations }

/-- The position as the check reads it, if it is open. -/
def capPositionOf
    (current : Position Address) (info : Option GmxCapPositionInfo) :
    Except CapError (Option GmxCapPosition) :=
  if 0 < current.sizeInUsd then
    match info with
    | none => .error .info
    | some priced =>
        .ok (some
            { sizeInUsd := current.sizeInUsd
              collateralAmount := current.collateralAmount
              pnlUsd := priced.basePnlUsd
              pendingFeeAmount :=
                priced.borrowingFeeAmount + priced.fundingFeeAmount
              closeImpactUsd := some priced.totalImpactUsd })
  else .ok none

def capOrderOf (order : GmxKeeperReadOrder Address Key) : GmxCapOrder where
  kind := if order.order.orderType = GmxOrderType.MarketIncrease then .increase
    else .decrease
  sizeDeltaUsd := order.sizeDeltaUsd
  collateralDeltaAmount := order.collateralDeltaAmount

/-- The price of an order's collateral, where it is one of the market's. -/
def collateralPriceOf
    (order : GmxKeeperReadOrder Address Key) (market : MarketProps Address)
    (long short : Int) : Option Int :=
  if order.collateralToken = market.longToken then some long
  else if order.collateralToken = market.shortToken then some short
  else none

/-- The check of one order from what the batch read. -/
def capCheckFrom
    (reads : CapReads Address Key) (order : GmxKeeperReadOrder Address Key)
    (market : MarketProps Address) (collateralPrice : Int) :
    Except CapError GmxKeeperCapCheckDone :=
  match capMarketOf reads.uint market order.isLong collateralPrice with
  | none => .error .factors
  | some capMarket =>
      match reads.position order.key with
      | none => .error .position
      | some current =>
          match capPositionOf current (reads.info order.key) with
          | .error error => .error error
          | .ok capPosition =>
              .ok ⟨gmxCapUse (capOrderOf order) capPosition capMarket,
                  gmxOwnCapUse (capOrderOf order) capMarket⟩

/-- How much of the cap an order would use at the prices of the pass. -/
def capCheck
    (view : PassView Address Key)
    (props : Except String (Address → Option (MarketProps Address)))
    (order : GmxKeeperReadOrder Address Key) :
    Except CapError GmxKeeperCapCheckDone :=
  match props with
  | .error message => .error (.markets message)
  | .ok found =>
      match found order.market with
      | none => .error .market
      | some market =>
          match view.price market.indexToken, view.price market.longToken,
            view.price market.shortToken with
          | some _, some long, some short =>
              match collateralPriceOf order market long short with
              | none => .ok ⟨none, none⟩
              | some collateralPrice =>
                  match view.capReads with
                  | .error message => .error (.inputs message)
                  | .ok reads =>
                      capCheckFrom reads order market collateralPrice
          | _, _, _ => .error .price

/-- The keeper's verdict on a checked order. -/
def keeperCapRefusal (cap : GmxKeeperCapCheckDone) : Option GmxCapRefusal :=
  (gmxCapRefusal cap.own true).or (gmxCapRefusal cap.use false)

/-! ## The plan of a pass -/

/-- A plan in the making, and what it has told of so far. -/
structure Planning (Address Key : Type) where
  failures : Key → Nat
  deferred : List Key
  deferredSamePosition : Nat
  refused : List (GmxKeeperRefusal Address Key)
  retries : List (GmxKeeperReadRetry Key)
  gone : List Key
  live : List (GmxKeeperReadOrder Address Key)
  execute : List (GmxKeeperReadOrder Address Key)
  touched : List (GmxPositionKey Address)

namespace Planning

def opened (failures : Key → Nat) : Planning Address Key where
  failures := failures
  deferred := []
  deferredSamePosition := 0
  refused := []
  retries := []
  gone := []
  live := []
  execute := []
  touched := []

def report
    (plan : Planning Address Key) (refusal : GmxKeeperRefusal Address Key) :
    Planning Address Key :=
  { plan with
    failures := Function.update plan.failures refusal.key 0
    refused := plan.refused ++ [refusal] }

/-- A read failed: wait a pass, or refuse after as many passes in a row. -/
def readFailed
    (plan : Planning Address Key) (key : Key)
    (order : GmxKeeperOrder Address) (what : ReadTarget)
    (error : String) : Planning Address Key :=
  let attempt := plan.failures key + 1
  if GMX_KEEPER_READ_ATTEMPTS ≤ attempt then
    plan.report ⟨key, order, .unread what attempt error⟩
  else
    { plan with
      failures := Function.update plan.failures key attempt
      deferred := plan.deferred ++ [key]
      retries := plan.retries ++
          [⟨key, attempt, GMX_KEEPER_READ_ATTEMPTS, what, error⟩] }

end Planning

def keeperOrderOf (props : OrderProps Address) : GmxKeeperOrder Address where
  account := props.account
  callbackContract := props.callbackContract
  callbackGasLimit := props.callbackGasLimit
  orderType := props.orderType

def readOrderOf (key : Key) (props : OrderProps Address) :
    GmxKeeperReadOrder Address Key where
  order := keeperOrderOf props
  key := key
  market := props.market
  collateralToken := props.initialCollateralToken
  swapPath := props.swapPath
  isLong := props.isLong
  sizeDeltaUsd := props.sizeDeltaUsd
  collateralDeltaAmount := props.initialCollateralDeltaAmount

/-- Read one order: it is gone, refused, or live. -/
def Planning.reads
    (view : PassView Address Key) (plan : Planning Address Key) (key : Key) :
    Planning Address Key :=
  match view.order key with
  | .error error => plan.readFailed key ⟨0, 0, 0, -1⟩ .order error
  | .ok props =>
      if props.account = 0 then
        { plan with
          failures := Function.update plan.failures key 0
          gone := plan.gone ++ [key] }
      else
        match (gmxKeeperRefusal (keeperOrderOf props)).or
            (gmxKeeperSwapPathRefusal (readOrderOf key props)) with
        | some reason => plan.report ⟨key, keeperOrderOf props, reason⟩
        | none => { plan with live := plan.live ++ [readOrderOf key props] }

def Planning.sends
    (plan : Planning Address Key) (order : GmxKeeperReadOrder Address Key) :
    Planning Address Key :=
  { plan with
    failures := Function.update plan.failures order.key 0
    execute := plan.execute ++ [order]
    touched := plan.touched ++ (positionOf order).toList }

def Planning.decides
    (view : PassView Address Key)
    (props : Except String (Address → Option (MarketProps Address)))
    (plan : Planning Address Key) (order : GmxKeeperReadOrder Address Key) :
    Planning Address Key :=
  if MAX_ORDER_FILLS_PER_BLOCK ≤ plan.execute.length then
    { plan with deferred := plan.deferred ++ [order.key] }
  else if ∃ position ∈ positionOf order, position ∈ plan.touched then
    { plan with
      deferred := plan.deferred ++ [order.key]
      deferredSamePosition := plan.deferredSamePosition + 1 }
  else if needsCapCheck order then
    match capCheck view props order with
    | .error error =>
        plan.readFailed order.key order.order .leverageInputs error.text
    | .ok cap =>
        match keeperCapRefusal cap with
        | some refused => plan.report ⟨order.key, order.order, .cap refused⟩
        | none => plan.sends order
  else plan.sends order

def readOrders
    (view : PassView Address Key) (keeper : GmxKeeper Address Key)
    (keys : List Key) : Planning Address Key :=
  keys.foldl (Planning.reads view) (.opened keeper.keeperReadFailures)

def checkedMarkets (orders : List (GmxKeeperReadOrder Address Key)) :
    List Address :=
  ((orders.filter needsCapCheck).map GmxKeeperReadOrder.market).eraseDups

/-- The markets read for the cap check, and those kept then. -/
def capProps
    (view : PassView Address Key) (keeper : GmxKeeper Address Key)
    (orders : List (GmxKeeperReadOrder Address Key)) :
    Except String (Address → Option (MarketProps Address)) ×
      (Address → Option (MarketProps Address)) :=
  resolveMarketProps keeper.marketPropsCache view.capMarkets
    (checkedMarkets orders)

def keeperOrderPlan
    (view : PassView Address Key) (keeper : GmxKeeper Address Key)
    (keys : List Key) : Planning Address Key :=
  let read := readOrders view keeper keys
  read.live.foldl
    (Planning.decides view (capProps view keeper read.live).1) read

/-! ## Liquidations -/

structure LiquidatablePosition (Address : Type) where
  key : GmxPositionKey Address
  account : Address
  market : Address
  collateralToken : Address
  isLong : Bool
  reason : String
deriving DecidableEq

/-- The prices of all three tokens of a market are there. -/
def priced
    (view : PassView Address Key) (market : MarketProps Address) : Bool :=
  (view.price market.indexToken).isSome &&
    (view.price market.longToken).isSome &&
    (view.price market.shortToken).isSome

def openPositions
    (keys : List (GmxPositionKey Address))
    (read : GmxPositionKey Address → Option (Position Address)) :
    List (GmxPositionKey Address × Position Address) :=
  keys.filterMap fun key =>
    (read key).bind fun position =>
      if 0 < position.sizeInUsd then some (key, position) else none

/-- Every open position GMX would liquidate at the prices of the pass. -/
def gmxLiquidatablePositions
    (view : PassView Address Key)
    (cache : Address → Option (MarketProps Address)) :
    Except String (List (LiquidatablePosition Address)) ×
      (Address → Option (MarketProps Address)) :=
  match view.positionKeys with
  | .error message => (.error message, cache)
  | .ok keys =>
      if keys = [] then (.ok [], cache)
      else
        match view.positions with
        | .error message => (.error message, cache)
        | .ok read =>
            let resolved := resolveMarketProps cache view.liquidationMarkets
                ((openPositions keys read).map fun o =>
                  o.2.market).eraseDups
            match resolved.1 with
            | .error message => (.error message, resolved.2)
            | .ok props =>
                let checks := (openPositions keys read).filter fun o =>
                    (props o.2.market).any (priced view)
                if checks = [] then (.ok [], resolved.2)
                else
                  match view.verdicts with
                  | .error message => (.error message, resolved.2)
                  | .ok verdicts =>
                      (.ok (checks.filterMap fun o =>
                          (verdicts o.1).bind fun verdict =>
                            if verdict.1 then
                              some ⟨o.1, o.2.account, o.2.market,
                                  o.2.collateralToken, o.2.isLong,
                                  verdict.2⟩
                            else none),
                        resolved.2)

/-- The liquidations of a pass in the making. -/
structure Liquidating (Address : Type) where
  sentAt : GmxPositionKey Address → Option Nat
  sent : Nat
  tried : List (GmxPositionKey Address)

/-- A liquidation of the position was sent a few blocks ago. -/
def sentLately (last : Option Nat) (block : Nat) : Bool :=
  match last with
  | none => false
  | some last => decide ((block : Int) - last < LIQUIDATION_RESEND_BLOCKS)

/-- Liquidate one position, unless it was sent lately. -/
def Liquidating.liquidates
    (view : PassView Address Key) (pass : Liquidating Address)
    (found : LiquidatablePosition Address) : Liquidating Address :=
  if MAX_LIQUIDATIONS_PER_BLOCK ≤ pass.sent then pass
  else if sentLately (pass.sentAt found.key) view.toBlock then pass
  else
    match view.sendLiquidation found.key with
    | some _ => { pass with tried := pass.tried ++ [found.key] }
    | none =>
        { sentAt :=
            Function.update pass.sentAt found.key (some view.toBlock)
          sent := pass.sent + 1
          tried := pass.tried ++ [found.key] }

/-- `liquidatePositions`; a failed read means no liquidation. -/
def liquidatePositions
    (view : PassView Address Key) (sentAt : GmxPositionKey Address → Option Nat)
    (found : Except String (List (LiquidatablePosition Address))) :
    Liquidating Address :=
  match found with
  | .error _ => ⟨sentAt, 0, []⟩
  | .ok positions =>
      positions.foldl (Liquidating.liquidates view) ⟨sentAt, 0, []⟩

/--
What a pass did: the orders it sent to execution, held back, refused and
found gone, the reads it will make again, and the positions it sent for
liquidation.
-/
structure PassReport (Address Key : Type) where
  executed : List (GmxKeeperReadOrder Address Key)
  failedSends : List Key
  deferred : List Key
  deferredSamePosition : Nat
  refused : List (GmxKeeperRefusal Address Key)
  retries : List (GmxKeeperReadRetry Key)
  gone : List Key
  liquidated : List (GmxPositionKey Address)
deriving DecidableEq

omit [DecidableEq Address] [DecidableEq Key] [Zero Address] in
/-- The report of a pass which threw before it did anything. -/
def PassReport.nothing : PassReport Address Key :=
  ⟨[], [], [], 0, [], [], [], []⟩

/-- The orders of a pass: those held back first, then the range's. -/
def passKeys
    (keeper : GmxKeeper Address Key) (logs : List (EventLog Key)) :
    List Key :=
  (keeper.deferredOrderKeys ++ createdIn logs).eraseDups

/-- `afterMine`; a scan which fails ends the pass. -/
def afterMine
    (view : PassView Address Key) (keeper : GmxKeeper Address Key) :
    GmxKeeper Address Key × PassReport Address Key :=
  match view.logs with
  | .error _ => (keeper, .nothing)
  | .ok logs =>
      let keys := passKeys keeper logs
      let plan := keeperOrderPlan view keeper keys
      let defer := keys.filter fun key => decide (key ∈ plan.deferred)
      let scanned := gmxLiquidatablePositions view
          (capProps view keeper (readOrders view keeper keys).live).2
      let liquidated :=
        liquidatePositions view keeper.liquidationSentAt scanned.1
      ({ deferredOrderKeys := defer
         keeperReadFailures := plan.failures
         liquidationSentAt := liquidated.sentAt
         marketPropsCache := scanned.2 },
        { executed := plan.execute
          failedSends :=
            (plan.execute.map GmxKeeperReadOrder.key).filter fun key =>
              (view.sendOrder key).isSome
          deferred := defer
          deferredSamePosition := plan.deferredSamePosition
          refused := plan.refused
          retries := plan.retries
          gone := plan.gone
          liquidated := liquidated.tried })

end Pass

end Eris.Gmx.Keeper
