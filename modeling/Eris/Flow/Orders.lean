import Mathlib

/-!
# The orders of one flow round

The environment's order flow spends from wallets of its own, one per protocol
and kind.  A round is given what each wallet holds, and builds the orders of
every protocol in the given order, consuming one random stream.  The swaps of
the automated market makers share a book of the wallets: each order is sized
against what the book has left and is debited from it.  The builders of the
perpetual and the lending flow read the same book and never debit it.

Prices, sizes and draws are exact rational numbers.
-/

namespace Eris.Flow.Orders

/-! ## Orders -/

inductive ProtocolId where
  | uniswap
  | balancer
  | curve
  | gmx
  | aave
  | lst
  | liquity
  | lending
deriving DecidableEq

def ProtocolId.name : ProtocolId → String
  | .uniswap => "uniswap"
  | .balancer => "balancer"
  | .curve => "curve"
  | .gmx => "gmx"
  | .aave => "aave"
  | .lst => "lst"
  | .liquity => "liquity"
  | .lending => "lending"

inductive FlowKind where
  | informed
  | uninformed
deriving DecidableEq

def FlowKind.name : FlowKind → String
  | .informed => "informed"
  | .uninformed => "uninformed"

abbrev TokenSymbol := String

inductive SwapType where
  | swap
  | balancerSwap
  | curveSwap
deriving DecidableEq

/-- An amount which is missing is the text `max`. -/
inductive LeafAction where
  | swap (type : SwapType) (tokenIn : TokenSymbol)
      (amountIn slippageBps : Nat) (base : Option TokenSymbol)
  | gmxIncrease (isLong : Bool) (collateral : TokenSymbol)
      (collateralAmount sizeDeltaUsd : Nat)
  | gmxDecrease (isLong : Bool) (collateral : TokenSymbol)
      (collateralDeltaAmount sizeDeltaUsd : Nat)
  | aaveSupply (asset : TokenSymbol) (amount : Nat)
  | aaveWithdraw (asset : TokenSymbol) (amount : Option Nat)
  | aaveBorrow (asset : TokenSymbol) (amount : Nat)
  | aaveRepay (asset : TokenSymbol) (amount : Option Nat)
deriving DecidableEq

structure FlowOrder where
  kind : FlowKind
  action : LeafAction
  priorityFeeWei : Nat
deriving DecidableEq

structure FlowOrderOut where
  protocol : ProtocolId
  walletProtocol : Option ProtocolId
  walletKey : Option String
  kind : FlowKind
  action : LeafAction
  priorityFeeWei : Nat
deriving DecidableEq

inductive Guard where
  | sell_flipped_to_buy
  | sell_capped
  | sell_suppressed
  | buy_capped
  | buy_suppressed
deriving DecidableEq

structure FlowGuardNote where
  protocol : ProtocolId
  kind : FlowKind
  base : TokenSymbol
  guard : Guard
deriving DecidableEq

def FLOW_SLIPPAGE_BPS : Nat := 100

def QUOTE_DECIMALS : Nat := 6

structure FlowBalance where
  wethWei : Nat
  usdcUnits : Nat
  bases : Option (TokenSymbol → Option Nat)

def baseHeld (balance : FlowBalance) (base : TokenSymbol) : Nat :=
  if base = "WETH" then balance.wethWei
  else (balance.bases.bind fun bases => bases base).getD 0

def debit
    (balance : Option FlowBalance) (tokenIn : TokenSymbol) (amount : Nat) :
    Option FlowBalance :=
  balance.map fun balance =>
    if amount = 0 then balance
    else if tokenIn = "USDC" then
      { balance with
        usdcUnits :=
          if amount < balance.usdcUnits then balance.usdcUnits - amount
          else 0 }
    else if tokenIn = "WETH" then
      { balance with
        wethWei :=
          if amount < balance.wethWei then balance.wethWei - amount else 0 }
    else
      match balance.bases with
      | none => balance
      | some bases =>
          let held := (bases tokenIn).getD 0
          { balance with
            bases := some (Function.update bases tokenIn
                (some (if amount < held then held - amount else 0))) }

def capUsdc (amount : Nat) (balance : Option FlowBalance) : Nat :=
  match balance with
  | none => amount
  | some balance =>
      if balance.usdcUnits < amount then balance.usdcUnits else amount

/-- The key of the wallet of a protocol and a kind. -/
def walletKeyOf (protocol : ProtocolId) (kind : FlowKind) : String :=
  protocol.name ++ ":" ++ kind.name

def FlowOrderOut.wallet (order : FlowOrderOut) : String :=
  order.walletKey.getD
    (walletKeyOf (order.walletProtocol.getD order.protocol) order.kind)

/-- The random stream of the flow; `next` draws from zero up to one. -/
structure Random (Stream : Type) where
  next : Stream → ℚ × Stream
  lognormal : ℚ → ℚ → Stream → ℚ × Stream
  poisson : ℚ → Stream → Nat × Stream

/-- The shared stream, and the streams derived from a key of their own. -/
structure Streams (Stream : Type) extends Random Stream where
  trendBit : Nat → Nat → String → Bool
  trendNext : Nat → Nat → String → ℚ
  actorLognormal : String → ℚ → ℚ → ℚ

section Draws

variable {Stream : Type} (streams : Streams Stream)

def Streams.bool (rng : Stream) : Bool × Stream :=
  let drawn := streams.next rng
  (decide (1 / 2 ≤ drawn.1), drawn.2)

def Streams.int (minInclusive : Nat) (maxExclusive : ℚ) (rng : Stream) :
    Nat × Stream :=
  let drawn := streams.next rng
  (⌊drawn.1 * (maxExclusive - minInclusive)⌋₊ + minInclusive, drawn.2)

def randomBigInt (minInclusive maxInclusive : Nat) (rng : Stream) :
    Nat × Stream :=
  let span := maxInclusive - minInclusive + 1
  let drawn := streams.next rng
  (minInclusive + ⌊drawn.1 * 1000000⌋₊ * span / 1000000, drawn.2)

end Draws

def scaleFraction (cap : Nat) (fraction : ℚ) : Nat :=
  let ppm := ⌊max 0 (fraction * 1000000) + 1 / 2⌋₊
  cap * ppm / 1000000

/-- `decimals` are those of the token registry. -/
def baseToQuoteUnits
    (decimals : TokenSymbol → Nat) (baseAmount : Nat) (base : TokenSymbol)
    (price : ℚ) : Nat :=
  let scale := 10 ^ (decimals base - QUOTE_DECIMALS)
  baseAmount * ⌊price * 100 + 1 / 2⌋₊ / (100 * scale)

def wethToUsdcUnits
    (decimals : TokenSymbol → Nat) (wethWei : Nat) (fairPrice : ℚ) : Nat :=
  baseToQuoteUnits decimals wethWei "WETH" fairPrice

/-! ## Swaps -/

structure AmmFlow where
  protocol : ProtocolId
  poolPrice : ℚ
  fairPrice : ℚ
  uninformedMaxWethWei : Nat
  informedMaxWethWei : Nat
  defaultPriorityFeeWei : Nat
  usdcOnlyFlow : Bool
  base : TokenSymbol
  uninformedCount : ℚ
  round : Nat
  persistBlocks : ℚ
  informedArbFeeBps : ℚ
  uninformedArrivalRate : ℚ
  uninformedSizeSigma : ℚ
  trendCorrelation : ℚ
  trendSeed : Nat
  uninformedSizeClampMult : ℚ

/-- One kind's swaps while they are built. -/
structure Leg (Stream : Type) where
  rng : Stream
  balance : Option FlowBalance
  orders : List FlowOrder
  guards : List FlowGuardNote

section Amm

variable {Stream : Type} (streams : Streams Stream)
    (decimals : TokenSymbol → Nat) (flow : AmmFlow)

def AmmFlow.swapType : SwapType :=
  match flow.protocol with
  | .uniswap => .swap
  | .balancer => .balancerSwap
  | _ => .curveSwap

def AmmFlow.note (kind : FlowKind) (guard : Guard) : FlowGuardNote :=
  ⟨flow.protocol, kind, flow.base, guard⟩

/-- Send an order of a positive amount, and debit it. -/
def Leg.commit
    (leg : Leg Stream) (kind : FlowKind) (tokenIn : TokenSymbol)
    (amount fee : Nat) : Leg Stream :=
  if 0 < amount then
    { leg with
      orders := leg.orders ++ [⟨kind,
          .swap flow.swapType tokenIn amount FLOW_SLIPPAGE_BPS
            (if flow.base = "WETH" then none else some flow.base),
          fee⟩]
      balance := debit leg.balance tokenIn amount }
  else leg

/-- The direction a venue keeps for some blocks. -/
def trendTokenIn : Option TokenSymbol :=
  if 1 < flow.persistBlocks then
    let window := ⌊(flow.round : ℚ) / flow.persistBlocks⌋₊
    let venueUp := streams.trendBit flow.trendSeed window flow.protocol.name
    let up := if 0 < flow.trendCorrelation then
        if streams.trendNext flow.trendSeed window
            (flow.protocol.name ++ "|corr") < flow.trendCorrelation then
          streams.trendBit flow.trendSeed window "market"
        else venueUp
      else venueUp
    some (if up then "USDC" else flow.base)
  else none

/-- Whether a sell is turned into a buy: nothing may be sold, or too little
is held. -/
def AmmFlow.flips
    (balance : Option FlowBalance) (tokenIn : TokenSymbol)
    (wethEquiv : Nat) : Bool :=
  tokenIn = flow.base && (flow.usdcOnlyFlow || match balance with
      | none => false
      | some balance => decide (baseHeld balance flow.base < wethEquiv))

def uninformedArrival (leg : Leg Stream) : Leg Stream :=
  let direction := match trendTokenIn streams flow with
    | some tokenIn => (tokenIn, leg.rng)
    | none =>
        let drawn := streams.bool leg.rng
        (if drawn.1 then flow.base else "USDC", drawn.2)
  let wethEquiv := if 0 < flow.uninformedArrivalRate then
      let drawn :=
        streams.lognormal (1 / 2) flow.uninformedSizeSigma direction.2
      (scaleFraction flow.uninformedMaxWethWei
        (min flow.uninformedSizeClampMult (max (1 / 50) drawn.1)), drawn.2)
    else
      randomBigInt streams (flow.uninformedMaxWethWei / 20)
        flow.uninformedMaxWethWei direction.2
  let flips := flow.flips leg.balance direction.1 wethEquiv.1
  let flipNotes := if flips && !flow.usdcOnlyFlow then
      [flow.note .uninformed .sell_flipped_to_buy]
    else []
  let tokenIn := if flips then "USDC" else direction.1
  let wanted := if tokenIn = flow.base then wethEquiv.1
    else baseToQuoteUnits decimals wethEquiv.1 flow.base flow.fairPrice
  let amount :=
    if tokenIn = flow.base then wethEquiv.1 else capUsdc wanted leg.balance
  let capNotes := if tokenIn ≠ flow.base ∧ amount < wanted then
      [flow.note .uninformed
        (if 0 < amount then .buy_capped else .buy_suppressed)]
    else []
  let fee := streams.int 1 50 wethEquiv.2
  Leg.commit flow { leg with
      rng := fee.2
      guards := leg.guards ++ flipNotes ++ capNotes }
    .uninformed tokenIn amount
    (flow.defaultPriorityFeeWei + fee.1 * 1000000)

/-- The gap-closing order of the informed flow. -/
def informedOrder (leg : Leg Stream) : Leg Stream :=
  let rawDeviation := |flow.fairPrice / flow.poolPrice - 1|
  if 0 < flow.informedArbFeeBps ∧
      rawDeviation * 10000 ≤ flow.informedArbFeeBps then leg
  else
    let effectiveDeviation := if 0 < flow.informedArbFeeBps then
        max 0 (rawDeviation - flow.informedArbFeeBps / 10000)
      else rawDeviation
    let tokenIn := if flow.poolPrice < flow.fairPrice then "USDC" else flow.base
    let gap := min 1 (effectiveDeviation * 20)
    let sized := flow.informedMaxWethWei * max 1 ⌊gap * 100⌋₊ / 100
    let capped := if tokenIn = flow.base then
        match leg.balance with
        | some balance =>
            let held := baseHeld balance flow.base
            if held < sized then
              (held, [flow.note .informed
                  (if 0 < held then .sell_capped else .sell_suppressed)])
            else (sized, [])
        | none => (if flow.usdcOnlyFlow then 0 else sized, [])
      else (sized, [])
    let wanted := if tokenIn = flow.base then capped.1
      else baseToQuoteUnits decimals capped.1 flow.base flow.fairPrice
    let amount :=
      if tokenIn = flow.base then capped.1 else capUsdc wanted leg.balance
    let capNotes := if tokenIn ≠ flow.base ∧ amount < wanted then
        [flow.note .informed
          (if 0 < amount then .buy_capped else .buy_suppressed)]
      else []
    let fee := streams.int 50 100 leg.rng
    Leg.commit flow { leg with
        rng := fee.2
        guards := leg.guards ++ capped.2 ++ capNotes }
      .informed tokenIn amount
      (flow.defaultPriorityFeeWei + fee.1 * 1000000)

def arrivals (rng : Stream) : Nat × Stream :=
  if 0 < flow.uninformedArrivalRate then
    streams.poisson flow.uninformedArrivalRate rng
  else (⌈max 1 flow.uninformedCount⌉₊, rng)

/-- What the swaps of one venue leave: the orders and both wallets. -/
structure AmmResult (Stream : Type) where
  rng : Stream
  uninformed : Option FlowBalance
  informed : Option FlowBalance
  orders : List FlowOrder
  guards : List FlowGuardNote

def buildAmmFlow
    (rng : Stream) (uninformed informed : Option FlowBalance) :
    AmmResult Stream :=
  let count := arrivals streams flow rng
  let noise := (uninformedArrival streams decimals flow)^[count.1]
      ⟨count.2, uninformed, [], []⟩
  let pull := informedOrder streams decimals flow
      { noise with balance := informed }
  { rng := pull.rng
    uninformed := noise.balance
    informed := pull.balance
    orders := pull.orders
    guards := pull.guards }

end Amm

/-! ## The perpetual flow -/

structure Side where
  sizeUsd : Nat
  collateralWei : Nat
deriving DecidableEq

structure GmxFlowExposure where
  long : Side
  short : Side
  longCapUsd : Nat
  shortCapUsd : Nat
deriving DecidableEq

structure GmxFlow where
  gmxFlowMaxSizeUsd : Nat
  defaultPriorityFeeWei : Nat
  fairPrice : ℚ
  balance : Option FlowBalance
  canPrepareWeth : Bool
  activityProb : ℚ
  maxBurst : ℚ
  arrivalRate : ℚ
  sizeSigma : ℚ
  exposure : Option GmxFlowExposure
  oiTargetFrac : ℚ

/-- The two sides of the flow's own book, tracked through a burst. -/
structure Held where
  long : Side
  short : Side
deriving DecidableEq

def Held.side (held : Held) (isLong : Bool) : Side :=
  if isLong then held.long else held.short

def Held.setSide (held : Held) (isLong : Bool) (side : Side) : Held :=
  if isLong then { held with long := side } else { held with short := side }

def GmxFlowExposure.capUsd (exposure : GmxFlowExposure) (isLong : Bool) :
    Nat :=
  if isLong then exposure.longCapUsd else exposure.shortCapUsd

structure GmxDraw where
  isLong : Bool
  sizeUsd : Nat
  collateralWei : Nat
  fee : Nat
deriving DecidableEq

/-- What one pass of a burst does with its draw. -/
inductive GmxMove where
  | decrease (sizeDelta collateralDelta : Nat)
  | prepare (usdcIn : Nat)
  | stop
  | increase
deriving DecidableEq

structure Burst (Stream : Type) where
  rng : Stream
  held : Option Held
  orders : List FlowOrderOut

section Gmx

variable {Stream : Type} (streams : Streams Stream)
    (decimals : TokenSymbol → Nat) (flow : GmxFlow)

def gmxDraw (rng : Stream) : GmxDraw × Stream :=
  let isLong := streams.bool rng
  let sizeUsd := if 0 < flow.arrivalRate then
      let drawn := streams.lognormal (1 / 40) flow.sizeSigma isLong.2
      (scaleFraction flow.gmxFlowMaxSizeUsd
        (min (1 / 10) (max (1 / 200) drawn.1)), drawn.2)
    else
      randomBigInt streams (flow.gmxFlowMaxSizeUsd / 100)
        (flow.gmxFlowMaxSizeUsd / 25) isLong.2
  let sizeUsdNum : ℚ := sizeUsd.1 / 10 ^ 30
  let fee := streams.int 1 60 sizeUsd.2
  ({ isLong := isLong.1
     sizeUsd := sizeUsd.1
     collateralWei := max 1 ⌊sizeUsdNum / 2 * 10 ^ 18 / 2100⌋₊
     fee := flow.defaultPriorityFeeWei + fee.1 * 1000000 }, fee.2)

/-- Whether the flow holds its share of a side already. -/
def GmxFlow.closes (held : Option Held) (isLong : Bool) : Option Side :=
  match held, flow.exposure with
  | some held, some exposure =>
      let side := held.side isLong
      if 0 < side.sizeUsd ∧
          scaleFraction (exposure.capUsd isLong) flow.oiTargetFrac ≤
            side.sizeUsd then
        some side
      else none
  | _, _ => none

def gmxMove (held : Option Held) (drawn : GmxDraw) : GmxMove :=
  match flow.closes held drawn.isLong with
  | some side =>
      let sizeDelta :=
        if drawn.sizeUsd < side.sizeUsd then drawn.sizeUsd else side.sizeUsd
      .decrease sizeDelta (side.collateralWei * sizeDelta / side.sizeUsd)
  | none =>
      match flow.balance with
      | none => .increase
      | some balance =>
          if balance.wethWei <
              drawn.collateralWei * (if flow.canPrepareWeth then 2 else 1)
          then
            if flow.canPrepareWeth then
              let usdcIn := capUsdc
                  (wethToUsdcUnits decimals drawn.collateralWei flow.fairPrice)
                  flow.balance
              if usdcIn = 0 then .stop else .prepare usdcIn
            else .stop
          else .increase

/-- One pass of a burst, and whether the burst goes on. -/
def gmxPass (burst : Burst Stream) : Burst Stream × Bool :=
  let drawn := gmxDraw streams flow burst.rng
  let isLong := drawn.1.isLong
  match gmxMove decimals flow burst.held drawn.1 with
  | .decrease sizeDelta collateralDelta =>
      ({ rng := drawn.2
         held := burst.held.map fun held =>
             held.setSide isLong ⟨(held.side isLong).sizeUsd - sizeDelta,
                 (held.side isLong).collateralWei - collateralDelta⟩
         orders := burst.orders ++ [⟨.gmx, none, none, .uninformed,
             .gmxDecrease isLong "WETH" collateralDelta sizeDelta,
             drawn.1.fee⟩] }, true)
  | .prepare usdcIn =>
      ({ burst with
         rng := drawn.2
         orders := burst.orders ++ [⟨.uniswap, some .gmx, none, .uninformed,
             .swap .swap "USDC" usdcIn FLOW_SLIPPAGE_BPS none,
             drawn.1.fee⟩] }, false)
  | .stop => ({ burst with rng := drawn.2 }, false)
  | .increase =>
      ({ rng := drawn.2
         held := burst.held.map fun held =>
             held.setSide isLong ⟨(held.side isLong).sizeUsd + drawn.1.sizeUsd,
                 (held.side isLong).collateralWei + drawn.1.collateralWei⟩
         orders := burst.orders ++ [⟨.gmx, none, none, .uninformed,
             .gmxIncrease isLong "WETH" drawn.1.collateralWei
               drawn.1.sizeUsd,
             drawn.1.fee⟩] }, true)

def gmxBurst : Nat → Burst Stream → Burst Stream
  | 0, burst => burst
  | passes + 1, burst =>
      let pass := gmxPass streams decimals flow burst
      if pass.2 then gmxBurst passes pass.1 else pass.1

def gmxBurstLength (rng : Stream) : Nat × Stream :=
  if 0 < flow.arrivalRate then streams.poisson flow.arrivalRate rng
  else
    let gate := streams.next rng
    if flow.activityProb ≤ gate.1 then (0, gate.2)
    else if flow.maxBurst ≤ 1 then (1, gate.2)
    else streams.int 1 (flow.maxBurst + 1) gate.2

def gmxOpened (rng : Stream) : Burst Stream where
  rng := rng
  held := flow.exposure.bind fun exposure =>
      if 0 < flow.oiTargetFrac then some ⟨exposure.long, exposure.short⟩
      else none
  orders := []

def buildGmxFlow (rng : Stream) : List FlowOrderOut × Stream :=
  let length := gmxBurstLength streams flow rng
  let burst := gmxBurst streams decimals flow length.1 (gmxOpened flow length.2)
  (burst.orders, burst.rng)

end Gmx

structure AaveReserves where
  wethSupplied : Nat
  usdcBorrowed : Nat
deriving DecidableEq

structure AaveActorState where
  key : String
  wethSupplied : Nat
  usdcBorrowed : Nat
  wethWei : Nat
  usdcUnits : Nat
deriving DecidableEq

structure AaveFlow where
  aaveFlowMaxWethWei : Nat
  aaveFlowBorrowUsdcUnits : Nat
  defaultPriorityFeeWei : Nat
  fairPrice : ℚ
  activityProb : ℚ
  actorSizeSigma : ℚ

section Aave

variable {Stream : Type} (streams : Streams Stream)
    (decimals : TokenSymbol → Nat) (flow : AaveFlow)

def buildAaveFlow
    (reserves : AaveReserves) (balance : Option FlowBalance)
    (canPrepareWeth : Bool) (rng : Stream) : List FlowOrderOut × Stream :=
  let gate := streams.next rng
  if flow.activityProb ≤ gate.1 then ([], gate.2)
  else
    let drawn := streams.int 1 40 gate.2
    let fee := flow.defaultPriorityFeeWei + drawn.1 * 1000000
    let order := fun action : LeafAction =>
      (⟨.aave, none, none, .informed, action, fee⟩ : FlowOrderOut)
    if reserves.wethSupplied = 0 then
      let amount := randomBigInt streams (flow.aaveFlowMaxWethWei / 4)
          (flow.aaveFlowMaxWethWei * 3 / 4) drawn.2
      let short := match balance with
        | none => false
        | some balance =>
            decide (balance.wethWei <
              amount.1 * (if canPrepareWeth then 2 else 1))
      if short then
        if canPrepareWeth then
          let usdcIn :=
            capUsdc (wethToUsdcUnits decimals amount.1 flow.fairPrice) balance
          if usdcIn = 0 then ([], amount.2)
          else
            ([⟨.uniswap, some .aave, none, .informed,
              .swap .swap "USDC" usdcIn FLOW_SLIPPAGE_BPS none, fee⟩],
              amount.2)
        else ([], amount.2)
      else ([order (.aaveSupply "WETH" amount.1)], amount.2)
    else if 0 < reserves.usdcBorrowed then
      ([order (.aaveRepay "USDC" none)], drawn.2)
    else
      let borrows := streams.bool drawn.2
      if borrows.1 then
        let amount := randomBigInt streams (flow.aaveFlowBorrowUsdcUnits / 10)
            (flow.aaveFlowBorrowUsdcUnits * 3 / 10) borrows.2
        ([order (.aaveBorrow "USDC"
          (if 0 < amount.1 then amount.1 else 100000000))], amount.2)
      else ([order (.aaveWithdraw "WETH" none)], borrows.2)

/-- What one actor of the pool does in a block, if anything. -/
def actorMove (actor : AaveActorState) (rng : Stream) :
    List FlowOrderOut × Stream :=
  let minStep := flow.aaveFlowBorrowUsdcUnits / 25
  let gate := streams.next rng
  if flow.activityProb ≤ gate.1 then ([], gate.2)
  else
    let targetCollateralWei := if 0 < flow.actorSizeSigma then
        scaleFraction flow.aaveFlowMaxWethWei (min 3 (max (1 / 10)
            (streams.actorLognormal actor.key 1 flow.actorSizeSigma)))
      else flow.aaveFlowMaxWethWei
    let drawn := streams.int 1 40 gate.2
    let order := fun action : LeafAction =>
      (⟨.aave, none, some actor.key, .informed, action,
        flow.defaultPriorityFeeWei + drawn.1 * 1000000⟩ : FlowOrderOut)
    if actor.wethSupplied < targetCollateralWei * 8 / 10 then
      let amount := min (targetCollateralWei - actor.wethSupplied)
          (actor.wethWei * 7 / 10)
      (if 0 < amount then [order (.aaveSupply "WETH" amount)] else [], drawn.2)
    else
      let collateralValueUsdc :=
        wethToUsdcUnits decimals actor.wethSupplied flow.fairPrice
      let targetDebt := collateralValueUsdc * 30 / 100
      let r := streams.next drawn.2
      if actor.usdcBorrowed + 2 * minStep < targetDebt ∧ r.1 < 11 / 20 then
        let want := randomBigInt streams (flow.aaveFlowBorrowUsdcUnits / 20)
            (flow.aaveFlowBorrowUsdcUnits / 10) r.2
        let amount := min want.1 (targetDebt - actor.usdcBorrowed)
        (if 0 < amount then [order (.aaveBorrow "USDC" amount)] else [], want.2)
      else if minStep < actor.usdcBorrowed ∧ r.1 < 9 / 10 then
        let want := randomBigInt streams (actor.usdcBorrowed / 4)
            (actor.usdcBorrowed / 2) r.2
        let amount := min want.1 actor.usdcUnits
        (if 0 < amount then [order (.aaveRepay "USDC" (some amount))]
          else [], want.2)
      else ([], r.2)

def buildAaveActorsFlow (actors : List AaveActorState) (rng : Stream) :
    List FlowOrderOut × Stream :=
  actors.foldl (fun built actor =>
      let move := actorMove streams decimals flow actor built.2
      (built.1 ++ move.1, move.2))
    ([], rng)

end Aave

/-! ## One round -/

structure ExtraBase where
  base : TokenSymbol
  poolPrices : ProtocolId → Option ℚ
  fairPriceUsd : ℚ
  uninformedFlowMaxBaseWei : Nat
  informedFlowMaxBaseWei : Nat
  balancerFlowMaxBaseWei : Nat
  curveFlowMaxBaseWei : Nat

structure FlowLimits where
  uninformedFlowMaxWethWei : Nat
  uninformedFlowCountPerBlock : ℚ
  uninformedFlowPersistBlocks : ℚ
  uninformedFlowTrendCorrelation : ℚ
  informedFlowMaxWethWei : Nat
  balancerFlowMaxWethWei : Nat
  curveFlowMaxWethWei : Nat
  balancerUninformedFlowMaxWethWei : Nat
  curveUninformedFlowMaxWethWei : Nat
  gmxFlowMaxSizeUsd : Nat
  gmxFlowActivityProb : ℚ
  gmxFlowMaxBurst : ℚ
  aaveFlowMaxWethWei : Nat
  aaveFlowBorrowUsdcUnits : Nat
  aaveFlowActivityProb : ℚ
  informedArbFeeBps : ℚ
  uninformedArrivalRate : ℚ
  uninformedSizeSigma : ℚ
  uninformedSizeClampMult : ℚ
  gmxArrivalRate : ℚ
  gmxSizeSigma : ℚ
  gmxOiTargetFrac : ℚ
  aaveActorSizeSigma : ℚ
  defaultPriorityFeeWei : Nat

structure FlowContext where
  round : Nat
  fairPriceUsdcPerWeth : ℚ
  flowSeed : Option Nat
  protocols : List ProtocolId
  poolPrices : ProtocolId → Option ℚ
  aaveReserves : Option AaveReserves
  aaveActors : Option (List AaveActorState)
  flowBalances : String → Option FlowBalance
  usdcOnlyFlow : Bool
  gmxFlowExposure : Option GmxFlowExposure
  extraBases : List ExtraBase
  limits : FlowLimits

/-- A round while its orders are built; the book hands out the wallets. -/
structure Round (Stream : Type) where
  rng : Stream
  book : String → Option FlowBalance
  out : List FlowOrderOut
  guards : List FlowGuardNote

section Round

variable {Stream : Type} (streams : Streams Stream)
    (decimals : TokenSymbol → Nat) (ctx : FlowContext)

def tag (protocol : ProtocolId) (order : FlowOrder) : FlowOrderOut :=
  ⟨protocol, none, none, order.kind, order.action, order.priorityFeeWei⟩

/-- Build one venue's swaps from the two wallets the book has for it. -/
def Round.amm (round : Round Stream) (flow : AmmFlow) : Round Stream :=
  let uninformedKey := walletKeyOf flow.protocol .uninformed
  let informedKey := walletKeyOf flow.protocol .informed
  let built :=
    buildAmmFlow streams decimals flow round.rng (round.book uninformedKey)
      (round.book informedKey)
  { rng := built.rng
    book := Function.update
        (Function.update round.book uninformedKey built.uninformed)
        informedKey built.informed
    out := round.out ++ built.orders.map (tag flow.protocol)
    guards := round.guards ++ built.guards }

/-- `[uninformedMax, informedMax]` of a venue. -/
def ammMax (limits : FlowLimits) : ProtocolId → Nat × Nat
  | .uniswap =>
      (limits.uninformedFlowMaxWethWei, limits.informedFlowMaxWethWei)
  | .balancer =>
      (limits.balancerUninformedFlowMaxWethWei, limits.balancerFlowMaxWethWei)
  | _ =>
      (limits.curveUninformedFlowMaxWethWei, limits.curveFlowMaxWethWei)

def FlowContext.ammFlow
    (protocol : ProtocolId) (base : TokenSymbol) (poolPrice fairPrice : ℚ)
    (max : Nat × Nat) : AmmFlow where
  protocol := protocol
  poolPrice := poolPrice
  fairPrice := fairPrice
  uninformedMaxWethWei := max.1
  informedMaxWethWei := max.2
  defaultPriorityFeeWei := ctx.limits.defaultPriorityFeeWei
  usdcOnlyFlow := ctx.usdcOnlyFlow
  base := base
  uninformedCount := ctx.limits.uninformedFlowCountPerBlock
  round := ctx.round
  persistBlocks := ctx.limits.uninformedFlowPersistBlocks
  informedArbFeeBps := ctx.limits.informedArbFeeBps
  uninformedArrivalRate := ctx.limits.uninformedArrivalRate
  uninformedSizeSigma := ctx.limits.uninformedSizeSigma
  trendCorrelation := ctx.limits.uninformedFlowTrendCorrelation
  trendSeed := ctx.flowSeed.getD 0
  uninformedSizeClampMult := ctx.limits.uninformedSizeClampMult

def FlowContext.gmxFlow (balance : Option FlowBalance) : GmxFlow where
  gmxFlowMaxSizeUsd := ctx.limits.gmxFlowMaxSizeUsd
  defaultPriorityFeeWei := ctx.limits.defaultPriorityFeeWei
  fairPrice := ctx.fairPriceUsdcPerWeth
  balance := balance
  canPrepareWeth := decide (ProtocolId.uniswap ∈ ctx.protocols)
  activityProb := ctx.limits.gmxFlowActivityProb
  maxBurst := ctx.limits.gmxFlowMaxBurst
  arrivalRate := ctx.limits.gmxArrivalRate
  sizeSigma := ctx.limits.gmxSizeSigma
  exposure := ctx.gmxFlowExposure
  oiTargetFrac := ctx.limits.gmxOiTargetFrac

def FlowContext.aaveFlow : AaveFlow where
  aaveFlowMaxWethWei := ctx.limits.aaveFlowMaxWethWei
  aaveFlowBorrowUsdcUnits := ctx.limits.aaveFlowBorrowUsdcUnits
  defaultPriorityFeeWei := ctx.limits.defaultPriorityFeeWei
  fairPrice := ctx.fairPriceUsdcPerWeth
  activityProb := ctx.limits.aaveFlowActivityProb
  actorSizeSigma := ctx.limits.aaveActorSizeSigma

def FlowContext.reserves : AaveReserves := ctx.aaveReserves.getD ⟨0, 0⟩

/-- The lending orders: the pool of actors when there is one. -/
def FlowContext.aaveOrders (balance : Option FlowBalance) (rng : Stream) :
    List FlowOrderOut × Stream :=
  let actors := ctx.aaveActors.getD []
  if 0 < actors.length then
    buildAaveActorsFlow streams decimals ctx.aaveFlow actors rng
  else
    buildAaveFlow streams decimals ctx.aaveFlow ctx.reserves balance
      (decide (ProtocolId.uniswap ∈ ctx.protocols)) rng

/-- The orders of one protocol of the list. -/
def Round.protocol (round : Round Stream) (protocol : ProtocolId) :
    Round Stream :=
  match protocol with
  | .uniswap | .balancer | .curve =>
      round.amm streams decimals (ctx.ammFlow protocol "WETH"
          ((ctx.poolPrices protocol).getD ctx.fairPriceUsdcPerWeth)
          ctx.fairPriceUsdcPerWeth (ammMax ctx.limits protocol))
  | .aave =>
      let built := ctx.aaveOrders streams decimals
          (round.book (walletKeyOf .aave .informed)) round.rng
      { round with rng := built.2, out := round.out ++ built.1 }
  | .gmx =>
      let built := buildGmxFlow streams decimals
          (ctx.gmxFlow (round.book (walletKeyOf .gmx .uninformed))) round.rng
      { round with rng := built.2, out := round.out ++ built.1 }
  | _ => round

/-- The caps of a venue for a further base. -/
def ExtraBase.max (extra : ExtraBase) : ProtocolId → Nat × Nat
  | .uniswap =>
      (extra.uninformedFlowMaxBaseWei, extra.informedFlowMaxBaseWei)
  | .balancer =>
      (extra.balancerFlowMaxBaseWei, extra.balancerFlowMaxBaseWei)
  | _ => (extra.curveFlowMaxBaseWei, extra.curveFlowMaxBaseWei)

/-- The swaps of one venue for a further base. -/
def Round.extra
    (extra : ExtraBase) (round : Round Stream) (protocol : ProtocolId) :
    Round Stream :=
  match protocol with
  | .uniswap | .balancer | .curve =>
      let max := extra.max protocol
      if max.1 = 0 ∧ max.2 = 0 then round
      else
        match extra.poolPrices protocol with
        | none => round
        | some poolPrice =>
            if poolPrice ≤ 0 then round
            else
              round.amm streams decimals
                (ctx.ammFlow protocol extra.base poolPrice
                  extra.fairPriceUsd max)
  | _ => round

def Round.opened (rng : Stream) : Round Stream where
  rng := rng
  book := ctx.flowBalances
  out := []
  guards := []

def buildFlowOrders (rng : Stream) : Round Stream :=
  let round := ctx.protocols.foldl (Round.protocol streams decimals ctx)
      (.opened ctx rng)
  ctx.extraBases.foldl (fun round extra =>
      ctx.protocols.foldl (Round.extra streams decimals ctx extra) round)
    round

end Round

end Eris.Flow.Orders
