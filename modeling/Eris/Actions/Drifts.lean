import Eris.Actions.ParseAction
import Eris.Foundation.Drift

/-!
# Where the two grammars of actions drift apart

For every kind of action, the shape which the schema and the reader share, the
traits only the schema refuses and the traits only the reader refuses.
-/

namespace Eris.Actions.Drifts

open Foundation Foundation.Validation ActionTypes Adapters ParseAction

variable (setup : Setup) (value : Doc)

/-! ## Fields -/

def field (test : Option Doc → Bool) (key : String) : Drift :=
  .shared (test (member key value))

def feeDrift : Drift :=
  field value (absentOr isDecimal) "maxPriorityFeePerGasWei"

/-- The schema sets no upper bound on the slippage. -/
def slippageDrift : Drift where
  loose := absentOr
      (numberThat fun bps => isSafeInteger bps && decide (0 ≤ bps))
      (member "slippageBps" value)
  untaught := false
  refused := numberThat (fun bps => 1000 < bps) (member "slippageBps" value)

/-- The reader takes integers of any size. -/
def integerDrift (key : String) : Drift where
  loose := numberThat isInteger (member key value)
  untaught := numberThat (fun tick => !isSafeInteger tick) (member key value)
  refused := false

def countDrift (bounded : ℚ → Bool) (key : String) : Drift where
  loose := absentOr (numberThat fun count => isInteger count && bounded count)
      (member key value)
  untaught := numberThat (fun count => !isSafeInteger count) (member key value)
  refused := false

/-- The base is neither absent nor a symbol. -/
def oddBase : Bool := !absentOr isSymbol (member "base" value)

/-- The reader keeps any base and looks none of them up. -/
def keptBaseDrift : Drift := ⟨true, oddBase value, false⟩

/-- The reader asks for a market of the base. -/
def baseDrift (protocol : ProtocolId) : Drift :=
  ⟨true, oddBase value, (setup.marketFor protocol (baseOf value)).isNone⟩

/-- The member is a token of the market of the base. -/
def isMarketToken (protocol : ProtocolId) (token : Option Doc) : Bool :=
  match setup.marketFor protocol (baseOf value) with
  | some market => isOneOf [market.base, market.quote] token
  | none => false

/-- A symbol for the schema, one of some texts for the reader. -/
def symbolDrift (known : Option Doc → Bool) (key : String) : Drift :=
  ⟨isText (member key value), !isSymbol (member key value),
    !known (member key value)⟩

/-- The fields which the swaps of a base have in common. -/
def swapDrifts (protocol : ProtocolId) : List Drift :=
  [symbolDrift value (isMarketToken setup value protocol) "tokenIn",
    baseDrift setup value protocol, field value isDecimal "amountIn",
    slippageDrift value, feeDrift value]

/-- An amount in the default base, which the schema asks for with every
base. -/
def defaultAmountDrift (key : String) : Drift :=
  if baseOf value = "WETH" then field value isDecimal key
  else ⟨true, !isDecimal (member key value), false⟩

/-- An amount in another base, which the reader asks for with such a base
only, and then always. -/
def otherAmountDrift (key : String) : Drift :=
  if baseOf value = "WETH" then
    ⟨true, !absentOr isDecimal (member key value), false⟩
  else
    ⟨absentOr isDecimal (member key value), false, (member key value).isNone⟩

/-- Every fee for the schema, the fee of an enabled tier for the reader. -/
def tierDrift : Drift where
  loose := numberThat isSafeInteger (member "fee" value)
  untaught := false
  refused := !numberThat enabledFeeTiers.contains (member "fee" value)

/-- The price of a new pool, together with the reader's comparison of its
tokens. -/
def priceDrift : Drift :=
  ⟨isDecimal (member "sqrtPriceX96" value), false,
    lowerText (member "tokenA" value) == lowerText (member "tokenB" value)⟩

def isPricedStable : Option Doc → Bool :=
  textThat fun symbol => (setup.stableMarketBySymbol symbol).isSome

/-- The member is the stable of the value, or the other side of its market. -/
def isStableToken (token : Option Doc) : Bool :=
  match member "stable" value with
  | some (.scalar (.text stable)) => isOneOf [stable, "USDC"] token
  | _ => false

/-- A base other than the default one needs a perpetual. -/
def gmxBaseDrift : Drift :=
  ⟨true, oddBase value,
    textThat (fun base => base ≠ "WETH" && !hasGmxMarket setup base)
      (member "base" value)⟩

/-- The fields which the two orders for a perpetual have in common. -/
def gmxDrifts (amountKey : String) : List Drift :=
  [field value isBoolean "isLong", gmxBaseDrift setup value,
    ⟨textThat (fun text => !text.isEmpty) (member "collateral" value),
      !isSymbol (member "collateral" value), false⟩,
    field value isDecimal amountKey, field value isDecimal "sizeDeltaUsd",
    field value (absentOr isDecimal) "acceptablePrice", feeDrift value]

/-- The reader takes `all` for an absent request. -/
def requestDrift : Drift where
  loose := everyRequest (member "requestId" value) ||
      isDecimal (member "requestId" value)
  untaught := textThat (fun text => text = "all") (member "requestId" value)
  refused := false

/-- The reader takes any texts for owners. -/
def borrowersDrift : Drift where
  loose := absentOr isTexts (member "borrowers" value)
  untaught :=
    !absentOr (itemsThat fun items => items.all fun item => isHex (some item))
      (member "borrowers" value)
  refused := false

/-- The reader takes a missing rate model for none. -/
def irmDrift : Drift where
  loose := isMissing (member "irm" value) || isHexAddress (member "irm" value)
  untaught := isMissing (member "irm" value)
  refused := false

/-- The schema sets no upper bound on the liquidation threshold. -/
def lltvDrift : Drift where
  loose := isDecimal (member "lltv" value)
  untaught := false
  refused :=
    !textThat (fun lltv => decimalValue lltv < wad) (member "lltv" value)

/-- The protocol's fee bound, read alike. -/
def maxFeeDrift : Drift :=
  field value (absentOr (integerWithin 1 10000)) "maxFeeBps"

/-- The amount of an aave action on an asset of the venue. -/
def aaveDrifts (amount : Option Doc → Bool) : List Drift :=
  [symbolDrift value (isOneOf setup.aaveReserveSymbols) "asset",
    field value amount "amount", feeDrift value]

/-- The amount of an action on a lending market. -/
def lendingDrifts (amount : Option Doc → Bool) : List Drift :=
  [field value isHex32 "marketId", field value amount "amount", feeDrift value]

/-! ## Leaf actions -/

/-- The fields of a leaf action, in the order of its schema. -/
def leafDrifts : LeafType → List Drift
  | .swap => swapDrifts setup value .uniswap
  | .mintLiquidity =>
      [baseDrift setup value .uniswap, integerDrift value "tickLower",
        integerDrift value "tickUpper",
        defaultAmountDrift value "amountWethDesired",
        defaultAmountDrift value "amountUsdcDesired",
        otherAmountDrift value "amountBaseDesired",
        otherAmountDrift value "amountQuoteDesired", slippageDrift value,
        feeDrift value]
  | .removeLiquidity =>
      [keptBaseDrift value, field value isDecimal "tokenId",
        field value isDecimal "liquidity",
        field value (absentOr isDecimal) "amountWethMin",
        field value (absentOr isDecimal) "amountUsdcMin", feeDrift value]
  | .collectFees =>
      [keptBaseDrift value, field value isDecimal "tokenId", feeDrift value]
  | .createPool =>
      [field value isHexAddress "tokenA", field value isHexAddress "tokenB",
        tierDrift value, priceDrift value, feeDrift value]
  | .balancerSwap => swapDrifts setup value .balancer
  | .curveSwap => swapDrifts setup value .curve
  | .stableSwap =>
      [symbolDrift value (isPricedStable setup) "stable",
        symbolDrift value (isStableToken value) "tokenIn",
        field value isDecimal "amountIn", slippageDrift value,
        feeDrift value]
  | .aaveSupply => aaveDrifts setup value isDecimal
  | .aaveWithdraw => aaveDrifts setup value isDecimalOrMax
  | .aaveBorrow => aaveDrifts setup value isDecimal
  | .aaveRepay => aaveDrifts setup value isDecimalOrMax
  | .gmxIncrease => gmxDrifts setup value "collateralAmount"
  | .gmxDecrease => gmxDrifts setup value "collateralDeltaAmount"
  | .gmxCancelOrder => [field value isHex32 "key", feeDrift value]
  | .lstDeposit => [field value isDecimal "amountWethWei", feeDrift value]
  | .lstSwap =>
      [field value (isOneOf ["WETH", "LST"]) "tokenIn",
        field value isDecimal "amountIn", slippageDrift value,
        feeDrift value]
  | .lstRequestWithdraw =>
      [field value isDecimal "amountLstWei", feeDrift value]
  | .lstClaimWithdraw => [requestDrift value, feeDrift value]
  | .liquityOpenTrove =>
      [field value isDecimal "collateralWethWei",
        field value isDecimal "debtEusdWei", maxFeeDrift value,
        feeDrift value]
  | .liquityAdjustTrove =>
      [field value (absentOr isDecimal) "addCollateralWethWei",
        field value (absentOr isDecimal) "withdrawCollateralWei",
        field value (absentOr isDecimal) "debtChangeEusdWei",
        field value (absentOr isBoolean) "isDebtIncrease",
        maxFeeDrift value, feeDrift value]
  | .liquityCloseTrove => [feeDrift value]
  | .liquityRedeem =>
      [field value isDecimal "amountEusdWei",
        countDrift value (fun count => decide (0 ≤ count)) "maxIterations",
        maxFeeDrift value, feeDrift value]
  | .liquityProvideToSP =>
      [field value isDecimal "amountEusdWei", feeDrift value]
  | .liquityWithdrawFromSP =>
      [field value isDecimalOrMax "amountEusdWei", feeDrift value]
  | .liquityLiquidate =>
      [borrowersDrift value,
        countDrift value (fun count => decide (0 < count)) "maxTroves",
        feeDrift value]
  | .liquitySwapEusd =>
      [field value (isOneOf ["USDC", "EUSD"]) "tokenIn",
        field value isDecimal "amountIn", slippageDrift value,
        feeDrift value]
  | .createLendingMarket =>
      [field value isHexAddress "loanToken",
        field value isHexAddress "collateralToken",
        field value isHexAddress "oracle", irmDrift value, lltvDrift value,
        feeDrift value]
  | .lendingSupply => lendingDrifts value isDecimal
  | .lendingWithdraw => lendingDrifts value isDecimalOrMax
  | .lendingSupplyCollateral => lendingDrifts value isDecimal
  | .lendingWithdrawCollateral => lendingDrifts value isDecimal
  | .lendingBorrow => lendingDrifts value isDecimal
  | .lendingRepay => lendingDrifts value isDecimalOrMax
  | .lendingLiquidate =>
      [field value isHex32 "marketId", field value isHexAddress "borrower",
        field value isDecimal "seizedAssets", feeDrift value]

/-- The protocol whose adapter takes a leaf action. -/
def protocolOf : LeafType → ProtocolId
  | .swap | .mintLiquidity | .removeLiquidity | .collectFees
  | .createPool => .uniswap
  | .balancerSwap => .balancer
  | .curveSwap | .stableSwap => .curve
  | .aaveSupply | .aaveWithdraw | .aaveBorrow | .aaveRepay => .aave
  | .gmxIncrease | .gmxDecrease | .gmxCancelOrder => .gmx
  | .lstDeposit | .lstSwap | .lstRequestWithdraw
  | .lstClaimWithdraw => .lst
  | .liquityOpenTrove | .liquityAdjustTrove | .liquityCloseTrove
  | .liquityRedeem | .liquityProvideToSP | .liquityWithdrawFromSP
  | .liquityLiquidate | .liquitySwapEusd => .liquity
  | .createLendingMarket | .lendingSupply | .lendingWithdraw
  | .lendingSupplyCollateral | .lendingWithdrawCollateral
  | .lendingBorrow | .lendingRepay | .lendingLiquidate => .lending

theorem contains_typesOf (protocol : ProtocolId) (type : LeafType) :
    (typesOf protocol).contains type = decide (protocolOf type = protocol) := by
  cases protocol <;> cases type <;> rfl

/-- A value read as a leaf action of an enabled protocol. -/
def leafDrift : Drift :=
  match leafType? value with
  | some type =>
      if setup.enabled.contains (protocolOf type) then
        .all (leafDrifts setup value type)
      else .never
  | none => .never

/-- An item of a bundle.  Both grammars keep the perpetuals out; the schema
keeps out the stablecoin protocol as well. -/
def itemDrift (item : Doc) : Drift :=
  match leafType? item with
  | some type =>
      .all [⟨protocolOf type ≠ .gmx, protocolOf type = .liquity, false⟩,
          leafDrift setup item]
  | none => .never

/-- The items of a bundle.  The reader takes an empty list of them. -/
def itemsDrift : Option Doc → Drift
  | some (.array items) =>
      .all (⟨true, items.isEmpty, false⟩ :: items.map (itemDrift setup))
  | _ => .never

/-- A raw transaction.  The reader takes a null receiver for none, and asks a
deployment for code. -/
def rawTxDrift (tx : Doc) : Drift :=
  .all [⟨isMissing (member "to" tx) || isHex (member "to" tx),
        isNull (member "to" tx), false⟩,
      ⟨isHex (member "data" tx), false,
        isDeploy tx && !hasCode (member "data" tx)⟩,
      field tx (absentOr isDecimal) "value"]

def txDrift : Option Doc → Drift
  | some tx => rawTxDrift tx
  | none => .never

/-- The transactions of a raw bundle, one at least. -/
def txsDrift : Option Doc → Drift
  | some (.array txs) =>
      .all (.shared (!txs.isEmpty) :: txs.map rawTxDrift)
  | _ => .never

def noopDrift : Drift := ⟨true, !absentOr isText (member "reason" value), false⟩

/-- How a value stands to the two grammars of actions. -/
def actionDrift : Drift :=
  if typeIs "noop" value then noopDrift value
  else if typeIs "bundle" value then
    .all [itemsDrift setup (member "actions" value), feeDrift value]
  else if typeIs "rawTx" value then
    .all [txDrift (member "tx" value), feeDrift value]
  else if typeIs "rawBundle" value then
    .all [txsDrift (member "txs" value), feeDrift value]
  else leafDrift setup value

end Eris.Actions.Drifts
