import Eris.Actions.ActionTypes
import Eris.Foundation.FieldRules

/-!
# The readers of leaf actions

Each adapter reads the leaf actions of its protocol and leaves the others to
the other adapters.  What an action is read by is a list of rules, in the order
of the reader's checks.
-/

namespace Eris.Actions.Adapters

open Foundation.Validation ActionTypes

/-! ## Rules -/

/-- `requireDecimalString` on a member. -/
def decimal (key : String) : Rule :=
  .required key [⟨isDecimal, key ++ " must be a decimal integer string"⟩]

/-- `requireDecimalString` on a member which is there. -/
def optionalDecimal (key : String) : Rule :=
  .optional key [⟨isDecimal, key ++ " must be a decimal integer string"⟩]

/-- `requireAmount` where `max` is allowed. -/
def decimalOrMax (key : String) : Rule :=
  .required key
    [⟨isDecimalOrMax, key ++ " must be a decimal integer string or \"max\""⟩]

def address (key : String) : Rule :=
  .required key [⟨isHexAddress, key ++ " must be a 20-byte hex address"⟩]

def integer (key : String) : Rule :=
  .required key [⟨numberThat isInteger, key ++ " must be an integer"⟩]

def priorityFee : Rule := optionalDecimal "maxPriorityFeePerGasWei"

def integerWithin (least most : ℚ) : Option Doc → Bool :=
  numberThat fun value =>
    isInteger value && decide (least ≤ value) && decide (value ≤ most)

def addSlippage : Rule :=
  .optional "slippageBps"
    [⟨numberThat isInteger, "slippageBps must be an integer"⟩,
      ⟨integerWithin 0 1000,
        "slippageBps must be an integer between 0 and 1000"⟩]

/-- The slippage of an action, where one check is made of it. -/
def slippage : Rule :=
  .optional "slippageBps"
    [⟨integerWithin 0 1000,
      "slippageBps must be an integer between 0 and 1000"⟩]

def optionalBps (key : String) : Rule :=
  .optional key
    [⟨integerWithin 1 10000, key ++ " must be an integer between 1 and 10000"⟩]

/-- A base other than the default one is written. -/
def base : Rule := .kept "base" (textThat fun base => base ≠ "WETH")

def tokenIn (market : Market) : Rule :=
  .required "tokenIn"
    [⟨isOneOf [market.base, market.quote],
      "tokenIn must be " ++ market.base ++ " or " ++ market.quote⟩]

def parseBase (setup : Setup) (protocol : ProtocolId) (value : Doc) :
    Except String Market :=
  match setup.marketFor protocol (baseOf value) with
  | some market => .ok market
  | none =>
      .error
        (protocol.text ++ ": no market for base \"" ++ baseOf value ++ "\"")

/-! ## Uniswap -/

def enabledFeeTiers : List ℚ := [100, 500, 3000, 10000]

/-- The text of a member, in small letters. -/
def lowerText (value : Option Doc) : Option String :=
  match value with
  | some (.scalar (.text text)) => some text.toLower
  | _ => none

/-- The two tokens are compared right after the price has been checked. -/
def createPoolRules (tokenA tokenB : Option Doc) : List Rule :=
  [address "tokenA", address "tokenB",
    .required "fee"
      [⟨numberThat isInteger, "fee must be an integer"⟩,
        ⟨numberThat fun fee => enabledFeeTiers.contains fee,
          "fee must be one of 100 / 500 / 3000 / 10000 (pips)"⟩],
    .required "sqrtPriceX96"
      [⟨isDecimal, "sqrtPriceX96 must be a decimal integer string"⟩,
        ⟨fun _ => lowerText tokenA != lowerText tokenB,
          "tokenA and tokenB must differ"⟩],
    priorityFee]

def swapRules (market : Market) : List Rule :=
  [tokenIn market, decimal "amountIn", base, priorityFee, addSlippage]

/-- The default base asks for one pair of amounts, every other base for the
other pair. -/
def mintLiquidityRules (baseSymbol : String) : List Rule :=
  [integer "tickLower", integer "tickUpper"] ++
    (if baseSymbol = "WETH" then
      [decimal "amountWethDesired", decimal "amountUsdcDesired"]
    else
      [.fixed "amountWethDesired" (textDoc "0"),
        .fixed "amountUsdcDesired" (textDoc "0"), base,
        decimal "amountBaseDesired", decimal "amountQuoteDesired"]) ++
    [priorityFee, addSlippage]

def removeLiquidityRules : List Rule :=
  [decimal "tokenId", decimal "liquidity", base,
    optionalDecimal "amountWethMin", optionalDecimal "amountUsdcMin",
    priorityFee]

def collectFeesRules : List Rule := [decimal "tokenId", base, priorityFee]

/-! ## Balancer and Curve -/

def balancerSwapRules (market : Market) : List Rule :=
  [tokenIn market, decimal "amountIn", base, priorityFee, slippage]

def curveSwapRules (market : Market) : List Rule :=
  [tokenIn market, decimal "amountIn", base, priorityFee, slippage]

/-- The market of the stable a value names. -/
def parseStable (setup : Setup) (value : Doc) : Except String StableMarket :=
  match member "stable" value with
  | some (.scalar (.text symbol)) =>
      match setup.stableMarketBySymbol symbol with
      | some market => .ok market
      | none =>
          let known := ", ".intercalate
              (setup.marketPricedStables.map StableMarket.symbol)
          .error ("stableSwap: \"" ++ symbol ++
              "\" is not a market-priced stable in this deployment (known: " ++
              (if known = "" then "none" else known) ++ ")")
  | _ => .error "stable must be a token symbol string"

def stableSwapRules (market : StableMarket) : List Rule :=
  [.fixed "stable" (textDoc market.symbol),
    .required "tokenIn"
      [⟨isOneOf [market.symbol, "USDC"],
        "tokenIn must be " ++ market.symbol ++ " or USDC"⟩],
    decimal "amountIn", priorityFee, slippage]

/-! ## Aave -/

def asset (setup : Setup) : Rule :=
  .required "asset"
    [⟨isText, "asset must be a token symbol string"⟩,
      ⟨isOneOf setup.aaveReserveSymbols, "asset must be one of " ++
          ", ".intercalate setup.aaveReserveSymbols.eraseDups⟩]

def aaveRules (setup : Setup) (allowMax : Bool) : List Rule :=
  [asset setup, if allowMax then decimalOrMax "amount" else decimal "amount",
    priorityFee]

/-! ## Gmx -/

/-- The market of the base has a perpetual. -/
def hasGmxMarket (setup : Setup) (baseSymbol : String) : Bool :=
  match setup.marketFor .gmx baseSymbol with
  | some market => market.gmxLeg
  | none => false

/-- A base other than the default one has to have a market. -/
def gmxBase (setup : Setup) (value : Doc) : Rule where
  key := "base"
  skips value := !textThat (fun base => base ≠ "WETH") value
  written := none
  tests := [⟨textThat (hasGmxMarket setup),
      "gmx: no market for base \"" ++ baseOf value ++ "\""⟩]

def gmxRules (setup : Setup) (value : Doc) (amountKey : String) : List Rule :=
  [.required "isLong" [⟨isBoolean, "isLong must be boolean"⟩],
    .required "collateral"
      [⟨textThat fun text => !text.isEmpty,
        "collateral must be a token symbol: the market's long token (WETH " ++
          "on ETH/USD, WBTC on BTC/USD) or USDC"⟩],
    decimal "sizeDeltaUsd", gmxBase setup value, decimal amountKey,
    optionalDecimal "acceptablePrice", priorityFee]

def gmxCancelOrderRules : List Rule :=
  [.required "key"
      [⟨isHex32, "key must be a 32-byte hex string (an order key from " ++
          "obs.protocols.gmx.orders)"⟩],
    priorityFee]

/-! ## Lst -/

def lstDepositRules : List Rule := [decimal "amountWethWei", priorityFee]

def lstSwapRules : List Rule :=
  [.required "tokenIn"
      [⟨isOneOf ["WETH", "LST"], "lstSwap tokenIn must be \"WETH\" or \"LST\""⟩],
    decimal "amountIn", slippage, priorityFee]

def lstRequestWithdrawRules : List Rule := [decimal "amountLstWei", priorityFee]

/-- The request is absent or `all`. -/
def everyRequest : Option Doc → Bool :=
  absentOr (textThat fun text => text = "all")

def lstClaimWithdrawRules : List Rule :=
  [{ key := "requestId"
     skips := everyRequest
     written := none
     tests := [⟨isDecimal, "requestId must be a decimal integer string"⟩] },
    priorityFee]

/-! ## Liquity -/

def liquityOpenTroveRules : List Rule :=
  [decimal "collateralWethWei", decimal "debtEusdWei",
    optionalBps "maxFeeBps", priorityFee]

def liquityAdjustTroveRules : List Rule :=
  [optionalDecimal "addCollateralWethWei",
    optionalDecimal "withdrawCollateralWei",
    optionalDecimal "debtChangeEusdWei",
    .optional "isDebtIncrease"
      [⟨isBoolean, "isDebtIncrease must be a boolean"⟩],
    optionalBps "maxFeeBps", priorityFee]

def liquityCloseTroveRules : List Rule := [priorityFee]

def liquityRedeemRules : List Rule :=
  [decimal "amountEusdWei",
    .optional "maxIterations"
      [⟨numberThat fun value => isInteger value && decide (0 ≤ value),
        "maxIterations must be a non-negative integer"⟩],
    optionalBps "maxFeeBps", priorityFee]

def liquityProvideToSpRules : List Rule :=
  [decimal "amountEusdWei", priorityFee]

def liquityWithdrawFromSpRules : List Rule :=
  [.required "amountEusdWei"
      [⟨isDecimalOrMax, "amountEusdWei must be a decimal integer string"⟩],
    priorityFee]

def isTexts : Option Doc → Bool :=
  itemsThat fun items => items.all fun item => isText (some item)

def liquityLiquidateRules : List Rule :=
  [.optional "borrowers"
      [⟨isTexts, "borrowers must be an array of addresses"⟩],
    .optional "maxTroves"
      [⟨numberThat fun value => isInteger value && decide (0 < value),
        "maxTroves must be a positive integer"⟩],
    priorityFee]

def liquitySwapEusdRules : List Rule :=
  [.required "tokenIn"
      [⟨isOneOf ["USDC", "EUSD"],
        "liquitySwapEusd tokenIn must be \"USDC\" or \"EUSD\""⟩],
    decimal "amountIn", slippage, priorityFee]

/-! ## Lending -/

def wad : ℕ := 10 ^ 18

def zeroAddress : String := "0x0000000000000000000000000000000000000000"

def isMissing : Option Doc → Bool := absentOr isNull

def createLendingMarketRules : List Rule :=
  [.required "lltv"
      [⟨isDecimal, "lltv must be a decimal integer string"⟩,
        ⟨textThat fun lltv => decimalValue lltv < wad,
          "lltv must be below 1e18 (100%)"⟩],
    address "loanToken", address "collateralToken", address "oracle",
    { key := "irm"
      skips := isMissing
      written := some (textDoc zeroAddress)
      tests := [⟨isHexAddress, "irm must be a 20-byte hex address"⟩] },
    priorityFee]

def marketId : Rule :=
  .required "marketId" [⟨isHex32, "marketId must be a 32-byte hex string"⟩]

def lendingLiquidateRules : List Rule :=
  [marketId, address "borrower", decimal "seizedAssets", priorityFee]

def lendingRules (allowMax : Bool) : List Rule :=
  [marketId, if allowMax then decimalOrMax "amount" else decimal "amount",
    priorityFee]

/-! ## Adapters -/

def rulesOf (setup : Setup) (value : Doc) :
    LeafType → Except String (List Rule)
  | .createPool =>
      .ok (createPoolRules (member "tokenA" value) (member "tokenB" value))
  | .swap => (parseBase setup .uniswap value).map swapRules
  | .mintLiquidity =>
      (parseBase setup .uniswap value).map fun _ =>
        mintLiquidityRules (baseOf value)
  | .removeLiquidity => .ok removeLiquidityRules
  | .collectFees => .ok collectFeesRules
  | .balancerSwap => (parseBase setup .balancer value).map balancerSwapRules
  | .curveSwap => (parseBase setup .curve value).map curveSwapRules
  | .stableSwap => (parseStable setup value).map stableSwapRules
  | .aaveSupply => .ok (aaveRules setup false)
  | .aaveWithdraw => .ok (aaveRules setup true)
  | .aaveBorrow => .ok (aaveRules setup false)
  | .aaveRepay => .ok (aaveRules setup true)
  | .gmxIncrease => .ok (gmxRules setup value "collateralAmount")
  | .gmxDecrease => .ok (gmxRules setup value "collateralDeltaAmount")
  | .gmxCancelOrder => .ok gmxCancelOrderRules
  | .lstDeposit => .ok lstDepositRules
  | .lstSwap => .ok lstSwapRules
  | .lstRequestWithdraw => .ok lstRequestWithdrawRules
  | .lstClaimWithdraw => .ok lstClaimWithdrawRules
  | .liquityOpenTrove => .ok liquityOpenTroveRules
  | .liquityAdjustTrove => .ok liquityAdjustTroveRules
  | .liquityCloseTrove => .ok liquityCloseTroveRules
  | .liquityRedeem => .ok liquityRedeemRules
  | .liquityProvideToSP => .ok liquityProvideToSpRules
  | .liquityWithdrawFromSP => .ok liquityWithdrawFromSpRules
  | .liquityLiquidate => .ok liquityLiquidateRules
  | .liquitySwapEusd => .ok liquitySwapEusdRules
  | .createLendingMarket => .ok createLendingMarketRules
  | .lendingSupply => .ok (lendingRules false)
  | .lendingWithdraw => .ok (lendingRules true)
  | .lendingSupplyCollateral => .ok (lendingRules false)
  | .lendingWithdrawCollateral => .ok (lendingRules false)
  | .lendingBorrow => .ok (lendingRules false)
  | .lendingRepay => .ok (lendingRules true)
  | .lendingLiquidate => .ok lendingLiquidateRules

def head (type : LeafType) : String × Doc := ("type", textDoc type.text)

def readLeaf (setup : Setup) (type : LeafType) (value : Doc) :
    Except String Doc :=
  (rulesOf setup value type).bind fun rules =>
    readObject (head type) rules value

/-- The leaf actions which an adapter takes. -/
def typesOf : ProtocolId → List LeafType
  | .uniswap =>
      [.createPool, .swap, .mintLiquidity, .removeLiquidity, .collectFees]
  | .balancer => [.balancerSwap]
  | .curve => [.stableSwap, .curveSwap]
  | .aave => [.aaveSupply, .aaveWithdraw, .aaveBorrow, .aaveRepay]
  | .gmx => [.gmxCancelOrder, .gmxIncrease, .gmxDecrease]
  | .lst => [.lstDeposit, .lstSwap, .lstRequestWithdraw, .lstClaimWithdraw]
  | .liquity =>
      [.liquityOpenTrove, .liquityAdjustTrove, .liquityCloseTrove,
        .liquityRedeem, .liquityProvideToSP, .liquityWithdrawFromSP,
        .liquityLiquidate, .liquitySwapEusd]
  | .lending =>
      [.createLendingMarket, .lendingSupply, .lendingWithdraw,
        .lendingSupplyCollateral, .lendingWithdrawCollateral,
        .lendingBorrow, .lendingRepay, .lendingLiquidate]

/-- `adapter.parse`: nothing is read of an action of another protocol. -/
def parse (setup : Setup) (protocol : ProtocolId) (value : Doc) :
    Except String (Option Doc) :=
  match leafType? value with
  | some type =>
      if (typesOf protocol).contains type then
        (readLeaf setup type value).map some
      else .ok none
  | none => .ok none

def bundleable : ProtocolId → Bool
  | .gmx => false
  | _ => true

end Eris.Actions.Adapters
