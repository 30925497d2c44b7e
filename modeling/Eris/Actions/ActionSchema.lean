import Eris.Actions.ActionTypes

/-!
# The schema of actions

The schemas a language model is taught, one for each leaf action, and the
schema of all actions under the enabled protocols.
-/

namespace Eris.Actions.ActionSchema

open Foundation.Validation ActionTypes

def decimalString : Schema := .string [decimalInteger]

def decimalOrMax : Schema := .union [decimalString, .literal "max"]

def hexString : Schema := .string [hexPattern]

def tokenSymbol : Schema := .string [fun text => !text.isEmpty, upperCase]

def priorityFee : List (String × Schema) :=
  [("maxPriorityFeePerGasWei", .optional decimalString)]

def marketBase : Schema := .optional tokenSymbol

def slippageBps : Schema := .optional (.number [.int, .nonnegative])

def liquityMaxFeeBps : Schema :=
  .optional (.number [.int, .positive, .max 10000])

def hexAddress : Schema := .string [hexAddressPattern]

def hex32 : Schema := .string [hex32Pattern]

/-- The schema of a leaf action: its type, its fields and the priority fee. -/
def leaf (type : LeafType) (fields : List (String × Schema)) : Schema :=
  .object (("type", .literal type.text) :: (fields ++ priorityFee))

def swapSchema : Schema :=
  leaf .swap [("tokenIn", tokenSymbol), ("base", marketBase),
      ("amountIn", decimalString), ("slippageBps", slippageBps)]

def mintLiquiditySchema : Schema :=
  leaf .mintLiquidity [("base", marketBase), ("tickLower", .number [.int]),
      ("tickUpper", .number [.int]), ("amountWethDesired", decimalString),
      ("amountUsdcDesired", decimalString),
      ("amountBaseDesired", .optional decimalString),
      ("amountQuoteDesired", .optional decimalString),
      ("slippageBps", slippageBps)]

def removeLiquiditySchema : Schema :=
  leaf .removeLiquidity [("base", marketBase), ("tokenId", decimalString),
      ("liquidity", decimalString),
      ("amountWethMin", .optional decimalString),
      ("amountUsdcMin", .optional decimalString)]

def collectFeesSchema : Schema :=
  leaf .collectFees [("base", marketBase), ("tokenId", decimalString)]

def balancerSwapSchema : Schema :=
  leaf .balancerSwap [("tokenIn", tokenSymbol), ("base", marketBase),
      ("amountIn", decimalString), ("slippageBps", slippageBps)]

def curveSwapSchema : Schema :=
  leaf .curveSwap [("tokenIn", tokenSymbol), ("base", marketBase),
      ("amountIn", decimalString), ("slippageBps", slippageBps)]

def stableSwapSchema : Schema :=
  leaf .stableSwap [("stable", tokenSymbol), ("tokenIn", tokenSymbol),
      ("amountIn", decimalString), ("slippageBps", slippageBps)]

def aaveSupplySchema : Schema :=
  leaf .aaveSupply [("asset", tokenSymbol), ("amount", decimalString)]

def aaveWithdrawSchema : Schema :=
  leaf .aaveWithdraw [("asset", tokenSymbol), ("amount", decimalOrMax)]

def aaveBorrowSchema : Schema :=
  leaf .aaveBorrow [("asset", tokenSymbol), ("amount", decimalString)]

def aaveRepaySchema : Schema :=
  leaf .aaveRepay [("asset", tokenSymbol), ("amount", decimalOrMax)]

def gmxIncreaseSchema : Schema :=
  leaf .gmxIncrease [("isLong", .boolean), ("base", marketBase),
      ("collateral", tokenSymbol), ("collateralAmount", decimalString),
      ("sizeDeltaUsd", decimalString),
      ("acceptablePrice", .optional decimalString)]

def gmxDecreaseSchema : Schema :=
  leaf .gmxDecrease [("isLong", .boolean), ("base", marketBase),
      ("collateral", tokenSymbol),
      ("collateralDeltaAmount", decimalString),
      ("sizeDeltaUsd", decimalString),
      ("acceptablePrice", .optional decimalString)]

def gmxCancelOrderSchema : Schema :=
  leaf .gmxCancelOrder [("key", .string [hex32Pattern])]

def lstDepositSchema : Schema :=
  leaf .lstDeposit [("amountWethWei", decimalString)]

def lstSwapSchema : Schema :=
  leaf .lstSwap
    [("tokenIn", .oneOf ["WETH", "LST"]), ("amountIn", decimalString),
      ("slippageBps", slippageBps)]

def lstRequestWithdrawSchema : Schema :=
  leaf .lstRequestWithdraw [("amountLstWei", decimalString)]

def lstClaimWithdrawSchema : Schema :=
  leaf .lstClaimWithdraw [("requestId", .optional decimalString)]

def liquityOpenTroveSchema : Schema :=
  leaf .liquityOpenTrove
    [("collateralWethWei", decimalString), ("debtEusdWei", decimalString),
      ("maxFeeBps", liquityMaxFeeBps)]

def liquityAdjustTroveSchema : Schema :=
  leaf .liquityAdjustTrove [("addCollateralWethWei", .optional decimalString),
      ("withdrawCollateralWei", .optional decimalString),
      ("debtChangeEusdWei", .optional decimalString),
      ("isDebtIncrease", .optional .boolean),
      ("maxFeeBps", liquityMaxFeeBps)]

def liquityCloseTroveSchema : Schema := leaf .liquityCloseTrove []

def liquityRedeemSchema : Schema :=
  leaf .liquityRedeem [("amountEusdWei", decimalString),
      ("maxIterations", .optional (.number [.int, .nonnegative])),
      ("maxFeeBps", liquityMaxFeeBps)]

def liquityProvideToSpSchema : Schema :=
  leaf .liquityProvideToSP [("amountEusdWei", decimalString)]

def liquityWithdrawFromSpSchema : Schema :=
  leaf .liquityWithdrawFromSP [("amountEusdWei", decimalOrMax)]

def liquityLiquidateSchema : Schema :=
  leaf .liquityLiquidate [("borrowers", .optional (.array hexString 0)),
      ("maxTroves", .optional (.number [.int, .positive]))]

def liquitySwapEusdSchema : Schema :=
  leaf .liquitySwapEusd
    [("tokenIn", .oneOf ["USDC", "EUSD"]), ("amountIn", decimalString),
      ("slippageBps", slippageBps)]

def createPoolSchema : Schema :=
  leaf .createPool [("tokenA", hexAddress), ("tokenB", hexAddress),
      ("fee", .number [.int]), ("sqrtPriceX96", decimalString)]

def createLendingMarketSchema : Schema :=
  leaf .createLendingMarket
    [("loanToken", hexAddress), ("collateralToken", hexAddress),
      ("oracle", hexAddress), ("irm", hexAddress), ("lltv", decimalString)]

def lendingMarketRef : List (String × Schema) := [("marketId", hex32)]

def lendingSupplySchema : Schema :=
  leaf .lendingSupply (lendingMarketRef ++ [("amount", decimalString)])

def lendingWithdrawSchema : Schema :=
  leaf .lendingWithdraw (lendingMarketRef ++ [("amount", decimalOrMax)])

def lendingSupplyCollateralSchema : Schema :=
  leaf .lendingSupplyCollateral
    (lendingMarketRef ++ [("amount", decimalString)])

def lendingWithdrawCollateralSchema : Schema :=
  leaf .lendingWithdrawCollateral
    (lendingMarketRef ++ [("amount", decimalString)])

def lendingBorrowSchema : Schema :=
  leaf .lendingBorrow (lendingMarketRef ++ [("amount", decimalString)])

def lendingRepaySchema : Schema :=
  leaf .lendingRepay (lendingMarketRef ++ [("amount", decimalOrMax)])

def lendingLiquidateSchema : Schema :=
  leaf .lendingLiquidate (lendingMarketRef ++
      [("borrower", hexAddress), ("seizedAssets", decimalString)])

def leafSchemasByProtocol : ProtocolId → List Schema
  | .uniswap =>
      [swapSchema, mintLiquiditySchema, removeLiquiditySchema,
        collectFeesSchema, createPoolSchema]
  | .balancer => [balancerSwapSchema]
  | .curve => [curveSwapSchema, stableSwapSchema]
  | .aave =>
      [aaveSupplySchema, aaveWithdrawSchema, aaveBorrowSchema, aaveRepaySchema]
  | .gmx => [gmxIncreaseSchema, gmxDecreaseSchema, gmxCancelOrderSchema]
  | .lst =>
      [lstDepositSchema, lstSwapSchema, lstRequestWithdrawSchema,
        lstClaimWithdrawSchema]
  | .liquity =>
      [liquityOpenTroveSchema, liquityAdjustTroveSchema,
        liquityCloseTroveSchema, liquityRedeemSchema,
        liquityProvideToSpSchema, liquityWithdrawFromSpSchema,
        liquityLiquidateSchema, liquitySwapEusdSchema]
  | .lending =>
      [createLendingMarketSchema, lendingSupplySchema,
        lendingWithdrawSchema, lendingSupplyCollateralSchema,
        lendingWithdrawCollateralSchema, lendingBorrowSchema,
        lendingRepaySchema, lendingLiquidateSchema]

def noopSchema : Schema :=
  .object [("type", .literal "noop"), ("reason", .optional (.string []))]

def rawTxSchema : Schema :=
  .object [("to", .optional hexString), ("data", hexString),
      ("value", .optional decimalString)]

def rawTxActionSchema : Schema :=
  .object ([("type", .literal "rawTx"), ("tx", rawTxSchema)] ++ priorityFee)

def rawBundleActionSchema : Schema :=
  .object ([("type", .literal "rawBundle"), ("txs", .array rawTxSchema 1)] ++
      priorityFee)

/-- The schema of a bundle of the actions of some schemas. -/
def bundleSchema (members : List Schema) : Schema :=
  .object
    ([("type", .literal "bundle"), ("actions", .array (.union members) 1)] ++
      priorityFee)

def bundleableProtocols : List ProtocolId :=
  [.uniswap, .balancer, .curve, .aave, .lst, .lending]

/-- The leaf schemas which a bundle may hold. -/
def bundleableSchemas (enabled : List ProtocolId) : List Schema :=
  (enabled.filter fun protocol =>
      bundleableProtocols.contains protocol).flatMap leafSchemasByProtocol

def agentActionSchemaFor (enabled : List ProtocolId) : Schema :=
  .union (noopSchema :: (enabled.flatMap leafSchemasByProtocol ++
      (if (bundleableSchemas enabled).length > 0 then
            [bundleSchema (bundleableSchemas enabled)]
          else []) ++
        [rawTxActionSchema, rawBundleActionSchema]))

end Eris.Actions.ActionSchema
