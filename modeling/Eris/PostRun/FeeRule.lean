import Mathlib

/-!
# The participant fee rule

`sdk/src/feeRule.ts`.  Blocks are ordered by `maxFeePerGas`, or by `gasPrice`
where a transaction has no other, and at base fee zero a transaction pays its
tip.  The rule keeps the two together and under a cap; a cap of zero leaves
the cap out.
-/

namespace Eris.PostRun.FeeRule

structure TxFeeFields where
  maxFeePerGas : Option Int
  maxPriorityFeePerGas : Option Int
  gasPrice : Option Int
deriving DecidableEq

inductive FeeField where
  | maxPriorityFeePerGas
  | maxFeePerGas
  | gasPrice
deriving DecidableEq

inductive FeeRuleBreach where
  | maxFeeAboveTip (maxFeePerGasWei maxPriorityFeePerGasWei : Int)
  | overCap (field : FeeField) (wei capWei : Int)
deriving DecidableEq

/-- `checkFeeRule`: the first way the fields break the rule. -/
def checkFeeRule (fees : TxFeeFields) (capWei : Int) : Option FeeRuleBreach :=
  match fees.maxPriorityFeePerGas with
  | some tip =>
      match fees.maxFeePerGas.filter fun maxFee => tip < maxFee with
      | some maxFee => some (.maxFeeAboveTip maxFee tip)
      | none =>
          if 0 < capWei ∧ capWei < tip then
            some (.overCap .maxPriorityFeePerGas tip capWei)
          else none
  | none =>
      match fees.gasPrice.or fees.maxFeePerGas with
      | some price =>
          if 0 < capWei ∧ capWei < price then
            some (.overCap
                (if fees.gasPrice.isSome then .gasPrice else .maxFeePerGas)
                price capWei)
          else none
      | none => none

/-- The fees which the reference runtime signs. -/
def participantFees (bidWei baseFeeWei capWei : Int) : TxFeeFields :=
  let fee := if 0 < capWei ∧ capWei < baseFeeWei + bidWei then capWei
    else baseFeeWei + bidWei
  { maxFeePerGas := some fee
    maxPriorityFeePerGas := some fee
    gasPrice := none }

end Eris.PostRun.FeeRule
