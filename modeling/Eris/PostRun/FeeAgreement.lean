import Eris.Gateway.Handle
import Eris.Gateway.SignedFields
import Eris.PostRun.RecordedRuns

/-!
# One fee rule in three places

The gateway refuses a transaction by the fees it reads from its text,
`core/src/logger.ts` records those of the mined transaction, and the check after
a run reads them from the file.  What the check flags is what the gateway would
have refused, for the same reason.
-/

namespace Eris.PostRun.FeeAgreement

open BlocksCsv FeeRule Gateway RecordedRuns RunChecks
open Gateway.CallFilter (Config defaultConfig)
open Gateway.Handle (callFeeViolation rawTransaction)
open Gateway.SignedFields (FeeMarketType SignedTx)
open Gateway.TxGas (TxFees feeRuleViolation)
open Gateway.Values (Value textValue)

/-- A transaction as the chain returns it. -/
structure MinedTx where
  type : Option String
  maxFeePerGas : Option Int
  maxPriorityFeePerGas : Option Int
  gasPrice : Option Int

/-- `txFeeColumns`: the priority fee, and the ceiling where there is one. -/
def txFeeColumns (tx : MinedTx) (fallbackPriorityFeeWei : Option Int) :
    Int × Option Int :=
  let price :=
    if tx.type = some "legacy" ∨ tx.type = some "eip2930" then tx.gasPrice
    else none
  (((tx.maxPriorityFeePerGas.or price).or fallbackPriorityFeeWei).getD 0,
    tx.maxFeePerGas.or price)

def typeName : FeeMarketType → String
  | .eip1559 => "eip1559"
  | .eip4844 => "eip4844"
  | .eip7702 => "eip7702"

/-- What the chain returns of a transaction; `paid` is the price it reports of
one with a tip. -/
def mined (tx : SignedTx) (paid : Option Int) : MinedTx :=
  match tx.pricing with
  | .legacy gasPrice => ⟨some "legacy", none, none, some gasPrice⟩
  | .accessList _ gasPrice => ⟨some "eip2930", none, none, some gasPrice⟩
  | .feeMarket type _ tip maxFee =>
      ⟨some (typeName type), some maxFee, some tip, paid⟩

/-- What an agent signed and sent, and the row of the file. -/
structure Entry where
  tx : SignedTx
  row : BlockRowInput

structure Entry.Recorded (entry : Entry) : Prop where
  short : entry.tx.Short
  agent : entry.row.role.text = AGENT
  owner : Storable entry.row.ownerId
  columns :
    ∃ paid fallback, (entry.row.priorityFeeWei, entry.row.maxFeePerGasWei) =
      txFeeColumns (mined entry.tx paid) fallback

/-- The call which submits the transaction. -/
def Entry.submission {Other : Type} (entry : Entry) : Value Other :=
  .object [("method", textValue "eth_sendRawTransaction"),
    ("params", .array [textValue entry.tx.raw])]

/-- What a block is ordered by. -/
def orderKey : TxFees → ℕ
  | .priced _ gasPrice => gasPrice
  | .typed _ _ maxFeePerGas => maxFeePerGas

def tipOf : TxFees → ℕ
  | .priced _ gasPrice => gasPrice
  | .typed _ maxPriorityFeePerGas _ => maxPriorityFeePerGas

/-- What is paid for each unit of gas at a base fee. -/
def paidAt (baseFee : ℕ) : TxFees → ℕ
  | .priced _ gasPrice => gasPrice
  | .typed _ maxPriorityFeePerGas maxFeePerGas =>
      min maxFeePerGas (baseFee + maxPriorityFeePerGas)

def breach (fees : TxFees) (capWei : Int) : Option BreachKind :=
  if tipOf fees < orderKey fees then some .maxFeeAboveTip
  else if 0 < capWei ∧ capWei < tipOf fees then some .overCap
  else none

/-- How the gateway names a kind. -/
def kindText : BreachKind → String
  | .maxFeeAboveTip => "max_fee_above_tip"
  | .overCap => "over_cap"

variable {fees : TxFees} {capWei : Int} {entry : Entry}

theorem kind_feeRuleViolation :
    (feeRuleViolation fees capWei).map TxGas.FeeViolation.kind =
      (breach fees capWei).map kindText := by
  unfold feeRuleViolation breach
  cases fees with
  | priced type gasPrice =>
      by_cases capped : 0 < capWei ∧ capWei < gasPrice
      · simp [tipOf, orderKey, kindText, capped]
      · simp [tipOf, orderKey, capped]
  | typed type maxPriorityFeePerGas maxFeePerGas =>
      by_cases above : maxPriorityFeePerGas < maxFeePerGas
      · simp [tipOf, orderKey, kindText, above]
      · by_cases capped : 0 < capWei ∧ capWei < maxPriorityFeePerGas
        · simp [tipOf, orderKey, kindText, above, capped]
        · simp [tipOf, orderKey, above, capped]

theorem kind_checkFeeRule :
    (checkFeeRule ⟨some (orderKey fees), some (tipOf fees), none⟩
        capWei).map breachKind =
      breach fees capWei := by
  unfold checkFeeRule breach
  by_cases above : tipOf fees < orderKey fees
  · simp [Option.filter, above, breachKind]
  · simp only [Option.filter, Nat.cast_lt, above, decide_false,
      Bool.false_eq_true, if_false]
    split <;> rfl

theorem columns_mined (tx : SignedTx) (paid fallback : Option Int) :
    txFeeColumns (mined tx paid) fallback =
      ((tipOf tx.fees : Int), some (orderKey tx.fees : Int)) := by
  unfold mined SignedTx.fees
  cases tx.pricing with
  | legacy gasPrice => rfl
  | accessList chainId gasPrice => rfl
  | feeMarket type chainId tip maxFee => rfl

theorem kind_callFeeViolation
    {Other : Type} (config : Config) (recorded : entry.Recorded) :
    (callFeeViolation config (entry.submission : Value Other)).map
        TxGas.FeeViolation.kind =
      (breach entry.tx.fees config.maxPriorityFee).map kindText := by
  have raw : rawTransaction (entry.submission : Value Other) =
      some entry.tx.raw := rfl
  rw [callFeeViolation, raw, Option.bind_some,
    SignedFields.txFees_raw recorded.short]
  exact kind_feeRuleViolation

section Rows

variable {Number : Type} (numbers : RunChecks.Numbers Number)
    (toLowerCase : Text → Text) (derived : Text → Option Text)

theorem kind_rowFeeViolation (capWei : Int) (recorded : entry.Recorded) :
    (rowFeeViolation numbers toLowerCase derived capWei entry.row).map
        (fun violation => (violation.hash, violation.kind)) =
      (breach entry.tx.fees capWei).map fun kind =>
        (entry.row.hash.text, kind) := by
  rcases recorded.columns with ⟨paid, fallback, columns⟩
  rw [columns_mined, Prod.mk.injEq] at columns
  rw [← kind_checkFeeRule, rowFeeViolation, rowOwner, if_pos recorded.agent,
    columns.1, columns.2, Option.bind_some, Option.map_map, Option.map_map]
  rfl

/-- The check flags the row of a transaction exactly where the gateway refuses
the transaction, and for the same reason. -/
theorem flagged_iff_refused
    {Other : Type} [DecidableEq Number] (config : Config)
    (sent : List Entry) (recorded : ∀ entry ∈ sent, entry.Recorded) :
    (checkFeeViolations numbers toLowerCase derived
          (blocksCsv (sent.map Entry.row)) config.maxPriorityFee).map
        (fun violation => (violation.hash, kindText violation.kind)) =
      sent.filterMap fun entry =>
        (callFeeViolation config (entry.submission : Value Other)).map
          fun violation => (entry.row.hash.text, violation.kind) := by
  have owners : ∀ row ∈ sent.map Entry.row, Storable row.ownerId := by
    intro row listed
    rcases List.mem_map.mp listed with ⟨entry, member, rfl⟩
    exact (recorded entry member).owner
  rw [(roundTrip_of_storable owners).fees, List.map_filterMap,
    List.filterMap_map]
  apply List.filterMap_congr
  intro entry member
  have refused := congrArg (Option.map fun kind => (entry.row.hash.text, kind))
    (@kind_callFeeViolation _ Other config (recorded entry member))
  have flagged := congrArg
    (Option.map fun found : Text × BreachKind => (found.1, kindText found.2))
    (kind_rowFeeViolation numbers toLowerCase derived config.maxPriorityFee
      (recorded entry member))
  rw [Option.map_map, Option.map_map] at refused flagged
  exact flagged.trans refused.symm

end Rows

/-- A legacy transaction at nine wei for each unit of gas. -/
def nineWei : Entry where
  tx := ⟨.legacy 9, 1, 21000, []⟩
  row := { commaRow with ownerId := literal "a".toList }

theorem flagged_nineWei :
    (checkFeeViolations wholeNumbers id (fun _ => none)
          (blocksCsv [nineWei.row]) 5).map
        (fun violation => (violation.hash, kindText violation.kind)) =
      [nineWei].filterMap fun entry =>
        (callFeeViolation { defaultConfig with maxPriorityFee := 5 }
            (entry.submission : Value Unit)).map
          fun violation => (entry.row.hash.text, violation.kind) := by
  apply flagged_iff_refused wholeNumbers id (fun _ => none)
    { defaultConfig with maxPriorityFee := 5 } [nineWei]
  intro entry listed
  rw [List.mem_singleton.mp listed]
  exact ⟨by decide +kernel, by decide, by decide, none, none, by decide⟩

theorem pays_orderKey_iff :
    (∀ baseFee, paidAt baseFee fees = orderKey fees) ↔
      orderKey fees ≤ tipOf fees := by
  cases fees with
  | priced type gasPrice => simp [paidAt, orderKey, tipOf]
  | typed type maxPriorityFeePerGas maxFeePerGas =>
      simp only [paidAt, orderKey, tipOf, min_eq_left_iff]
      constructor
      · intro pays
        simpa using pays 0
      · intro within baseFee
        omega

theorem breach_eq_none_iff :
    breach fees capWei = none ↔ orderKey fees ≤ tipOf fees ∧
      (0 < capWei → (tipOf fees : Int) ≤ capWei) := by
  unfold breach
  split
  · simp only [reduceCtorEq, false_iff]
    omega
  · split
    · simp only [reduceCtorEq, false_iff]
      omega
    · simp only [true_iff]
      omega

end Eris.PostRun.FeeAgreement
