import Eris.Evm.Erc20

/-!
# The data model of `SimpleLending.sol`

A market is named by the digest of its parameters.  The contract keeps the
totals of each market, one position per market and account, the list of
markets an account ever entered, and the unordered list of current debtors
together with its one-based index.

Besides the storage this module fixes what surrounds the deployed contract:
the digest function, the block, and the answers of the creator-chosen oracle
and interest-rate contracts, which may be anything.
-/

namespace Eris.Lending.Data

open Foundation.Checked Evm.Word Evm.Erc20

structure MarketParams where
  loanToken : Address
  collateralToken : Address
  oracle : Address
  irm : Address
  lltv : U256
deriving DecidableEq

structure Market where
  totalSupplyAssets : U128
  totalSupplyShares : U128
  totalBorrowAssets : U128
  totalBorrowShares : U128
  lastUpdate : U128
  totalCollateralAssets : U128
deriving DecidableEq

structure Position where
  supplyShares : U256
  borrowShares : U128
  collateral : U128
deriving DecidableEq

/-- A market nobody has created reads as zeros. -/
def Market.zero : Market := ⟨0, 0, 0, 0, 0, 0⟩

/-- An account which never entered a market reads as zeros there. -/
def Position.zero : Position := ⟨0, 0, 0⟩

/-- The parameters stored for a market nobody has created. -/
def MarketParams.zero : MarketParams := ⟨0, 0, 0, 0, 0⟩

def WAD : U256 := 1000000000000000000

def ORACLE_PRICE_SCALE : U256 := 1000000000000000000000000000000000000

def VIRTUAL_SHARES : U256 := 1000000

def VIRTUAL_ASSETS : U256 := 1

def LIQUIDATION_CURSOR : U256 := 300000000000000000

def MAX_LIQUIDATION_INCENTIVE_FACTOR : U256 := 1150000000000000000

def MAX_BORROW_RATE_PER_SECOND : U256 := 317097919837

inductive Error where
  | alreadyCreated
  | marketNotCreated
  | invalidLltv
  | zeroAmount
  | insufficientLiquidity
  | insufficientCollateral
  | healthyPosition
  | oracleCallFailed
  | transferFailed
  | reentrancy
deriving DecidableEq, Repr

abbrev Result (Value : Type) := Outcome Error Value

structure Storage where
  market : Bytes32 → Market
  position : Bytes32 → Address → Position
  marketParams : Bytes32 → MarketParams
  marketIds : List Bytes32
  userMarketIds : Address → List Bytes32
  entered : Bytes32 → Address → Bool
  borrowers : Bytes32 → List Address
  borrowerIndex : Bytes32 → Address → Nat
  locked : U256

/-- The storage of a freshly deployed contract. -/
def Storage.empty : Storage where
  market := fun _ => .zero
  position := fun _ _ => .zero
  marketParams := fun _ => .zero
  marketIds := []
  userMarketIds := fun _ => []
  entered := fun _ _ => false
  borrowers := fun _ => []
  borrowerIndex := fun _ _ => 0
  locked := 0

def Storage.setMarket (s : Storage) (id : Bytes32) (m : Market) : Storage :=
  { s with market := Function.update s.market id m }

def Storage.setPosition
    (s : Storage) (id : Bytes32) (user : Address) (p : Position) :
    Storage :=
  { s with
    position := Function.update s.position id
        (Function.update (s.position id) user p) }

/--
The contract's storage and the books of every token, standard tokens whose
total supply stays below `supplyCap`.
-/
structure Worlds (supplyCap : Nat) where
  lending : Storage
  tokens : Address → Token supplyCap

/-- Standard tokens whose total supply stays below `2 ^ 96`. -/
abbrev LendingToken := Token (2 ^ 96)

abbrev World := Worlds (2 ^ 96)

/--
Where the contract lives and what its market digest does.  `idOf` is
`keccak256(abi.encode(params))`; it is assumed collision-free on the
parameters anybody ever submits.
-/
structure Deployment where
  self : Address
  idOf : MarketParams → Bytes32
  submitted : Set MarketParams
  collisionFree : Set.InjOn idOf submitted

/--
One transaction: its sender, the time in the header of its block, and the
answers it gets from creator-chosen code.  A missing answer stands for a call
which fails, runs out of gas or returns too little.  An oracle is asked by
the number of the read within the transaction and need not repeat itself.
-/
structure Context where
  msgSender : Address
  timestamp : BitVec 64
  price : Address → Nat → Option U256
  borrowRatePerSecond : Address → U256 → U256 → Option U256

/-- `block.timestamp` -/
def Context.now (ctx : Context) : U256 := ctx.timestamp.setWidth 256

inductive Call where
  | createMarket (params : MarketParams)
  | supply (params : MarketParams) (assets : U256)
  | withdraw (params : MarketParams) (assets : U256)
  | withdrawAll (params : MarketParams)
  | supplyCollateral (params : MarketParams) (assets : U256)
  | withdrawCollateral (params : MarketParams) (assets : U256)
  | borrow (params : MarketParams) (assets : U256)
  | repay (params : MarketParams) (assets : U256)
  | repayAll (params : MarketParams)
  | liquidate (params : MarketParams) (borrower : Address) (seizedAssets : U256)
deriving DecidableEq

/--
The event which closes each call.  It carries the values the call returns:
the shares or assets it computed.
-/
inductive Event where
  | createMarket (id : Bytes32) (creator : Address) (params : MarketParams)
  | supply (id : Bytes32) (caller : Address) (assets shares : U256)
  | withdraw (id : Bytes32) (caller : Address) (assets shares : U256)
  | supplyCollateral (id : Bytes32) (caller : Address) (assets : U256)
  | withdrawCollateral (id : Bytes32) (caller : Address) (assets : U256)
  | borrow (id : Bytes32) (caller : Address) (assets shares : U256)
  | repay (id : Bytes32) (caller : Address) (assets shares : U256)
  | liquidate (id : Bytes32) (liquidator borrower : Address)
      (repaidAssets seizedAssets badDebtAssets : U256)
deriving DecidableEq

def Call.params : Call → MarketParams
  | .createMarket params => params
  | .supply params _ => params
  | .withdraw params _ => params
  | .withdrawAll params => params
  | .supplyCollateral params _ => params
  | .withdrawCollateral params _ => params
  | .borrow params _ => params
  | .repay params _ => params
  | .repayAll params => params
  | .liquidate params _ _ => params

/-- The account whose position a call writes. -/
def Call.account (ctx : Context) : Call → Address
  | .liquidate _ borrower _ => borrower
  | _ => ctx.msgSender

/-- A liquidation which wrote off assets the borrower will never repay. -/
def Event.realizesBadDebt : Event → Prop
  | .liquidate _ _ _ _ _ badDebtAssets => badDebtAssets ≠ 0
  | _ => False

instance (event : Event) : Decidable event.realizesBadDebt := by
  cases event <;> unfold Event.realizesBadDebt <;> infer_instance

end Eris.Lending.Data
