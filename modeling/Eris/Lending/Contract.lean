import Eris.Lending.Data
import Eris.Foundation.IndexedSet
import Eris.Foundation.Paging

/-!
# The functions of `SimpleLending.sol`

Every function is translated statement by statement into a state-passing
function in the undoing monad.  External functions take the whole world,
since they move tokens; the internal ones work on the contract's storage
alone.
-/

namespace Eris.Lending.Contract

open Foundation Foundation.Checked Evm.Word Evm.Erc20 Data

variable {supplyCap : Nat}

/-! ## Share conversions -/

def toSharesDown (assets totalAssets totalShares : U256) : Result U256 := do
  let shares ← checkedAdd totalShares VIRTUAL_SHARES
  let total ← checkedAdd totalAssets VIRTUAL_ASSETS
  mulDivDown assets shares total

def toSharesUp (assets totalAssets totalShares : U256) : Result U256 := do
  let shares ← checkedAdd totalShares VIRTUAL_SHARES
  let total ← checkedAdd totalAssets VIRTUAL_ASSETS
  mulDivUp assets shares total

def toAssetsDown (shares totalAssets totalShares : U256) : Result U256 := do
  let total ← checkedAdd totalAssets VIRTUAL_ASSETS
  let divided ← checkedAdd totalShares VIRTUAL_SHARES
  mulDivDown shares total divided

def toAssetsUp (shares totalAssets totalShares : U256) : Result U256 := do
  let total ← checkedAdd totalAssets VIRTUAL_ASSETS
  let divided ← checkedAdd totalShares VIRTUAL_SHARES
  mulDivUp shares total divided

/-- `total > part ? total - part : 0` -/
def clampedSub (total part : U128) : U128 :=
  if part < total then total - part else 0

/-! ## Reads of creator-chosen code -/

def borrowRate
    (ctx : Context) (params : MarketParams)
    (supplyAssets borrowAssets : U256) : U256 :=
  if params.irm = 0 then 0
  else
    match ctx.borrowRatePerSecond params.irm supplyAssets borrowAssets with
    | none => 0
    | some rate => capped rate MAX_BORROW_RATE_PER_SECOND

/-- The given read of the transaction; an unreadable price reverts. -/
def price (ctx : Context) (oracle : Address) (read : Nat) : Result U256 :=
  match ctx.price oracle read with
  | none => .error (.reason .oracleCallFailed)
  | some answer => .ok answer

/-! ## Interest -/

/-- The body of `_accrue` on the market it points to. -/
def accrueMarket
    (ctx : Context) (params : MarketParams) (m : Market) :
    Result Market := do
  require (m.lastUpdate ≠ 0) .marketNotCreated
  let elapsed ← checkedSub ctx.now (widen m.lastUpdate)
  if elapsed = 0 then return m
  let m := { m with lastUpdate := narrow ctx.now }
  if m.totalBorrowAssets = 0 then return m
  let rate := borrowRate ctx params (widen m.totalSupplyAssets)
      (widen m.totalBorrowAssets)
  if rate = 0 then return m
  let scaled ← checkedMul rate elapsed
  let interest ← mulDivDown (widen m.totalBorrowAssets) scaled WAD
  if interest = 0 then return m
  let totalBorrowAssets ← checkedAdd m.totalBorrowAssets (narrow interest)
  let totalSupplyAssets ← checkedAdd m.totalSupplyAssets (narrow interest)
  return { m with totalBorrowAssets, totalSupplyAssets }

def accrue
    (d : Deployment) (ctx : Context) (params : MarketParams)
    (s : Storage) : Result (Bytes32 × Storage) := do
  let id := d.idOf params
  let m ← accrueMarket ctx params (s.market id)
  return (id, s.setMarket id m)

/-- `_accruedTotals`: the supply and borrow totals as of this block. -/
def accruedTotals
    (ctx : Context) (m : Market) (params : MarketParams) :
    Result (U256 × U256) := do
  let supplyAssets := widen m.totalSupplyAssets
  let borrowAssets := widen m.totalBorrowAssets
  if m.lastUpdate = 0 ∨ borrowAssets = 0 then
    return (supplyAssets, borrowAssets)
  let elapsed ← checkedSub ctx.now (widen m.lastUpdate)
  if elapsed = 0 then return (supplyAssets, borrowAssets)
  let rate := borrowRate ctx params supplyAssets borrowAssets
  if rate = 0 then return (supplyAssets, borrowAssets)
  let scaled ← checkedMul rate elapsed
  let interest ← mulDivDown borrowAssets scaled WAD
  let supplyAssets ← checkedAdd supplyAssets interest
  let borrowAssets ← checkedAdd borrowAssets interest
  return (supplyAssets, borrowAssets)

/-! ## Health -/

/-- The body of `_isHealthy` on the position and market it loads. -/
def healthOf
    (ctx : Context) (params : MarketParams) (m : Market) (p : Position) :
    Result Bool := do
  if p.borrowShares = 0 then return true
  let totals ← accruedTotals ctx m params
  let borrowed ←
    toAssetsUp (widen p.borrowShares) totals.2 (widen m.totalBorrowShares)
  let answer ← price ctx params.oracle 0
  let collateralValue ←
    mulDivDown (widen p.collateral) answer ORACLE_PRICE_SCALE
  let limit ← mulDivDown collateralValue params.lltv WAD
  return decide (borrowed ≤ limit)

def isHealthy
    (ctx : Context) (id : Bytes32) (params : MarketParams) (user : Address)
    (s : Storage) : Result Bool :=
  healthOf ctx params (s.market id) (s.position id user)

def liquidationIncentiveFactor (lltv : U256) : Result U256 := do
  let margin ← checkedSub WAD lltv
  let cut ← mulDivDown LIQUIDATION_CURSOR margin WAD
  let divisor ← checkedSub WAD cut
  let factor ← mulDivDown WAD WAD divisor
  return capped factor MAX_LIQUIDATION_INCENTIVE_FACTOR

/-! ## The lists of debtors and of entered markets -/

def syncBorrower
    (id : Bytes32) (user : Address) (s : Storage) : Result Storage :=
  let owes := 0 < (s.position id user).borrowShares
  let index := s.borrowerIndex id user
  if owes ∧ index = 0 then
    let pushed := IndexedSet.push (s.borrowers id) (s.borrowerIndex id) user
    .ok { s with
        borrowers := Function.update s.borrowers id pushed.1
        borrowerIndex := Function.update s.borrowerIndex id pushed.2 }
  else if ¬ owes ∧ index ≠ 0 then
    match IndexedSet.swapRemove (s.borrowers id) (s.borrowerIndex id) user
    with
    | none => .error .panic
    | some popped =>
        .ok { s with
            borrowers := Function.update s.borrowers id popped.1
            borrowerIndex := Function.update s.borrowerIndex id popped.2 }
  else .ok s

def noteEntry (id : Bytes32) (user : Address) (s : Storage) : Storage :=
  if s.entered id user then s
  else
    { s with
      entered := Function.update s.entered id
          (Function.update (s.entered id) user true)
      userMarketIds := Function.update s.userMarketIds user
          (s.userMarketIds user ++ [id]) }

/-! ## Token movements and the reentrancy lock -/

/-- `_pullToken`: any failure of the token becomes `TransferFailed`. -/
def pullToken
    (d : Deployment) (token sender : Address) (amount : U256)
    (tokens : Address → Token supplyCap) : Result (Address → Token supplyCap) :=
  match (tokens token).transferFrom d.self sender d.self amount with
  | .error _ => .error (.reason .transferFailed)
  | .ok books => .ok (Function.update tokens token books)

def pushToken
    (d : Deployment) (token recipient : Address) (amount : U256)
    (tokens : Address → Token supplyCap) : Result (Address → Token supplyCap) :=
  match (tokens token).transfer d.self recipient amount with
  | .error _ => .error (.reason .transferFailed)
  | .ok books => .ok (Function.update tokens token books)

/-- The modifier `nonReentrant`. -/
def nonReentrant
    (body : Worlds supplyCap → Result (Event × Worlds supplyCap))
    (w : Worlds supplyCap) :
    Result (Event × Worlds supplyCap) := do
  require (w.lending.locked ≠ 1) .reentrancy
  let done ← body { w with lending := { w.lending with locked := 1 } }
  return (done.1,
    { done.2 with lending := { done.2.lending with locked := 0 } })

/-! ## Market lifecycle -/

def createMarket
    (d : Deployment) (ctx : Context) (params : MarketParams)
    (w : Worlds supplyCap) :
    Result (Event × Worlds supplyCap) := do
  require (params.lltv < WAD) .invalidLltv
  let id := d.idOf params
  let s := w.lending
  require ((s.market id).lastUpdate = 0) .alreadyCreated
  let s := s.setMarket id { s.market id with lastUpdate := narrow ctx.now }
  let s := { s with
      marketParams := Function.update s.marketParams id params
      marketIds := s.marketIds ++ [id] }
  return (.createMarket id ctx.msgSender params, { w with lending := s })

/-! ## Supply side -/

def supply
    (d : Deployment) (ctx : Context) (params : MarketParams)
    (assets : U256) : Worlds supplyCap → Result (Event × Worlds supplyCap) :=
  nonReentrant fun w => do
    let (id, s) ← accrue d ctx params w.lending
    require (assets ≠ 0) .zeroAmount
    let m := s.market id
    let shares ← toSharesDown assets (widen m.totalSupplyAssets)
        (widen m.totalSupplyShares)
    let s := noteEntry id ctx.msgSender s
    let p := s.position id ctx.msgSender
    let supplyShares ← checkedAdd p.supplyShares shares
    let totalSupplyShares ← checkedAdd m.totalSupplyShares (narrow shares)
    let totalSupplyAssets ← checkedAdd m.totalSupplyAssets (narrow assets)
    let s := s.setPosition id ctx.msgSender { p with supplyShares }
    let s := s.setMarket id { m with totalSupplyShares, totalSupplyAssets }
    let tokens ← pullToken d params.loanToken ctx.msgSender assets w.tokens
    return (.supply id ctx.msgSender assets shares, ⟨s, tokens⟩)

def withdraw
    (d : Deployment) (ctx : Context) (params : MarketParams)
    (assets : U256) : Worlds supplyCap → Result (Event × Worlds supplyCap) :=
  nonReentrant fun w => do
    let (id, s) ← accrue d ctx params w.lending
    require (assets ≠ 0) .zeroAmount
    let m := s.market id
    let shares ← toSharesUp assets (widen m.totalSupplyAssets)
        (widen m.totalSupplyShares)
    let p := s.position id ctx.msgSender
    let supplyShares ← checkedSub p.supplyShares shares
    let totalSupplyShares ← checkedSub m.totalSupplyShares (narrow shares)
    let totalSupplyAssets ← checkedSub m.totalSupplyAssets (narrow assets)
    let s := s.setPosition id ctx.msgSender { p with supplyShares }
    let s := s.setMarket id { m with totalSupplyShares, totalSupplyAssets }
    require (m.totalBorrowAssets ≤ totalSupplyAssets) .insufficientLiquidity
    let tokens ← pushToken d params.loanToken ctx.msgSender assets w.tokens
    return (.withdraw id ctx.msgSender assets shares, ⟨s, tokens⟩)

def withdrawAll
    (d : Deployment) (ctx : Context) (params : MarketParams) :
    Worlds supplyCap → Result (Event × Worlds supplyCap) :=
  nonReentrant fun w => do
    let (id, s) ← accrue d ctx params w.lending
    let m := s.market id
    let p := s.position id ctx.msgSender
    let shares := p.supplyShares
    require (shares ≠ 0) .zeroAmount
    let assets ← toAssetsDown shares (widen m.totalSupplyAssets)
        (widen m.totalSupplyShares)
    let totalSupplyShares ← checkedSub m.totalSupplyShares (narrow shares)
    let totalSupplyAssets ← checkedSub m.totalSupplyAssets (narrow assets)
    let s := s.setPosition id ctx.msgSender { p with supplyShares := 0 }
    let s := s.setMarket id { m with totalSupplyShares, totalSupplyAssets }
    require (m.totalBorrowAssets ≤ totalSupplyAssets) .insufficientLiquidity
    let tokens ← pushToken d params.loanToken ctx.msgSender assets w.tokens
    return (.withdraw id ctx.msgSender assets shares, ⟨s, tokens⟩)

/-! ## Borrow side -/

def supplyCollateral
    (d : Deployment) (ctx : Context) (params : MarketParams)
    (assets : U256) : Worlds supplyCap → Result (Event × Worlds supplyCap) :=
  nonReentrant fun w => do
    let id := d.idOf params
    let s := w.lending
    require ((s.market id).lastUpdate ≠ 0) .marketNotCreated
    require (assets ≠ 0) .zeroAmount
    let s := noteEntry id ctx.msgSender s
    let m := s.market id
    let p := s.position id ctx.msgSender
    let collateral ← checkedAdd p.collateral (narrow assets)
    let totalCollateralAssets ←
      checkedAdd m.totalCollateralAssets (narrow assets)
    let s := s.setPosition id ctx.msgSender { p with collateral }
    let s := s.setMarket id { m with totalCollateralAssets }
    let tokens ←
      pullToken d params.collateralToken ctx.msgSender assets w.tokens
    return (.supplyCollateral id ctx.msgSender assets, ⟨s, tokens⟩)

def withdrawCollateral
    (d : Deployment) (ctx : Context) (params : MarketParams)
    (assets : U256) : Worlds supplyCap → Result (Event × Worlds supplyCap) :=
  nonReentrant fun w => do
    let (id, s) ← accrue d ctx params w.lending
    require (assets ≠ 0) .zeroAmount
    let m := s.market id
    let p := s.position id ctx.msgSender
    let collateral ← checkedSub p.collateral (narrow assets)
    let totalCollateralAssets ←
      checkedSub m.totalCollateralAssets (narrow assets)
    let s := s.setPosition id ctx.msgSender { p with collateral }
    let s := s.setMarket id { m with totalCollateralAssets }
    let healthy ← isHealthy ctx id params ctx.msgSender s
    require (healthy = true) .insufficientCollateral
    let tokens ←
      pushToken d params.collateralToken ctx.msgSender assets w.tokens
    return (.withdrawCollateral id ctx.msgSender assets, ⟨s, tokens⟩)

def borrow
    (d : Deployment) (ctx : Context) (params : MarketParams)
    (assets : U256) : Worlds supplyCap → Result (Event × Worlds supplyCap) :=
  nonReentrant fun w => do
    let (id, s) ← accrue d ctx params w.lending
    require (assets ≠ 0) .zeroAmount
    let m := s.market id
    let shares ← toSharesUp assets (widen m.totalBorrowAssets)
        (widen m.totalBorrowShares)
    let s := noteEntry id ctx.msgSender s
    let p := s.position id ctx.msgSender
    let borrowShares ← checkedAdd p.borrowShares (narrow shares)
    let totalBorrowShares ← checkedAdd m.totalBorrowShares (narrow shares)
    let totalBorrowAssets ← checkedAdd m.totalBorrowAssets (narrow assets)
    let s := s.setPosition id ctx.msgSender { p with borrowShares }
    let s := s.setMarket id { m with totalBorrowShares, totalBorrowAssets }
    let healthy ← isHealthy ctx id params ctx.msgSender s
    require (healthy = true) .insufficientCollateral
    require (totalBorrowAssets ≤ m.totalSupplyAssets) .insufficientLiquidity
    let s ← syncBorrower id ctx.msgSender s
    let tokens ← pushToken d params.loanToken ctx.msgSender assets w.tokens
    return (.borrow id ctx.msgSender assets shares, ⟨s, tokens⟩)

def repay
    (d : Deployment) (ctx : Context) (params : MarketParams)
    (assets : U256) : Worlds supplyCap → Result (Event × Worlds supplyCap) :=
  nonReentrant fun w => do
    let (id, s) ← accrue d ctx params w.lending
    require (assets ≠ 0) .zeroAmount
    let m := s.market id
    let shares ← toSharesDown assets (widen m.totalBorrowAssets)
        (widen m.totalBorrowShares)
    let p := s.position id ctx.msgSender
    let owed := widen p.borrowShares
    let shares := capped shares owed
    let maxAssets ← toAssetsUp shares (widen m.totalBorrowAssets)
        (widen m.totalBorrowShares)
    let assets := capped assets maxAssets
    let borrowShares ← checkedSub p.borrowShares (narrow shares)
    let totalBorrowShares ← checkedSub m.totalBorrowShares (narrow shares)
    let totalBorrowAssets := clampedSub m.totalBorrowAssets (narrow assets)
    let s := s.setPosition id ctx.msgSender { p with borrowShares }
    let s := s.setMarket id { m with totalBorrowShares, totalBorrowAssets }
    let s ← syncBorrower id ctx.msgSender s
    let tokens ← pullToken d params.loanToken ctx.msgSender assets w.tokens
    return (.repay id ctx.msgSender assets shares, ⟨s, tokens⟩)

def repayAll
    (d : Deployment) (ctx : Context) (params : MarketParams) :
    Worlds supplyCap → Result (Event × Worlds supplyCap) :=
  nonReentrant fun w => do
    let (id, s) ← accrue d ctx params w.lending
    let m := s.market id
    let p := s.position id ctx.msgSender
    let shares := widen p.borrowShares
    require (shares ≠ 0) .zeroAmount
    let assets ← toAssetsUp shares (widen m.totalBorrowAssets)
        (widen m.totalBorrowShares)
    let totalBorrowShares ← checkedSub m.totalBorrowShares (narrow shares)
    let totalBorrowAssets := clampedSub m.totalBorrowAssets (narrow assets)
    let s := s.setPosition id ctx.msgSender { p with borrowShares := 0 }
    let s := s.setMarket id { m with totalBorrowShares, totalBorrowAssets }
    let s ← syncBorrower id ctx.msgSender s
    let tokens ← pullToken d params.loanToken ctx.msgSender assets w.tokens
    return (.repay id ctx.msgSender assets shares, ⟨s, tokens⟩)

/-! ## Liquidation -/

/--
The bad-debt branch of `liquidate`: when the collateral is gone and debt
remains, all of it is written off against the suppliers.
-/
def writeOff (m : Market) (p : Position) :
    Result (U256 × Market × Position) :=
  if p.collateral = 0 ∧ 0 < p.borrowShares then do
    let badDebtAssets ←
      toAssetsUp (widen p.borrowShares) (widen m.totalBorrowAssets)
        (widen m.totalBorrowShares)
    let badDebtAssets := capped badDebtAssets (widen m.totalSupplyAssets)
    let totalBorrowShares ← checkedSub m.totalBorrowShares p.borrowShares
    let totalBorrowAssets :=
      clampedSub m.totalBorrowAssets (narrow badDebtAssets)
    let totalSupplyAssets ←
      checkedSub m.totalSupplyAssets (narrow badDebtAssets)
    return (badDebtAssets,
      { m with totalBorrowShares, totalBorrowAssets, totalSupplyAssets },
      { p with borrowShares := 0 })
  else return (0, m, p)

def liquidate
    (d : Deployment) (ctx : Context) (params : MarketParams)
    (borrower : Address) (seizedAssets : U256) :
    Worlds supplyCap → Result (Event × Worlds supplyCap) :=
  nonReentrant fun w => do
    let (id, s) ← accrue d ctx params w.lending
    require (seizedAssets ≠ 0) .zeroAmount
    let healthy ← isHealthy ctx id params borrower s
    require (healthy = false) .healthyPosition
    let collateralPrice ← price ctx params.oracle 1
    let lif ← liquidationIncentiveFactor params.lltv
    let quoted ← mulDivDown seizedAssets collateralPrice ORACLE_PRICE_SCALE
    let repaidAssets ← mulDivUp quoted WAD lif
    let m := s.market id
    let p := s.position id borrower
    let repaidShares ← toSharesDown repaidAssets (widen m.totalBorrowAssets)
        (widen m.totalBorrowShares)
    let borrowShares ← checkedSub p.borrowShares (narrow repaidShares)
    let totalBorrowShares ← checkedSub m.totalBorrowShares (narrow repaidShares)
    let totalBorrowAssets :=
      clampedSub m.totalBorrowAssets (narrow repaidAssets)
    let collateral ← checkedSub p.collateral (narrow seizedAssets)
    let totalCollateralAssets ←
      checkedSub m.totalCollateralAssets (narrow seizedAssets)
    let (badDebtAssets, m, p) ← writeOff { m with
          totalBorrowShares, totalBorrowAssets, totalCollateralAssets }
        { p with borrowShares, collateral }
    let s := s.setPosition id borrower p
    let s := s.setMarket id m
    let s ← syncBorrower id borrower s
    let tokens ←
      pushToken d params.collateralToken ctx.msgSender seizedAssets w.tokens
    let tokens ← pullToken d params.loanToken ctx.msgSender repaidAssets tokens
    return (.liquidate id ctx.msgSender borrower repaidAssets seizedAssets
      badDebtAssets, ⟨s, tokens⟩)

def exec (d : Deployment) (ctx : Context) :
    Call → Worlds supplyCap → Result (Event × Worlds supplyCap)
  | .createMarket params => createMarket d ctx params
  | .supply params assets => supply d ctx params assets
  | .withdraw params assets => withdraw d ctx params assets
  | .withdrawAll params => withdrawAll d ctx params
  | .supplyCollateral params assets => supplyCollateral d ctx params assets
  | .withdrawCollateral params assets =>
      withdrawCollateral d ctx params assets
  | .borrow params assets => borrow d ctx params assets
  | .repay params assets => repay d ctx params assets
  | .repayAll params => repayAll d ctx params
  | .liquidate params borrower seizedAssets =>
      liquidate d ctx params borrower seizedAssets

/-! ## Views -/

/-- What `user` owes as of this block: the second result of `expectedPosition`. -/
def borrowAssetsOf
    (d : Deployment) (ctx : Context) (params : MarketParams)
    (user : Address) (s : Storage) : Result U256 := do
  let m := s.market (d.idOf params)
  let totals ← accruedTotals ctx m params
  toAssetsUp (widen (s.position (d.idOf params) user).borrowShares)
    totals.2 (widen m.totalBorrowShares)

/-- A page of `_userMarketIds[user]` and its full length. -/
def userMarketIdsFrom
    (user : Address) (start limit : Nat) (s : Storage) :
    List Bytes32 × Nat :=
  let all := s.userMarketIds user
  let total := all.length
  if total ≤ start then ([], total)
  else
    let stop := if total - start < limit then total else start + limit
    (Paging.page all start (stop - start), total)

/-- The three columns and the total `borrowerPositionsFrom` returns. -/
structure BorrowerPage where
  borrowers : List Address
  borrowAssets : List U256
  collateral : List U256
  total : Nat
deriving DecidableEq

def borrowerPositionsFrom
    (d : Deployment) (ctx : Context) (params : MarketParams)
    (start limit : Nat) (s : Storage) : Result BorrowerPage := do
  let id := d.idOf params
  let all := s.borrowers id
  let total := all.length
  if total ≤ start then return ⟨[], [], [], total⟩
  let stop := if total - start < limit then total else start + limit
  let m := s.market id
  let totals ← accruedTotals ctx m params
  let users := Paging.page all start (stop - start)
  let borrowAssets ← users.mapM fun user =>
    toAssetsUp (widen (s.position id user).borrowShares) totals.2
      (widen m.totalBorrowShares)
  return ⟨users, borrowAssets,
    users.map fun user => widen (s.position id user).collateral, total⟩

end Eris.Lending.Contract
