import Eris.Lending.Participants

/-!
# What the scorer credits a position in the lending market with

The scorer reads a market's stored totals, a page or more of its debtors and
the position of each agent in it, all at one block, and marks the position in
two parts.  The supply side is worth the fraction of the market which is
backed: by the loan tokens still there, and by what the collateral of each
debtor covers of that debtor's debt.  The borrow side is worth its collateral
less its debt, and never less than nothing.

Amounts are exact: prices are rational numbers, and no conversion to floating
point takes place.  A read fails only where the contract reverts.
-/

namespace Eris.Lending.Valuation

open Foundation Foundation.Checked Evm.Word Data Contract

inductive TokenKind where
  | stable
  | base
deriving DecidableEq

structure TokenInfo where
  symbol : String
  kind : TokenKind
  decimals : Nat
deriving DecidableEq

/-- The token registry and the prices of the block which is valued. -/
structure Environment where
  tokenInfoByAddress : Address → Option TokenInfo
  stableVariants : List Address
  stablePrices : Option (Address → Option ℚ≥0)
  fairByBase : String → Option ℚ≥0

def STABLE_VARIANT_DECIMALS : Nat := 6

def stableVariantDecimals (env : Environment) (token : Address) :
    Option Nat :=
  if token ∈ env.stableVariants then some STABLE_VARIANT_DECIMALS else none

/-- A stable no pool quotes is worth par. -/
def stablePriceUsdc
    (prices : Option (Address → Option ℚ≥0)) (token : Address) : ℚ≥0 :=
  (prices.bind fun byToken => byToken token).getD 1

/-- `Number(formatUnits(amount, decimals))` -/
def formatUnits (amount decimals : Nat) : ℚ := amount / 10 ^ decimals

def tokenAmountUsd (env : Environment) (token : Address) (amount : Nat) :
    Option ℚ :=
  match env.tokenInfoByAddress token with
  | some info =>
      let price := match info.kind with
        | .stable => some (stablePriceUsdc env.stablePrices token)
        | .base => env.fairByBase info.symbol
      price.map fun price : ℚ≥0 =>
        formatUnits amount info.decimals * (price : ℚ)
  | none =>
      (stableVariantDecimals env token).map fun decimals =>
        formatUnits amount decimals

/-- Units of market-priced stables which were counted at the mid. -/
abbrev StableUnits := Address → Nat

def addStableUnits
    (env : Environment) (units : StableUnits) (token : Address)
    (amount : Nat) : StableUnits :=
  if amount = 0 then units
  else
    match env.stablePrices.bind fun byToken => byToken token with
    | none => units
    | some _ => Function.update units token (units token + amount)

/-- Why something was left out of a value, as far as this venue says so. -/
inductive ExclusionReason where
  | unpriced
  | readFailed
  | unrealizable
deriving DecidableEq

structure UnpricedHoldingDetail where
  source : String
  token : Option Address
  amountRaw : String
  reason : ExclusionReason
  read : Option String
deriving DecidableEq

/-- `m.id.slice(0, 10)` -/
def shortId (id : Bytes32) : String :=
  "0x" ++
    String.ofList ((List.range 8).map fun place =>
      (id.toNat / 16 ^ (63 - place) % 16).digitChar)

def idle (m : Market) : Nat :=
  if m.totalBorrowAssets.toNat < m.totalSupplyAssets.toNat then
    m.totalSupplyAssets.toNat - m.totalBorrowAssets.toNat
  else 0

def backedFraction (m : Market) (recoveredDebtInLoanUnits : Nat) : Nat :=
  if m.totalSupplyAssets.toNat = 0 then WAD.toNat
  else
    let recoveredDebt :=
      if recoveredDebtInLoanUnits < m.totalBorrowAssets.toNat then
        recoveredDebtInLoanUnits
      else m.totalBorrowAssets.toNat
    let backed := idle m + recoveredDebt
    let fraction := backed * WAD.toNat / m.totalSupplyAssets.toNat
    if WAD.toNat < fraction then WAD.toNat else fraction

structure BorrowerPosition where
  borrowAssets : Nat
  collateral : Nat
deriving DecidableEq

/-- Per debtor, the smaller of the debt and the value of the collateral. -/
def recoverableDebt
    (borrowers : List BorrowerPosition)
    (collateralInLoanUnits : Nat → Option Nat) : Nat :=
  borrowers.foldl (fun recovered b =>
      if b.borrowAssets = 0 then recovered
      else
        let value := (collateralInLoanUnits b.collateral).getD 0
        recovered + if value < b.borrowAssets then value else b.borrowAssets)
    0

def collateralToLoanUnits
    (env : Environment) (params : MarketParams) (collateral : Nat) :
    Option Nat :=
  let loanUnitUsd := tokenAmountUsd env params.loanToken WAD.toNat
  if collateral = 0 then some 0
  else
    match tokenAmountUsd env params.collateralToken collateral, loanUnitUsd with
    | some usd, some loanUnitUsd =>
        if loanUnitUsd ≤ 0 then none
        else some ⌊usd / loanUnitUsd * 10 ^ 18⌋₊
    | _, _ => none

/-- A value, and what the marking left out of it. -/
structure PositionValue where
  usd : ℚ
  unpriced : List UnpricedHoldingDetail
  longs : StableUnits
  shorts : StableUnits

def PositionValue.zero : PositionValue where
  usd := 0
  unpriced := []
  longs := fun _ => 0
  shorts := fun _ => 0

/-- The supply side: pro rata on what backs the market. -/
def supplySide
    (env : Environment) (id : Bytes32) (params : MarketParams)
    (fraction supplyAssets : Nat) : PositionValue :=
  if 0 < supplyAssets then
    let recoverable := supplyAssets * fraction / WAD.toNat
    let valued := match tokenAmountUsd env params.loanToken recoverable with
      | none =>
          { PositionValue.zero with
            unpriced :=
              [⟨"lending-supply:" ++ shortId id, some params.loanToken,
                toString recoverable, .unpriced, none⟩] }
      | some value =>
          { PositionValue.zero with
            usd := value
            longs := addStableUnits env (fun _ => 0) params.loanToken
                recoverable }
    if fraction < WAD.toNat then
      { valued with
        unpriced := valued.unpriced ++
            [⟨"lending-unbacked:" ++ shortId id, some params.loanToken,
              toString (supplyAssets - recoverable), .unrealizable,
              none⟩] }
    else valued
  else .zero

/-- The borrow side: collateral minus debt, floored at zero, added on. -/
def borrowSide
    (env : Environment) (id : Bytes32) (params : MarketParams)
    (borrowAssets collateral : Nat) (supplied : PositionValue) :
    PositionValue :=
  if 0 < collateral ∨ 0 < borrowAssets then
    let collateralValueUsd :=
      tokenAmountUsd env params.collateralToken collateral
    let debtUsd := (tokenAmountUsd env params.loanToken borrowAssets).getD 0
    let net := max 0 (collateralValueUsd.getD 0 - debtUsd)
    { usd := supplied.usd + net
      unpriced := supplied.unpriced ++
          if 0 < collateral ∧ collateralValueUsd = none then
            [⟨"lending-collateral:" ++ shortId id,
              some params.collateralToken, toString collateral, .unpriced,
              none⟩]
          else []
      longs := if 0 < net then
          addStableUnits env supplied.longs params.collateralToken collateral
        else supplied.longs
      shorts := if 0 < net then
          addStableUnits env supplied.shorts params.loanToken borrowAssets
        else supplied.shorts }
  else supplied

/-- `positionValue`, of the three results of `expectedPosition`. -/
def positionValue
    (env : Environment) (id : Bytes32) (params : MarketParams)
    (fraction : Nat) (position : U256 × U256 × U256) : PositionValue :=
  borrowSide env id params position.2.1.toNat position.2.2.toNat
    (supplySide env id params fraction position.1.toNat)

/-- The view `expectedPosition`: supplied and owed assets as of this block,
and the posted collateral. -/
def expectedPosition
    (d : Deployment) (view : Context) (params : MarketParams)
    (user : Address) (s : Storage) : Result (U256 × U256 × U256) := do
  let id := d.idOf params
  let m := s.market id
  let totals ← accruedTotals view m params
  let p := s.position id user
  let supplyAssets ←
    toAssetsDown p.supplyShares totals.1 (widen m.totalSupplyShares)
  let borrowAssets ←
    toAssetsUp (widen p.borrowShares) totals.2 (widen m.totalBorrowShares)
  return (supplyAssets, borrowAssets, widen p.collateral)

def BORROWER_PAGE : Nat := 256

def BORROWER_SCAN_LIMIT : Nat := 1024

def USER_MARKET_LIMIT : Nat := 128

def marketIsEmpty (m : Market) : Bool :=
  m.totalSupplyAssets = 0 && m.totalBorrowAssets = 0 &&
    m.totalCollateralAssets = 0 && m.totalSupplyShares = 0 &&
    m.totalBorrowShares = 0

/-- A failed read is no debtors, which recovers nothing. -/
def decodeBorrowerPage (raw : Result BorrowerPage) :
    List BorrowerPosition × Nat :=
  match raw with
  | .error _ => ([], 0)
  | .ok page =>
      (page.borrowAssets.zipIdx.map fun debt =>
        ⟨debt.1.toNat, (page.collateral.getD debt.2 0).toNat⟩, page.total)

/-- The first entries of the later pages, up to the cap. -/
def laterPages : List Nat :=
  (List.range (BORROWER_SCAN_LIMIT / BORROWER_PAGE)).tail.map
    (· * BORROWER_PAGE)

example : laterPages = [256, 512, 768] := by decide

/-- The debtors of an indebted market, as far as they are scanned. -/
def scannedBorrowers
    (d : Deployment) (view : Context) (params : MarketParams)
    (s : Storage) : List BorrowerPosition :=
  if 0 < (s.market (d.idOf params)).totalBorrowAssets.toNat then
    let read := fun start =>
      decodeBorrowerPage
        (borrowerPositionsFrom d view params start BORROWER_PAGE s)
    let first := read 0
    first.1 ++
      (laterPages.filter (· < first.2)).flatMap fun start => (read start).1
  else []

/-- What the collateral of the scanned debtors covers, in loan tokens. -/
def recovered
    (d : Deployment) (view : Context) (env : Environment)
    (params : MarketParams) (s : Storage) : Nat :=
  recoverableDebt (scannedBorrowers d view params s)
    (collateralToLoanUnits env params)

/-- What one agent is credited with for one market it entered. -/
def pairValue
    (d : Deployment) (view : Context) (env : Environment) (s : Storage)
    (id : Bytes32) (agent : Address) : PositionValue :=
  let params := s.marketParams id
  let m := s.market id
  if marketIsEmpty m then .zero
  else
    match expectedPosition d view params agent s with
    | .error _ =>
        { PositionValue.zero with
          unpriced :=
            [⟨"lending-position:" ++ shortId id, none, "", .readFailed,
              some "SimpleLending.expectedPosition"⟩] }
    | .ok position =>
        if position.1 = 0 ∧ position.2.1 = 0 ∧ position.2.2 = 0 then .zero
        else
          positionValue env id params
            (backedFraction m (recovered d view env params s)) position

/-- One agent's value in this venue: `target` after every pair. -/
def lendingValuation
    (d : Deployment) (view : Context) (env : Environment) (s : Storage)
    (agent : Address) : PositionValue :=
  let index := userMarketIdsFrom agent 0 USER_MARKET_LIMIT s
  let unscanned := if index.1.length < index.2 then
      [⟨"lending-unscanned", none, "", .readFailed,
        some ("SimpleLending.userMarketIdsFrom: " ++
          toString index.1.length ++ " of " ++ toString index.2 ++
          " markets read (USER_MARKET_LIMIT " ++
          toString USER_MARKET_LIMIT ++
          "); positions in the rest are not in this value")⟩]
    else []
  index.1.foldl (fun target id =>
      let value := pairValue d view env s id agent
      { usd := target.usd + value.usd
        unpriced := target.unpriced ++ value.unpriced
        longs := fun token => target.longs token + value.longs token
        shorts := fun token => target.shorts token + value.shorts token })
    { PositionValue.zero with unpriced := unscanned }

/-- What a market holds: loan tokens not lent out and all collateral. -/
def holdingsUsd
    (env : Environment) (params : MarketParams) (m : Market) : ℚ :=
  (tokenAmountUsd env params.loanToken
      (m.totalSupplyAssets.toNat - m.totalBorrowAssets.toNat)).getD 0 +
    (tokenAmountUsd env params.collateralToken
      m.totalCollateralAssets.toNat).getD 0

end Eris.Lending.Valuation
