import Mathlib

/-!
# The leverage cap

GMX compares a position's collateral, and its equity, with its size times a
factor.  The keeper works out which share of that cap an order would use at
the prices it executes at.  Amounts are integers, divided as the source
divides them, towards zero; a share is counted in units of
`1 / SHARE_PRECISION`.
-/

namespace Eris.Gmx.Leverage

def FLOAT_PRECISION : Int := 10 ^ 30

def SHARE_PRECISION : Int := 10 ^ 12

/-- Ninety-eight hundredths, in units of `1 / SHARE_PRECISION`. -/
def GMX_KEEPER_CAP_USE : Int := 980_000_000_000

def applyFactor (value factor : Int) : Int :=
  (value * factor).tdiv FLOAT_PRECISION

/-- What part `required` is of `available`; all of it when nothing is. -/
inductive Share where
  | finite (units : Int)
  | infinity
deriving DecidableEq

/-- `required / available` -/
def share (required available : Int) : Share :=
  if available ≤ 0 then .infinity
  else .finite ((required * SHARE_PRECISION).tdiv available)

def Share.max : Share → Share → Share
  | .finite first, .finite second => .finite (Max.max first second)
  | _, _ => .infinity

def Share.le : Share → Int → Bool
  | .finite units, limit => decide (units ≤ limit)
  | .infinity, _ => false

/-- `first > second` -/
def Share.gt : Share → Share → Bool
  | .finite first, .finite second => decide (second < first)
  | .infinity, .finite _ => true
  | _, .infinity => false

/-- A position as the check reads it, at the execution prices. -/
structure GmxCapPosition where
  sizeInUsd : Int
  collateralAmount : Int
  pnlUsd : Int
  pendingFeeAmount : Int
  closeImpactUsd : Option Int
deriving DecidableEq

structure GmxCapMarket where
  collateralPrice : Int
  minCollateralFactor : Int
  oiMultiplierFactor : Option Int
  openInterestUsd : Option Int
  feeFactor : Int
  maxImpactFactorForLiquidations : Option Int
deriving DecidableEq

inductive GmxCapKind where
  | increase
  | decrease
deriving DecidableEq

structure GmxCapOrder where
  kind : GmxCapKind
  sizeDeltaUsd : Int
  collateralDeltaAmount : Int
deriving DecidableEq

inductive GmxCapBinding where
  | collateral
  | equity
deriving DecidableEq

/-- Where an order would leave the position. -/
structure GmxCapUse where
  sizeAfterUsd : Int
  collateralAfterUsd : Option Int
  equityAfterUsd : Int
  capUse : Share
  binding : GmxCapBinding
deriving DecidableEq

def capResult
    (sizeAfterUsd factor : Int) (collateral : Option (Int × Int))
    (equityAfterUsd : Int) : GmxCapUse :=
  let byEquity := share (applyFactor sizeAfterUsd factor) equityAfterUsd
  let byCollateral := match collateral with
    | none => .finite 0
    | some (usd, collateralFactor) =>
        share (applyFactor sizeAfterUsd collateralFactor) usd
  { sizeAfterUsd := sizeAfterUsd
    collateralAfterUsd := collateral.map Prod.fst
    equityAfterUsd := equityAfterUsd
    capUse := byEquity.max byCollateral
    binding := if byCollateral.gt byEquity then .collateral else .equity }

/-- The factor with the open interest of the order's side counted. -/
def oiFactor (market : GmxCapMarket) (openInterestAfter : Int) : Int :=
  let multiplier := market.oiMultiplierFactor.getD 0
  if multiplier = 0 then market.minCollateralFactor
  else
    let byOi :=
      applyFactor (if 0 < openInterestAfter then openInterestAfter else 0)
        multiplier
    if market.minCollateralFactor < byOi then byOi
    else market.minCollateralFactor

/-- The equity GMX compares, closing fees and impact taken off. -/
def equity
    (market : GmxCapMarket) (collateralUsd pnlUsd size : Int) : Int :=
  collateralUsd + pnlUsd - applyFactor size market.feeFactor -
    applyFactor size (market.maxImpactFactorForLiquidations.getD 0)

/-- An increase, added to a position if there is one. -/
def increaseCapUse
    (order : GmxCapOrder) (position : Option GmxCapPosition)
    (market : GmxCapMarket) : Option GmxCapUse :=
  if order.sizeDeltaUsd = 0 then none
  else
    let sizeAfter :=
      (position.map GmxCapPosition.sizeInUsd).getD 0 + order.sizeDeltaUsd
    let collateralAfterUsd :=
      ((position.map GmxCapPosition.collateralAmount).getD 0 -
          (position.map GmxCapPosition.pendingFeeAmount).getD 0 +
          order.collateralDeltaAmount) * market.collateralPrice -
        applyFactor order.sizeDeltaUsd market.feeFactor
    let equityAfterUsd := equity market collateralAfterUsd
        ((position.map GmxCapPosition.pnlUsd).getD 0) sizeAfter
    some (capResult sizeAfter market.minCollateralFactor (some
          (collateralAfterUsd, oiFactor market
              (market.openInterestUsd.getD 0 + order.sizeDeltaUsd)))
        equityAfterUsd)

def decreaseCapUse
    (order : GmxCapOrder) (position : GmxCapPosition)
    (market : GmxCapMarket) : Option GmxCapUse :=
  if position.sizeInUsd ≤ order.sizeDeltaUsd then none
  else if order.sizeDeltaUsd = 0 ∧ order.collateralDeltaAmount = 0 then none
  else
    let withdrawn :=
      if position.collateralAmount < order.collateralDeltaAmount then
        position.collateralAmount
      else order.collateralDeltaAmount
    let sizeAfter := position.sizeInUsd - order.sizeDeltaUsd
    let realizedPnl :=
      (position.pnlUsd * order.sizeDeltaUsd).tdiv position.sizeInUsd
    let lossPaid := if realizedPnl < 0 then realizedPnl else 0
    let collateralTestUsd :=
      (position.collateralAmount - withdrawn) * market.collateralPrice +
        lossPaid
    let closeImpact := position.closeImpactUsd.getD 0
    let realizedImpact := if closeImpact < 0 then
        (closeImpact * order.sizeDeltaUsd).tdiv position.sizeInUsd
      else 0
    let collateralAfterUsd :=
      (position.collateralAmount - withdrawn - position.pendingFeeAmount) *
          market.collateralPrice -
        applyFactor order.sizeDeltaUsd market.feeFactor + lossPaid +
        realizedImpact
    let equityAfterUsd :=
      equity market collateralAfterUsd (position.pnlUsd - realizedPnl) sizeAfter
    some (capResult sizeAfter market.minCollateralFactor
        (if 0 < withdrawn ∨ order.sizeDeltaUsd = 0 then
          some (collateralTestUsd, oiFactor market
              (market.openInterestUsd.getD 0 - order.sizeDeltaUsd))
        else none)
        equityAfterUsd)

/--
The share of the cap a position would use after an order; nothing where GMX
does not apply the cap.
-/
def gmxCapUse
    (order : GmxCapOrder) (position : Option GmxCapPosition)
    (market : GmxCapMarket) : Option GmxCapUse :=
  if market.minCollateralFactor ≤ 0 then none
  else
    let standing := position.filter fun p => decide (0 < p.sizeInUsd)
    match order.kind with
    | .increase => increaseCapUse order standing market
    | .decrease =>
        match standing with
        | none => none
        | some position => decreaseCapUse order position market

/-- The share at which an increase carries its own size. -/
def gmxOwnCapUse (order : GmxCapOrder) (market : GmxCapMarket) :
    Option GmxCapUse :=
  match order.kind with
  | .increase => gmxCapUse order none market
  | .decrease => none

/-- What a refusal for the cap says: which check, and what was used of it. -/
structure GmxCapRefusal where
  own : Bool
  use : GmxCapUse
deriving DecidableEq

/-- Why an order must not go ahead, or nothing. -/
def gmxCapRefusal (use : Option GmxCapUse) (own : Bool) :
    Option GmxCapRefusal :=
  match use with
  | none => none
  | some use =>
      if use.capUse.le GMX_KEEPER_CAP_USE then none
      else some ⟨own, use⟩

/-- The use is within the keeper's line, or the cap does not apply. -/
def WithinLine (use : Option GmxCapUse) : Prop :=
  ∀ used, use = some used → used.capUse.le GMX_KEEPER_CAP_USE = true

theorem gmxCapRefusal_eq_none {use : Option GmxCapUse} {own : Bool} :
    gmxCapRefusal use own = none ↔ WithinLine use := by
  unfold gmxCapRefusal WithinLine
  cases use with
  | none => simp
  | some used => simp

end Eris.Gmx.Leverage
