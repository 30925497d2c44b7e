import Eris.Gmx.Planning

/-!
# No order is a free option

The keeper refuses an increase whose own collateral does not carry its own
size, and any order which would leave a position over its line.  The two
checks divide with truncation and compare a scaled quotient, but what they let
through meets the exact inequalities: a quotient under the line leaves a
margin of two hundredths, which no truncation uses up.

An increase of no size, a deposit of collateral, is not checked.
-/

namespace Eris.Gmx.CapLine

open Leverage Keeper Planning

/-! ## The claim -/

/-- The two checks of an order at a position. -/
def checks
    (order : GmxCapOrder) (position : Option GmxCapPosition)
    (market : GmxCapMarket) : GmxKeeperCapCheckDone :=
  ⟨gmxCapUse order position market, gmxOwnCapUse order market⟩

def LetThrough
    (order : GmxCapOrder) (position : Option GmxCapPosition)
    (market : GmxCapMarket) : Prop :=
  keeperCapRefusal (checks order position market) = none

instance
    (order : GmxCapOrder) (position : Option GmxCapPosition)
    (market : GmxCapMarket) : Decidable (LetThrough order position market) :=
  inferInstanceAs (Decidable (_ = _))

/-- Sizes, amounts, prices and factors are unsigned on the chain. -/
structure Unsigned (order : GmxCapOrder) (market : GmxCapMarket) : Prop where
  sizeDelta : 0 ≤ order.sizeDeltaUsd
  collateralDelta : 0 ≤ order.collateralDeltaAmount
  price : 0 ≤ market.collateralPrice
  fee : 0 ≤ market.feeFactor

/-- The factor which the open interest of a side asks for. -/
def openInterestFactor (market : GmxCapMarket) (openInterestAfter : Int) : Int :=
  applyFactor (max openInterestAfter 0) (market.oiMultiplierFactor.getD 0)

/-- What an order would leave meets the cap exactly. -/
structure Carries
    (use : GmxCapUse) (factor openInterestFactor : Int) : Prop where
  collateral : ∃ collateral, use.collateralAfterUsd = some collateral ∧
      use.sizeAfterUsd * max factor openInterestFactor ≤
        collateral * FLOAT_PRECISION
  equity : use.sizeAfterUsd * factor ≤ use.equityAfterUsd * FLOAT_PRECISION

/-- No order on a market is a free option. -/
structure NoFreeOption (market : GmxCapMarket) : Prop where
  carried : ∀ order position, Unsigned order market → order.kind = .increase →
      order.sizeDeltaUsd ≠ 0 → LetThrough order position market →
        ∃ use, gmxCapUse order position market = some use ∧
          Carries use market.minCollateralFactor (openInterestFactor market
              (market.openInterestUsd.getD 0 + order.sizeDeltaUsd))
  own : ∀ order position, Unsigned order market → order.kind = .increase →
      order.sizeDeltaUsd ≠ 0 → LetThrough order position market →
        order.sizeDeltaUsd * market.minCollateralFactor ≤
          order.collateralDeltaAmount * market.collateralPrice * FLOAT_PRECISION
  bare : ∀ order position, Unsigned order market → order.kind = .increase →
      order.sizeDeltaUsd ≠ 0 → order.collateralDeltaAmount = 0 →
        ¬LetThrough order position market
  more :
    ∀ order position amount, Unsigned order market → order.kind = .increase →
      order.collateralDeltaAmount ≤ amount → LetThrough order position market →
          LetThrough { order with collateralDeltaAmount := amount } position
            market
  less :
    ∀ order position amount, Unsigned order market → order.kind = .decrease →
      0 ≤ amount → amount ≤ order.collateralDeltaAmount →
        LetThrough order position market →
          LetThrough { order with collateralDeltaAmount := amount } position
            market

variable {factor available limit : Int}

theorem applyFactor_nonneg
    {value : Int} (unsigned : 0 ≤ value) (positive : 0 ≤ factor) :
    0 ≤ applyFactor value factor :=
  Int.tdiv_nonneg (Int.mul_nonneg unsigned positive) (by decide)

theorem lt_applyFactor (value factor : Int) :
    value * factor < (applyFactor value factor + 1) * FLOAT_PRECISION :=
  Int.lt_tdiv_add_one_mul_self _ (by decide)

theorem share_le_iff
    {required : Int} (nonneg : 0 ≤ required) :
    (share required available).le limit = true ↔
      0 < available ∧ required * SHARE_PRECISION < (limit + 1) * available := by
  unfold share
  split
  · next exhausted =>
      constructor
      · intro impossible
        cases impossible
      · rintro ⟨positive, _⟩
        omega
  · next positive =>
      rw [not_le] at positive
      have scaled : 0 ≤ required * SHARE_PRECISION :=
        Int.mul_nonneg nonneg (by decide)
      rw [Share.le, decide_eq_true_eq, Int.tdiv_eq_ediv_of_nonneg scaled,
        ← Int.lt_add_one_iff, Int.ediv_lt_iff_lt_mul positive]
      exact (and_iff_right positive).symm

theorem share_le_mono
    {required more : Int}
    (nonneg : 0 ≤ required) (line : 0 ≤ limit) (grown : available ≤ more)
    (within : (share required available).le limit = true) :
    (share required more).le limit = true := by
  rw [share_le_iff nonneg] at within ⊢
  rcases within with ⟨positive, below⟩
  refine ⟨by omega, below.trans_le ?_⟩
  exact Int.mul_le_mul_of_nonneg_left grown (by omega)

theorem covered_of_share_le
    {size : Int}
    (within :
      (share (applyFactor size factor) available).le GMX_KEEPER_CAP_USE =
        true) :
    size * factor ≤ available * FLOAT_PRECISION := by
  have product := lt_applyFactor size factor
  have precise : (0 : Int) < FLOAT_PRECISION := by decide
  have enough : applyFactor size factor + 1 ≤ available := by
    by_cases nonneg : 0 ≤ applyFactor size factor
    · rcases (share_le_iff nonneg).mp within with ⟨positive, below⟩
      unfold SHARE_PRECISION GMX_KEEPER_CAP_USE at below
      by_contra uncovered
      omega
    · have positive : 0 < available := by
        by_contra exhausted
        rw [share, if_pos (not_lt.mp exhausted)] at within
        cases within
      omega
  have scaled : (applyFactor size factor + 1) * FLOAT_PRECISION ≤
        available * FLOAT_PRECISION :=
    Int.mul_le_mul_of_nonneg_right enough precise.le
  exact product.le.trans scaled

theorem max_le {first second : Share} :
    (first.max second).le limit = true ↔
      first.le limit = true ∧ second.le limit = true := by
  cases first <;> cases second <;> simp [Share.max, Share.le]

/-! ## Uses of an order -/

section Uses

variable {order : GmxCapOrder} {position : Option GmxCapPosition}
    {market : GmxCapMarket}

theorem letThrough_iff :
    LetThrough order position market ↔ WithinLine (gmxOwnCapUse order market) ∧
        WithinLine (gmxCapUse order position market) :=
  keeperCapRefusal_eq_none

theorem oiFactor_eq
    (positive : 0 < market.minCollateralFactor) (openInterestAfter : Int) :
    oiFactor market openInterestAfter = max market.minCollateralFactor
        (openInterestFactor market openInterestAfter) := by
  have clamped : (if 0 < openInterestAfter then openInterestAfter else 0) =
        max openInterestAfter 0 := by
    split <;> omega
  unfold oiFactor openInterestFactor
  dsimp only
  rw [clamped]
  split
  · next absent =>
      have none : applyFactor (max openInterestAfter 0) 0 = 0 := by
        rw [applyFactor, Int.mul_zero, Int.zero_tdiv]
      rw [absent, none]
      omega
  · split <;> omega

theorem oiFactor_pos
    (positive : 0 < market.minCollateralFactor) (openInterestAfter : Int) :
    0 < oiFactor market openInterestAfter := by
  rw [oiFactor_eq positive]
  exact lt_max_of_lt_left positive

theorem capResult_le
    {sizeAfter equityAfter : Int}
    {collateral : Option (Int × Int)} (line : 0 ≤ limit) :
    (capResult sizeAfter factor collateral equityAfter).capUse.le limit = true ↔
      (share (applyFactor sizeAfter factor) equityAfter).le limit = true ∧
        ∀ usd collateralFactor, collateral = some (usd, collateralFactor) →
          (share (applyFactor sizeAfter collateralFactor) usd).le limit =
            true := by
  refine max_le.trans (and_congr_right fun _ => ?_)
  cases collateral with
  | none => simpa [Share.le] using line
  | some tested =>
      rcases tested with ⟨usd, collateralFactor⟩
      constructor
      · intro within usd collateralFactor same
        cases same
        exact within
      · intro within
        exact within usd collateralFactor rfl

theorem equity_mono
    {collateral more pnl size : Int} (grown : collateral ≤ more) :
    equity market collateral pnl size ≤ equity market more pnl size := by
  unfold equity
  omega

def collateralAfter
    (order : GmxCapOrder) (standing : Option GmxCapPosition)
    (market : GmxCapMarket) : Int :=
  ((standing.map GmxCapPosition.collateralAmount).getD 0 -
      (standing.map GmxCapPosition.pendingFeeAmount).getD 0 +
      order.collateralDeltaAmount) * market.collateralPrice -
    applyFactor order.sizeDeltaUsd market.feeFactor

/-- The use an increase with size makes of the cap. -/
def increased
    (order : GmxCapOrder) (standing : Option GmxCapPosition)
    (market : GmxCapMarket) : GmxCapUse :=
  let sizeAfter :=
    (standing.map GmxCapPosition.sizeInUsd).getD 0 + order.sizeDeltaUsd
  capResult sizeAfter market.minCollateralFactor (some
      (collateralAfter order standing market,
        oiFactor market (market.openInterestUsd.getD 0 + order.sizeDeltaUsd)))
    (equity market (collateralAfter order standing market)
      ((standing.map GmxCapPosition.pnlUsd).getD 0) sizeAfter)

def standing (position : Option GmxCapPosition) : Option GmxCapPosition :=
  position.filter fun p => decide (0 < p.sizeInUsd)

variable (positive : 0 < market.minCollateralFactor) {amount : Int}

include positive

theorem gmxCapUse_increase
    (kind : order.kind = .increase) (sized : order.sizeDeltaUsd ≠ 0) :
    gmxCapUse order position market =
      some (increased order (standing position) market) := by
  unfold gmxCapUse
  rw [if_neg (not_le.mpr positive)]
  dsimp only
  rw [kind]
  exact if_neg sized

theorem letThrough_increase
    (kind : order.kind = .increase) (sized : order.sizeDeltaUsd ≠ 0) :
    LetThrough order position market ↔
      (increased order none market).capUse.le GMX_KEEPER_CAP_USE = true ∧
        (increased order (standing position) market).capUse.le
          GMX_KEEPER_CAP_USE = true := by
  have own :
      gmxOwnCapUse order market = some (increased order none market) := by
    unfold gmxOwnCapUse
    rw [kind]
    exact gmxCapUse_increase positive kind sized
  rw [letThrough_iff, own, gmxCapUse_increase positive kind sized]
  simp [WithinLine]

theorem carries_increased
    {standing : Option GmxCapPosition}
    (within :
      (increased order standing market).capUse.le GMX_KEEPER_CAP_USE = true) :
    Carries (increased order standing market) market.minCollateralFactor
      (openInterestFactor market
        (market.openInterestUsd.getD 0 + order.sizeDeltaUsd)) := by
  rcases (capResult_le (by decide)).mp within with ⟨byEquity, byCollateral⟩
  constructor
  · refine ⟨_, rfl, ?_⟩
    rw [← oiFactor_eq positive]
    exact covered_of_share_le (byCollateral _ _ rfl)
  · exact covered_of_share_le byEquity

theorem increased_le_mono
    {standing : Option GmxCapPosition} (unsigned : Unsigned order market)
    (held : 0 ≤ (standing.map GmxCapPosition.sizeInUsd).getD 0)
    (more : order.collateralDeltaAmount ≤ amount)
    (within :
      (increased order standing market).capUse.le GMX_KEEPER_CAP_USE = true) :
    (increased { order with collateralDeltaAmount := amount } standing
        market).capUse.le GMX_KEEPER_CAP_USE = true := by
  have grown : collateralAfter order standing market ≤
      collateralAfter { order with collateralDeltaAmount := amount }
        standing market := by
    unfold collateralAfter
    apply Int.sub_le_sub_right
    apply Int.mul_le_mul_of_nonneg_right _ unsigned.price
    exact Int.add_le_add_left more _
  have sizeAfter :
      0 ≤ (standing.map GmxCapPosition.sizeInUsd).getD 0 + order.sizeDeltaUsd :=
    Int.add_nonneg held unsigned.sizeDelta
  rcases (capResult_le (by decide)).mp within with ⟨byEquity, byCollateral⟩
  apply (capResult_le (by decide)).mpr
  constructor
  · apply share_le_mono _ (by decide) (equity_mono grown) byEquity
    exact applyFactor_nonneg sizeAfter positive.le
  · intro usd collateralFactor same
    cases same
    apply share_le_mono _ (by decide) grown (byCollateral _ _ rfl)
    exact applyFactor_nonneg sizeAfter (oiFactor_pos positive _).le

omit positive in
theorem standing_size :
    0 ≤ ((standing position).map GmxCapPosition.sizeInUsd).getD 0 := by
  cases found : standing position with
  | none => exact le_rfl
  | some held =>
      have sized := (Option.filter_eq_some_iff.mp found).2
      exact (of_decide_eq_true sized).le

omit positive in
theorem letThrough_deposit
    (kind : order.kind = .increase) (deposit : order.sizeDeltaUsd = 0) :
    LetThrough order position market := by
  have unchecked : ∀ position : Option GmxCapPosition,
      gmxCapUse order position market = none := by
    intro position
    unfold gmxCapUse
    split
    · rfl
    · dsimp only
      rw [kind]
      exact if_pos deposit
  rw [letThrough_iff]
  unfold gmxOwnCapUse
  rw [kind]
  dsimp only
  rw [unchecked, unchecked]
  simp [WithinLine]

theorem own_collateral
    (unsigned : Unsigned order market)
    (within :
      (increased order none market).capUse.le GMX_KEEPER_CAP_USE = true) :
    order.sizeDeltaUsd * market.minCollateralFactor ≤
      order.collateralDeltaAmount * market.collateralPrice *
        FLOAT_PRECISION := by
  rcases (carries_increased positive within).collateral with
    ⟨collateral, found, covered⟩
  have after : collateralAfter order none market = collateral :=
    Option.some.inj found
  have fee : 0 ≤ applyFactor order.sizeDeltaUsd market.feeFactor :=
    applyFactor_nonneg unsigned.sizeDelta unsigned.fee
  have posted :
      collateral ≤ order.collateralDeltaAmount * market.collateralPrice := by
    rw [← after]
    change (0 - 0 + order.collateralDeltaAmount) * market.collateralPrice -
      applyFactor order.sizeDeltaUsd market.feeFactor ≤ _
    rw [Int.sub_zero, Int.zero_add]
    omega
  calc
    order.sizeDeltaUsd * market.minCollateralFactor ≤
        order.sizeDeltaUsd *
          max market.minCollateralFactor
            (openInterestFactor market
              (market.openInterestUsd.getD 0 + order.sizeDeltaUsd)) :=
      Int.mul_le_mul_of_nonneg_left (le_max_left _ _) unsigned.sizeDelta
    _ = (increased order none market).sizeAfterUsd *
        max market.minCollateralFactor
          (openInterestFactor market
            (market.openInterestUsd.getD 0 + order.sizeDeltaUsd)) := by
      congr 1
      exact (Int.zero_add _).symm
    _ ≤ collateral * FLOAT_PRECISION := covered
    _ ≤ order.collateralDeltaAmount * market.collateralPrice *
          FLOAT_PRECISION :=
      Int.mul_le_mul_of_nonneg_right posted (by decide)

theorem not_letThrough_bare
    (unsigned : Unsigned order market)
    (kind : order.kind = .increase) (sized : order.sizeDeltaUsd ≠ 0)
    (bare : order.collateralDeltaAmount = 0) :
    ¬LetThrough order position market := by
  rw [letThrough_increase positive kind sized]
  rintro ⟨own, _⟩
  have covered := own_collateral positive unsigned own
  rw [bare, Int.zero_mul, Int.zero_mul] at covered
  have size : 0 < order.sizeDeltaUsd :=
    lt_of_le_of_ne unsigned.sizeDelta (Ne.symm sized)
  exact absurd covered (not_le.mpr (Int.mul_pos size positive))

def withdrawn (order : GmxCapOrder) (held : GmxCapPosition) : Int :=
  if held.collateralAmount < order.collateralDeltaAmount then
    held.collateralAmount
  else order.collateralDeltaAmount

/-- The use a part decrease makes of the cap, by the loss it pays and the
impact it realises. -/
def decreased
    (order : GmxCapOrder) (held : GmxCapPosition) (market : GmxCapMarket)
    (lossPaid realizedImpact realizedPnl : Int) : GmxCapUse :=
  capResult (held.sizeInUsd - order.sizeDeltaUsd) market.minCollateralFactor
    (if 0 < withdrawn order held ∨ order.sizeDeltaUsd = 0 then
      some ((held.collateralAmount - withdrawn order held) *
            market.collateralPrice + lossPaid,
          oiFactor market (market.openInterestUsd.getD 0 - order.sizeDeltaUsd))
    else none)
    (equity market ((held.collateralAmount - withdrawn order held -
            held.pendingFeeAmount) * market.collateralPrice -
          applyFactor order.sizeDeltaUsd market.feeFactor + lossPaid +
        realizedImpact)
      (held.pnlUsd - realizedPnl) (held.sizeInUsd - order.sizeDeltaUsd))

omit positive in
theorem decreaseCapUse_eq (held : GmxCapPosition) :
    ∃ lossPaid realizedImpact realizedPnl, ∀ amount,
      decreaseCapUse { order with collateralDeltaAmount := amount } held
          market =
        if held.sizeInUsd ≤ order.sizeDeltaUsd then none
        else if order.sizeDeltaUsd = 0 ∧ amount = 0 then none
        else
          some (decreased { order with collateralDeltaAmount := amount } held
              market lossPaid realizedImpact realizedPnl) :=
  let realizedPnl := (held.pnlUsd * order.sizeDeltaUsd).tdiv held.sizeInUsd
  let closeImpact := held.closeImpactUsd.getD 0
  ⟨if realizedPnl < 0 then realizedPnl else 0, if closeImpact < 0 then
      (closeImpact * order.sizeDeltaUsd).tdiv held.sizeInUsd
    else 0,
    realizedPnl, fun _ => rfl⟩

theorem decreased_le_mono
    {held : GmxCapPosition} {lossPaid realizedImpact realizedPnl : Int}
    (unsigned : Unsigned order market)
    (part : order.sizeDeltaUsd < held.sizeInUsd)
    (less : amount ≤ order.collateralDeltaAmount)
    (within : (decreased order held market lossPaid realizedImpact
        realizedPnl).capUse.le GMX_KEEPER_CAP_USE = true) :
    (decreased { order with collateralDeltaAmount := amount } held market
        lossPaid realizedImpact realizedPnl).capUse.le GMX_KEEPER_CAP_USE =
      true := by
  have fewer : withdrawn { order with collateralDeltaAmount := amount } held ≤
      withdrawn order held := by
    unfold withdrawn
    dsimp only
    split <;> split <;> omega
  have kept : ∀ owed : Int,
      (held.collateralAmount - withdrawn order held - owed) *
          market.collateralPrice ≤
        (held.collateralAmount -
            withdrawn { order with collateralDeltaAmount := amount } held -
              owed) * market.collateralPrice := by
    intro owed
    apply Int.mul_le_mul_of_nonneg_right _ unsigned.price
    omega
  have sizeAfter : 0 ≤ held.sizeInUsd - order.sizeDeltaUsd := by omega
  rcases (capResult_le (by decide)).mp within with ⟨byEquity, byCollateral⟩
  apply (capResult_le (by decide)).mpr
  constructor
  · apply share_le_mono _ (by decide) _ byEquity
    · exact applyFactor_nonneg sizeAfter positive.le
    · apply equity_mono
      have grown := kept held.pendingFeeAmount
      dsimp only
      omega
  · intro usd collateralFactor tested
    rw [Option.ite_none_right_eq_some] at tested
    rcases tested with ⟨tests, same⟩
    cases same
    have before : 0 < withdrawn order held ∨ order.sizeDeltaUsd = 0 :=
      tests.imp_left fun some => some.trans_le fewer
    have share := byCollateral _ _ (if_pos before)
    apply share_le_mono _ (by decide) _ share
    · exact applyFactor_nonneg sizeAfter (oiFactor_pos positive _).le
    · have grown := kept 0
      rw [Int.sub_zero, Int.sub_zero] at grown
      omega

theorem letThrough_decrease (kind : order.kind = .decrease) :
    LetThrough order position market ↔ ∀ held, standing position = some held →
        WithinLine (decreaseCapUse order held market) := by
  have own : WithinLine (gmxOwnCapUse order market) := by
    unfold gmxOwnCapUse
    rw [kind]
    simp [WithinLine]
  have whole : gmxCapUse order position market =
      (standing position).bind fun held =>
          decreaseCapUse order held market := by
    unfold gmxCapUse standing
    rw [if_neg (not_le.mpr positive)]
    dsimp only
    rw [kind]
    cases position.filter fun p => decide (0 < p.sizeInUsd) <;> rfl
  rw [letThrough_iff, and_iff_right own, whole]
  cases standing position with
  | none => simp [WithinLine]
  | some held => simp

theorem letThrough_less
    (unsigned : Unsigned order market)
    (kind : order.kind = .decrease) (nonneg : 0 ≤ amount)
    (less : amount ≤ order.collateralDeltaAmount)
    (through : LetThrough order position market) :
    LetThrough { order with collateralDeltaAmount := amount } position
      market := by
  rw [letThrough_decrease positive kind] at through
  rw [letThrough_decrease positive (by exact kind)]
  intro held found used
  have within := through held found
  rcases @decreaseCapUse_eq order market held with
    ⟨lossPaid, realizedImpact, realizedPnl, uses⟩
  have before := uses order.collateralDeltaAmount
  rw [uses amount, Option.ite_none_left_eq_some, Option.ite_none_left_eq_some]
  rintro ⟨part, something, same⟩
  cases same
  have changed :
      ¬(order.sizeDeltaUsd = 0 ∧ order.collateralDeltaAmount = 0) := by
    omega
  rw [if_neg part, if_neg changed] at before
  exact decreased_le_mono positive unsigned (not_le.mp part) less
    (within _ before)

end Uses

/-- Under a factor, no order on a market is a free option. -/
theorem no_free_option
    (market : GmxCapMarket) (positive : 0 < market.minCollateralFactor) :
    NoFreeOption market where
  carried order position _ kind sized through := by
    rw [letThrough_increase positive kind sized] at through
    exact ⟨_, gmxCapUse_increase positive kind sized,
      carries_increased positive through.2⟩
  own order position unsigned kind sized through := by
    rw [letThrough_increase positive kind sized] at through
    exact own_collateral positive unsigned through.1
  bare order position unsigned kind sized bare :=
    not_letThrough_bare positive unsigned kind sized bare
  more order position amount unsigned kind more through := by
    by_cases sized : order.sizeDeltaUsd = 0
    · exact letThrough_deposit (by exact kind) (by exact sized)
    · rw [letThrough_increase positive kind sized] at through
      rw [letThrough_increase positive (by exact kind) (by exact sized)]
      exact ⟨increased_le_mono positive unsigned le_rfl more through.1,
        increased_le_mono positive unsigned standing_size more through.2⟩
  less order position amount unsigned kind nonneg less through :=
    letThrough_less positive unsigned kind nonneg less through

/-- A market with a cap of five times, its collateral worth one dollar. -/
def fiveTimes : GmxCapMarket where
  collateralPrice := 10 ^ 24
  minCollateralFactor := 2 * 10 ^ 29
  oiMultiplierFactor := none
  openInterestUsd := none
  feeFactor := 6 * 10 ^ 26
  maxImpactFactorForLiquidations := none

/-- An increase of four hundred dollars on one hundred is let through. -/
theorem no_free_option_fiveTimes :
    0 < fiveTimes.minCollateralFactor ∧
      LetThrough ⟨.increase, 400 * 10 ^ 30, 100 * 10 ^ 6⟩ none fiveTimes ∧
        NoFreeOption fiveTimes :=
  ⟨by decide, by decide, no_free_option fiveTimes (by decide)⟩

/-- A position of nine hundred dollars on one hundred. -/
def nineTimes : GmxCapPosition where
  sizeInUsd := 900 * 10 ^ 30
  collateralAmount := 100 * 10 ^ 6
  pnlUsd := 0
  pendingFeeAmount := 0
  closeImpactUsd := none

/-- An increase of no size and without collateral passes over the cap. -/
theorem empty_increase_passes :
    0 < fiveTimes.minCollateralFactor ∧
      LetThrough ⟨.increase, 0, 0⟩ (some nineTimes) fiveTimes ∧
        ¬(nineTimes.sizeInUsd + 0) * fiveTimes.minCollateralFactor ≤
          (nineTimes.collateralAmount - nineTimes.pendingFeeAmount + 0) *
            fiveTimes.collateralPrice * FLOAT_PRECISION := by
  decide

end Eris.Gmx.CapLine
