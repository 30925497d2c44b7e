import Mathlib

/-!
# Pools of assets divided into shares

A pool holds `assets` divided into `shares`.  Its price, assets per share, is
compared by cross-multiplication, so that no division and no positivity of
the compared pools is needed to state an order.

Conversions between the two units are rounded.  The library proves, for a
conversion rounded against whoever uses the pool, that the price never falls
on the asset side, that it never rises on the debt side, how large the
rounding left behind can be, and what a round trip through a pool returns
when other parties use the pool in between.
-/

namespace Eris.Foundation.SharePool

/-! ## Rounded proportions -/

/-- `amount · numerator / denominator` rounded down. -/
def mulDivFloor (amount numerator denominator : Nat) : Nat :=
  amount * numerator / denominator

/-- `amount · numerator / denominator` rounded up. -/
def mulDivCeil (amount numerator denominator : Nat) : Nat :=
  (amount * numerator + (denominator - 1)) / denominator

section Rounding

variable {amount numerator denominator : Nat}

theorem mulDivFloor_mul_le :
    mulDivFloor amount numerator denominator * denominator ≤
      amount * numerator :=
  Nat.div_mul_le_self _ _

theorem lt_mulDivFloor_mul (positive : 0 < denominator) :
    amount * numerator <
      mulDivFloor amount numerator denominator * denominator + denominator :=
  Nat.lt_div_mul_add positive

theorem mulDivCeil_le_iff
    {bound : Nat} (positive : 0 < denominator) :
    mulDivCeil amount numerator denominator ≤ bound ↔
      amount * numerator ≤ bound * denominator := by
  rw [mulDivCeil, Nat.div_le_iff_le_mul_add_pred positive,
    Nat.mul_comm denominator bound]
  omega

theorem le_mulDivCeil_mul (positive : 0 < denominator) :
    amount * numerator ≤
      mulDivCeil amount numerator denominator * denominator :=
  (mulDivCeil_le_iff positive).mp le_rfl

theorem mulDivCeil_mul_lt (positive : 0 < denominator) :
    mulDivCeil amount numerator denominator * denominator <
      amount * numerator + denominator := by
  have bound : mulDivCeil amount numerator denominator * denominator ≤
        amount * numerator + (denominator - 1) :=
    Nat.div_mul_le_self _ _
  omega

theorem mulDivFloor_lt_iff
    {bound : Nat} (positive : 0 < denominator) :
    mulDivFloor amount numerator denominator < bound ↔
      amount * numerator < bound * denominator :=
  Nat.div_lt_iff_lt_mul positive

theorem lt_of_mulDivFloor_lt
    (positive : 0 < denominator)
    (less : mulDivFloor amount numerator denominator < numerator) :
    amount < denominator := by
  rw [mulDivFloor_lt_iff positive, Nat.mul_comm numerator] at less
  exact lt_of_mul_lt_mul_right less (Nat.zero_le _)

theorem mulDivCeil_pos
    (somethingOwed : 0 < amount) (priced : 0 < numerator)
    (positive : 0 < denominator) :
    0 < mulDivCeil amount numerator denominator := by
  by_contra zero
  have worthless := (mulDivCeil_le_iff positive).mp (Nat.le_of_not_lt zero)
  have worth := Nat.mul_pos somethingOwed priced
  omega

end Rounding

structure Pool where
  assets : Nat
  shares : Nat
deriving DecidableEq, Repr

/-- A share of `left` is worth at most a share of `right`. -/
def PriceLe (left right : Pool) : Prop :=
  left.assets * right.shares ≤ right.assets * left.shares

instance (left right : Pool) : Decidable (PriceLe left right) :=
  inferInstanceAs (Decidable (_ ≤ _))

@[refl]
theorem PriceLe.refl (pool : Pool) : PriceLe pool pool := Nat.le_refl _

theorem PriceLe.trans
    {left middle right : Pool} (divided : 0 < middle.shares)
    (first : PriceLe left middle) (second : PriceLe middle right) :
    PriceLe left right := by
  have scaled : left.assets * right.shares * middle.shares ≤
        right.assets * left.shares * middle.shares :=
    calc
      left.assets * right.shares * middle.shares
          = left.assets * middle.shares * right.shares := by ring
      _ ≤ middle.assets * left.shares * right.shares :=
          Nat.mul_le_mul_right _ first
      _ = middle.assets * right.shares * left.shares := by ring
      _ ≤ right.assets * middle.shares * left.shares :=
          Nat.mul_le_mul_right _ second
      _ = right.assets * left.shares * middle.shares := by ring
  exact Nat.le_of_mul_le_mul_right scaled divided

theorem priced_of_priceLe
    {before after : Pool} {unit : Nat} (divided : 0 < after.shares)
    (risen : PriceLe before after)
    (priced : after.assets ≤ unit * after.shares) :
    before.assets ≤ unit * before.shares := by
  refine Nat.le_of_mul_le_mul_right ?_ divided
  calc
    before.assets * after.shares
        ≤ after.assets * before.shares := risen
    _ ≤ unit * after.shares * before.shares := Nat.mul_le_mul_right _ priced
    _ = unit * before.shares * after.shares := by ring

theorem PriceLe.of_assets_le
    {assets more shares : Nat} (grown : assets ≤ more) :
    PriceLe ⟨assets, shares⟩ ⟨more, shares⟩ :=
  Nat.mul_le_mul_right _ grown

/-- The large pool is the small one with `paid` assets for `issued` shares. -/
structure Entered (small large : Pool) (paid issued : Nat) : Prop where
  assets : small.assets + paid = large.assets
  shares : small.shares + issued = large.shares

namespace Entered

variable {small large : Pool} {paid issued : Nat}

/--
Entering raises the price exactly when the shares issued are worth at most
what was paid, at the price before.
-/
theorem priceLe_iff (entered : Entered small large paid issued) :
    PriceLe small large ↔ issued * small.assets ≤ paid * small.shares := by
  unfold PriceLe
  rw [← entered.assets, ← entered.shares]
  constructor <;> intro bound <;> nlinarith

theorem priceGe_iff (entered : Entered small large paid issued) :
    PriceLe large small ↔ paid * small.shares ≤ issued * small.assets := by
  unfold PriceLe
  rw [← entered.assets, ← entered.shares]
  constructor <;> intro bound <;> nlinarith

/--
Leaving raises the price exactly when the shares surrendered are worth at
least what was paid out, at the price before.
-/
theorem leave_priceLe_iff (entered : Entered small large paid issued) :
    PriceLe large small ↔ paid * large.shares ≤ issued * large.assets := by
  rw [entered.priceGe_iff, ← entered.assets, ← entered.shares,
    Nat.mul_add, Nat.mul_add, Nat.mul_comm issued paid]
  exact (Nat.add_le_add_iff_right).symm

theorem leave_priceGe_iff (entered : Entered small large paid issued) :
    PriceLe small large ↔ issued * large.assets ≤ paid * large.shares := by
  rw [entered.priceLe_iff, ← entered.assets, ← entered.shares,
    Nat.mul_add, Nat.mul_add, Nat.mul_comm issued paid]
  exact (Nat.add_le_add_iff_right).symm

end Entered

/-! ## Valuing shares -/

/-- What `shares` of a pool are worth, rounded up: the value of a debt. -/
def Pool.worthUp (pool : Pool) (shares : Nat) : Nat :=
  mulDivCeil shares pool.assets pool.shares

theorem worthUp_le_of_priceLe
    {before after : Pool} (shares : Nat) (dividedBefore : 0 < before.shares)
    (dividedAfter : 0 < after.shares) (cheaper : PriceLe after before) :
    after.worthUp shares ≤ before.worthUp shares := by
  refine (mulDivCeil_le_iff dividedAfter).mpr ?_
  have covered :
      shares * before.assets ≤ before.worthUp shares * before.shares :=
    le_mulDivCeil_mul dividedBefore
  have scaled : shares * after.assets * before.shares ≤
        before.worthUp shares * after.shares * before.shares :=
    calc
      shares * after.assets * before.shares
          = shares * (after.assets * before.shares) := by ring
      _ ≤ shares * (before.assets * after.shares) :=
          Nat.mul_le_mul_left _ cheaper
      _ = shares * before.assets * after.shares := by ring
      _ ≤ before.worthUp shares * before.shares * after.shares :=
          Nat.mul_le_mul_right _ covered
      _ = before.worthUp shares * after.shares * before.shares := by ring
  exact Nat.le_of_mul_le_mul_right scaled dividedBefore

theorem worthUp_le_one
    {shares total : Nat} (divided : 0 < total) (included : shares ≤ total) :
    Pool.worthUp ⟨1, total⟩ shares ≤ 1 := by
  refine (mulDivCeil_le_iff divided).mpr ?_
  simpa using included

/-! ## Exact values and the drift of a price

Rounding in favour of the pool makes its price drift.  When one operation
drifts by at most a `unit` of assets, the exact value of any shares which
stay in the pool moves by at most that unit.
-/

/-- What `shares` of a pool are worth, exactly. -/
def Pool.value (pool : Pool) (shares : Nat) : ℚ :=
  shares * pool.assets / pool.shares

section Value

variable {pool : Pool} {shares more amount : Nat}

theorem value_le_iff (divided : 0 < pool.shares) :
    pool.value shares ≤ amount ↔
      shares * pool.assets ≤ amount * pool.shares := by
  rw [Pool.value, div_le_iff₀ (Nat.cast_pos.mpr divided)]
  exact_mod_cast Iff.rfl

theorem le_value_iff (divided : 0 < pool.shares) :
    (amount : ℚ) ≤ pool.value shares ↔
      amount * pool.shares ≤ shares * pool.assets := by
  rw [Pool.value, le_div_iff₀ (Nat.cast_pos.mpr divided)]
  exact_mod_cast Iff.rfl

theorem value_mono (included : shares ≤ more) :
    pool.value shares ≤ pool.value more := by
  have scaled : shares * pool.assets ≤ more * pool.assets :=
    Nat.mul_le_mul_right _ included
  apply div_le_div_of_nonneg_right _ (Nat.cast_nonneg _)
  exact_mod_cast scaled

theorem assets_le_worthUp_one (divided : 0 < pool.shares) :
    pool.assets ≤ pool.worthUp 1 * pool.shares := by
  have covered := (mulDivCeil_le_iff divided).mp (le_refl (pool.worthUp 1))
  rwa [Nat.one_mul] at covered

theorem worthUp_one_pos
    (priced : 0 < pool.assets) (divided : 0 < pool.shares) :
    0 < pool.worthUp 1 :=
  mulDivCeil_pos Nat.one_pos priced divided

end Value

/-- The price rose by at most what one `unit` left behind accounts for. -/
def RisesWithin (unit : Nat) (before after : Pool) : Prop :=
  after.assets * before.shares ≤
    before.assets * after.shares + unit * before.shares

/-- The price fell by at most what one `unit` taken away accounts for. -/
def FallsWithin (unit : Nat) (before after : Pool) : Prop :=
  before.assets * after.shares ≤
    after.assets * before.shares + unit * before.shares

section Drift

variable {left right before after : Pool} {shares unit slack : Nat}

theorem value_le_add
    (dividedLeft : 0 < left.shares) (dividedRight : 0 < right.shares)
    (drift : left.assets * right.shares ≤ right.assets * left.shares + slack)
    (small : shares * slack ≤ unit * (left.shares * right.shares)) :
    left.value shares ≤ right.value shares + unit := by
  have positiveLeft : (0 : ℚ) < left.shares := Nat.cast_pos.mpr dividedLeft
  have positiveRight : (0 : ℚ) < right.shares := Nat.cast_pos.mpr dividedRight
  have scaled : shares * (left.assets * right.shares) ≤
        shares * (right.assets * left.shares) +
          unit * (left.shares * right.shares) :=
    calc
      shares * (left.assets * right.shares)
          ≤ shares * (right.assets * left.shares + slack) :=
          Nat.mul_le_mul_left _ drift
      _ = shares * (right.assets * left.shares) + shares * slack :=
          Nat.mul_add _ _ _
      _ ≤ shares * (right.assets * left.shares) +
          unit * (left.shares * right.shares) :=
          Nat.add_le_add_left small _
  have cast : (shares * (left.assets * right.shares) : ℚ) ≤
      shares * (right.assets * left.shares) +
        unit * (left.shares * right.shares) := by
    exact_mod_cast scaled
  rw [Pool.value, Pool.value, div_add' _ _ _ positiveRight.ne',
    div_le_div_iff₀ positiveLeft positiveRight]
  linarith

theorem value_le_add_of_risesWithin
    (dividedBefore : 0 < before.shares) (dividedAfter : 0 < after.shares)
    (included : shares ≤ after.shares) (rises : RisesWithin unit before after) :
    after.value shares ≤ before.value shares + unit := by
  refine value_le_add dividedAfter dividedBefore rises ?_
  calc
    shares * (unit * before.shares)
        = unit * (shares * before.shares) := by ring
    _ ≤ unit * (after.shares * before.shares) :=
        Nat.mul_le_mul_left _ (Nat.mul_le_mul_right _ included)

theorem value_le_add_of_fallsWithin
    (dividedBefore : 0 < before.shares) (dividedAfter : 0 < after.shares)
    (included : shares ≤ after.shares) (falls : FallsWithin unit before after) :
    before.value shares ≤ after.value shares + unit := by
  refine value_le_add dividedBefore dividedAfter falls ?_
  calc
    shares * (unit * before.shares)
        = unit * (before.shares * shares) := by ring
    _ ≤ unit * (before.shares * after.shares) :=
        Nat.mul_le_mul_left _ (Nat.mul_le_mul_left _ included)

theorem RisesWithin.of_priceLe (cheaper : PriceLe after before) :
    RisesWithin unit before after :=
  le_trans cheaper (Nat.le_add_right _ _)

theorem FallsWithin.of_priceLe (dearer : PriceLe before after) :
    FallsWithin unit before after :=
  le_trans dearer (Nat.le_add_right _ _)

end Drift

section Rules

variable {small large before after : Pool} {paid issued burned unit : Nat}

theorem Entered.risesWithin_iff
    (entered : Entered small large paid issued) :
    RisesWithin unit small large ↔
      paid * small.shares ≤ issued * small.assets + unit * small.shares := by
  unfold RisesWithin
  rw [← entered.assets, ← entered.shares]
  constructor <;> intro bound <;> nlinarith

theorem Entered.leave_risesWithin_iff
    (entered : Entered small large paid issued) :
    RisesWithin unit large small ↔
      issued * large.assets ≤ paid * large.shares + unit * large.shares := by
  unfold RisesWithin
  rw [← entered.assets, ← entered.shares]
  constructor <;> intro bound <;> nlinarith

theorem Entered.fallsWithin_iff
    (entered : Entered small large paid issued) :
    FallsWithin unit small large ↔
      issued * small.assets ≤ paid * small.shares + unit * small.shares := by
  unfold FallsWithin
  rw [← entered.assets, ← entered.shares]
  constructor <;> intro bound <;> nlinarith

theorem fallsWithin_of_leave
    (clamped : before.assets ≤ after.assets + paid)
    (burned_le : after.shares + burned ≤ before.shares)
    (fair :
      paid * before.shares ≤ burned * before.assets + unit * before.shares) :
    FallsWithin unit before after := by
  have scaled :
      before.assets * before.shares ≤ (after.assets + paid) * before.shares :=
    Nat.mul_le_mul_right _ clamped
  have kept :
      before.assets * (after.shares + burned) ≤ before.assets * before.shares :=
    Nat.mul_le_mul_left _ burned_le
  unfold FallsWithin
  linarith

end Rules

end Eris.Foundation.SharePool
