import Eris.Evm.Word
import Eris.Foundation.RangeGrowth

/-!
# Uncollected fees

`sdk/src/protocols/uniswap.ts`, `uncollectedFees`.  A pool counts the fees a
unit of liquidity has earned, in units of `2 ^ -128`, in counters which wrap.
A position has earned since its checkpoint what grew while the current tick
was in its range; it is computed from four counters and two side tests, on
integers which wrap as the pool's words do.

The pool itself is not part of the repository: its counters follow the rules
of `Foundation.RangeGrowth`, a tick starting with the global value when it is
at or below the current tick and with zero otherwise, and a crossing replacing
what a tick carries by the global value less it.
-/

namespace Eris.Uniswap.FeeGrowth

open Foundation.RangeGrowth Foundation.Transition
open Evm.Word (U256)

/-! ## The source -/

def Q128 : Int := 2 ^ 128

def U256_MODULUS : Int := 2 ^ 256

/-- Subtraction which wraps as the pool's words do. -/
def wrapSub (a b : Int) : Int :=
  ((a - b).tmod U256_MODULUS + U256_MODULUS).tmod U256_MODULUS

/-- What is read of a tick: its two outside values, and whether it is set. -/
structure TickRead where
  feeGrowthOutside0X128 : Int
  feeGrowthOutside1X128 : Int
  initialized : Bool
deriving DecidableEq

/-- The outside values of a tick which is initialised. -/
def tickFeeGrowthEntry (tick : Option TickRead) : Option (Int × Int) :=
  match tick with
  | none => none
  | some tick =>
      if tick.initialized then
        some (tick.feeGrowthOutside0X128, tick.feeGrowthOutside1X128)
      else none

structure PoolFeeGrowth where
  feeGrowthGlobal0X128 : Int
  feeGrowthGlobal1X128 : Int
  outsideByTick : Int → Option (Int × Int)

def feeGrowthInsideX128
    (tickCurrent tickLower tickUpper : Int)
    (feeGrowthGlobalX128 feeGrowthOutsideLowerX128
      feeGrowthOutsideUpperX128 : Int) : Int :=
  let below := if tickLower ≤ tickCurrent then feeGrowthOutsideLowerX128
    else wrapSub feeGrowthGlobalX128 feeGrowthOutsideLowerX128
  let above := if tickCurrent < tickUpper then feeGrowthOutsideUpperX128
    else wrapSub feeGrowthGlobalX128 feeGrowthOutsideUpperX128
  wrapSub (wrapSub feeGrowthGlobalX128 below) above

/-- A position and the pool it is in, as the valuation reads them. -/
structure FeesQuery where
  liquidity : Int
  tick : Int
  tickLower : Int
  tickUpper : Int
  feeGrowthInside0LastX128 : Int
  feeGrowthInside1LastX128 : Int
  pool : Option PoolFeeGrowth

structure UncollectedFees where
  fees0 : Int
  fees1 : Int
deriving DecidableEq

/-- The fees earned since the position's checkpoint. -/
def uncollectedFees (query : FeesQuery) : UncollectedFees :=
  let none_ : UncollectedFees := ⟨0, 0⟩
  if query.liquidity ≤ 0 then none_
  else
    match query.pool with
    | none => none_
    | some pool =>
        match pool.outsideByTick query.tickLower,
          pool.outsideByTick query.tickUpper with
        | some lower, some upper =>
            let inside0 :=
              feeGrowthInsideX128 query.tick query.tickLower query.tickUpper
                pool.feeGrowthGlobal0X128 lower.1 upper.1
            let inside1 :=
              feeGrowthInsideX128 query.tick query.tickLower query.tickUpper
                pool.feeGrowthGlobal1X128 lower.2 upper.2
            { fees0 :=
                (wrapSub inside0 query.feeGrowthInside0LastX128 *
                  query.liquidity).tdiv Q128
              fees1 := (wrapSub inside1 query.feeGrowthInside1LastX128 *
                  query.liquidity).tdiv Q128 }
        | _, _ => none_

abbrev Counters := U256 × U256

/-- A pool: its current tick, its global counters and what ticks carry. -/
abbrev Pool := Line Int Counters

def wrapped : ℕ × ℕ →+ Counters :=
  (Nat.castAddMonoidHom U256).prodMap (Nat.castAddMonoidHom U256)

abbrev PoolHistory := History Int (ℕ × ℕ) Counters

def readTick (pool : Pool) (tick : Int) : TickRead :=
  match pool.outside tick with
  | none => ⟨0, 0, false⟩
  | some carried => ⟨carried.1.toNat, carried.2.toNat, true⟩

/-- `readPoolFeeGrowth`, for the ticks which are listed. -/
def readPoolFeeGrowth (pool : Pool) (ticks : List Int) : PoolFeeGrowth where
  feeGrowthGlobal0X128 := pool.total.1.toNat
  feeGrowthGlobal1X128 := pool.total.2.toNat
  outsideByTick tick :=
    if tick ∈ ticks then tickFeeGrowthEntry (some (readTick pool tick))
    else none

/-- What a checkpoint stores of the growth in a range. -/
def checkpoint (pool : Pool) (lower upper : Int) : Counters :=
  (pool.inside lower upper).getD 0

/-- The fees of a position with a checkpoint taken earlier. -/
def feesSince
    (before after : PoolHistory) (lower upper : Int) (ticks : List Int)
    (liquidity : ℕ) : UncollectedFees :=
  uncollectedFees
    { liquidity := liquidity
      tick := after.line.marker
      tickLower := lower
      tickUpper := upper
      feeGrowthInside0LastX128 := (checkpoint before.line lower upper).1.toNat
      feeGrowthInside1LastX128 := (checkpoint before.line lower upper).2.toNat
      pool := some (readPoolFeeGrowth after.line ticks) }

theorem wrapSub_eq (a b : Int) : wrapSub a b = (a - b) % U256_MODULUS := by
  have positive : 0 < U256_MODULUS := by decide
  have lower := Int.lt_tmod_of_pos (a - b) positive
  have remainder := @Int.tmod_eq_emod (a - b) U256_MODULUS
  unfold wrapSub
  rw [Int.tmod_eq_emod_of_nonneg (by omega), Int.add_emod_right, remainder]
  split
  · simp
  · rw [Int.sub_emod]
    simp [U256_MODULUS]

theorem wrapSub_words (a b : U256) :
    wrapSub a.toNat b.toNat = ((a - b).toNat : Int) := by
  rw [wrapSub_eq, BitVec.toNat_sub]
  have fits := a.isLt
  have fits' := b.isLt
  unfold U256_MODULUS
  omega

theorem feeGrowthInsideX128_words
    (tickCurrent tickLower tickUpper : Int) (total lower upper : U256) :
    feeGrowthInsideX128 tickCurrent tickLower tickUpper total.toNat
        lower.toNat upper.toNat =
      ((total - (if tickLower ≤ tickCurrent then lower else total - lower) -
          (if tickCurrent < tickUpper then upper
            else total - upper)).toNat : Int) := by
  unfold feeGrowthInsideX128
  dsimp only
  have below : (if tickLower ≤ tickCurrent then (lower.toNat : Int)
        else wrapSub total.toNat lower.toNat) =
        ((if tickLower ≤ tickCurrent then lower
          else total - lower).toNat : Int) := by
    split
    · rfl
    · exact wrapSub_words total lower
  have above : (if tickCurrent < tickUpper then (upper.toNat : Int)
        else wrapSub total.toNat upper.toNat) =
        ((if tickCurrent < tickUpper then upper
          else total - upper).toNat : Int) := by
    split
    · rfl
    · exact wrapSub_words total upper
  rw [below, above, wrapSub_words, wrapSub_words]

/-! ## Fees since the checkpoint -/

theorem fees_of_growth
    (inside : U256) {growth liquidity : ℕ} (fits : growth < 2 ^ 256) :
    (wrapSub (inside + (growth : U256)).toNat inside.toNat *
        (liquidity : Int)).tdiv Q128 =
      ((liquidity * growth / 2 ^ 128 : ℕ) : Int) := by
  have difference : (inside + (growth : U256) - inside).toNat = growth := by
    rw [add_sub_cancel_left]
    change (BitVec.ofNat 256 growth).toNat = growth
    rw [BitVec.toNat_ofNat, Nat.mod_eq_of_lt fits]
  rw [wrapSub_words, difference, Nat.mul_comm liquidity growth,
    Int.tdiv_eq_ediv_of_nonneg
      (Int.mul_nonneg (Int.natCast_nonneg _) (Int.natCast_nonneg _))]
  push_cast
  rfl

theorem inside_components
    {line : Pool} {lower upper : Int} {told : Counters}
    (known : line.inside lower upper = some told) :
    ∃ first second : Counters,
      line.outside lower = some first ∧ line.outside upper = some second ∧
        (told.1.toNat : Int) =
          feeGrowthInsideX128 line.marker lower upper line.total.1.toNat
            first.1.toNat second.1.toNat ∧
        (told.2.toNat : Int) =
          feeGrowthInsideX128 line.marker lower upper line.total.2.toNat
            first.2.toNat second.2.toNat := by
  rcases inside_eq_some.mp known with ⟨first, second, low, high, rfl⟩
  refine ⟨first, second, low, high, ?_, ?_⟩
  · rw [feeGrowthInsideX128_words]
    unfold Line.below Line.above
    split <;> split <;> rfl
  · rw [feeGrowthInsideX128_words]
    unfold Line.below Line.above
    split <;> split <;> rfl

theorem readPoolFeeGrowth_outside
    {line : Pool} {ticks : List Int} {tick : Int} {carried : Counters}
    (listed : tick ∈ ticks) (found : line.outside tick = some carried) :
    (readPoolFeeGrowth line ticks).outsideByTick tick =
      some ((carried.1.toNat : Int), (carried.2.toNat : Int)) := by
  unfold readPoolFeeGrowth readTick tickFeeGrowthEntry
  simp [listed, found]

variable {before after : PoolHistory} {lower upper : Int}

theorem feesSince_of_inside
    {told : Counters} {growth : ℕ × ℕ}
    (start : checkpoint before.line lower upper = told)
    (inside : after.line.inside lower upper = some (told + wrapped growth))
    {ticks : List Int} (lowerListed : lower ∈ ticks)
    (upperListed : upper ∈ ticks) (liquidity : ℕ) :
    (growth.1 < 2 ^ 256 →
        (feesSince before after lower upper ticks liquidity).fees0 =
          ((liquidity * growth.1 / 2 ^ 128 : ℕ) : Int)) ∧
      (growth.2 < 2 ^ 256 →
        (feesSince before after lower upper ticks liquidity).fees1 =
          ((liquidity * growth.2 / 2 ^ 128 : ℕ) : Int)) := by
  rcases inside_components inside with
    ⟨first, second, low, high, inside0, inside1⟩
  have lowRead := readPoolFeeGrowth_outside lowerListed low
  have highRead := readPoolFeeGrowth_outside upperListed high
  unfold feesSince uncollectedFees
  dsimp only
  rw [start]
  by_cases none : (liquidity : Int) ≤ 0
  · have zero : liquidity = 0 := by omega
    rw [if_pos none, zero]
    simp
  · rw [if_neg none]
    simp only [lowRead, highRead]
    constructor
    · intro fits
      rw [← fees_of_growth told.1 fits]
      change (wrapSub (feeGrowthInsideX128 after.line.marker lower upper
        after.line.total.1.toNat first.1.toNat second.1.toNat) _ *
          _).tdiv Q128 = _
      rw [← inside0]
      rfl
    · intro fits
      rw [← fees_of_growth told.2 fits]
      change (wrapSub (feeGrowthInsideX128 after.line.marker lower upper
        after.line.total.2.toNat first.2.toNat second.2.toNat) _ *
          _).tdiv Q128 = _
      rw [← inside1]
      rfl

/--
In every history of a pool, a position whose ticks stay initialised is told
the fees on exactly what grew in its range since its checkpoint.
-/
theorem uncollectedFees_eq
    (ordered : lower < upper) (lowerSet : (before.line.outside lower).isSome)
    (upperSet : (before.line.outside upper).isSome)
    (run : (histories wrapped).Runs (Keeps lower upper) before after)
    {ticks : List Int} (lowerListed : lower ∈ ticks)
    (upperListed : upper ∈ ticks) (liquidity : ℕ) :
    let growth := after.grown lower upper - before.grown lower upper
    (growth.1 < 2 ^ 256 →
        (feesSince before after lower upper ticks liquidity).fees0 =
          ((liquidity * growth.1 / 2 ^ 128 : ℕ) : Int)) ∧
      (growth.2 < 2 ^ 256 →
        (feesSince before after lower upper ticks liquidity).fees1 =
          ((liquidity * growth.2 / 2 ^ 128 : ℕ) : Int)) := by
  rcases Option.isSome_iff_exists.mp lowerSet with ⟨first, low⟩
  rcases Option.isSome_iff_exists.mp upperSet with ⟨second, high⟩
  have known := inside_eq_some.mpr ⟨first, second, low, high, rfl⟩
  rcases inside_runs ordered run known with ⟨growth, grown, inside⟩
  have difference :
      after.grown lower upper - before.grown lower upper = growth := by
    rw [grown]
    exact Prod.ext (Nat.add_sub_cancel_left _ _) (Nat.add_sub_cancel_left _ _)
  rw [difference]
  exact feesSince_of_inside (congrArg (fun told => told.getD 0) known) inside
      lowerListed upperListed liquidity

/-- A pool whose first counter is about to wrap, with two ticks set. -/
def aboutToWrap : PoolHistory where
  line :=
    { marker := 0
      total := (BitVec.allOnes 256, 0)
      outside := fun tick =>
        if tick = -10 then some (BitVec.allOnes 256, 0)
        else if tick = 10 then some (0, 0)
        else none }
  grown _ _ := 0

def accrued (history : PoolHistory) (growth : ℕ × ℕ) : PoolHistory where
  line := { history.line with total := history.line.total + wrapped growth }
  grown lower upper := history.grown lower upper +
      if history.line.Within lower upper then growth else 0

/-- The pool after its upper tick was crossed. -/
def crossed (history : PoolHistory) : PoolHistory where
  line := { history.line with
      marker := 10
      outside := Function.update history.line.outside 10
          (some (history.line.total - (0, 0))) }
  grown := history.grown

/-- Three units grow in the range, the counter wraps, the upper tick is
crossed, and five more grow outside. -/
theorem uncollectedFees_wrapped :
    let after := accrued (crossed (accrued aboutToWrap (3 * 2 ^ 128, 0)))
        (5 * 2 ^ 128, 0)
    (after.grown (-10) 10 - aboutToWrap.grown (-10) 10).1 = 3 * 2 ^ 128 ∧
      (feesSince aboutToWrap after (-10) 10 [-10, 10] 7).fees0 =
        ((7 * (after.grown (-10) 10 - aboutToWrap.grown (-10) 10).1 /
          2 ^ 128 : ℕ) : Int) := by
  have run : (histories wrapped).Runs (Keeps (-10) 10) aboutToWrap
      (accrued (crossed (accrued aboutToWrap (3 * 2 ^ 128, 0)))
        (5 * 2 ^ 128, 0)) := by
    have clears : ∀ other : Int, other ≠ 10 →
        (accrued aboutToWrap (3 * 2 ^ 128, 0)).line.Clears 10 other := by
      intro other different present
      change other ≤ 0 ↔ other ≤ 10
      by_cases lowest : other = -10
      · omega
      · apply (present _).elim
        exact (if_neg lowest).trans (if_neg different)
    have fees : ∀ (history : PoolHistory) (growth : ℕ × ℕ),
        (histories wrapped).Runs (Keeps (-10) 10) history
          (accrued history growth) := by
      intro history growth
      exact @System.Runs.single _ _ _ _ _ _ (Event.accrue growth) trivial
        (Step.accrue history growth)
    have crossing : (histories wrapped).Runs (Keeps (-10) 10)
          (accrued aboutToWrap (3 * 2 ^ 128, 0))
          (crossed (accrued aboutToWrap (3 * 2 ^ 128, 0))) :=
      @System.Runs.single _ _ _ _ _ _ (Event.cross 10 10) trivial
        (Step.cross _ rfl (by decide) clears)
    exact ((fees _ _).trans crossing).trans (fees _ _)
  exact
    ⟨by decide,
      (uncollectedFees_eq (by decide) (by decide) (by decide) run
        (by decide) (by decide) 7).1 (by decide)⟩

end Eris.Uniswap.FeeGrowth
