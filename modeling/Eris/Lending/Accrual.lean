import Eris.Lending.Contract

/-!
# Share conversions and the accrual of interest

The two sides of a market are pools in the sense of the share-pool library,
once the virtual assets and shares are counted in.  This module states what
each conversion and the accrual return in terms of natural numbers, and that
the accrual which writes the market and the one the views perform agree.
-/

namespace Eris.Lending.Accrual

open Foundation Foundation.Checked Foundation.SharePool Evm.Word Evm.Erc20 Data
  Contract

/-- The supply side with the virtual asset and the virtual shares. -/
def supplyPool (m : Market) : Pool :=
  ⟨m.totalSupplyAssets.toNat + 1, m.totalSupplyShares.toNat + 1000000⟩

/-- The borrow side with the virtual asset and the virtual shares. -/
def borrowPool (m : Market) : Pool :=
  ⟨m.totalBorrowAssets.toNat + 1, m.totalBorrowShares.toNat + 1000000⟩

@[simp]
theorem borrowPool_assets (m : Market) :
    (borrowPool m).assets = m.totalBorrowAssets.toNat + 1 :=
  rfl

@[simp]
theorem borrowPool_shares (m : Market) :
    (borrowPool m).shares = m.totalBorrowShares.toNat + 1000000 :=
  rfl

variable {assets : U256} {total : U128} {ctx : Context} {params : MarketParams}
    {before after : Market}

theorem toSharesDown_eq_ok
    {shares : U128} {result : U256} :
    toSharesDown assets (widen total) (widen shares) = .ok result ↔
      assets.toNat * (shares.toNat + 1000000) < 2 ^ 256 ∧ result.toNat =
          mulDivFloor assets.toNat (shares.toNat + 1000000)
            (total.toNat + 1) := by
  have one : VIRTUAL_ASSETS.toNat = 1 := rfl
  have offset : VIRTUAL_SHARES.toNat = 1000000 := rfl
  simp only [toSharesDown, bind_eq_ok, checkedAdd_eq_ok, mulDivDown_eq_ok,
    toNat_widen, one, offset]
  constructor
  · rintro ⟨shared, sharedEq, pooled, pooledEq, fits, _, exact⟩
    rw [sharedEq, pooledEq]
    exact ⟨fits, exact⟩
  · rintro ⟨fits, exact⟩
    have sharesBound := shares.isLt
    have totalBound := total.isLt
    rcases exists_toNat_eq (show shares.toNat + 1000000 < 2 ^ 256 by omega) with
      ⟨shared, sharedEq⟩
    rcases exists_toNat_eq (show total.toNat + 1 < 2 ^ 256 by omega) with
      ⟨pooled, pooledEq⟩
    refine ⟨shared, sharedEq.symm, pooled, pooledEq.symm, ?_, ?_, ?_⟩
    · rw [sharedEq]
      exact fits
    · omega
    · rw [sharedEq, pooledEq]
      exact exact

theorem toSharesDown_ok
    {result : U256} {shares : U128}
    (done : toSharesDown assets (widen total) (widen shares) = .ok result) :
    result.toNat = mulDivFloor assets.toNat (shares.toNat + 1000000)
        (total.toNat + 1) :=
  (toSharesDown_eq_ok.mp done).2

theorem toSharesUp_ok
    {result : U256} {shares : U128}
    (done : toSharesUp assets (widen total) (widen shares) = .ok result) :
    result.toNat = mulDivCeil assets.toNat (shares.toNat + 1000000)
        (total.toNat + 1) := by
  simp only [toSharesUp, bind_eq_ok, checkedAdd_eq_ok, mulDivUp_eq_ok,
    toNat_widen] at done
  rcases done with ⟨divided, dividedEq, pooled, pooledEq, _, _, exact⟩
  rw [exact, ← dividedEq, ← pooledEq]
  rfl

theorem toAssetsDown_ok
    {shares result : U256} {divided : U128}
    (done : toAssetsDown shares (widen total) (widen divided) = .ok result) :
    result.toNat = mulDivFloor shares.toNat (total.toNat + 1)
        (divided.toNat + 1000000) := by
  simp only [toAssetsDown, bind_eq_ok, checkedAdd_eq_ok, mulDivDown_eq_ok,
    toNat_widen] at done
  rcases done with ⟨pooled, pooledEq, shared, sharedEq, _, _, exact⟩
  rw [exact, ← sharedEq, ← pooledEq]
  rfl

theorem toAssetsUp_eq_ok
    {shares totalAssets result : U256} {divided : U128} :
    toAssetsUp shares totalAssets (widen divided) = .ok result ↔
      totalAssets.toNat + 1 < 2 ^ 256 ∧
      shares.toNat * (totalAssets.toNat + 1) +
          (divided.toNat + 1000000 - 1) < 2 ^ 256 ∧
        result.toNat = mulDivCeil shares.toNat (totalAssets.toNat + 1)
            (divided.toNat + 1000000) := by
  have one : VIRTUAL_ASSETS.toNat = 1 := rfl
  have offset : VIRTUAL_SHARES.toNat = 1000000 := rfl
  simp only [toAssetsUp, bind_eq_ok, checkedAdd_eq_ok, mulDivUp_eq_ok,
    toNat_widen, one, offset]
  constructor
  · rintro ⟨pooled, pooledEq, shared, sharedEq, fits, _, exact⟩
    rw [pooledEq, sharedEq]
    exact ⟨pooled.isLt, fits, exact⟩
  · rintro ⟨pooledFits, fits, exact⟩
    rcases exists_toNat_eq pooledFits with ⟨pooled, pooledEq⟩
    have dividedFits : divided.toNat + 1000000 < 2 ^ 256 := by
      have bound := divided.isLt
      omega
    rcases exists_toNat_eq dividedFits with ⟨shared, sharedEq⟩
    refine ⟨pooled, pooledEq.symm, shared, sharedEq.symm, ?_, ?_, ?_⟩
    · rw [pooledEq, sharedEq]
      exact fits
    · omega
    · rw [pooledEq, sharedEq]
      exact exact

@[simp]
theorem toNat_clampedSub (total part : U128) :
    (clampedSub total part).toNat = total.toNat - part.toNat := by
  unfold clampedSub
  split
  · next less =>
      rw [BitVec.toNat_sub_of_le (BitVec.le_of_lt less)]
  · next notLess =>
      have covered : total.toNat ≤ part.toNat :=
        Nat.le_of_not_lt fun less => notLess (BitVec.lt_def.mpr less)
      rw [Nat.sub_eq_zero_of_le covered]
      rfl

/--
`after` is the market `before` with the interest up to this block added.  The
read-only accrual of the views computes the same interest, before the cast
to 128 bits.
-/
structure Settled
    (ctx : Context) (params : MarketParams) (before after : Market) :
    Prop where
  created : before.lastUpdate ≠ 0
  clock : widen after.lastUpdate = ctx.now
  supplyShares : after.totalSupplyShares = before.totalSupplyShares
  borrowShares : after.totalBorrowShares = before.totalBorrowShares
  collateral : after.totalCollateralAssets = before.totalCollateralAssets
  interest : ∃ interest : U256, ∃ totals : U256 × U256,
    accruedTotals ctx before params = .ok totals ∧
    totals.1.toNat = before.totalSupplyAssets.toNat + interest.toNat ∧
    totals.2.toNat = before.totalBorrowAssets.toNat + interest.toNat ∧
    after.totalSupplyAssets.toNat =
      before.totalSupplyAssets.toNat + interest.toNat % 2 ^ 128 ∧
    after.totalBorrowAssets.toNat =
      before.totalBorrowAssets.toNat + interest.toNat % 2 ^ 128

theorem widen_eq_zero_iff (value : U128) :
    widen value = 0 ↔ value = 0 := by
  rw [← BitVec.toNat_inj, ← BitVec.toNat_inj, toNat_widen]
  rfl

theorem widen_narrow_now (ctx : Context) :
    widen (narrow ctx.now) = ctx.now := by
  rw [← BitVec.toNat_inj, toNat_widen, toNat_narrow]
  refine Nat.mod_eq_of_lt ?_
  have bound : ctx.now.toNat < 2 ^ 64 := by
    rw [Context.now, BitVec.toNat_setWidth]
    exact lt_of_le_of_lt (Nat.mod_le _ _) ctx.timestamp.isLt
  omega

theorem accruedTotals_of_still
    {ctx : Context} {params : MarketParams} {m : Market}
    (still : m.lastUpdate = 0 ∨ m.totalBorrowAssets = 0 ∨
        widen m.lastUpdate = ctx.now) :
    accruedTotals ctx m params =
      .ok (widen m.totalSupplyAssets, widen m.totalBorrowAssets) := by
  simp only [accruedTotals, widen_eq_zero_iff]
  split
  · rfl
  · next active =>
      have settled : widen m.lastUpdate = ctx.now := by tauto
      have elapsed :
          (checkedSub ctx.now (widen m.lastUpdate) : Result U256) = .ok 0 := by
        rw [checkedSub_eq_ok, settled]
        simp
      rw [elapsed, ok_bind, if_pos rfl]
      rfl

theorem interest_fits
    {scaled interest : U256}
    (computed : (mulDivDown (widen total) scaled WAD : Result U256) =
      .ok interest)
    (assets : U128) :
    assets.toNat + interest.toNat < 2 ^ 256 := by
  rw [mulDivDown_eq_ok] at computed
  rcases computed with ⟨fits, _, exact⟩
  have wad : WAD.toNat = 1000000000000000000 := rfl
  have bound := assets.isLt
  rw [mulDivFloor, wad] at exact
  omega

theorem Settled.of_no_interest
    {m : Market} {clock : U128} (created : m.lastUpdate ≠ 0)
    (moved : widen clock = ctx.now)
    (view : accruedTotals ctx m params =
      .ok (widen m.totalSupplyAssets, widen m.totalBorrowAssets)) :
    Settled ctx params m { m with lastUpdate := clock } where
  created := created
  clock := moved
  supplyShares := rfl
  borrowShares := rfl
  collateral := rfl
  interest := ⟨0, _, view, by simp, by simp, by simp, by simp⟩

theorem Settled.of_interest
    {interest : U256} {totals : U256 × U256} (created : before.lastUpdate ≠ 0)
    (view : accruedTotals ctx before params = .ok totals)
    (viewSupply :
      totals.1.toNat = before.totalSupplyAssets.toNat + interest.toNat)
    (viewBorrow :
      totals.2.toNat = before.totalBorrowAssets.toNat + interest.toNat)
    {borrowAssets supplyAssets : U128}
    (borrowOk : before.totalBorrowAssets.toNat + (narrow interest).toNat =
        borrowAssets.toNat)
    (supplyOk : before.totalSupplyAssets.toNat + (narrow interest).toNat =
        supplyAssets.toNat)
    (equal : after = { before with
          lastUpdate := narrow ctx.now
          totalBorrowAssets := borrowAssets
          totalSupplyAssets := supplyAssets }) :
    Settled ctx params before after := by
  subst after
  rw [toNat_narrow] at borrowOk supplyOk
  exact
    { created := created
      clock := widen_narrow_now ctx
      supplyShares := rfl
      borrowShares := rfl
      collateral := rfl
      interest :=
        ⟨interest, totals, view, viewSupply, viewBorrow, supplyOk.symm,
          borrowOk.symm⟩ }

theorem accruedTotals_of_active
    {m : Market} {elapsed : U256} (created : m.lastUpdate ≠ 0)
    (debt : m.totalBorrowAssets ≠ 0)
    (elapsedOk :
      (checkedSub ctx.now (widen m.lastUpdate) : Result U256) = .ok elapsed)
    (someTime : elapsed ≠ 0) :
    accruedTotals ctx m params = (let supplyAssets := widen m.totalSupplyAssets
       let borrowAssets := widen m.totalBorrowAssets
       let rate := borrowRate ctx params supplyAssets borrowAssets
       if rate = 0 then pure (supplyAssets, borrowAssets)
       else do
         let scaled ← checkedMul rate elapsed
         let interest ← mulDivDown borrowAssets scaled WAD
         let supplyAssets ← checkedAdd supplyAssets interest
         let borrowAssets ← checkedAdd borrowAssets interest
         pure (supplyAssets, borrowAssets)) := by
  simp only [accruedTotals, widen_eq_zero_iff]
  rw [if_neg (not_or.mpr ⟨created, debt⟩), elapsedOk, ok_bind, if_neg someTime]

theorem accrueMarket_ok
    (done : accrueMarket ctx params before = .ok after) :
    Settled ctx params before after := by
  simp only [accrueMarket, bind_eq_ok, require_eq_ok] at done
  rcases done with ⟨_, created, elapsed, elapsedOk, done⟩
  have clock := widen_narrow_now ctx
  split at done
  · next noTime =>
      have still : widen before.lastUpdate = ctx.now := by
        have elapsedEq := checkedSub_eq_ok.mp elapsedOk
        rw [← BitVec.toNat_inj, ← elapsedEq, noTime]
        simp
      rw [← pure_eq_ok.mp done]
      exact Settled.of_no_interest created still
        (accruedTotals_of_still (.inr (.inr still)))
  · next someTime =>
      split at done
      · next noDebt =>
          rw [← pure_eq_ok.mp done]
          exact Settled.of_no_interest created clock
            (accruedTotals_of_still (.inr (.inl noDebt)))
      · next debt =>
          have view : accruedTotals ctx before params = _ :=
            accruedTotals_of_active created debt elapsedOk someTime
          dsimp only at view
          split at done
          · next noRate =>
              rw [if_pos noRate] at view
              rw [← pure_eq_ok.mp done]
              exact Settled.of_no_interest created clock view
          · next rate =>
              simp only [bind_eq_ok] at done
              rcases done with ⟨scaled, scaledOk, interest, interestOk, done⟩
              rcases exists_toNat_eq
                (interest_fits interestOk before.totalSupplyAssets) with
                ⟨supplyAssets, supplyEq⟩
              rcases exists_toNat_eq
                (interest_fits interestOk before.totalBorrowAssets) with
                ⟨borrowAssets, borrowEq⟩
              have supplyOk :
                  (checkedAdd (widen before.totalSupplyAssets) interest :
                    Result U256) = .ok supplyAssets := by
                rw [checkedAdd_eq_ok, toNat_widen, supplyEq]
              have borrowOk :
                  (checkedAdd (widen before.totalBorrowAssets) interest :
                    Result U256) = .ok borrowAssets := by
                rw [checkedAdd_eq_ok, toNat_widen, borrowEq]
              rw [if_neg rate, scaledOk, ok_bind, interestOk, ok_bind,
                supplyOk, ok_bind, borrowOk, ok_bind] at view
              split at done
              · next nothing =>
                  rw [← pure_eq_ok.mp done]
                  refine Settled.of_no_interest created clock ?_
                  rw [view]
                  rw [nothing] at supplyEq borrowEq
                  congr 2 <;> rw [← BitVec.toNat_inj, toNat_widen]
                  · exact supplyEq
                  · exact borrowEq
              · next =>
                  simp only [bind_eq_ok, checkedAdd_eq_ok] at done
                  rcases done with
                    ⟨borrowTotal, borrowSum, supplyTotal, supplySum, done⟩
                  exact Settled.of_interest created view supplyEq borrowEq
                    borrowSum supplySum (pure_eq_ok.mp done).symm

theorem accrue_ok
    {d : Deployment} {s : Storage} {result : Bytes32 × Storage}
    (done : accrue d ctx params s = .ok result) :
    ∃ m, result = (d.idOf params, s.setMarket (d.idOf params) m) ∧
      accrueMarket ctx params (s.market (d.idOf params)) = .ok m := by
  simp only [accrue, bind_eq_ok, pure_eq_ok] at done
  rcases done with ⟨m, accrued, equal⟩
  exact ⟨m, equal.symm, accrued⟩

/-- Shares and collateral stay, and both asset totals gain the same interest. -/
structure Grown (before after : Market) : Prop where
  supplyShares : after.totalSupplyShares = before.totalSupplyShares
  borrowShares : after.totalBorrowShares = before.totalBorrowShares
  collateral : after.totalCollateralAssets = before.totalCollateralAssets
  interest : ∃ interest : Nat,
    after.totalSupplyAssets.toNat = before.totalSupplyAssets.toNat + interest ∧
    after.totalBorrowAssets.toNat = before.totalBorrowAssets.toNat + interest

@[refl]
theorem Grown.refl (m : Market) : Grown m m := ⟨rfl, rfl, rfl, 0, rfl, rfl⟩

theorem Settled.grown
    (settled : Settled ctx params before after) :
    Grown before after := by
  rcases settled.interest with ⟨interest, _, _, _, _, supply, borrow⟩
  exact ⟨settled.supplyShares, settled.borrowShares, settled.collateral,
    interest.toNat % 2 ^ 128, supply, borrow⟩

theorem Settled.borrow_le_view
    (settled : Settled ctx params before after) :
    ∃ totals, accruedTotals ctx before params = .ok totals ∧
      after.totalBorrowAssets.toNat ≤ totals.2.toNat := by
  rcases settled.interest with
    ⟨interest, totals, view, _, viewBorrow, _, borrow⟩
  refine ⟨totals, view, ?_⟩
  rw [viewBorrow, borrow]
  exact Nat.add_le_add_left (Nat.mod_le _ _) _

end Eris.Lending.Accrual
