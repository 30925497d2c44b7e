import Eris.Lending.Protocol

/-!
# How each operation moves the two share prices

Every conversion is rounded against the caller.  On the supply side the price
of a share therefore never falls, unless bad debt is written off; on the
borrow side it never rises, unless a repayment is clamped and no borrowed
assets are left at all.  Both drifts are bounded: one operation leaves behind
less than one share or one asset, whichever is worth more.

Share amounts of `2 ^ 128` and more would be cut off in the totals; such
operations are excluded by a condition on the event they emit.
-/

namespace Eris.Lending.SharePrice

open Foundation Foundation.SharePool Evm.Word Data Contract Accrual Execution
  Protocol

/--
The share amount a call computed on its settled market `m` survives the cast
to 128 bits.  A liquidation does not report its shares, which are those of
the repaid assets.
-/
def Event.SharesFit (m : Market) : Event → Prop
  | .supply _ _ _ shares => shares.toNat < 2 ^ 128
  | .withdraw _ _ _ shares => shares.toNat < 2 ^ 128
  | .borrow _ _ _ shares => shares.toNat < 2 ^ 128
  | .repay _ _ _ shares => shares.toNat < 2 ^ 128
  | .liquidate _ _ _ repaidAssets _ _ =>
      mulDivFloor repaidAssets.toNat (borrowPool m).shares
        (borrowPool m).assets < 2 ^ 128
  | _ => True

instance (m : Market) (event : Event) : Decidable (Event.SharesFit m event) :=
  match event with
  | .supply .. | .withdraw .. | .borrow .. | .repay .. | .liquidate .. =>
      Nat.decLt _ _
  | .createMarket .. | .supplyCollateral .. | .withdrawCollateral .. =>
      .isTrue trivial

variable {ctx : Context} {id : Bytes32} {m m' : Market} {p p' : Position}
    {call : Call} {event : Event} {flow : Flow} {badDebt unit : Nat}
    {assets shares : Nat}

theorem pool_entered
    {smallAssets largeAssets smallShares largeShares : U128}
    (assetsEq : smallAssets.toNat + assets = largeAssets.toNat)
    (sharesEq : smallShares.toNat + shares = largeShares.toNat) :
    Entered ⟨smallAssets.toNat + 1, smallShares.toNat + 1000000⟩
      ⟨largeAssets.toNat + 1, largeShares.toNat + 1000000⟩
      assets shares where
  assets := by
    dsimp only
    rw [← assetsEq, Nat.add_right_comm]
  shares := by
    dsimp only
    rw [← sharesEq, Nat.add_right_comm]

theorem supplyPool_divided (m : Market) : 0 < (supplyPool m).shares :=
  Nat.succ_pos _

theorem supplyPool_priced (m : Market) : 0 < (supplyPool m).assets :=
  Nat.succ_pos _

theorem supplyPrice_of_grown (grown : Grown m m') :
    PriceLe (supplyPool m) (supplyPool m') := by
  rcases grown.interest with ⟨interest, supply, _⟩
  rw [supplyPool, supplyPool, grown.supplyShares, supply]
  apply PriceLe.of_assets_le
  exact Nat.add_le_add_right (Nat.le_add_right _ _) 1

theorem noBadDebt_of_event
    {liquidator borrower : Address}
    {repaidAssets seizedAssets badDebtAssets : U256}
    (noBadDebt :
      ¬ (Event.liquidate id liquidator borrower repaidAssets seizedAssets
        badDebtAssets).realizesBadDebt) :
    badDebtAssets.toNat = 0 := by
  rw [Event.realizesBadDebt, ne_eq, not_not] at noBadDebt
  rw [noBadDebt]
  rfl

theorem supplyPool_of_writeOff
    (writtenOff : WriteOff m p badDebt m' p') (noBadDebt : badDebt = 0) :
    supplyPool m' = supplyPool m := by
  cases writtenOff with
  | none => rfl
  | all _ _ _ _ _ supplyEq =>
      rw [noBadDebt, Nat.add_zero] at supplyEq
      simp only [supplyPool, supplyEq]

theorem supplyPrice_of_ledger
    (ledger : LedgerStep ctx id m p call event m' p' flow)
    (fit : Event.SharesFit m event) (noBadDebt : ¬ event.realizesBadDebt) :
    PriceLe (supplyPool m) (supplyPool m') := by
  cases ledger with
  | supply _ _ sharesEq _ totalSharesEq totalAssetsEq =>
      rw [Nat.mod_eq_of_lt fit] at totalSharesEq
      apply (pool_entered totalAssetsEq totalSharesEq).priceLe_iff.mpr
      rw [sharesEq]
      exact mulDivFloor_mul_le
  | withdraw _ _ sharesEq _ totalSharesEq totalAssetsEq =>
      rw [Nat.mod_eq_of_lt fit] at totalSharesEq
      apply (pool_entered totalAssetsEq totalSharesEq).leave_priceLe_iff.mpr
      rw [sharesEq]
      exact le_mulDivCeil_mul (supplyPool_priced m)
  | withdrawAll _ _ assetsEq totalSharesEq totalAssetsEq =>
      rw [Nat.mod_eq_of_lt fit] at totalSharesEq
      apply (pool_entered totalAssetsEq totalSharesEq).leave_priceLe_iff.mpr
      rw [assetsEq]
      exact mulDivFloor_mul_le
  | supplyCollateral => exact Nat.le_refl _
  | withdrawCollateral => exact Nat.le_refl _
  | borrow => exact Nat.le_refl _
  | repay => exact Nat.le_refl _
  | repayAll => exact Nat.le_refl _
  | liquidate _ _ _ _ _ _ _ _ _ _ writtenOff =>
      rw [supplyPool_of_writeOff writtenOff (noBadDebt_of_event noBadDebt)]
      exact Nat.le_refl _

theorem supplyPrice_risesWithin
    (ledger : LedgerStep ctx id m p call event m' p' flow)
    (fit : Event.SharesFit m event) (noBadDebt : ¬ event.realizesBadDebt)
    (positive : 0 < unit)
    (priced : (supplyPool m).assets ≤ unit * (supplyPool m).shares) :
    RisesWithin unit (supplyPool m) (supplyPool m') := by
  cases ledger with
  | supply _ _ sharesEq _ totalSharesEq totalAssetsEq =>
      rw [Nat.mod_eq_of_lt fit] at totalSharesEq
      apply (pool_entered totalAssetsEq totalSharesEq).risesWithin_iff.mpr
      rw [sharesEq]
      exact le_trans (lt_mulDivFloor_mul (supplyPool_priced m)).le
        (Nat.add_le_add_left priced _)
  | withdraw _ _ sharesEq _ totalSharesEq totalAssetsEq =>
      rw [Nat.mod_eq_of_lt fit] at totalSharesEq
      apply (pool_entered totalAssetsEq totalSharesEq).leave_risesWithin_iff.mpr
      rw [sharesEq]
      exact le_trans (mulDivCeil_mul_lt (supplyPool_priced m)).le
        (Nat.add_le_add_left priced _)
  | withdrawAll _ _ assetsEq totalSharesEq totalAssetsEq =>
      rw [Nat.mod_eq_of_lt fit] at totalSharesEq
      apply (pool_entered totalAssetsEq totalSharesEq).leave_risesWithin_iff.mpr
      rw [assetsEq]
      exact le_trans (lt_mulDivFloor_mul (supplyPool_divided m)).le
        (Nat.add_le_add_left (Nat.le_mul_of_pos_left _ positive) _)
  | supplyCollateral => exact Nat.le_add_right _ _
  | withdrawCollateral => exact Nat.le_add_right _ _
  | borrow => exact Nat.le_add_right _ _
  | repay => exact Nat.le_add_right _ _
  | repayAll => exact Nat.le_add_right _ _
  | liquidate _ _ _ _ _ _ _ _ _ _ writtenOff =>
      rw [supplyPool_of_writeOff writtenOff (noBadDebt_of_event noBadDebt)]
      exact Nat.le_add_right _ _

theorem borrowPool_divided (m : Market) : 0 < (borrowPool m).shares :=
  Nat.succ_pos _

theorem borrowPool_priced (m : Market) : 0 < (borrowPool m).assets :=
  Nat.succ_pos _

/-- The price of a debt did not rise, or no lent assets are left. -/
def DebtEases (m m' : Market) : Prop :=
  PriceLe (borrowPool m') (borrowPool m) ∨ m'.totalBorrowAssets.toNat = 0

theorem DebtEases.refl (m : Market) : DebtEases m m := .inl (Nat.le_refl _)

theorem DebtEases.trans
    {middle : Market}
    (first : DebtEases m middle) (second : DebtEases middle m')
    (emptied :
      middle.totalBorrowAssets.toNat = 0 → m'.totalBorrowAssets.toNat = 0) :
    DebtEases m m' := by
  rcases second with cheaper | empty
  · rcases first with earlier | empty
    · exact .inl (cheaper.trans (borrowPool_divided _) earlier)
    · exact .inr (emptied empty)
  · exact .inr empty

theorem DebtEases.of_paid
    (assetsEq : m'.totalBorrowAssets.toNat = m.totalBorrowAssets.toNat - assets)
    (sharesEq : m'.totalBorrowShares.toNat + shares = m.totalBorrowShares.toNat)
    (fair : shares * (borrowPool m).assets ≤ assets * (borrowPool m).shares) :
    DebtEases m m' := by
  by_cases paidUp : m.totalBorrowAssets.toNat ≤ assets
  · right
    rw [assetsEq, Nat.sub_eq_zero_of_le paidUp]
  · left
    have whole :
        m'.totalBorrowAssets.toNat + assets = m.totalBorrowAssets.toNat := by
      rw [assetsEq, Nat.sub_add_cancel (Nat.le_of_not_le paidUp)]
    exact (pool_entered whole sharesEq).leave_priceGe_iff.mpr fair

theorem DebtEases.of_writeOff
    (writtenOff : WriteOff m p badDebt m' p')
    (covered : m.totalBorrowAssets.toNat ≤ m.totalSupplyAssets.toNat) :
    DebtEases m m' := by
  cases writtenOff with
  | none => exact DebtEases.refl m
  | all _ _ badDebtEq sharesEq borrowEq =>
      rcases le_total m.totalSupplyAssets.toNat
        ((borrowPool m).worthUp p.borrowShares.toNat) with all | some
      · right
        rw [min_eq_left all] at badDebtEq
        rw [borrowEq, badDebtEq]
        exact Nat.sub_eq_zero_of_le covered
      · rw [min_eq_right some] at badDebtEq
        apply DebtEases.of_paid borrowEq sharesEq
        rw [badDebtEq]
        exact le_mulDivCeil_mul (borrowPool_divided m)

theorem writeOff_borrowAssets_le
    (writtenOff : WriteOff m p badDebt m' p') :
    m'.totalBorrowAssets.toNat ≤ m.totalBorrowAssets.toNat ∧
      m.totalBorrowAssets.toNat ≤ m'.totalBorrowAssets.toNat + badDebt ∧
      m'.totalBorrowShares.toNat ≤ m.totalBorrowShares.toNat := by
  cases writtenOff with
  | none => exact ⟨le_refl _, Nat.le_add_right _ _, le_refl _⟩
  | all _ _ _ sharesEq borrowEq =>
      refine ⟨?_, ?_, Nat.le.intro sharesEq⟩
      · rw [borrowEq]
        exact Nat.sub_le _ _
      · rw [borrowEq]
        exact Nat.sub_le_iff_le_add.mp (le_refl _)

theorem repay_fair
    {asked owed : Nat}
    (sharesEq : shares = min owed
        (mulDivFloor asked (borrowPool m).shares (borrowPool m).assets))
    (assetsEq : assets = min asked ((borrowPool m).worthUp shares)) :
    shares * (borrowPool m).assets ≤ assets * (borrowPool m).shares := by
  rcases le_total asked ((borrowPool m).worthUp shares) with less | more
  · rw [assetsEq, min_eq_left less]
    refine le_trans (Nat.mul_le_mul_right _ ?_) mulDivFloor_mul_le
    rw [sharesEq]
    exact min_le_right _ _
  · rw [assetsEq, min_eq_right more]
    exact le_mulDivCeil_mul (borrowPool_divided m)

theorem borrowPrice_of_ledger
    (ledger : LedgerStep ctx id m p call event m' p' flow)
    (fit : Event.SharesFit m event)
    (covered : m.totalBorrowAssets.toNat ≤ m.totalSupplyAssets.toNat) :
    DebtEases m m' := by
  cases ledger with
  | supply => exact .inl (Nat.le_refl _)
  | withdraw => exact .inl (Nat.le_refl _)
  | withdrawAll => exact .inl (Nat.le_refl _)
  | supplyCollateral => exact .inl (Nat.le_refl _)
  | withdrawCollateral => exact .inl (Nat.le_refl _)
  | borrow _ _ sharesEq _ totalSharesEq totalAssetsEq =>
      rw [Nat.mod_eq_of_lt fit] at totalSharesEq
      left
      apply (pool_entered totalAssetsEq totalSharesEq).priceGe_iff.mpr
      rw [sharesEq]
      exact le_mulDivCeil_mul (borrowPool_priced m)
  | repay _ _ sharesEq assetsEq _ totalSharesEq totalAssetsEq =>
      exact DebtEases.of_paid totalAssetsEq totalSharesEq
        (repay_fair sharesEq assetsEq)
  | repayAll _ _ assetsEq totalSharesEq totalAssetsEq =>
      apply DebtEases.of_paid totalAssetsEq totalSharesEq
      rw [assetsEq]
      exact le_mulDivCeil_mul (borrowPool_divided m)
  | liquidate _ _ _ _ sharesEq _ totalSharesEq totalAssetsEq _ _ writtenOff =>
      refine DebtEases.trans (DebtEases.of_paid totalAssetsEq totalSharesEq ?_)
        (DebtEases.of_writeOff writtenOff ?_) ?_
      · refine le_trans (Nat.mul_le_mul_right _ (Nat.mod_le _ _)) ?_
        rw [sharesEq]
        exact mulDivFloor_mul_le
      · dsimp only
        rw [totalAssetsEq]
        exact le_trans (Nat.sub_le _ _) covered
      · intro empty
        have fewer := (writeOff_borrowAssets_le writtenOff).1
        rw [empty] at fewer
        exact Nat.le_zero.mp fewer

theorem fallsWithin_of_paid
    (clamped : m.totalBorrowAssets.toNat ≤ m'.totalBorrowAssets.toNat + assets)
    (burned : m'.totalBorrowShares.toNat + shares ≤ m.totalBorrowShares.toNat)
    (fair : assets * (borrowPool m).shares ≤
        shares * (borrowPool m).assets + unit * (borrowPool m).shares) :
    FallsWithin unit (borrowPool m) (borrowPool m') := by
  refine fallsWithin_of_leave ?_ ?_ fair
  · rw [borrowPool_assets, borrowPool_assets, Nat.add_right_comm]
    exact Nat.add_le_add_right clamped 1
  · rw [borrowPool_shares, borrowPool_shares, Nat.add_right_comm]
    exact Nat.add_le_add_right burned 1000000

theorem borrowPrice_fallsWithin
    (ledger : LedgerStep ctx id m p call event m' p' flow)
    (fit : Event.SharesFit m event) (noBadDebt : ¬ event.realizesBadDebt)
    (positive : 0 < unit)
    (priced : (borrowPool m).assets ≤ unit * (borrowPool m).shares) :
    FallsWithin unit (borrowPool m) (borrowPool m') := by
  have wholeUnit : (borrowPool m).shares ≤ unit * (borrowPool m).shares :=
    Nat.le_mul_of_pos_left _ positive
  cases ledger with
  | supply => exact Nat.le_add_right _ _
  | withdraw => exact Nat.le_add_right _ _
  | withdrawAll => exact Nat.le_add_right _ _
  | supplyCollateral => exact Nat.le_add_right _ _
  | withdrawCollateral => exact Nat.le_add_right _ _
  | borrow _ _ sharesEq _ totalSharesEq totalAssetsEq =>
      rw [Nat.mod_eq_of_lt fit] at totalSharesEq
      apply (pool_entered totalAssetsEq totalSharesEq).fallsWithin_iff.mpr
      rw [sharesEq]
      exact le_trans (mulDivCeil_mul_lt (borrowPool_priced m)).le
        (Nat.add_le_add_left priced _)
  | repay _ _ _ assetsEq _ totalSharesEq totalAssetsEq =>
      apply fallsWithin_of_paid (Nat.sub_le_iff_le_add.mp totalAssetsEq.ge)
        totalSharesEq.le
      have paid_le := Nat.mul_le_mul_right (borrowPool m).shares
        (assetsEq.trans_le (min_le_right _ _))
      exact le_trans paid_le
        (le_trans (mulDivCeil_mul_lt (borrowPool_divided m)).le
          (Nat.add_le_add_left wholeUnit _))
  | repayAll _ _ assetsEq totalSharesEq totalAssetsEq =>
      apply fallsWithin_of_paid (Nat.sub_le_iff_le_add.mp totalAssetsEq.ge)
        totalSharesEq.le
      rw [assetsEq]
      exact le_trans (mulDivCeil_mul_lt (borrowPool_divided m)).le
        (Nat.add_le_add_left wholeUnit _)
  | liquidate _ _ _ _ sharesEq _ totalSharesEq totalAssetsEq _ _ writtenOff =>
      rw [Event.SharesFit, ← sharesEq] at fit
      rw [Nat.mod_eq_of_lt fit, sharesEq] at totalSharesEq
      rcases writeOff_borrowAssets_le writtenOff with ⟨_, left, fewer⟩
      rw [noBadDebt_of_event noBadDebt, Nat.add_zero] at left
      apply fallsWithin_of_paid
        (le_trans (Nat.sub_le_iff_le_add.mp totalAssetsEq.ge)
          (Nat.add_le_add_right left _))
        (le_trans (Nat.add_le_add_right fewer _) totalSharesEq.le)
      exact le_trans (lt_mulDivFloor_mul (borrowPool_priced m)).le
        (Nat.add_le_add_left priced _)

/-- The share amounts of a call fit, on the market as its accrual leaves it. -/
def SharesFit (d : Deployment) (w : World) : Action → Prop
  | .call ctx call event =>
      ∀ m, accrueMarket ctx call.params
          (w.lending.market (d.idOf call.params)) = .ok m →
        Event.SharesFit m event
  | .token _ _ _ => True

instance (d : Deployment) (w : World) (action : Action) :
    Decidable (SharesFit d w action) :=
  match action with
  | .token _ _ _ => .isTrue trivial
  | .call _ _ _ => Checked.decidableOfOk _ _

theorem sharesFit_of_executed
    {d : Deployment} {w w' : World}
    (executed : Executed d ctx call event w w' m m' p' flow)
    (fit : SharesFit d w (.call ctx call event)) :
    Event.SharesFit m event := by
  have accrued := executed.accrued
  cases accrues : Call.accrues call with
  | true =>
      rw [if_pos accrues] at accrued
      exact fit m accrued
  | false =>
      have ledger := executed.ledger
      cases ledger with
      | supplyCollateral => exact trivial
      | _ => cases accrues

end Eris.Lending.SharePrice
