import Eris.Lending.LedgerSums
import Eris.Lending.SharePrice
import Eris.Lending.Solvency

/-!
# Nobody else can worsen a debt

A position which a call does not write keeps its borrow shares, so what it
owes moves with the price of a borrow share only.  No operation makes that
price rise except a clamped repayment, which leaves no lent assets at all;
then every remaining debt is worth a single asset at most, and was worth at
least one before.

The comparison uses the views of the contract, in one block and with the same
answers of the interest-rate contract; the health check asks the oracle again
and gets the same answer.
-/

namespace Eris.Lending.DebtSafety

open Foundation Foundation.Checked Foundation.SharePool Evm.Word Data Contract
  Accrual Execution Protocol LedgerSums Solvency SharePrice

/-! ## What a position owes -/

/-- The debt the views compute for some borrow shares of a market. -/
def debtOf
    (view : Context) (params : MarketParams) (m : Market)
    (borrowShares : U128) : Result U256 := do
  let totals ← accruedTotals view m params
  toAssetsUp (widen borrowShares) totals.2 (widen m.totalBorrowShares)

/-- A computed amount stays computable and does not grow. -/
def NotWorse (before after : Result U256) : Prop :=
  ∀ amount, before = .ok amount →
    ∃ amount', after = .ok amount' ∧ amount'.toNat ≤ amount.toNat

@[refl]
theorem NotWorse.refl (debt : Result U256) : NotWorse debt debt :=
  fun amount computed => ⟨amount, computed, le_refl _⟩

variable {d : Deployment} {ctx view : Context} {params : MarketParams}
    {id : Bytes32} {m m' before : Market} {p p' : Position}
    {call : Call} {event : Event} {flow : Flow} {w w' : World} {user : Address}

theorem borrowAssetsOf_eq_debtOf (s : Storage) :
    borrowAssetsOf d view params user s =
      debtOf view params (s.market (d.idOf params))
        (s.position (d.idOf params) user).borrowShares :=
  rfl

theorem debtOf_eq_ok {borrowShares : U128} {amount : U256} :
    debtOf view params m borrowShares = .ok amount ↔
      ∃ totals, accruedTotals view m params = .ok totals ∧
        totals.2.toNat + 1 < 2 ^ 256 ∧
        borrowShares.toNat * (totals.2.toNat + 1) +
            (m.totalBorrowShares.toNat + 1000000 - 1) < 2 ^ 256 ∧
          amount.toNat = mulDivCeil borrowShares.toNat (totals.2.toNat + 1)
              (m.totalBorrowShares.toNat + 1000000) := by
  simp only [debtOf, bind_eq_ok, toAssetsUp_eq_ok, toNat_widen]

theorem healthOf_of_notWorse
    (notWorse : NotWorse (debtOf view params m p.borrowShares)
        (debtOf view params m' p.borrowShares))
    (healthy : healthOf view params m p = .ok true) :
    healthOf view params m' p = .ok true := by
  rw [healthOf] at healthy ⊢
  split at healthy
  · next noDebt =>
      rw [if_pos noDebt]
      exact healthy
  · next debt =>
      rw [if_neg debt]
      simp only [bind_eq_ok, pure_eq_ok, decide_eq_true_eq] at healthy ⊢
      rcases healthy with ⟨totals, totalsOk, owed, owedOk, answer, answerOk,
        worth, worthOk, limit, limitOk, enough⟩
      have computed : debtOf view params m p.borrowShares = .ok owed := by
        rw [debtOf, totalsOk]
        exact owedOk
      rcases notWorse owed computed with ⟨owed', computed', less⟩
      simp only [debtOf, bind_eq_ok] at computed'
      rcases computed' with ⟨totals', totalsOk', owedOk'⟩
      exact ⟨totals', totalsOk', owed', owedOk', answer, answerOk, worth,
        worthOk, limit, limitOk, le_trans less enough⟩

theorem accruedTotals_congr
    (sameTime : view.timestamp = ctx.timestamp)
    (sameRate : view.borrowRatePerSecond = ctx.borrowRatePerSecond)
    (m : Market) :
    accruedTotals view m params = accruedTotals ctx m params := by
  have now : view.now = ctx.now := by
    rw [Context.now, Context.now, sameTime]
  have rate : borrowRate view params = borrowRate ctx params := by
    funext supplyAssets borrowAssets
    simp only [borrowRate, sameRate]
  unfold accruedTotals
  rw [now, rate]

theorem borrowTotals_le_or_owes
    (ledger : LedgerStep ctx id m p call event m' p' flow)
    (fit : Event.SharesFit m event) :
    m'.totalBorrowAssets.toNat ≤ m.totalBorrowAssets.toNat ∧
        m'.totalBorrowShares.toNat ≤ m.totalBorrowShares.toNat ∨
      0 < p'.borrowShares.toNat := by
  cases ledger with
  | supply => exact .inl ⟨le_refl _, le_refl _⟩
  | withdraw => exact .inl ⟨le_refl _, le_refl _⟩
  | withdrawAll => exact .inl ⟨le_refl _, le_refl _⟩
  | supplyCollateral => exact .inl ⟨le_refl _, le_refl _⟩
  | withdrawCollateral => exact .inl ⟨le_refl _, le_refl _⟩
  | borrow _ positive sharesEq positionEq =>
      right
      rw [Nat.mod_eq_of_lt fit] at positionEq
      have issued :=
        mulDivCeil_pos positive (borrowPool_divided m) (borrowPool_priced m)
      rw [← sharesEq] at issued
      dsimp only
      rw [← positionEq]
      exact Nat.add_pos_right _ issued
  | repay _ _ _ _ _ totalSharesEq totalAssetsEq =>
      left
      rw [totalAssetsEq]
      exact ⟨Nat.sub_le _ _, Nat.le.intro totalSharesEq⟩
  | repayAll _ _ _ totalSharesEq totalAssetsEq =>
      left
      rw [totalAssetsEq]
      exact ⟨Nat.sub_le _ _, Nat.le.intro totalSharesEq⟩
  | liquidate _ _ _ _ _ _ totalSharesEq totalAssetsEq _ _ writtenOff =>
      left
      rcases writeOff_borrowAssets_le writtenOff with ⟨assets, _, shares⟩
      dsimp only at assets shares
      rw [totalAssetsEq] at assets
      exact ⟨le_trans assets (Nat.sub_le _ _),
        le_trans shares (Nat.le.intro totalSharesEq)⟩

theorem worth_fits
    {shares other : Nat} {total assets : U128} (owes : 0 < other)
    (included : shares + other ≤ total.toNat) :
    shares * (assets.toNat + 1) + (total.toNat + 1000000 - 1) < 2 ^ 256 := by
  have totalBound := total.isLt
  have fewer : shares ≤ 2 ^ 128 - 2 := by omega
  have product : shares * (assets.toNat + 1) ≤ (2 ^ 128 - 2) * 2 ^ 128 :=
    Nat.mul_le_mul fewer assets.isLt
  omega

theorem worth_notWorse
    {shares total : Nat} (eases : DebtEases m m')
    (included : shares ≤ m'.totalBorrowShares.toNat)
    (viewed : m.totalBorrowAssets.toNat ≤ total) :
    (borrowPool m').worthUp shares ≤ mulDivCeil shares (total + 1)
        (m.totalBorrowShares.toNat + 1000000) := by
  have divided := borrowPool_divided m
  have viewed' : (borrowPool m).worthUp shares ≤ mulDivCeil shares (total + 1)
      (m.totalBorrowShares.toNat + 1000000) := by
    apply (mulDivCeil_le_iff divided).mpr
    refine le_trans (Nat.mul_le_mul_left shares ?_) (le_mulDivCeil_mul divided)
    exact Nat.add_le_add_right viewed 1
  rcases eases with cheaper | empty
  · exact le_trans (worthUp_le_of_priceLe shares divided (borrowPool_divided m')
        cheaper)
      viewed'
  · rcases Nat.eq_zero_or_pos shares with nothing | something
    · apply (mulDivCeil_le_iff (borrowPool_divided m')).mpr
      rw [nothing, Nat.zero_mul]
      exact Nat.zero_le _
    · have single : (borrowPool m').worthUp shares ≤ 1 := by
        rw [borrowPool, empty]
        exact worthUp_le_one (Nat.succ_pos _)
          (le_trans included (Nat.le_add_right _ _))
      exact le_trans single (mulDivCeil_pos something (Nat.succ_pos _) divided)

theorem debt_of_settled
    {borrowShares : U128} (settled : Settled ctx params before m)
    (ledger : LedgerStep ctx id m p call event m' p' flow)
    (fit : Event.SharesFit m event) (covered : Covered m)
    (included :
      borrowShares.toNat + p'.borrowShares.toNat ≤ m'.totalBorrowShares.toNat) :
    NotWorse (debtOf ctx params before borrowShares)
      (debtOf ctx params m' borrowShares) := by
  intro amount computed
  rcases debtOf_eq_ok.mp computed with
    ⟨totals, view, totalFits, productFits, worth⟩
  rcases settled.borrow_le_view with ⟨totals', view', viewed⟩
  rw [Except.ok.inj (view'.symm.trans view)] at viewed
  rw [← settled.borrowShares] at productFits worth
  have clock : widen m'.lastUpdate = ctx.now := by
    rw [ledger.lastUpdate]
    exact settled.clock
  have alone : borrowShares.toNat ≤ m'.totalBorrowShares.toNat :=
    le_trans (Nat.le_add_right _ _) included
  have less :=
    worth_notWorse (borrowPrice_of_ledger ledger fit covered) alone viewed
  have fits : borrowShares.toNat * (m'.totalBorrowAssets.toNat + 1) +
      (m'.totalBorrowShares.toNat + 1000000 - 1) < 2 ^ 256 := by
    rcases borrowTotals_le_or_owes ledger fit with ⟨assets, shares⟩ | owes
    · have product : borrowShares.toNat * (m'.totalBorrowAssets.toNat + 1) ≤
            borrowShares.toNat * (totals.2.toNat + 1) :=
        Nat.mul_le_mul_left _ (Nat.add_le_add_right (le_trans assets viewed) 1)
      omega
    · exact worth_fits owes included
  rw [← worth] at less
  rcases exists_toNat_eq (lt_of_le_of_lt less amount.isLt) with
    ⟨amount', amountEq⟩
  refine ⟨amount', debtOf_eq_ok.mpr ⟨_, accruedTotals_of_still
    (.inr (.inr clock)), ?_, ?_, ?_⟩, amountEq.trans_le less⟩
  · rw [toNat_widen]
    have bound := m'.totalBorrowAssets.isLt
    omega
  · rw [toNat_widen]
    exact fits
  · rw [toNat_widen]
    exact amountEq

/-! ## Every operation of the system -/

theorem position_of_executed
    {m m' : Market} {p' : Position}
    (executed : Executed d ctx call event w w' m m' p' flow)
    (other : d.idOf call.params = id → call.account ctx ≠ user) :
    w'.lending.position id user = w.lending.position id user := by
  rw [executed.frame.position]
  by_cases same : id = d.idOf call.params
  · subst id
    rw [Function.update_self, Function.update_of_ne (Ne.symm (other rfl))]
  · rw [Function.update_of_ne same]

theorem debt_of_executed
    {m m' : Market} {p' : Position} (reached : Reached d anything w)
    (reached' : Reached d anything w')
    (executed : Executed d ctx call event w w' m m' p' flow)
    (fit : SharesFit d w (.call ctx call event))
    (other : call.account ctx ≠ user) :
    NotWorse (debtOf ctx call.params (w.lending.market (d.idOf call.params))
        (w.lending.position (d.idOf call.params) user).borrowShares)
      (debtOf ctx call.params (w'.lending.market (d.idOf call.params))
        (w.lending.position (d.idOf call.params) user).borrowShares) := by
  have kept : w'.lending.position (d.idOf call.params) user =
        w.lending.position (d.idOf call.params) user :=
    position_of_executed executed fun _ => other
  have included := (borrowSums reached').two_entries_le (d.idOf call.params)
      (Ne.symm other)
  rw [kept, executed.frame.market, executed.frame.position] at included
  simp only [Function.update_self] at included
  rw [executed.market]
  have ledger := executed.ledger
  cases accrues : Call.accrues call with
  | true =>
      exact debt_of_settled (executed.settled accrues) ledger
        (sharesFit_of_executed executed fit)
        (covered_of_grown executed.grown (allCovered_of_reached reached _))
        included
  | false =>
      have still := executed.accrued
      rw [accrues] at still
      rw [← still.1]
      cases ledger with
      | supplyCollateral => exact NotWorse.refl _
      | _ => cases accrues

theorem debt_of_created
    {s : Storage} {borrowShares : U128}
    (fresh : (s.market (d.idOf params)).lastUpdate = 0)
    (sameTime : view.timestamp = ctx.timestamp) :
    debtOf view params
        ((created d ctx params s).market (d.idOf params)) borrowShares =
      debtOf view params (s.market (d.idOf params)) borrowShares := by
  have clock : widen (narrow ctx.now) = view.now := by
    rw [widen_narrow_now, Context.now, Context.now, sameTime]
  simp only [created, Function.update_self, debtOf]
  rw [accruedTotals_of_still (.inl fresh),
    accruedTotals_of_still (.inr (.inr clock))]

theorem debt_of_step
    (reached : Reached d anything w) (step : Step d w (.call ctx call event) w')
    (fit : SharesFit d w (.call ctx call event))
    (submitted : params ∈ d.submitted)
    (other : d.idOf call.params = d.idOf params → call.account ctx ≠ user)
    (sameTime : view.timestamp = ctx.timestamp)
    (sameRate : view.borrowRatePerSecond = ctx.borrowRatePerSecond) :
    w'.lending.position (d.idOf params) user =
        w.lending.position (d.idOf params) user ∧
      NotWorse (debtOf view params (w.lending.market (d.idOf params))
          (w.lending.position (d.idOf params) user).borrowShares)
        (debtOf view params (w'.lending.market (d.idOf params))
          (w.lending.position (d.idOf params) user).borrowShares) := by
  have reached' : Reached d anything w' := reached_step reached trivial step
  by_cases same : d.idOf call.params = d.idOf params
  · cases step_effect step with
    | created outside submitted' valid fresh =>
        have equal := d.collisionFree submitted' submitted same
        subst equal
        refine ⟨rfl, ?_⟩
        rw [debt_of_created fresh sameTime]
    | performed outside submitted' executed =>
        have equal := d.collisionFree submitted' submitted same
        subst equal
        refine ⟨position_of_executed executed fun _ => other rfl, ?_⟩
        simp only [debtOf, accruedTotals_congr sameTime sameRate]
        exact debt_of_executed reached reached' executed fit (other rfl)
  · cases step_effect step with
    | created outside submitted' valid fresh =>
        have elsewhere := Ne.symm same
        simp only [Call.params] at elsewhere
        refine ⟨rfl, ?_⟩
        simp only [created, Function.update_of_ne elsewhere]
        exact NotWorse.refl _
    | performed outside submitted' executed =>
        refine ⟨position_of_executed executed fun here =>
          absurd here same, ?_⟩
        rw [executed.frame.market, Function.update_of_ne (Ne.symm same)]

/--
Whatever a call does without writing the position of `user`: the debt the
views compute for it does not grow, and a healthy position stays healthy.
-/
theorem debt_notWorse_by_others
    (reached : Reached d anything w) (step : Step d w (.call ctx call event) w')
    (fit : SharesFit d w (.call ctx call event))
    (submitted : params ∈ d.submitted)
    (other : d.idOf call.params = d.idOf params → call.account ctx ≠ user)
    (sameTime : view.timestamp = ctx.timestamp)
    (sameRate : view.borrowRatePerSecond = ctx.borrowRatePerSecond) :
    NotWorse (borrowAssetsOf d view params user w.lending)
        (borrowAssetsOf d view params user w'.lending) ∧
      (isHealthy view (d.idOf params) params user w.lending = .ok true →
        isHealthy view (d.idOf params) params user w'.lending = .ok true) := by
  rcases debt_of_step reached step fit submitted other sameTime sameRate
    with ⟨samePosition, notWorse⟩
  refine ⟨?_, fun healthy => ?_⟩
  · rw [borrowAssetsOf_eq_debtOf, borrowAssetsOf_eq_debtOf, samePosition]
    exact notWorse
  · rw [isHealthy, samePosition]
    exact healthOf_of_notWorse notWorse healthy

/-- The lender supplies more; the borrower owes what it owed. -/
theorem debt_notWorse_after_lentOut :
    ∃ w w', script solo anything lentOut soloWorld = some w ∧
      script solo (SharesFit solo)
          [.call (asking 10 1 0) (.supply soloMarket 5)] w = some w' ∧
        NotWorse
          (borrowAssetsOf solo (asking 12 1 (10 ^ 56)) soloMarket 11 w.lending)
          (borrowAssetsOf solo (asking 12 1 (10 ^ 56)) soloMarket 11
            w'.lending) := by
  have ran : ((script solo anything lentOut soloWorld).bind
      (script solo (SharesFit solo)
        [.call (asking 10 1 0) (.supply soloMarket 5)])).isSome := by
    decide +kernel
  rcases Option.isSome_iff_exists.mp ran with ⟨w', both⟩
  rcases Option.bind_eq_some_iff.mp both with ⟨w, first, second⟩
  rcases script_call second with ⟨event, executed, fit⟩
  have reached : Reached solo anything w :=
    solo_reached lentOut_admissible first
  have step :
      Step solo w (.call (asking 10 1 0) (.supply soloMarket 5) event) w' :=
    ⟨by decide, rfl, executed⟩
  exact ⟨w, w', first, second, (debt_notWorse_by_others reached step fit rfl
    (fun _ => by decide) rfl rfl).1⟩

end Eris.Lending.DebtSafety
