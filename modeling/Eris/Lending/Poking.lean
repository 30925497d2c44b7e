import Eris.Lending.Casts

/-!
# Accruing interest in many steps

Anybody can make the contract accrue at any time.  Each accrual rounds its
interest down and moves the clock to the present, so every further accrual
within a period can lose a part of one unit of the loan token; compounding
only ever adds.  Splitting a period into `n` accruals therefore costs at most
`n - 1` units against a single accrual over the whole period.
-/

namespace Eris.Lending.Poking

open Foundation Foundation.Checked Foundation.SharePool Evm.Word Data Contract
  Accrual Protocol Casts

/-- The market is charged this rate, whatever its totals. -/
def ConstantRate
    (rate : U256) (params : MarketParams) (ctx : Context) : Prop :=
  ∀ supplyAssets borrowAssets,
    borrowRate ctx params supplyAssets borrowAssets = rate

def accrueAll (params : MarketParams) : List Context → Market → Result Market
  | [], m => .ok m
  | ctx :: rest, m => do
      let m ← accrueMarket ctx params m
      accrueAll params rest m

/-- None of the accruals computes an interest of `2 ^ 128` or more. -/
def AccrualsFit (params : MarketParams) : List Context → Market → Prop
  | [], _ => True
  | ctx :: rest, m =>
      InterestFits ctx params m ∧
        ∀ m', accrueMarket ctx params m = .ok m' → AccrualsFit params rest m'

/-- The interest on a debt after some time, rounded down. -/
def interestOf (rate : U256) (borrowed elapsed : Nat) : Nat :=
  mulDivFloor borrowed (rate.toNat * elapsed) WAD.toNat

theorem interestOf_no_debt (rate : U256) (elapsed : Nat) :
    interestOf rate 0 elapsed = 0 := by
  rw [interestOf, mulDivFloor, Nat.zero_mul, Nat.zero_div]

theorem interestOf_no_time (rate : U256) (borrowed : Nat) :
    interestOf rate borrowed 0 = 0 := by
  rw [interestOf, mulDivFloor, Nat.mul_zero, Nat.mul_zero, Nat.zero_div]

theorem interestOf_no_rate (borrowed elapsed : Nat) :
    interestOf 0 borrowed elapsed = 0 := by
  rw [interestOf, mulDivFloor]
  simp

section OneAccrual

variable {rate : U256} {ctx : Context} {params : MarketParams}
    {before after : Market} {totals : U256 × U256}

theorem accruedTotals_interest
    (constant : ConstantRate rate params ctx) (created : before.lastUpdate ≠ 0)
    (view : accruedTotals ctx before params = .ok totals) :
    totals.2.toNat = before.totalBorrowAssets.toNat +
        interestOf rate before.totalBorrowAssets.toNat
          (ctx.now.toNat - before.lastUpdate.toNat) := by
  simp only [accruedTotals, widen_eq_zero_iff, constant _ _] at view
  split at view
  · next early =>
      have noDebt : before.totalBorrowAssets = 0 := early.resolve_left created
      rw [← pure_eq_ok.mp view, noDebt]
      show 0 = 0 + interestOf rate 0 _
      rw [interestOf_no_debt]
  · simp only [bind_eq_ok, checkedSub_eq_ok, toNat_widen] at view
    rcases view with ⟨elapsed, elapsedEq, view⟩
    have time : ctx.now.toNat - before.lastUpdate.toNat = elapsed.toNat := by
      omega
    rw [time]
    split at view
    · next noTime =>
        rw [← pure_eq_ok.mp view, noTime]
        simp [interestOf_no_time]
    · split at view
      · next noRate =>
          rw [← pure_eq_ok.mp view, noRate, interestOf_no_rate]
          simp
      · simp only [bind_eq_ok, checkedMul_eq_ok, mulDivDown_eq_ok,
          checkedAdd_eq_ok, pure_eq_ok, toNat_widen] at view
        rcases view with ⟨scaled, scaledEq, interest, ⟨_, _, interestEq⟩,
          supplyAssets, _, borrowAssets, borrowEq, rfl⟩
        rw [interestOf, scaledEq, ← interestEq, borrowEq]

theorem accrueMarket_interest
    (constant : ConstantRate rate params ctx)
    (accrued : accrueMarket ctx params before = .ok after) :
    before.lastUpdate.toNat ≤ after.lastUpdate.toNat ∧
      after.lastUpdate.toNat = ctx.now.toNat ∧
      ∃ interest, interest = interestOf rate before.totalBorrowAssets.toNat
            (after.lastUpdate.toNat - before.lastUpdate.toNat) ∧
        (InterestFits ctx params before → interest < 2 ^ 128) ∧
        after.totalBorrowAssets.toNat =
          before.totalBorrowAssets.toNat + interest % 2 ^ 128 ∧
        after.totalSupplyAssets.toNat =
          before.totalSupplyAssets.toNat + interest % 2 ^ 128 := by
  have settled := accrueMarket_ok accrued
  have past : before.lastUpdate.toNat ≤ ctx.now.toNat := by
    simp only [accrueMarket, bind_eq_ok, checkedSub_eq_ok, toNat_widen]
      at accrued
    rcases accrued with ⟨_, _, elapsed, elapsedEq, _⟩
    omega
  have clock : after.lastUpdate.toNat = ctx.now.toNat := by
    rw [← settled.clock, toNat_widen]
  rcases settled.interest with
    ⟨interest, totals, view, _, viewBorrow, supply, borrow⟩
  have total := accruedTotals_interest constant settled.created view
  refine
    ⟨clock ▸ past, clock, interest.toNat, ?_, fun fits => ?_, borrow, supply⟩
  · rw [clock]
    omega
  · have bound := fits totals view
    omega

end OneAccrual

section ManyAccruals

variable {rate : U256} {params : MarketParams} {ctxs : List Context}
    {before after : Market}

/--
Against one exact charge over the whole period, each accrual loses less than
one unit.
-/
theorem accrueAll_interest
    (constant : ∀ ctx ∈ ctxs, ConstantRate rate params ctx)
    (fit : AccrualsFit params ctxs before)
    (accrued : accrueAll params ctxs before = .ok after) :
    before.lastUpdate.toNat ≤ after.lastUpdate.toNat ∧ ∃ interest,
        after.totalBorrowAssets.toNat =
          before.totalBorrowAssets.toNat + interest ∧
        after.totalSupplyAssets.toNat =
          before.totalSupplyAssets.toNat + interest ∧
        before.totalBorrowAssets.toNat * (rate.toNat *
              (after.lastUpdate.toNat - before.lastUpdate.toNat)) ≤
          WAD.toNat * interest + ctxs.length * (WAD.toNat - 1) := by
  induction ctxs generalizing before with
  | nil =>
      rw [accrueAll, Except.ok.injEq] at accrued
      subst accrued
      exact ⟨le_rfl, 0, rfl, rfl, by simp⟩
  | cons ctx rest ih =>
      simp only [accrueAll, bind_eq_ok] at accrued
      rcases accrued with ⟨middle, first, others⟩
      rcases accrueMarket_interest (constant ctx List.mem_cons_self) first
        with ⟨forward, _, charged, chargedEq, small, borrow, supply⟩
      rw [Nat.mod_eq_of_lt (small fit.1)] at borrow supply
      rcases ih (fun other member =>
          constant other (List.mem_cons_of_mem _ member))
        (fit.2 middle first) others with
        ⟨onward, added, borrowAfter, supplyAfter, bound⟩
      refine ⟨forward.trans onward, charged + added, by omega, by omega, ?_⟩
      have here : before.totalBorrowAssets.toNat * (rate.toNat *
              (middle.lastUpdate.toNat - before.lastUpdate.toNat)) ≤
          WAD.toNat * charged + (WAD.toNat - 1) := by
        have less : before.totalBorrowAssets.toNat * (rate.toNat *
                (middle.lastUpdate.toNat - before.lastUpdate.toNat)) <
            charged * WAD.toNat + WAD.toNat := by
          rw [chargedEq]
          exact lt_mulDivFloor_mul (by decide)
        rw [Nat.mul_comm charged] at less
        omega
      have later : before.totalBorrowAssets.toNat * (rate.toNat *
                (after.lastUpdate.toNat - middle.lastUpdate.toNat)) ≤
            WAD.toNat * added + rest.length * (WAD.toNat - 1) :=
        le_trans (Nat.mul_le_mul_right _ (borrow ▸ Nat.le_add_right _ _)) bound
      have elapsed : after.lastUpdate.toNat - before.lastUpdate.toNat =
          (middle.lastUpdate.toNat - before.lastUpdate.toNat) +
            (after.lastUpdate.toNat - middle.lastUpdate.toNat) := by
        omega
      rw [elapsed, Nat.mul_add, Nat.mul_add, List.length_cons,
        Nat.mul_add, Nat.succ_mul]
      omega

/--
Splitting a period into accruals costs at most one unit for every accrual
after the first.
-/
theorem interest_le_split
    {whole : Context} {once : Market}
    (constant : ∀ ctx ∈ ctxs, ConstantRate rate params ctx)
    (constantWhole : ConstantRate rate params whole)
    (fit : AccrualsFit params ctxs before)
    (split : accrueAll params ctxs before = .ok after)
    (single : accrueMarket whole params before = .ok once)
    (sameEnd : once.lastUpdate = after.lastUpdate) :
    once.totalBorrowAssets.toNat ≤
        after.totalBorrowAssets.toNat + (ctxs.length - 1) ∧
      once.totalSupplyAssets.toNat ≤
        after.totalSupplyAssets.toNat + (ctxs.length - 1) := by
  rcases accrueAll_interest constant fit split with
    ⟨_, added, borrow, supply, bound⟩
  rcases accrueMarket_interest constantWhole single with
    ⟨_, _, charged, chargedEq, _, borrowOnce, supplyOnce⟩
  have cut := Nat.mod_le charged (2 ^ 128)
  have charged_le : charged ≤ added + (ctxs.length - 1) := by
    rw [chargedEq, sameEnd, interestOf, mulDivFloor]
    refine (Nat.div_le_iff_le_mul_add_pred (by decide)).mpr ?_
    refine le_trans bound ?_
    rw [Nat.mul_add, Nat.add_assoc]
    refine Nat.add_le_add_left ?_ _
    cases ctxs with
    | nil => simp
    | cons _ rest =>
        rw [List.length_cons, Nat.succ_mul, Nat.add_sub_cancel, Nat.mul_comm]
        exact Nat.add_le_add_right (Nat.mul_le_mul_right _ (Nat.sub_le _ _)) _
  omega

end ManyAccruals

/--
Poking costs at most one unit per additional accrual, and an accrual writes
the totals the views show, as long as no single interest reaches `2 ^ 128`.
-/
theorem poking_bounded
    (rate : U256) (params : MarketParams) (before : Market) :
    (∀ ctx after, accrueMarket ctx params before = .ok after →
      InterestFits ctx params before → accruedTotals ctx before params =
          .ok (widen after.totalSupplyAssets, widen after.totalBorrowAssets)) ∧
      ∀ ctxs after whole once, (∀ ctx ∈ ctxs, ConstantRate rate params ctx) →
          ConstantRate rate params whole → AccrualsFit params ctxs before →
              accrueAll params ctxs before = .ok after →
                accrueMarket whole params before = .ok once →
                  once.lastUpdate = after.lastUpdate →
                    once.totalBorrowAssets.toNat ≤
                        after.totalBorrowAssets.toNat + (ctxs.length - 1) ∧
                      once.totalSupplyAssets.toNat ≤
                        after.totalSupplyAssets.toNat + (ctxs.length - 1) := by
  constructor
  · intro ctx after accrued fits
    exact (accruedExactly_iff (accrueMarket_ok accrued)).mpr fits
  · intro ctxs after whole once constant constantWhole fit split single sameEnd
    exact interest_le_split constant constantWhole fit split single sameEnd

instance decidableAccrualsFit (params : MarketParams) :
    ∀ ctxs m, Decidable (AccrualsFit params ctxs m)
  | [], _ => .isTrue trivial
  | ctx :: rest, m =>
      have : DecidablePred (AccrualsFit params rest) :=
        decidableAccrualsFit params rest
      inferInstanceAs (Decidable (InterestFits ctx params m ∧
          ∀ m', accrueMarket ctx params m = .ok m' →
            AccrualsFit params rest m'))

def smallLoan : Market := ⟨1000000, 0, 1000000, 0, 1, 0⟩

/-- Two accruals of two seconds each, by two callers. -/
def poked : List Context := [asking 10 3 0, asking 12 5 0]

theorem poked_constant :
    ∀ ctx ∈ poked, ConstantRate MAX_BORROW_RATE_PER_SECOND soloMarket ctx := by
  intro ctx member
  rcases List.mem_pair.mp member with rfl | rfl
  · exact fun _ _ => rfl
  · exact fun _ _ => rfl

theorem accrueAll_poked :
    accrueAll soloMarket poked smallLoan =
      .ok { smallLoan with lastUpdate := 5 } := by
  decide

theorem accrueMarket_smallLoan :
    accrueMarket (asking 10 5 0) soloMarket smallLoan =
      .ok ⟨1000001, 0, 1000001, 0, 5, 0⟩ := by
  decide

/-- One accrual over the same four seconds adds at most one unit more. -/
theorem poking_bounded_of_smallLoan :
    ∃ after once, accrueAll soloMarket poked smallLoan = .ok after ∧
      accrueMarket (asking 10 5 0) soloMarket smallLoan = .ok once ∧
      once.totalBorrowAssets.toNat ≤
        after.totalBorrowAssets.toNat + (poked.length - 1) :=
  ⟨_, _, accrueAll_poked, accrueMarket_smallLoan,
    ((poking_bounded MAX_BORROW_RATE_PER_SECOND soloMarket smallLoan).2
      poked _ (asking 10 5 0) _ poked_constant (fun _ _ => rfl)
      (by decide) accrueAll_poked accrueMarket_smallLoan rfl).1⟩

/-- The two accruals add nothing, where the single one adds a unit. -/
theorem poking_skips_interest :
    ¬ ∀ (rate : U256) (params : MarketParams) (before after once : Market)
        (ctxs : List Context) (whole : Context),
        (∀ ctx ∈ ctxs, ConstantRate rate params ctx) →
          ConstantRate rate params whole →
            accrueAll params ctxs before = .ok after →
              accrueMarket whole params before = .ok once →
                once.lastUpdate = after.lastUpdate →
                  once.totalBorrowAssets.toNat ≤
                    after.totalBorrowAssets.toNat := by
  intro claimed
  have worse :=
    claimed MAX_BORROW_RATE_PER_SECOND soloMarket smallLoan _ _ poked
      (asking 10 5 0) poked_constant (fun _ _ => rfl) accrueAll_poked
      accrueMarket_smallLoan rfl
  exact absurd worse (by decide)

end Eris.Lending.Poking
