import Eris.Lending.LedgerSums
import Eris.Lending.Solvency
import Eris.Lending.Valuation

/-!
# The marks of a market against what the market holds

A debtor's collateral is split in two: the part which covers the debt backs
the suppliers, and the rest is the debtor's own equity.  So the marks of all
holders stay within the idle loan tokens and the posted collateral as soon as
the suppliers together are credited with no more than what is idle and what
is recovered.

The fraction is taken of the stored supply total but applied to positions
which already contain the interest accrued since.  Interest which is neither
stored nor covered by collateral is thereby credited out of nothing; the
bound holds when no interest accrued since the last update, when nothing
backs the market, or when the recovered debt covers the accrued debt.
-/

namespace Eris.Lending.MarkedValue

open Foundation Foundation.Checked Foundation.Paging Foundation.SharePool
  Evm.Word Data Contract LedgerSums Participants Protocol Solvency
  Lending.Valuation

variable {d : Deployment} {view : Context} {env : Environment}
    {params : MarketParams} {s : Storage} {m : Market}

/-! ## Prices -/

/-- What one raw unit of a token is worth; nothing when it is unpriced. -/
def unitUsd (env : Environment) (token : Address) : ℚ :=
  (tokenAmountUsd env token 1).getD 0

theorem tokenAmountUsd_eq (token : Address) (amount : Nat) :
    tokenAmountUsd env token amount =
      (tokenAmountUsd env token 1).map fun unit : ℚ => amount * unit := by
  unfold tokenAmountUsd formatUnits
  cases env.tokenInfoByAddress token with
  | none =>
      dsimp only
      rw [Option.map_map]
      congr 1
      funext decimals
      simp only [Function.comp_apply, Nat.cast_one]
      ring
  | some info =>
      dsimp only
      rw [Option.map_map]
      congr 1
      funext price
      simp only [Function.comp_apply, Nat.cast_one]
      ring

theorem tokenAmountUsd_getD (token : Address) (amount : Nat) :
    (tokenAmountUsd env token amount).getD 0 = amount * unitUsd env token := by
  rw [tokenAmountUsd_eq, unitUsd]
  cases tokenAmountUsd env token 1 with
  | none => simp
  | some unit => rfl

theorem unitUsd_nonneg (token : Address) : 0 ≤ unitUsd env token := by
  unfold unitUsd tokenAmountUsd formatUnits
  cases env.tokenInfoByAddress token with
  | none =>
      dsimp only
      cases stableVariantDecimals env token with
      | none => exact le_refl (0 : ℚ)
      | some decimals =>
          simp only [Option.map_some, Option.getD_some]
          positivity
  | some info =>
      dsimp only
      cases info.kind with
      | stable =>
          simp only [Option.map_some, Option.getD_some]
          positivity
      | base =>
          cases env.fairByBase info.symbol with
          | none => exact le_refl (0 : ℚ)
          | some price =>
              simp only [Option.map_some, Option.getD_some]
              positivity

theorem collateralToLoanUnits_le (collateral : Nat) :
    (((collateralToLoanUnits env params collateral).getD 0 : Nat) : ℚ) *
        unitUsd env params.loanToken ≤
      collateral * unitUsd env params.collateralToken := by
  have worth : 0 ≤ (collateral : ℚ) * unitUsd env params.collateralToken :=
    mul_nonneg (Nat.cast_nonneg _) (unitUsd_nonneg _)
  have nothing : (((0 : Nat)) : ℚ) * unitUsd env params.loanToken ≤
      collateral * unitUsd env params.collateralToken := by
    rw [Nat.cast_zero, zero_mul]
    exact worth
  unfold collateralToLoanUnits
  dsimp only
  split
  · exact nothing
  · split
    · next usd loanUnitUsd collateralPriced loanPriced =>
        split
        · exact nothing
        · next positive =>
            have collateralUsd :
                usd = collateral * unitUsd env params.collateralToken := by
              rw [← tokenAmountUsd_getD, collateralPriced]
              rfl
            have loanUsd : loanUnitUsd =
                (WAD.toNat : ℚ) * unitUsd env params.loanToken := by
              rw [← tokenAmountUsd_getD, loanPriced]
              rfl
            have wad : (WAD.toNat : ℚ) = 10 ^ 18 := by
              have plain : WAD.toNat = 10 ^ 18 := rfl
              rw [plain]
              norm_num
            rw [wad] at loanUsd
            have loanPositive : 0 < unitUsd env params.loanToken := by
              by_contra worthless
              have zero : unitUsd env params.loanToken = 0 :=
                le_antisymm (not_lt.mp worthless) (unitUsd_nonneg _)
              rw [zero, mul_zero] at loanUsd
              exact positive loanUsd.le
            have exchanged : usd / loanUnitUsd * 10 ^ 18 =
                usd / unitUsd env params.loanToken := by
              rw [loanUsd]
              field_simp
            have quotientNonneg : 0 ≤ usd / unitUsd env params.loanToken := by
              rw [collateralUsd]
              exact div_nonneg worth loanPositive.le
            rw [Option.getD_some, exchanged, ← collateralUsd,
              ← le_div_iff₀ loanPositive]
            exact Nat.floor_le quotientNonneg
    · exact nothing

theorem idle_eq (m : Market) :
    idle m = m.totalSupplyAssets.toNat - m.totalBorrowAssets.toNat := by
  rw [idle]
  split
  · rfl
  · omega

theorem backedFraction_eq
    (supplied : m.totalSupplyAssets.toNat ≠ 0) (recovers : Nat) :
    backedFraction m recovers = min WAD.toNat
        ((idle m + min recovers m.totalBorrowAssets.toNat) * WAD.toNat /
          m.totalSupplyAssets.toNat) := by
  have smaller : (if recovers < m.totalBorrowAssets.toNat then recovers
        else m.totalBorrowAssets.toNat) =
        min recovers m.totalBorrowAssets.toNat := by
    split <;> omega
  unfold backedFraction
  rw [if_neg supplied, smaller]
  dsimp only
  split
  · next above => exact (min_eq_left above.le).symm
  · next notAbove => exact (min_eq_right (not_lt.mp notAbove)).symm

theorem backedFraction_mul_le
    (supplied : m.totalSupplyAssets.toNat ≠ 0) (recovers : Nat) :
    backedFraction m recovers * m.totalSupplyAssets.toNat ≤
      (idle m + min recovers m.totalBorrowAssets.toNat) * WAD.toNat := by
  rw [backedFraction_eq supplied]
  exact le_trans (Nat.mul_le_mul_right _ (min_le_right _ _))
    (Nat.div_mul_le_self _ _)

theorem accruedTotals_ok
    {totals : U256 × U256}
    (returned : accruedTotals view m params = .ok totals) :
    ∃ interest, totals.1.toNat = m.totalSupplyAssets.toNat + interest ∧
      totals.2.toNat = m.totalBorrowAssets.toNat + interest := by
  rw [accruedTotals] at returned
  dsimp only at returned
  have still : (.ok (widen m.totalSupplyAssets, widen m.totalBorrowAssets) :
        Result (U256 × U256)) = .ok totals →
      ∃ interest, totals.1.toNat = m.totalSupplyAssets.toNat + interest ∧
        totals.2.toNat = m.totalBorrowAssets.toNat + interest := by
    intro same
    cases same
    exact ⟨0, by simp, by simp⟩
  split at returned
  · exact still returned
  · simp only [bind_eq_ok] at returned
    rcases returned with ⟨elapsed, _, returned⟩
    split at returned
    · exact still returned
    · split at returned
      · exact still returned
      · simp only [bind_eq_ok, checkedAdd_eq_ok, pure_eq_ok] at returned
        rcases returned with
          ⟨_, _, interest, _, supplied, suppliedEq, owed, owedEq, rfl⟩
        rw [toNat_widen] at suppliedEq owedEq
        exact ⟨interest.toNat, suppliedEq.symm, owedEq.symm⟩

theorem sum_mark_le
    {Holder : Type} (holders : Finset Holder) (amount : Holder → Nat)
    (fraction scale : Nat) :
    ∑ holder ∈ holders, amount holder * fraction / scale ≤
      (∑ holder ∈ holders, amount holder) * fraction / scale := by
  rcases Nat.eq_zero_or_pos scale with rfl | positive
  · simp
  · rw [Nat.le_div_iff_mul_le positive, Finset.sum_mul, Finset.sum_mul]
    exact Finset.sum_le_sum fun holder _ => Nat.div_mul_le_self _ _

/-- What the suppliers' accounts read as of the block of the view. -/
def suppliedAssets
    (d : Deployment) (view : Context) (params : MarketParams) (s : Storage)
    (user : Address) : Nat :=
  (expectedPosition d view params user s).toOption.elim 0 fun position =>
    position.1.toNat

theorem sum_suppliedAssets_le
    (sums : ∑ user, (s.position (d.idOf params) user).supplyShares.toNat =
        (s.market (d.idOf params)).totalSupplyShares.toNat)
    {totals : U256 × U256}
    (returned :
      accruedTotals view (s.market (d.idOf params)) params = .ok totals) :
    ∑ user, suppliedAssets d view params s user ≤ totals.1.toNat := by
  have each : ∀ user, suppliedAssets d view params s user *
        ((s.market (d.idOf params)).totalSupplyShares.toNat + 1000000) ≤
      (s.position (d.idOf params) user).supplyShares.toNat *
        (totals.1.toNat + 1) := by
    intro user
    rw [suppliedAssets]
    cases read : expectedPosition d view params user s with
    | error failure =>
        show 0 * _ ≤ _
        rw [Nat.zero_mul]
        exact Nat.zero_le _
    | ok position =>
        simp only [expectedPosition, returned, ok_bind, bind_eq_ok,
          pure_eq_ok] at read
        rcases read with ⟨assets, converted, _, _, rfl⟩
        show assets.toNat * _ ≤ _
        simp only [toAssetsDown, bind_eq_ok, checkedAdd_eq_ok,
          mulDivDown_eq_ok, toNat_widen] at converted
        rcases converted with
          ⟨pooled, pooledEq, divided, dividedEq, _, _, exact⟩
        have one : VIRTUAL_ASSETS.toNat = 1 := rfl
        have offset : VIRTUAL_SHARES.toNat = 1000000 := rfl
        rw [one] at pooledEq
        rw [offset] at dividedEq
        rw [exact, pooledEq, dividedEq]
        exact mulDivFloor_mul_le
  have scaled : (∑ user, suppliedAssets d view params s user) *
        ((s.market (d.idOf params)).totalSupplyShares.toNat + 1000000) ≤
      (s.market (d.idOf params)).totalSupplyShares.toNat *
        (totals.1.toNat + 1) := by
    rw [Finset.sum_mul]
    refine le_trans (Finset.sum_le_sum fun user _ => each user) ?_
    rw [← Finset.sum_mul, sums]
  by_contra more
  have full : (totals.1.toNat + 1) *
          ((s.market (d.idOf params)).totalSupplyShares.toNat + 1000000) ≤
        (s.market (d.idOf params)).totalSupplyShares.toNat *
          (totals.1.toNat + 1) :=
    le_trans (Nat.mul_le_mul_right _ (Nat.succ_le_of_lt (not_le.mp more)))
      scaled
  nlinarith

/--
When the fraction, taken of the stored total, may be applied to accrued
positions: no interest accrued since the last update, or nothing backs the
market, or what is recovered covers the accrued debt.
-/
def Reconciled (totals : U256 × U256) (m : Market) (recovers : Nat) : Prop :=
  totals.1.toNat = m.totalSupplyAssets.toNat ∨
    idle m + recovers = 0 ∨ totals.2.toNat ≤ recovers

theorem credited_le
    {total recovers interest : Nat} {totals : U256 × U256} (covered : Covered m)
    (suppliedEq : totals.1.toNat = m.totalSupplyAssets.toNat + interest)
    (owedEq : totals.2.toNat = m.totalBorrowAssets.toNat + interest)
    (held : total ≤ totals.1.toNat) (reconciled : Reconciled totals m recovers)
    (settled : m.totalSupplyAssets.toNat = 0 → interest = 0) :
    total * backedFraction m recovers / WAD.toNat ≤ idle m + recovers := by
  have wad : 0 < WAD.toNat := by decide
  rw [Covered] at covered
  by_cases supplied : m.totalSupplyAssets.toNat = 0
  · have nothing : total = 0 := by
      have noInterest := settled supplied
      omega
    rw [nothing, Nat.zero_mul, Nat.zero_div]
    exact Nat.zero_le _
  · rcases reconciled with same | unbacked | recovered
    · rw [Nat.div_le_iff_le_mul_add_pred wad]
      calc
        total * backedFraction m recovers
            ≤ m.totalSupplyAssets.toNat * backedFraction m recovers :=
          Nat.mul_le_mul_right _ (held.trans same.le)
        _ = backedFraction m recovers * m.totalSupplyAssets.toNat :=
          Nat.mul_comm _ _
        _ ≤ (idle m + min recovers m.totalBorrowAssets.toNat) *
              WAD.toNat :=
          backedFraction_mul_le supplied recovers
        _ ≤ (idle m + recovers) * WAD.toNat :=
          Nat.mul_le_mul_right _
            (Nat.add_le_add_left (min_le_left _ _) _)
        _ = WAD.toNat * (idle m + recovers) := Nat.mul_comm _ _
        _ ≤ WAD.toNat * (idle m + recovers) + (WAD.toNat - 1) :=
          Nat.le_add_right _ _
    · have nothing : backedFraction m recovers = 0 := by
        have noIdle : idle m = 0 := by omega
        have none : recovers = 0 := by omega
        rw [backedFraction_eq supplied, noIdle, none]
        simp
      rw [nothing, Nat.mul_zero, Nat.zero_div]
      exact Nat.zero_le _
    · have atMost : total * backedFraction m recovers / WAD.toNat ≤ total := by
        refine Nat.div_le_of_le_mul ?_
        rw [Nat.mul_comm]
        refine Nat.mul_le_mul_right _ ?_
        rw [backedFraction_eq supplied]
        exact min_le_left _ _
      have cash := idle_eq m
      omega

/-! ## What the debtors cover -/

/-- What an account owes as of the block of the view. -/
def owedAssets
    (d : Deployment) (view : Context) (params : MarketParams) (s : Storage)
    (user : Address) : Nat :=
  (borrowAssetsOf d view params user s).toOption.elim 0 BitVec.toNat

def postedAssets
    (d : Deployment) (params : MarketParams) (s : Storage)
    (user : Address) : Nat :=
  (s.position (d.idOf params) user).collateral.toNat

def debtor
    (d : Deployment) (view : Context) (params : MarketParams) (s : Storage)
    (user : Address) : BorrowerPosition :=
  ⟨owedAssets d view params s user, postedAssets d params s user⟩

theorem recoverableDebt_eq
    (borrowers : List BorrowerPosition)
    (collateralInLoanUnits : Nat → Option Nat) :
    recoverableDebt borrowers collateralInLoanUnits = (borrowers.map fun b =>
        min ((collateralInLoanUnits b.collateral).getD 0)
          b.borrowAssets).sum := by
  have step : ∀ (recovered : Nat) (b : BorrowerPosition),
      (if b.borrowAssets = 0 then recovered
        else
          recovered +
            if (collateralInLoanUnits b.collateral).getD 0 < b.borrowAssets
            then (collateralInLoanUnits b.collateral).getD 0
            else b.borrowAssets) =
        recovered + min ((collateralInLoanUnits b.collateral).getD 0)
            b.borrowAssets := by
    intro recovered b
    split
    · next free => rw [free, Nat.min_zero, Nat.add_zero]
    · split <;> omega
  have accumulated : ∀ recovered, borrowers.foldl (fun recovered b =>
            recovered + min ((collateralInLoanUnits b.collateral).getD 0)
                b.borrowAssets)
          recovered =
        recovered + (borrowers.map fun b =>
            min ((collateralInLoanUnits b.collateral).getD 0)
              b.borrowAssets).sum := by
    induction borrowers with
    | nil => intro recovered; rfl
    | cons b rest ih =>
        intro recovered
        rw [List.foldl_cons, ih, List.map_cons, List.sum_cons, Nat.add_assoc]
  rw [recoverableDebt]
  simp only [step]
  rw [accumulated, Nat.zero_add]

/-- The accounts a page shows; none when the read fails. -/
def shownAt
    (d : Deployment) (view : Context) (params : MarketParams) (s : Storage)
    (start : Nat) : List Address :=
  (borrowerPositionsFrom d view params start BORROWER_PAGE s).toOption.elim
    [] BorrowerPage.borrowers

theorem shownAt_sublist (start : Nat) :
    (shownAt d view params s start).Sublist
      (page (s.borrowers (d.idOf params)) start BORROWER_PAGE) := by
  rw [shownAt]
  cases read : borrowerPositionsFrom d view params start BORROWER_PAGE s with
  | error failure => exact List.nil_sublist _
  | ok result =>
      show result.borrowers.Sublist _
      rw [(debtorPage_of_ok read).borrowers]

theorem decodeBorrowerPage_eq (start : Nat) :
    (decodeBorrowerPage
        (borrowerPositionsFrom d view params start BORROWER_PAGE s)).1 =
      (shownAt d view params s start).map (debtor d view params s) := by
  rw [shownAt]
  cases read : borrowerPositionsFrom d view params start BORROWER_PAGE s with
  | error failure => rfl
  | ok result =>
      show result.borrowAssets.zipIdx.map _ = result.borrowers.map _
      have shown := debtorPage_of_ok read
      have lengths := shown.borrowAssets.length_eq
      apply List.ext_getElem
      · rw [List.length_map, List.length_map, List.length_zipIdx, lengths]
      · intro place left right
        rw [List.length_map] at right
        have inside : place < result.borrowAssets.length := by
          rw [← lengths]
          exact right
        have owed := List.Forall₂.get shown.borrowAssets right inside
        have posted : result.collateral.getD place 0 =
            widen (s.position (d.idOf params)
              result.borrowers[place]).collateral := by
          rw [shown.collateral, List.getD_eq_getElem?_getD,
            List.getElem?_map, List.getElem?_eq_getElem right]
          rfl
        simp only [List.get_eq_getElem] at owed
        simp only [List.getElem_map, List.getElem_zipIdx, Nat.zero_add,
          debtor, owedAssets, postedAssets, owed, posted, toNat_widen]
        rfl

theorem exists_scannedBorrowers
    (nodup : (s.borrowers (d.idOf params)).Nodup) :
    ∃ users : List Address, users.Nodup ∧ scannedBorrowers d view params s =
        users.map (debtor d view params s) := by
  rw [scannedBorrowers]
  dsimp only
  split
  · generalize (decodeBorrowerPage
        (borrowerPositionsFrom d view params 0 BORROWER_PAGE s)).2 = total
    refine ⟨shownAt d view params s 0 ++ (laterPages.filter (· < total)).flatMap
      (shownAt d view params s), ?_, ?_⟩
    · have pages : (List.range 4).flatMap (fun number =>
                page (s.borrowers (d.idOf params))
                  (number * BORROWER_PAGE) BORROWER_PAGE) =
            page (s.borrowers (d.idOf params)) 0 BORROWER_PAGE ++
              laterPages.flatMap fun start =>
                page (s.borrowers (d.idOf params)) start BORROWER_PAGE :=
        rfl
      have all : (shownAt d view params s 0 ++
            (laterPages.filter (· < total)).flatMap
              (shownAt d view params s)).Sublist
          (s.borrowers (d.idOf params)) := by
        refine List.Sublist.trans ?_ (List.take_sublist (4 * BORROWER_PAGE) _)
        rw [← flatMap_page_eq_take, pages]
        refine (shownAt_sublist 0).append ?_
        refine (List.Sublist.flatMap List.filter_sublist _).trans ?_
        exact List.Sublist.flatMap_right _ fun start _ =>
          shownAt_sublist start
      exact nodup.sublist all
    · rw [List.map_append, List.map_flatMap]
      simp only [decodeBorrowerPage_eq]
  · exact ⟨[], List.nodup_nil, rfl⟩

theorem recoveredOf_le (user : Address) :
    ((min ((collateralToLoanUnits env params
          (postedAssets d params s user)).getD 0)
        (owedAssets d view params s user) : Nat) : ℚ) *
        unitUsd env params.loanToken ≤
      min (postedAssets d params s user * unitUsd env params.collateralToken)
        (owedAssets d view params s user * unitUsd env params.loanToken) := by
  have priced : 0 ≤ unitUsd env params.loanToken := unitUsd_nonneg _
  apply le_min
  · refine le_trans ?_ (collateralToLoanUnits_le _)
    exact mul_le_mul_of_nonneg_right (Nat.cast_le.mpr (min_le_left _ _)) priced
  · exact mul_le_mul_of_nonneg_right (Nat.cast_le.mpr (min_le_right _ _)) priced

/-- What a debtor's collateral covers of its debt, in dollars. -/
def coveredUsd
    (d : Deployment) (view : Context) (env : Environment)
    (params : MarketParams) (s : Storage) (user : Address) : ℚ :=
  min (postedAssets d params s user * unitUsd env params.collateralToken)
    (owedAssets d view params s user * unitUsd env params.loanToken)

/-- What a debtor's collateral is worth beyond its debt. -/
def equityUsd
    (d : Deployment) (view : Context) (env : Environment)
    (params : MarketParams) (s : Storage) (user : Address) : ℚ :=
  max 0 (postedAssets d params s user * unitUsd env params.collateralToken -
      owedAssets d view params s user * unitUsd env params.loanToken)

theorem coveredUsd_add_equityUsd (user : Address) :
    coveredUsd d view env params s user + equityUsd d view env params s user =
      postedAssets d params s user * unitUsd env params.collateralToken := by
  rw [coveredUsd, equityUsd]
  rcases le_total ((postedAssets d params s user : ℚ) *
        unitUsd env params.collateralToken)
      (owedAssets d view params s user * unitUsd env params.loanToken)
    with underwater | solvent
  · rw [min_eq_left underwater, max_eq_left (sub_nonpos.mpr underwater),
      add_zero]
  · rw [min_eq_right solvent, max_eq_right (sub_nonneg.mpr solvent)]
    ring

theorem coveredUsd_nonneg (user : Address) :
    0 ≤ coveredUsd d view env params s user :=
  le_min (mul_nonneg (Nat.cast_nonneg _) (unitUsd_nonneg _))
    (mul_nonneg (Nat.cast_nonneg _) (unitUsd_nonneg _))

theorem recovered_mul_le
    (nodup : (s.borrowers (d.idOf params)).Nodup) :
    (recovered d view env params s : ℚ) * unitUsd env params.loanToken ≤
      ∑ user, coveredUsd d view env params s user := by
  have scan : ∃ users : List Address, users.Nodup ∧
        scannedBorrowers d view params s = users.map (debtor d view params s) :=
    exists_scannedBorrowers nodup
  rcases scan with ⟨users, distinct, scanned⟩
  rw [recovered, scanned, recoverableDebt_eq, List.map_map]
  have listed : (((users.map ((fun b : BorrowerPosition =>
            min ((collateralToLoanUnits env params b.collateral).getD 0)
              b.borrowAssets) ∘ debtor d view params s)).sum : Nat) : ℚ) *
          unitUsd env params.loanToken ≤
        (users.map (coveredUsd d view env params s)).sum := by
    clear distinct scanned
    induction users with
    | nil => simp
    | cons user rest ih =>
        rw [List.map_cons, List.sum_cons, List.map_cons, List.sum_cons,
          Nat.cast_add, add_mul]
        exact add_le_add (recoveredOf_le user) ih
  refine le_trans listed ?_
  rw [← List.sum_toFinset _ distinct]
  exact Finset.sum_le_univ_sum_of_nonneg fun user => coveredUsd_nonneg user

/-! ## All marks of a market -/

theorem supplySide_usd
    (id : Bytes32) (fraction supplyAssets : Nat) :
    (supplySide env id params fraction supplyAssets).usd =
      (supplyAssets * fraction / WAD.toNat : Nat) *
        unitUsd env params.loanToken := by
  rw [← tokenAmountUsd_getD, supplySide]
  split
  · dsimp only
    cases tokenAmountUsd env params.loanToken
      (supplyAssets * fraction / WAD.toNat) with
    | none => split <;> rfl
    | some value => split <;> rfl
  · next nothing =>
      have zero : supplyAssets = 0 := by omega
      rw [zero, Nat.zero_mul, Nat.zero_div, tokenAmountUsd_getD]
      simp [PositionValue.zero]

theorem positionValue_usd
    (id : Bytes32) (fraction : Nat) (position : U256 × U256 × U256) :
    (positionValue env id params fraction position).usd =
      (position.1.toNat * fraction / WAD.toNat : Nat) *
          unitUsd env params.loanToken +
        max 0 (position.2.2.toNat * unitUsd env params.collateralToken -
            position.2.1.toNat * unitUsd env params.loanToken) := by
  rw [positionValue, borrowSide]
  split
  · dsimp only
    rw [supplySide_usd, tokenAmountUsd_getD, tokenAmountUsd_getD]
  · next nothing =>
      have noCollateral : position.2.2.toNat = 0 := by omega
      have noDebt : position.2.1.toNat = 0 := by omega
      rw [supplySide_usd, noCollateral, noDebt]
      simp

theorem known_cases
    {id : Bytes32} (known : Known d s) :
    s.market id = .zero ∨ d.idOf (s.marketParams id) = id :=
  (known id).imp_right And.right

theorem pairValue_le
    {id : Bytes32} (agent : Address) :
    (pairValue d view env s id agent).usd ≤
      (suppliedAssets d view (s.marketParams id) s agent *
            backedFraction (s.market id)
              (recovered d view env (s.marketParams id) s) /
          WAD.toNat : Nat) *
          unitUsd env (s.marketParams id).loanToken +
        equityUsd d view env (s.marketParams id) s agent := by
  have nothing : ∀ amount : Nat, (0 : ℚ) ≤
        amount * unitUsd env (s.marketParams id).loanToken +
          equityUsd d view env (s.marketParams id) s agent :=
    fun amount =>
      add_nonneg (mul_nonneg (Nat.cast_nonneg _) (unitUsd_nonneg _))
        (le_max_left _ _)
  rw [pairValue]
  dsimp only
  split
  · exact nothing _
  · cases read : expectedPosition d view (s.marketParams id) agent s with
    | error failure => exact nothing _
    | ok position =>
        dsimp only
        split
        · exact nothing _
        · rw [positionValue_usd]
          have supplied : suppliedAssets d view (s.marketParams id) s agent =
              position.1.toNat := by
            rw [suppliedAssets, read]
            rfl
          simp only [expectedPosition, bind_eq_ok, pure_eq_ok] at read
          rcases read with
            ⟨totals, accrued, assets, _, debts, converted, rfl⟩
          have owed :
              owedAssets d view (s.marketParams id) s agent = debts.toNat := by
            rw [owedAssets, borrowAssetsOf, accrued, ok_bind, converted]
            rfl
          rw [supplied, equityUsd, owed, postedAssets, toNat_widen]

section Market

variable {id : Bytes32}

/-- The marks of any holders stay within what the market holds. -/
theorem sum_pairValue_le
    (known : Known d s) (covered : AllCovered s)
    (supplySums : AddsUp (fun p => p.supplyShares.toNat)
        (fun m => m.totalSupplyShares.toNat) s)
    (collateralSums : AddsUp (fun p => p.collateral.toNat)
        (fun m => m.totalCollateralAssets.toNat) s)
    (nodup : (s.borrowers id).Nodup)
    (reconciled : ∀ totals,
      accruedTotals view (s.market id) (s.marketParams id) = .ok totals →
        Reconciled totals (s.market id)
          (recovered d view env (s.marketParams id) s))
    (holders : Finset Address) :
    ∑ holder ∈ holders, (pairValue d view env s id holder).usd ≤
      holdingsUsd env (s.marketParams id) (s.market id) := by
  have held : holdingsUsd env (s.marketParams id) (s.market id) =
      (idle (s.market id) : ℚ) * unitUsd env (s.marketParams id).loanToken +
        (s.market id).totalCollateralAssets.toNat *
          unitUsd env (s.marketParams id).collateralToken := by
    rw [holdingsUsd, tokenAmountUsd_getD, tokenAmountUsd_getD, idle_eq]
  have cases : s.market id = .zero ∨ d.idOf (s.marketParams id) = id :=
    known_cases known
  rcases cases with blank | named
  · have worthless : ∀ holder, (pairValue d view env s id holder).usd = 0 := by
      intro holder
      rw [pairValue, blank]
      rfl
    rw [held, Finset.sum_eq_zero fun holder _ => worthless holder]
    exact add_nonneg (mul_nonneg (Nat.cast_nonneg _) (unitUsd_nonneg _))
      (mul_nonneg (Nat.cast_nonneg _) (unitUsd_nonneg _))
  · generalize paramsEq : s.marketParams id = params at *
    generalize fractionEq :
      backedFraction (s.market id) (recovered d view env params s) = fraction
    have each : ∀ holder, (pairValue d view env s id holder).usd ≤
        (suppliedAssets d view params s holder * fraction / WAD.toNat :
            Nat) * unitUsd env params.loanToken +
          equityUsd d view env params s holder := by
      intro holder
      have bound := @pairValue_le d view env s id holder
      rwa [paramsEq, fractionEq] at bound
    have credited : ∑ holder,
          suppliedAssets d view params s holder * fraction / WAD.toNat ≤
        idle (s.market id) + recovered d view env params s := by
      refine le_trans (sum_mark_le _ _ _ _) ?_
      cases accrued : accruedTotals view (s.market id) params with
      | error failure =>
          have unread : ∀ holder,
              suppliedAssets d view params s holder = 0 := by
            intro holder
            rw [suppliedAssets, expectedPosition, named]
            dsimp only
            rw [accrued]
            rfl
          rw [Finset.sum_eq_zero fun holder _ => unread holder,
            Nat.zero_mul, Nat.zero_div]
          exact Nat.zero_le _
      | ok totals =>
          rcases accruedTotals_ok accrued with
            ⟨interest, suppliedEq, owedEq⟩
          have total : ∑ holder, suppliedAssets d view params s holder ≤
              totals.1.toNat := by
            apply sum_suppliedAssets_le
            · rw [named]
              exact supplySums id
            · rw [named]
              exact accrued
          rw [← fractionEq]
          refine credited_le (covered id) suppliedEq owedEq total
            (reconciled totals accrued) ?_
          intro empty
          have noDebt : (s.market id).totalBorrowAssets = 0 := by
            apply eq_zero_of_toNat
            have bound := covered id
            rw [Covered] at bound
            omega
          have still :=
            @Accrual.accruedTotals_of_still view params (s.market id)
              (.inr (.inl noDebt))
          rw [accrued] at still
          cases still
          rw [toNat_widen] at suppliedEq
          omega
    have posted : ∑ holder, postedAssets d params s holder =
        (s.market id).totalCollateralAssets.toNat := by
      simp only [postedAssets, named]
      exact collateralSums id
    have priced : 0 ≤ unitUsd env params.loanToken := unitUsd_nonneg _
    rw [held]
    calc
      ∑ holder ∈ holders, (pairValue d view env s id holder).usd
          ≤ ∑ holder,
              ((suppliedAssets d view params s holder * fraction /
                  WAD.toNat : Nat) * unitUsd env params.loanToken +
                equityUsd d view env params s holder) := by
        refine le_trans (Finset.sum_le_sum fun holder _ => each holder) ?_
        exact
          Finset.sum_le_univ_sum_of_nonneg fun holder =>
            add_nonneg (mul_nonneg (Nat.cast_nonneg _) priced)
              (le_max_left _ _)
      _ = (∑ holder,
            suppliedAssets d view params s holder * fraction /
              WAD.toNat : Nat) * unitUsd env params.loanToken +
          ∑ holder, equityUsd d view env params s holder := by
        rw [Finset.sum_add_distrib, ← Finset.sum_mul, Nat.cast_sum]
      _ ≤ (idle (s.market id) + recovered d view env params s : Nat) *
            unitUsd env params.loanToken +
          ∑ holder, equityUsd d view env params s holder := by
        gcongr
      _ = idle (s.market id) * unitUsd env params.loanToken +
          (recovered d view env params s * unitUsd env params.loanToken +
            ∑ holder, equityUsd d view env params s holder) := by
        push_cast
        ring
      _ ≤ idle (s.market id) * unitUsd env params.loanToken +
          (∑ holder, coveredUsd d view env params s holder +
            ∑ holder, equityUsd d view env params s holder) := by
        gcongr
        apply recovered_mul_le
        rw [named]
        exact nodup
      _ = idle (s.market id) * unitUsd env params.loanToken +
          (s.market id).totalCollateralAssets.toNat *
            unitUsd env params.collateralToken := by
        rw [← Finset.sum_add_distrib,
          Finset.sum_congr rfl fun holder _ =>
            coveredUsd_add_equityUsd holder,
          ← Finset.sum_mul, ← Nat.cast_sum, posted]

end Market

/-! ## The whole venue -/

section Reachable

variable {w : World}

end Reachable

/-- Fifty loan tokens are supplied and thirty of them lent out. -/
def undercovered : List Transaction :=
  [.call (asking 10 1 0) (.createMarket soloMarket),
    .call (asking 10 1 0) (.supply soloMarket 50000000000000000000),
    .call (asking 11 1 0) (.supplyCollateral soloMarket 1000000000000000000),
    .call (asking 11 1 (40 * 10 ^ 36))
      (.borrow soloMarket 30000000000000000000)]

theorem undercovered_admissible :
    ∀ transaction ∈ undercovered, transaction.Admissible solo := by
  simp [undercovered, Transaction.Admissible, asking, solo, Call.params]

/-- The loan token is worth a dollar, and the collateral token so many. -/
def pricedAt (dollars : Nat) : Environment where
  tokenInfoByAddress := fun token =>
    if token = 1 then some ⟨"USDC", .stable, 18⟩
    else if token = 2 then some ⟨"WETH", .base, 18⟩
    else none
  stableVariants := []
  stablePrices := none
  fairByBase := fun symbol => if symbol = "WETH" then some dollars else none

theorem tokenAmountUsd_loan (dollars amount : Nat) :
    tokenAmountUsd (pricedAt dollars) soloMarket.loanToken amount =
      some ((amount : ℚ) / 10 ^ 18) := by
  simp [tokenAmountUsd, pricedAt, soloMarket, stablePriceUsdc, formatUnits]

theorem tokenAmountUsd_collateral (dollars amount : Nat) :
    tokenAmountUsd (pricedAt dollars) soloMarket.collateralToken amount =
      some ((amount : ℚ) / 10 ^ 18 * (dollars : ℚ)) := by
  simp [tokenAmountUsd, pricedAt, soloMarket, formatUnits]

theorem collateralToLoanUnits_pricedAt (dollars collateral : Nat) :
    collateralToLoanUnits (pricedAt dollars) soloMarket collateral =
      some (collateral * dollars) := by
  have wad : WAD.toNat = 10 ^ 18 := rfl
  have exchanged :
      (collateral : ℚ) / 10 ^ 18 * dollars / ((10 ^ 18 : Nat) / 10 ^ 18) *
          10 ^ 18 =
        (collateral * dollars : Nat) := by
    push_cast
    norm_num
    ring
  rw [collateralToLoanUnits, wad, tokenAmountUsd_loan,
    tokenAmountUsd_collateral]
  dsimp only
  split
  · next zero => rw [zero, Nat.zero_mul]
  · rw [if_neg (by norm_num), exchanged, Nat.floor_natCast]

/-- What the scorer reads of the market and of its supplier. -/
structure LateReads where
  params : MarketParams
  market : Market
  borrowers : List BorrowerPosition
  position : Option (U256 × U256 × U256)
  totals : Option (U256 × U256)
deriving DecidableEq

/-- The reads a million seconds after the market was last updated. -/
def lateReads (w : World) : LateReads where
  params := w.lending.marketParams 7
  market := w.lending.market 7
  borrowers := scannedBorrowers solo (asking 10 1000001 0) soloMarket w.lending
  position := (expectedPosition solo (asking 10 1000001 0) soloMarket 10
      w.lending).toOption
  totals := (accruedTotals (asking 10 1000001 0) (w.lending.market 7)
      soloMarket).toOption

theorem undercovered_lateReads :
    (script solo (SupplyFits solo) undercovered soloWorld).map lateReads = some
        { params := soloMarket
          market := ⟨50000000000000000000, 50000000000000000000000000,
              30000000000000000000, 30000000000000000000000000, 1,
              1000000000000000000⟩
          borrowers := [⟨39512937595110000000, 1000000000000000000⟩]
          position := some (59512937595109999999, 0, 0)
          totals := some (59512937595110000000, 39512937595110000000) } := by
  decide

theorem recovered_late
    {w : World} {dollars : Nat}
    (scanned :
      scannedBorrowers solo (asking 10 1000001 0) soloMarket w.lending =
        [⟨39512937595110000000, 1000000000000000000⟩]) :
    recovered solo (asking 10 1000001 0) (pricedAt dollars) soloMarket
        w.lending =
      min (1000000000000000000 * dollars) 39512937595110000000 := by
  rw [recovered, scanned, recoverableDebt_eq]
  simp only [List.map_cons, List.map_nil, List.sum_cons, List.sum_nil,
    collateralToLoanUnits_pricedAt, Option.getD_some, Nat.add_zero]

end Eris.Lending.MarkedValue
