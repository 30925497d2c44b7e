import Eris.Lending.Protocol

/-!
# What the casts to 128 bits lose

The arguments of the contract are 256 bits wide and its recorded amounts are
128 bits wide.  An operation is exact when its recorded amounts move by the
tokens it moved and by the shares it computed, with nothing cut off.  Some
casts are protected: a subtraction would fail before, or the amount is
bounded by a recorded one.  The others are not, and tokens are chosen by the
creators of markets, so nothing bounds an amount but the total supply of its
token.

`exact_iff_castsFit` says for each call exactly when it is exact, in terms of
its argument and of the market it finds.
-/

namespace Eris.Lending.Casts

open Foundation Foundation.Checked Foundation.SharePool Foundation.Transition
  Evm.Word Evm.Erc20 Data Contract Accrual Execution Protocol

/-- The calls which cast an amount of their caller or of the oracle. -/
def Casting : Call → Prop
  | .supply _ _ => True
  | .withdraw _ _ => True
  | .supplyCollateral _ _ => True
  | .withdrawCollateral _ _ => True
  | .borrow _ _ => True
  | .liquidate _ _ _ => True
  | _ => False

/-! ## The condition -/

/-- The interest up to this block has at most 128 bits. -/
def InterestFits
    (ctx : Context) (params : MarketParams) (before : Market) : Prop :=
  ∀ totals, accruedTotals ctx before params = .ok totals →
    totals.2.toNat < before.totalBorrowAssets.toNat + 2 ^ 128

/--
The amounts a call casts have at most 128 bits: its own argument, and the
shares that argument is worth in the settled market `m`.
-/
def AmountsFit (ctx : Context) (m : Market) : Call → Prop
  | .supply _ assets =>
      assets.toNat < 2 ^ 128 ∧
        assets.toNat * (supplyPool m).shares < 2 ^ 128 * (supplyPool m).assets
  | .withdraw _ assets =>
      assets.toNat < 2 ^ 128 ∧ assets.toNat * (supplyPool m).shares ≤
          (2 ^ 128 - 1) * (supplyPool m).assets
  | .supplyCollateral _ assets => assets.toNat < 2 ^ 128
  | .withdrawCollateral _ assets => assets.toNat < 2 ^ 128
  | .borrow _ assets =>
      assets.toNat < 2 ^ 128 ∧ assets.toNat * (borrowPool m).shares ≤
          (2 ^ 128 - 1) * (borrowPool m).assets
  | .liquidate params _ seizedAssets =>
      seizedAssets.toNat < 2 ^ 128 ∧ ∀ repaidAssets,
          seizurePayment ctx params seizedAssets = .ok repaidAssets →
            repaidAssets.toNat * (borrowPool m).shares <
              2 ^ 128 * (borrowPool m).assets
  | _ => True

variable {supplyCap : Nat}

/-- No cast of the call, its accrual included, loses anything. -/
def CastsFit
    (d : Deployment) (ctx : Context) (call : Call)
    (w : Worlds supplyCap) : Prop :=
  let before := w.lending.market (d.idOf call.params)
  if Call.accrues call then
    InterestFits ctx call.params before ∧
      ∀ m, accrueMarket ctx call.params before = .ok m → AmountsFit ctx m call
  else AmountsFit ctx before call

/-- The accrual wrote the totals the views compute. -/
def AccruedExactly
    (ctx : Context) (params : MarketParams) (before after : Market) : Prop :=
  accruedTotals ctx before params =
    .ok (widen after.totalSupplyAssets, widen after.totalBorrowAssets)

/--
The call added the whole interest to the market, and then moved the recorded
amounts of one market and one position by exactly the tokens it moved and the
shares it computed.
-/
def Exact
    (d : Deployment) (ctx : Context) (call : Call) (event : Event)
    (w w' : Worlds supplyCap) : Prop :=
  ∃ m m' p' flow, ExecutedAs (fun amount => amount) (fun amount => amount)
        d ctx call event w w' m m' p' flow ∧
      (Call.accrues call → AccruedExactly ctx call.params
        (w.lending.market (d.idOf call.params)) m)

theorem accruedExactly_iff
    {ctx : Context} {params : MarketParams} {before after : Market}
    (settled : Settled ctx params before after) :
    AccruedExactly ctx params before after ↔
      InterestFits ctx params before := by
  rcases settled.interest with
    ⟨interest, totals, view, viewSupply, viewBorrow, supply, borrow⟩
  have fits_iff :
      InterestFits ctx params before ↔ interest.toNat < 2 ^ 128 := by
    constructor
    · intro fits
      have bound := fits totals view
      omega
    · intro small other otherView
      rw [← Except.ok.inj (view.symm.trans otherView)]
      omega
  rw [AccruedExactly, view, fits_iff]
  constructor
  · intro equal
    have written := Except.ok.inj equal
    rw [written, toNat_widen, borrow] at viewBorrow
    have cut : interest.toNat % 2 ^ 128 = interest.toNat := by omega
    exact (Nat.mod_eq_iff_lt (by norm_num)).mp cut
  · intro small
    rw [Nat.mod_eq_of_lt small] at supply borrow
    refine congrArg Except.ok (Prod.ext ?_ ?_)
    · rw [← BitVec.toNat_inj, toNat_widen, viewSupply, supply]
    · rw [← BitVec.toNat_inj, toNat_widen, viewBorrow, borrow]

section Steps

variable {ctx : Context} {id : Bytes32} {m m' : Market} {p p' : Position}
    {call : Call} {event : Event} {flow : Flow}

theorem amountsFit_of_exact
    (ledger :
      CastStep (fun amount => amount) (fun amount => amount) supplyCap ctx
        id m p call event m' p' flow) :
    AmountsFit ctx m call := by
  have supplyPriced : 0 < (supplyPool m).assets := Nat.succ_pos _
  have borrowPriced : 0 < (borrowPool m).assets := Nat.succ_pos _
  cases ledger with
  | @supply _ _ _ _ totalShares totalAssets _ _ sharesEq _ totalSharesEq
      totalAssetsEq =>
      refine ⟨lt_of_le_of_lt ?_ totalAssets.isLt, ?_⟩
      · exact totalAssetsEq ▸ Nat.le_add_left _ _
      · rw [← mulDivFloor_lt_iff supplyPriced, ← sharesEq]
        refine lt_of_le_of_lt ?_ totalShares.isLt
        exact totalSharesEq ▸ Nat.le_add_left _ _
  | withdraw _ _ sharesEq _ totalSharesEq totalAssetsEq =>
      have sharesBound := m.totalSupplyShares.isLt
      have assetsBound := m.totalSupplyAssets.isLt
      refine ⟨by omega, ?_⟩
      rw [← mulDivCeil_le_iff supplyPriced, ← sharesEq]
      omega
  | withdrawAll => trivial
  | @supplyCollateral _ _ _ total _ _ _ totalEq =>
      refine lt_of_le_of_lt ?_ total.isLt
      exact totalEq ▸ Nat.le_add_left _ _
  | withdrawCollateral _ _ _ totalEq =>
      refine lt_of_le_of_lt ?_ m.totalCollateralAssets.isLt
      exact totalEq ▸ Nat.le_add_left _ _
  | @borrow _ _ _ _ totalShares totalAssets _ _ sharesEq _ totalSharesEq
      totalAssetsEq =>
      have sharesBound := totalShares.isLt
      have assetsBound := totalAssets.isLt
      refine ⟨by omega, ?_⟩
      rw [← mulDivCeil_le_iff borrowPriced, ← sharesEq]
      omega
  | repay => trivial
  | repayAll => trivial
  | liquidate _ _ _ _ sharesEq _ totalSharesEq _ _ totalCollateralEq _ priced =>
      constructor
      · refine lt_of_le_of_lt ?_ m.totalCollateralAssets.isLt
        exact totalCollateralEq ▸ Nat.le_add_left _ _
      · intro other otherPriced
        rw [← Except.ok.inj (priced.symm.trans otherPriced),
          ← mulDivFloor_lt_iff borrowPriced]
        rw [← sharesEq]
        refine lt_of_le_of_lt ?_ m.totalBorrowShares.isLt
        exact totalSharesEq ▸ Nat.le_add_left _ _

theorem repaid_lt
    {repaidAssets remaining : Nat}
    (totalSharesEq : remaining + mulDivFloor repaidAssets (borrowPool m).shares
            (borrowPool m).assets =
        m.totalBorrowShares.toNat) :
    repaidAssets < 2 ^ 128 := by
  have less :
      mulDivFloor repaidAssets (borrowPool m).shares (borrowPool m).assets <
        (borrowPool m).shares := by
    rw [borrowPool_shares] at totalSharesEq ⊢
    omega
  have below : repaidAssets < m.totalBorrowAssets.toNat + 1 :=
    lt_of_mulDivFloor_lt (Nat.succ_pos _) less
  have bound := m.totalBorrowAssets.isLt
  omega

theorem exact_of_amountsFit
    (casting : Casting call) (fits : AmountsFit ctx m call)
    (ledger : CastStep (fun amount => amount % 2 ^ 128)
        (fun amount => amount % 2 ^ 128) supplyCap ctx id m p call event m'
        p' flow) :
    CastStep (fun amount => amount) (fun amount => amount) supplyCap ctx id
      m p call event m' p' flow := by
  have supplyPriced : 0 < (supplyPool m).assets := Nat.succ_pos _
  have borrowPriced : 0 < (borrowPool m).assets := Nat.succ_pos _
  cases ledger with
  | supply small positive sharesEq positionEq totalSharesEq totalAssetsEq =>
      rcases fits with ⟨assetsFit, sharesFit⟩
      rw [← mulDivFloor_lt_iff supplyPriced, ← sharesEq] at sharesFit
      rw [Nat.mod_eq_of_lt sharesFit] at totalSharesEq
      rw [Nat.mod_eq_of_lt assetsFit] at totalAssetsEq
      exact .supply small positive sharesEq positionEq totalSharesEq
        totalAssetsEq
  | withdraw small positive sharesEq positionEq totalSharesEq totalAssetsEq
      liquid =>
      rcases fits with ⟨assetsFit, sharesFit⟩
      rw [← mulDivCeil_le_iff supplyPriced, ← sharesEq] at sharesFit
      rw [Nat.mod_eq_of_lt (by omega)] at totalSharesEq
      rw [Nat.mod_eq_of_lt assetsFit] at totalAssetsEq
      exact .withdraw small positive sharesEq positionEq totalSharesEq
        totalAssetsEq liquid
  | withdrawAll => exact casting.elim
  | supplyCollateral small positive positionEq totalEq =>
      rw [Nat.mod_eq_of_lt fits] at positionEq totalEq
      exact .supplyCollateral small positive positionEq totalEq
  | withdrawCollateral small positive positionEq totalEq healthy =>
      rw [Nat.mod_eq_of_lt fits] at positionEq totalEq
      exact .withdrawCollateral small positive positionEq totalEq healthy
  | borrow small positive sharesEq positionEq totalSharesEq totalAssetsEq
      healthy liquid =>
      rcases fits with ⟨assetsFit, sharesFit⟩
      rw [← mulDivCeil_le_iff borrowPriced, ← sharesEq] at sharesFit
      rw [Nat.mod_eq_of_lt (by omega)] at positionEq totalSharesEq
      rw [Nat.mod_eq_of_lt assetsFit] at totalAssetsEq
      exact .borrow small positive sharesEq positionEq totalSharesEq
        totalAssetsEq healthy liquid
  | repay => exact casting.elim
  | repayAll => exact casting.elim
  | liquidate smallSeized smallRepaid positive unhealthy sharesEq borrowEq
      totalSharesEq totalAssetsEq collateralEq totalCollateralEq writtenOff
      priced =>
      rcases fits with ⟨seizedFit, repaidFit⟩
      have sharesFit := repaidFit _ priced
      rw [← mulDivFloor_lt_iff borrowPriced, ← sharesEq] at sharesFit
      rw [Nat.mod_eq_of_lt sharesFit] at borrowEq totalSharesEq
      rw [Nat.mod_eq_of_lt seizedFit] at collateralEq totalCollateralEq
      rw [Nat.mod_eq_of_lt (repaid_lt (sharesEq ▸ totalSharesEq))]
        at totalAssetsEq
      exact .liquidate smallSeized smallRepaid positive unhealthy sharesEq
        borrowEq totalSharesEq totalAssetsEq collateralEq
        totalCollateralEq writtenOff priced

end Steps

/-! ## The contract -/

section Calls

variable {d : Deployment} {ctx : Context} {call : Call} {event : Event}
    {w w' : Worlds supplyCap}

theorem castsFit_of_exact (exact : Exact d ctx call event w w') :
    CastsFit d ctx call w := by
  rcases exact with ⟨m, m', p', flow, executed, accruedExactly⟩
  have amounts := amountsFit_of_exact executed.ledger
  have accrued := executed.accrued
  dsimp only [CastsFit]
  split
  · next accrues =>
      rw [if_pos accrues] at accrued
      refine ⟨(accruedExactly_iff (executed.settled accrues)).mp
        (accruedExactly accrues), fun other otherAccrued => ?_⟩
      rw [← Except.ok.inj (accrued.symm.trans otherAccrued)]
      exact amounts
  · next still =>
      rw [if_neg still] at accrued
      rw [← accrued.1]
      exact amounts

theorem exact_of_castsFit
    (casting : Casting call) (cast : Cast d ctx call event w w')
    (fits : CastsFit d ctx call w) :
    Exact d ctx call event w w' := by
  rcases cast with ⟨m, m', p', flow, executed⟩
  have amounts : AmountsFit ctx m call ∧
      (Call.accrues call → AccruedExactly ctx call.params
        (w.lending.market (d.idOf call.params)) m) := by
    have accrued := executed.accrued
    dsimp only [CastsFit] at fits
    split at fits
    · next accrues =>
        rw [if_pos accrues] at accrued
        exact ⟨fits.2 m accrued, fun _ =>
            (accruedExactly_iff (executed.settled accrues)).mpr fits.1⟩
    · next still =>
        rw [if_neg still] at accrued
        rw [accrued.1]
        exact ⟨fits, fun accrues => absurd accrues still⟩
  exact ⟨m, m', p', flow, ⟨executed.accrued,
      exact_of_amountsFit casting amounts.1 executed.ledger,
      executed.frame, executed.debtors, executed.transferred⟩,
    amounts.2⟩

end Calls

/--
In every reachable state, whatever the supply of the tokens, a call which
does not revert is exact if and only if the amounts it casts fit.
-/
theorem exact_iff_castsFit (d : Deployment) :
    ∀ w : Worlds supplyCap, (lending d).Reachable System.anything w →
      ∀ ctx call event w', Casting call → Step d w (.call ctx call event) w' →
          (Exact d ctx call event w w' ↔ CastsFit d ctx call w) := by
  intro w _ ctx call event w' casting step
  rcases step with ⟨outside, _, done⟩
  have existing : ∀ params, call ≠ .createMarket params := by
    rintro params rfl
    exact casting
  exact ⟨castsFit_of_exact,
    exact_of_castsFit casting (exec_ok outside existing done)⟩

instance (ctx : Context) (params : MarketParams) (before : Market) :
    Decidable (InterestFits ctx params before) :=
  decidableOfOk _ _

instance (ctx : Context) (m : Market) (call : Call) :
    Decidable (AmountsFit ctx m call) :=
  match call with
  | .createMarket _ => .isTrue trivial
  | .supply _ _ => inferInstanceAs (Decidable (_ ∧ _))
  | .withdraw _ _ => inferInstanceAs (Decidable (_ ∧ _))
  | .withdrawAll _ => .isTrue trivial
  | .supplyCollateral _ _ => Nat.decLt _ _
  | .withdrawCollateral _ _ => Nat.decLt _ _
  | .borrow _ _ => inferInstanceAs (Decidable (_ ∧ _))
  | .repay _ _ => .isTrue trivial
  | .repayAll _ => .isTrue trivial
  | .liquidate _ _ _ => inferInstanceAs (Decidable (_ ∧ _))

instance (d : Deployment) (ctx : Context) (call : Call)
    (w : Worlds supplyCap) : Decidable (CastsFit d ctx call w) :=
  inferInstanceAs (Decidable (if Call.accrues call then
        InterestFits ctx call.params (w.lending.market (d.idOf call.params)) ∧
          ∀ m, accrueMarket ctx call.params
              (w.lending.market (d.idOf call.params)) = .ok m →
            AmountsFit ctx m call
      else AmountsFit ctx (w.lending.market (d.idOf call.params)) call))

/-- Accounts 10 and 11 own `2 ^ 129` units of the two tokens. -/
def vastWorld : Worlds (2 ^ 256) where
  lending := .empty
  tokens := fun token =>
    if token = 1 then Token.issued 10 99 (2 ^ 129) (BitVec.isLt _)
    else Token.issued 11 99 (2 ^ 129) (BitVec.isLt _)

theorem vast_reached
    {transactions : List Transaction} {w : Worlds (2 ^ 256)}
    (admissible : ∀ transaction ∈ transactions, transaction.Admissible solo)
    (ran : script solo System.anything transactions vastWorld = some w) :
    (lending solo).Reachable System.anything w := by
  refine ⟨vastWorld, ⟨rfl, fun token => ?_⟩, script_runs admissible ran⟩
  simp only [vastWorld]
  split
  · exact Token.unapproved_issued (by decide)
  · exact Token.unapproved_issued (by decide)

/-- The market exists, and nothing was supplied to it. -/
def opened : List Transaction :=
  [.call (asking 10 1 0) (.createMarket soloMarket)]

theorem opened_admissible :
    ∀ transaction ∈ opened, transaction.Admissible solo := by
  simp [opened, Transaction.Admissible, asking, solo, Call.params]

/-- A supply of `2 ^ 100` units of the token fits. -/
theorem exact_of_opened :
    ∃ (w w' : Worlds (2 ^ 256)) (event : Event),
      script solo System.anything opened vastWorld = some w ∧
        exec solo (asking 10 1 0) (.supply soloMarket (2 ^ 100)) w =
          .ok (event, w') ∧
        Exact solo (asking 10 1 0) (.supply soloMarket (2 ^ 100)) event w
          w' := by
  have ran : ((script solo System.anything opened vastWorld).bind (script solo
      (fun w action =>
            CastsFit solo (asking 10 1 0) (.supply soloMarket (2 ^ 100)) w)
          [.call (asking 10 1 0) (.supply soloMarket (2 ^ 100))])).isSome :=
    by decide +kernel
  rcases Option.isSome_iff_exists.mp ran with ⟨w', both⟩
  rcases Option.bind_eq_some_iff.mp both with ⟨w, first, second⟩
  rcases script_call second with ⟨event, executed, fits⟩
  refine ⟨w, w', event, first, executed, ?_⟩
  exact (exact_iff_castsFit solo w (vast_reached opened_admissible first)
    (asking 10 1 0) (.supply soloMarket (2 ^ 100)) event w' trivial
    ⟨by decide, rfl, executed⟩).mpr fits

/-- A collateral of `2 ^ 128` units is taken and recorded as none. -/
theorem inexact_of_opened :
    ¬ ∀ (supplyCap : Nat) (d : Deployment) (w : Worlds supplyCap),
        (lending d).Reachable System.anything w →
          ∀ ctx call event w', Casting call →
            Step d w (.call ctx call event) w' →
              Exact d ctx call event w w' := by
  intro claimed
  have ran : ((script solo System.anything opened vastWorld).bind
      (script solo System.anything [.call (asking 11 1 0)
          (.supplyCollateral soloMarket (2 ^ 128))])).isSome := by
    decide +kernel
  rcases Option.isSome_iff_exists.mp ran with ⟨w', both⟩
  rcases Option.bind_eq_some_iff.mp both with ⟨w, first, second⟩
  rcases script_call second with ⟨event, executed, _⟩
  have exact :=
    claimed _ solo w (vast_reached opened_admissible first) (asking 11 1 0)
      (.supplyCollateral soloMarket (2 ^ 128)) event w' trivial
      ⟨by decide, rfl, executed⟩
  have fits : (2 ^ 128 : U256).toNat < 2 ^ 128 := castsFit_of_exact exact
  exact absurd fits (by decide +kernel)

end Eris.Lending.Casts
