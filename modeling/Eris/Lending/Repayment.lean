import Eris.Lending.Protocol

/-!
# Repaying a part of a debt and all of it

`repay` turns an amount into shares rounded down, and `repayAll` turns all
shares into an amount rounded up.  The two roundings meet at the debt itself:
an amount burns all the shares exactly when it covers the debt, so paying too
much is the same as `repayAll`, and paying too little always leaves a share.

The conversion comes before the amount is capped at the debt.  An amount so
large that its product with the shares has more than 256 bits is therefore
refused, although the debt it covers could be cleared.
-/

namespace Eris.Lending.Repayment

open Foundation Foundation.Checked Foundation.SharePool Foundation.Transition
  Evm.Word Evm.Erc20 Data Contract Accrual Execution Protocol

variable {supplyCap : Nat}

/-- The caller owes `debt` in the market `m`, as its accrual leaves it. -/
structure Owes
    (d : Deployment) (ctx : Context) (params : MarketParams)
    (w : Worlds supplyCap) (m : Market) (debt : U256) : Prop where
  accrued : accrueMarket ctx params (w.lending.market (d.idOf params)) = .ok m
  owing : (w.lending.position (d.idOf params) ctx.msgSender).borrowShares ≠ 0
  debtOk : toAssetsUp (widen
          (w.lending.position (d.idOf params) ctx.msgSender).borrowShares)
        (widen m.totalBorrowAssets) (widen m.totalBorrowShares) =
      .ok debt

/-- Shares were burnt and remain, for no more than they are worth. -/
structure PartlyRepaid
    (d : Deployment) (ctx : Context) (params : MarketParams)
    (asked : U256) (m : Market) (event : Event)
    (w w' : Worlds supplyCap) : Prop where
  remaining : 0 < (w'.lending.position (d.idOf params)
      ctx.msgSender).borrowShares.toNat
  paid : ∃ assets shares : U256,
    event = .repay (d.idOf params) ctx.msgSender assets shares ∧
    (w'.lending.position (d.idOf params)
          ctx.msgSender).borrowShares.toNat + shares.toNat =
        (w.lending.position (d.idOf params) ctx.msgSender).borrowShares.toNat ∧
    assets.toNat ≤ asked.toNat ∧
    assets.toNat ≤ (borrowPool m).worthUp shares.toNat ∧
    Transferred d params w.tokens w'.tokens { loanIn := assets.toNat }

/--
An amount which covers the debt has exactly the effect of `repayAll`, and
never reverts where that succeeds; a smaller one repays a part.
-/
def RepayAgrees
    (d : Deployment) (ctx : Context) (params : MarketParams)
    (asked : U256) (w : Worlds supplyCap) : Prop :=
  ∀ m debt, Owes d ctx params w m debt → (debt ≤ asked → ∀ done,
      repay d ctx params asked w = .ok done ↔
        repayAll d ctx params w = .ok done) ∧
    (0 < asked → asked < debt → ∀ event w',
      repay d ctx params asked w = .ok (event, w') →
        PartlyRepaid d ctx params asked m event w w')

/--
If the debt can be cleared at all, an amount which covers it does not
overflow when it is multiplied by the shares of the market.
-/
def ProductFits
    (d : Deployment) (ctx : Context) (params : MarketParams)
    (asked : U256) (w : Worlds supplyCap) : Prop :=
  ∀ m debt, Owes d ctx params w m debt → debt ≤ asked →
    (∃ done, repayAll d ctx params w = .ok done) →
      asked.toNat * (borrowPool m).shares < 2 ^ 256

section Roundings

variable {pool : Pool} {owed asked : Nat}

theorem shares_le_iff_worthUp_le
    (priced : 0 < pool.assets) (divided : 0 < pool.shares) :
    owed ≤ mulDivFloor asked pool.shares pool.assets ↔
      pool.worthUp owed ≤ asked := by
  rw [Pool.worthUp, mulDivCeil_le_iff divided, ← Nat.not_lt,
    mulDivFloor_lt_iff priced, Nat.not_lt]

end Roundings

section Covering

variable {d : Deployment} {ctx : Context} {params : MarketParams}
    {asked debt : U256} {m : Market} {w : Worlds supplyCap}

theorem Owes.debt_eq (owes : Owes d ctx params w m debt) :
    debt.toNat = (borrowPool m).worthUp (w.lending.position (d.idOf params)
        ctx.msgSender).borrowShares.toNat := by
  have exact := (toAssetsUp_eq_ok.mp owes.debtOk).2.2
  rw [toNat_widen, toNat_widen] at exact
  exact exact

theorem Owes.debt_pos (owes : Owes d ctx params w m debt) :
    0 < debt.toNat := by
  rw [owes.debt_eq]
  exact mulDivCeil_pos ((toNat_pos_iff _).mpr owes.owing) (Nat.succ_pos _)
    (Nat.succ_pos _)

theorem Owes.sharesDown
    (owes : Owes d ctx params w m debt) (covers : debt.toNat ≤ asked.toNat)
    (fits : asked.toNat * (borrowPool m).shares < 2 ^ 256) :
    ∃ computed, toSharesDown asked (widen m.totalBorrowAssets)
          (widen m.totalBorrowShares) = .ok computed ∧
        (w.lending.position (d.idOf params)
          ctx.msgSender).borrowShares.toNat ≤ computed.toNat := by
  have small :
      mulDivFloor asked.toNat (borrowPool m).shares (borrowPool m).assets <
        2 ^ 256 :=
    lt_of_le_of_lt (Nat.div_le_self _ _) fits
  rcases exists_toNat_eq small with ⟨computed, computedEq⟩
  refine ⟨computed, toSharesDown_eq_ok.mpr ⟨fits, computedEq⟩, ?_⟩
  rw [computedEq, shares_le_iff_worthUp_le (Nat.succ_pos _) (Nat.succ_pos _),
    ← owes.debt_eq]
  exact covers

theorem capped_of_le {value bound : U256} (le : bound.toNat ≤ value.toNat) :
    capped value bound = bound := by
  rw [← BitVec.toNat_inj, toNat_capped, min_eq_right le]

theorem narrow_widen (value : U128) : narrow (widen value) = value := by
  rw [← BitVec.toNat_inj, toNat_narrow, toNat_widen,
    Nat.mod_eq_of_lt value.isLt]

theorem repay_iff_repayAll
    (owes : Owes d ctx params w m debt) (covers : debt ≤ asked)
    (fits : asked.toNat * (borrowPool m).shares < 2 ^ 256)
    (done : Event × Worlds supplyCap) :
    repay d ctx params asked w = .ok done ↔
      repayAll d ctx params w = .ok done := by
  have coversNat : debt.toNat ≤ asked.toNat := BitVec.le_def.mp covers
  have positive : asked ≠ 0 :=
    (toNat_pos_iff _).mp (lt_of_lt_of_le owes.debt_pos coversNat)
  have owing :
      widen (w.lending.position (d.idOf params) ctx.msgSender).borrowShares ≠
        0 :=
    fun zero => owes.owing ((widen_eq_zero_iff _).mp zero)
  rcases owes.sharesDown coversNat fits with ⟨computed, computedOk, enough⟩
  have allShares : capped computed (widen (w.lending.position (d.idOf params)
              ctx.msgSender).borrowShares) =
        widen (w.lending.position (d.idOf params) ctx.msgSender).borrowShares :=
    capped_of_le (by rw [toNat_widen]; exact enough)
  simp only [repay, repayAll, nonReentrant, bind_eq_ok, pure_eq_ok,
    require_eq_ok, checkedSub_eq_ok]
  refine exists_congr fun _ => and_congr_right fun _ => ?_
  refine exists_congr fun inner => and_congr_left fun _ => ?_
  refine exists_congr fun settled => and_congr_right fun settledOk => ?_
  rcases accrue_ok settledOk with ⟨other, rfl, otherOk⟩
  have same : other = m := Except.ok.inj (otherOk.symm.trans owes.accrued)
  subst other
  simp only [setMarket_market, setMarket_position]
  constructor
  · rintro ⟨_, _, other, otherComputed, maxAssets, maxOk, borrowShares,
      positionEq, rest⟩
    rw [← Except.ok.inj (computedOk.symm.trans otherComputed), allShares]
      at maxOk positionEq rest
    rw [← Except.ok.inj (owes.debtOk.symm.trans maxOk),
      capped_of_le coversNat] at rest
    rw [narrow_widen] at positionEq
    have burnt : borrowShares = 0 := eq_zero_of_toNat (by omega)
    rw [burnt] at rest
    exact ⟨(), owing, debt, owes.debtOk, rest⟩
  · rintro ⟨_, _, other, otherOk, rest⟩
    rw [← Except.ok.inj (owes.debtOk.symm.trans otherOk)] at rest
    refine ⟨(), positive, computed, computedOk, debt, ?_, 0, ?_, ?_⟩
    · rw [allShares]
      exact owes.debtOk
    · rw [allShares, narrow_widen]
      exact Nat.zero_add _
    · rw [allShares, capped_of_le coversNat]
      exact rest

theorem product_fits_of_repay
    {done : Event × Worlds supplyCap}
    (accrued :
      accrueMarket ctx params (w.lending.market (d.idOf params)) = .ok m)
    (repaid : repay d ctx params asked w = .ok done) :
    asked.toNat * (borrowPool m).shares < 2 ^ 256 := by
  simp only [repay, nonReentrant, bind_eq_ok] at repaid
  rcases repaid with ⟨_, _, inner, ⟨settled, settledOk, rest⟩, _⟩
  rcases accrue_ok settledOk with ⟨other, rfl, otherOk⟩
  have same : other = m := Except.ok.inj (otherOk.symm.trans accrued)
  subst other
  simp only [setMarket_market] at rest
  rcases rest with ⟨_, _, computed, computedOk, _⟩
  exact (toSharesDown_eq_ok.mp computedOk).1

theorem owes_of_repayAll
    {done : Event × Worlds supplyCap}
    (clears : repayAll d ctx params w = .ok done) :
    ∃ m debt, Owes d ctx params w m debt := by
  simp only [repayAll, nonReentrant, bind_eq_ok, require_eq_ok] at clears
  rcases clears with ⟨_, _, inner, ⟨settled, settledOk, rest⟩, _⟩
  rcases accrue_ok settledOk with ⟨m, rfl, accrued⟩
  simp only [setMarket_market, setMarket_position] at rest
  rcases rest with ⟨_, owing, debt, debtOk, _⟩
  exact
    ⟨m, debt, accrued, fun zero => owing ((widen_eq_zero_iff _).mpr zero),
      debtOk⟩

theorem partlyRepaid_of_lt
    {event : Event} {w' : Worlds supplyCap} (outside : ctx.msgSender ≠ d.self)
    (owes : Owes d ctx params w m debt) (less : asked < debt)
    (repaid : repay d ctx params asked w = .ok (event, w')) :
    PartlyRepaid d ctx params asked m event w w' := by
  rcases repay_ok outside repaid with ⟨other, m', p', flow, executed⟩
  have same : other = m :=
    Except.ok.inj (executed.accrued.symm.trans owes.accrued)
  subst other
  have position : w'.lending.position (d.idOf params) ctx.msgSender = p' := by
    rw [executed.frame.position]
    exact (congrFun (Function.update_self _ _ _) _).trans
      (Function.update_self _ _ _)
  have lessNat : asked.toNat < debt.toNat := BitVec.lt_def.mp less
  have transferred := executed.transferred
  cases executed.ledger with
  | @repay _ _ assets shares borrowShares _ _ _ _ sharesEq assetsEq
      positionEq =>
      have kept : borrowShares.toNat + shares.toNat =
            (w.lending.position (d.idOf params)
              ctx.msgSender).borrowShares.toNat :=
        positionEq
      have tooFew : mulDivFloor asked.toNat (borrowPool m).shares
            (borrowPool m).assets <
          (w.lending.position (d.idOf params)
            ctx.msgSender).borrowShares.toNat := by
        rw [← Nat.not_le,
          shares_le_iff_worthUp_le (Nat.succ_pos _) (Nat.succ_pos _),
          ← owes.debt_eq]
        exact Nat.not_le.mpr lessNat
      have burnt : shares.toNat < (w.lending.position (d.idOf params)
          ctx.msgSender).borrowShares.toNat := by
        rw [sharesEq]
        exact lt_of_le_of_lt (min_le_right _ _) tooFew
      refine ⟨?_, assets, shares, rfl, ?_, ?_, ?_, transferred⟩
      · rw [position]
        show 0 < borrowShares.toNat
        omega
      · rw [position]
        exact kept
      · rw [assetsEq]
        exact min_le_left _ _
      · rw [assetsEq]
        exact min_le_right _ _

end Covering

/--
Repaying agrees with `repayAll` at every amount whose product with the shares
of the market fits, and at no other.
-/
theorem repayAgrees_iff_productFits
    {d : Deployment} {ctx : Context} (params : MarketParams) (asked : U256)
    (w : Worlds supplyCap) (outside : ctx.msgSender ≠ d.self) :
    RepayAgrees d ctx params asked w ↔ ProductFits d ctx params asked w := by
  constructor
  · intro agrees m debt owes covers clears
    rcases clears with ⟨done, clears⟩
    exact product_fits_of_repay owes.accrued
      (((agrees m debt owes).1 covers done).mpr clears)
  · intro fits m debt owes
    constructor
    · intro covers done
      constructor
      · intro repaid
        exact (repay_iff_repayAll owes covers
          (product_fits_of_repay owes.accrued repaid) done).mp repaid
      · intro clears
        exact (repay_iff_repayAll owes covers
          (fits m debt owes covers ⟨done, clears⟩) done).mpr clears
    · intro _ less event w' repaid
      exact partlyRepaid_of_lt outside owes less repaid

/-- The borrower of `lentOut` lets the contract take its loan tokens. -/
def readyToRepay : List Transaction :=
  lentOut ++ [.token 1 11 (.approve 99 (BitVec.allOnes 256))]

/-- The borrower may send twice what it owes. -/
theorem repayAgrees_of_readyToRepay :
    ∃ w, script solo anything readyToRepay soloWorld = some w ∧
      RepayAgrees solo (asking 11 1 0) soloMarket 40000000000000000 w := by
  have ran : (script solo anything readyToRepay soloWorld).map (fun w =>
          (w.lending.market 7).totalBorrowShares.toNat) =
        some 20000000000000000000000 := by
    decide +kernel
  rcases Option.map_eq_some_iff.mp ran with ⟨w, reaches, shares⟩
  refine ⟨w, reaches, ?_⟩
  refine (repayAgrees_iff_productFits soloMarket 40000000000000000 w
    (by decide)).mpr ?_
  intro m debt owes _ _
  rw [borrowPool_shares, (accrueMarket_ok owes.accrued).borrowShares]
  show _ * ((w.lending.market 7).totalBorrowShares.toNat + 1000000) < _
  rw [shares]
  decide

/-- The largest amount is refused although the debt can be cleared. -/
theorem repay_disagrees_at_largest :
    ¬ ∀ (supplyCap : Nat) (d : Deployment) (ctx : Context)
        (params : MarketParams) (asked : U256) (w : Worlds supplyCap),
        ctx.msgSender ≠ d.self → RepayAgrees d ctx params asked w := by
  intro claimed
  have ran : (script solo anything readyToRepay soloWorld).bind (fun w =>
          (repayAll solo (asking 11 1 0) soloMarket w).toOption.map
            fun _ => ()) =
        some () := by
    decide +kernel
  rcases Option.bind_eq_some_iff.mp ran with ⟨w, _, cleared⟩
  rcases Option.map_eq_some_iff.mp cleared with ⟨done, clearedOk, _⟩
  have clears := toOption_eq_some.mp clearedOk
  rcases owes_of_repayAll clears with ⟨m, debt, owes⟩
  have covers : debt ≤ BitVec.allOnes 256 := by
    have bound := debt.isLt
    rw [BitVec.le_def, BitVec.toNat_allOnes]
    omega
  have agrees :=
    claimed _ solo (asking 11 1 0) soloMarket (BitVec.allOnes 256) w
      (by decide) m debt owes
  have fits :=
    product_fits_of_repay owes.accrued ((agrees.1 covers done).mpr clears)
  rw [BitVec.toNat_allOnes, borrowPool_shares] at fits
  omega

end Eris.Lending.Repayment
