import Eris.Lending.LedgerSums
import Eris.Lending.SharePrice
import Eris.Lending.Solvency

/-!
# Round trips through a market within one block

An account supplies and later in the same block withdraws the shares it got,
or borrows and later repays; in between others use the market as they like,
short of realizing bad debt.  Nothing accrues within the block, so all that
moves the price of the account's shares is rounding.

Others do leave rounding behind, and the account has its part of it.  Each of
their operations accounts for at most one share, rounded up to a whole asset;
when nobody intervenes the account gains nothing.
-/

namespace Eris.Lending.RoundTrip

open Foundation Foundation.Checked Foundation.SharePool Foundation.Transition
  Evm.Word Data Contract Accrual Execution Protocol LedgerSums SharePrice
  Solvency

variable {d : Deployment} {ctx opening : Context} {params : MarketParams}
    {id : Bytes32} {user : Address}
    {call : Call} {event : Event} {action : Action}
    {w w' : World} {m m' : Market} {p p' : Position} {flow : Flow}

/-! ## A settled market within its block -/

/-- The interest of the market is up to date at the time of `opening`. -/
def UpToDate (opening : Context) (id : Bytes32) (w : World) : Prop :=
  widen (w.lending.market id).lastUpdate = opening.now

theorem accrueMarket_of_upToDate
    (clock : widen m.lastUpdate = ctx.now)
    (accrued : accrueMarket ctx params m = .ok m') :
    m' = m := by
  simp only [accrueMarket, bind_eq_ok, require_eq_ok] at accrued
  rcases accrued with ⟨_, _, elapsed, elapsedOk, accrued⟩
  have nothing : elapsed = 0 := by
    rw [checkedSub_eq_ok, clock] at elapsedOk
    exact eq_zero_of_toNat (Nat.add_eq_right.mp elapsedOk)
  rw [if_pos nothing] at accrued
  exact (pure_eq_ok.mp accrued).symm

theorem still_of_executed
    (executed : Executed d ctx call event w w' m m' p' flow)
    (clock : UpToDate ctx (d.idOf call.params) w) :
    m = w.lending.market (d.idOf call.params) := by
  have accrued := executed.accrued
  cases accrues : Call.accrues call with
  | true =>
      rw [if_pos accrues] at accrued
      exact accrueMarket_of_upToDate clock accrued
  | false =>
      rw [accrues] at accrued
      exact accrued.1

theorem upToDate_of_executed
    (executed : Executed d ctx call event w w' m m' p' flow)
    (accrues : Call.accrues call = true) :
    UpToDate ctx (d.idOf call.params) w' := by
  rw [UpToDate, executed.market, executed.ledger.lastUpdate]
  exact (executed.settled accrues).clock

theorem now_congr
    (sameBlock : ctx.timestamp = opening.timestamp) :
    ctx.now = opening.now := by
  rw [Context.now, Context.now, sameBlock]

/-- In the block of `opening`, not sent by `user`, without bad debt. -/
def Foreign
    (d : Deployment) (opening : Context) (user : Address) (w : World) :
    Action → Prop
  | .call ctx call event =>
      ctx.timestamp = opening.timestamp ∧ ctx.msgSender ≠ user ∧
        ¬ event.realizesBadDebt ∧ SharesFit d w (.call ctx call event)
  | .token _ _ _ => True

/-- Besides, it is not `user` who is liquidated. -/
def Sparing
    (d : Deployment) (opening : Context) (user : Address) (w : World)
    (action : Action) : Prop :=
  Foreign d opening user w action ∧ match action with
    | .call ctx call _ => call.account ctx ≠ user
    | .token _ _ _ => True

/-- One for each call on the market `id`. -/
def operationsOn (d : Deployment) (id : Bytes32) : Action → Nat
  | .call _ call _ => if d.idOf call.params = id then 1 else 0
  | .token _ _ _ => 0

instance (d : Deployment) (opening : Context) (user : Address) (w : World)
    (action : Action) : Decidable (Foreign d opening user w action) :=
  match action with
  | .call _ _ _ => inferInstanceAs (Decidable (_ ∧ _))
  | .token _ _ _ => .isTrue trivial

instance (d : Deployment) (opening : Context) (user : Address) (w : World)
    (action : Action) : Decidable (Sparing d opening user w action) :=
  match action with
  | .call _ _ _ => inferInstanceAs (Decidable (_ ∧ _))
  | .token _ _ _ => .isTrue ⟨trivial, trivial⟩

theorem sharesFit_of_foreign
    (foreign : Foreign d opening user w action) :
    SharesFit d w action := by
  cases action with
  | call => exact foreign.2.2.2
  | token => exact trivial

/-- What a step by others does to an up-to-date market. -/
inductive ForeignEffect
    (d : Deployment) (id : Bytes32) (user : Address)
    (w : World) (action : Action) (w' : World) : Prop where
  | aside (supply :
        supplyPool (w'.lending.market id) = supplyPool (w.lending.market id))
      (borrow :
        borrowPool (w'.lending.market id) = borrowPool (w.lending.market id))
      (position : w'.lending.position id user = w.lending.position id user)
  | operation {ctx : Context} {call : Call} {event : Event} {flow : Flow}
      (sent : action = .call ctx call event)
      (counted : operationsOn d id action = 1)
      (ledger : LedgerStep ctx id (w.lending.market id)
          (w.lending.position id (call.account ctx)) call event
          (w'.lending.market id)
          (w'.lending.position id (call.account ctx)) flow)
      (fit : Event.SharesFit (w.lending.market id) event)
      (noBadDebt : ¬ event.realizesBadDebt)
      (others : call.account ctx ≠ user →
        w'.lending.position id user = w.lending.position id user)

theorem foreign_effect
    (step : Step d w action w') (foreign : Foreign d opening user w action)
    (clock : UpToDate opening id w) :
    UpToDate opening id w' ∧ ForeignEffect d id user w action w' := by
  cases step_effect step with
  | token => exact ⟨clock, .aside rfl rfl rfl⟩
  | @created ctx params outside submitted valid fresh =>
      rcases foreign with ⟨sameBlock, _⟩
      by_cases same : id = d.idOf params
      · subst id
        simp only [UpToDate, created, Function.update_self]
        refine ⟨?_, .aside ?_ ?_ rfl⟩
        · rw [widen_narrow_now, now_congr sameBlock]
        · simp only [Function.update_self, supplyPool]
        · simp only [Function.update_self, borrowPool]
      · simp only [UpToDate, created, Function.update_of_ne same]
        refine ⟨clock, .aside ?_ ?_ rfl⟩
        · simp only [Function.update_of_ne same]
        · simp only [Function.update_of_ne same]
  | @performed ctx call event w' m m' p' flow outside submitted executed =>
      rcases foreign with ⟨sameBlock, sender, noBadDebt, fit⟩
      by_cases same : id = d.idOf call.params
      · subst id
        have clock' : UpToDate ctx (d.idOf call.params) w :=
          clock.trans (now_congr sameBlock).symm
        have still := still_of_executed executed clock'
        subst still
        have ledger := executed.ledger
        rw [← executed.market, ← executed.position] at ledger
        refine ⟨?_, .operation rfl (if_pos rfl) ledger
          (sharesFit_of_executed executed fit) noBadDebt ?_⟩
        · rw [UpToDate, ledger.lastUpdate]
          exact clock
        · intro others
          rw [executed.frame.position, Function.update_self,
            Function.update_of_ne (Ne.symm others)]
      · have market : w'.lending.market id = w.lending.market id := by
          rw [executed.frame.market, Function.update_of_ne same]
        have position :
            w'.lending.position id user = w.lending.position id user := by
          rw [executed.frame.position, Function.update_of_ne same]
        refine ⟨?_, .aside ?_ ?_ position⟩
        · rw [UpToDate, market]
          exact clock
        · rw [market]
        · rw [market]

theorem supplyShares_of_liquidate
    {borrower : Address} {seizedAssets : U256}
    (ledger :
      LedgerStep ctx id m p (.liquidate params borrower seizedAssets) event
        m' p' flow) :
    p'.supplyShares = p.supplyShares := by
  cases ledger with
  | liquidate _ _ _ _ _ _ _ _ _ _ writtenOff =>
      exact writtenOff.others.2.1

theorem supplyShares_of_effect
    (foreign : Foreign d opening user w action)
    (effect : ForeignEffect d id user w action w') :
    (w'.lending.position id user).supplyShares =
      (w.lending.position id user).supplyShares := by
  cases effect with
  | aside _ _ position => rw [position]
  | @operation ctx call event flow sent _ ledger _ _ others =>
      subst sent
      by_cases same : call.account ctx = user
      · subst user
        cases call with
        | liquidate params borrower seizedAssets =>
            exact supplyShares_of_liquidate ledger
        | _ => exact absurd rfl foreign.2.1
      · rw [others same]

theorem position_of_sparing
    (sparing : match action with
      | .call ctx call _ => call.account ctx ≠ user
      | .token _ _ _ => True)
    (effect : ForeignEffect d id user w action w') :
    w'.lending.position id user = w.lending.position id user := by
  cases effect with
  | aside _ _ position => exact position
  | operation sent _ _ _ _ others =>
      subst sent
      exact others sparing

/-! ## The supply side -/

theorem supplySums_of_sharesFit (reached : Reached d (SharesFit d) w) :
    AddsUp (fun p => p.supplyShares.toNat)
      (fun m => m.totalSupplyShares.toNat) w.lending := by
  refine supplySums ?_ reached
  intro ctx call event w w' m m' p' flow executed fit
  have ledger := executed.ledger
  have fits := sharesFit_of_executed executed fit
  cases call with
  | supply params assets =>
      intro other accrued
      have same : other = m :=
        Except.ok.inj (accrued.symm.trans executed.accrued)
      subst other
      cases ledger with
      | supply _ _ sharesEq =>
          rw [Event.SharesFit, sharesEq] at fits
          exact (Nat.div_lt_iff_lt_mul (supplyPool_priced m)).mp fits
  | _ => exact trivial

theorem included_of_supplySums
    {shares : Nat} (reached : Reached d (SharesFit d) w)
    (held : shares ≤ (w.lending.position id user).supplyShares.toNat) :
    shares ≤ (supplyPool (w.lending.market id)).shares :=
  le_trans held (le_trans ((supplySums_of_sharesFit reached).entry_le id user)
      (Nat.le_add_right _ _))

theorem supplyDrift_of_effect
    (unit : Nat) (effect : ForeignEffect d id user w action w') :
    PriceLe (supplyPool (w.lending.market id))
        (supplyPool (w'.lending.market id)) ∧
      (0 < unit → (supplyPool (w.lending.market id)).assets ≤
            unit * (supplyPool (w.lending.market id)).shares →
          RisesWithin (operationsOn d id action * unit)
            (supplyPool (w.lending.market id))
            (supplyPool (w'.lending.market id))) := by
  cases effect with
  | aside supply =>
      rw [supply]
      exact ⟨PriceLe.refl _, fun _ _ => .of_priceLe (PriceLe.refl _)⟩
  | operation sent counted ledger fit noBadDebt =>
      refine ⟨supplyPrice_of_ledger ledger fit noBadDebt, ?_⟩
      intro positive priced
      rw [counted, Nat.one_mul]
      exact supplyPrice_risesWithin ledger fit noBadDebt positive priced

theorem supplyValue_of_run
    {unit shares operations : Nat}
    (run : System.CostedRun (lending d) (Foreign d opening user)
        (operationsOn d id) w operations w')
    (reached : Reached d (SharesFit d) w) (clock : UpToDate opening id w)
    (held : shares ≤ (w.lending.position id user).supplyShares.toNat)
    (positive : 0 < unit)
    (priced : (supplyPool (w'.lending.market id)).assets ≤
        unit * (supplyPool (w'.lending.market id)).shares) :
    UpToDate opening id w' ∧ PriceLe (supplyPool (w.lending.market id))
        (supplyPool (w'.lending.market id)) ∧
      (supplyPool (w'.lending.market id)).value shares ≤
        (supplyPool (w.lending.market id)).value shares +
          (operations * unit : Nat) := by
  induction run with
  | done =>
      refine ⟨clock, PriceLe.refl _, ?_⟩
      simp
  | @step source middle target action total permitted step rest ih =>
      rcases foreign_effect step permitted clock with ⟨clock', effect⟩
      have reached' : Reached d (SharesFit d) middle :=
        reached_step reached (sharesFit_of_foreign permitted) step
      have held' :
          shares ≤ (middle.lending.position id user).supplyShares.toNat := by
        rw [supplyShares_of_effect permitted effect]
        exact held
      rcases ih reached' clock' held' priced with
        ⟨clockEnd, risenRest, valueRest⟩
      rcases supplyDrift_of_effect unit effect with ⟨risen, drift⟩
      have priced' := priced_of_priceLe (supplyPool_divided _) risenRest priced
      have pricedSource :=
        priced_of_priceLe (supplyPool_divided _) risen priced'
      have valueStep := value_le_add_of_risesWithin (supplyPool_divided _)
          (supplyPool_divided _) (included_of_supplySums reached' held')
          (drift positive pricedSource)
      refine ⟨clockEnd, risen.trans (supplyPool_divided _) risenRest, ?_⟩
      rw [Nat.add_mul, Nat.cast_add]
      linarith

/-- An account supplies, others act, and it withdraws what it got. -/
structure SupplyTrip (d : Deployment) where
  (start entered left final : World)
  (opening closing : Context)
  (params : MarketParams)
  (closingCall : Call)
  (paid issued received burned : U256)
  (operations : Nat)
  reached : Reached d (SharesFit d) start
  supplied : Step d start (.call opening (.supply params paid)
        (.supply (d.idOf params) opening.msgSender paid issued))
      entered
  issuedFits : issued.toNat < 2 ^ 128
  between : System.CostedRun (lending d) (Foreign d opening opening.msgSender)
      (operationsOn d (d.idOf params)) entered operations left
  withdrawn : Step d left (.call closing closingCall
        (.withdraw (d.idOf params) closing.msgSender received burned))
      final
  sameSender : closing.msgSender = opening.msgSender
  sameBlock : closing.timestamp = opening.timestamp
  everything : burned.toNat ≤ issued.toNat

theorem entered_of_supply
    {assets shares : U256}
    (step : Step d w (.call ctx (.supply params assets)
          (.supply (d.idOf params) ctx.msgSender assets shares))
        w')
    (fits : shares.toNat < 2 ^ 128) :
    UpToDate ctx (d.idOf params) w' ∧ shares.toNat ≤
        (w'.lending.position (d.idOf params) ctx.msgSender).supplyShares.toNat ∧
      (supplyPool (w'.lending.market (d.idOf params))).value shares.toNat ≤
        (assets.toNat : ℚ) := by
  cases step_effect step with
  | @performed _ _ _ _ m m' p' flow _ _ executed =>
      have ledger := executed.ledger
      have market : w'.lending.market (d.idOf params) = m' := executed.market
      have position : w'.lending.position (d.idOf params) ctx.msgSender = p' :=
        executed.position
      rw [market, position]
      refine ⟨upToDate_of_executed executed rfl, ?_, ?_⟩
      · cases ledger with
        | supply _ _ _ positionEq =>
            dsimp only
            rw [← positionEq]
            exact Nat.le_add_left _ _
      · apply (value_le_iff (supplyPool_divided _)).mpr
        have risen := supplyPrice_of_ledger ledger fits not_false
        cases ledger with
        | supply _ _ _ _ totalSharesEq totalAssetsEq =>
            rw [Nat.mod_eq_of_lt fits] at totalSharesEq
            exact (pool_entered totalAssetsEq
              totalSharesEq).leave_priceGe_iff.mp risen

theorem received_le_value
    {assets shares : U256}
    (step : Step d w
        (.call ctx call (.withdraw id ctx.msgSender assets shares)) w')
    (clock : UpToDate ctx id w) :
    (assets.toNat : ℚ) ≤
      (supplyPool (w.lending.market id)).value shares.toNat := by
  cases step_effect step with
  | @performed _ _ _ _ m m' p' flow _ _ executed =>
      apply (le_value_iff (supplyPool_divided _)).mpr
      have ledger := executed.ledger
      generalize named : d.idOf call.params = other at ledger
      cases ledger with
      | withdraw _ _ sharesEq =>
          subst named
          rw [← still_of_executed executed clock, sharesEq]
          exact le_mulDivCeil_mul (supplyPool_priced m)
      | withdrawAll _ _ assetsEq =>
          subst named
          rw [← still_of_executed executed clock, assetsEq]
          exact mulDivFloor_mul_le

theorem supplyTrip_bound (trip : SupplyTrip d) :
    trip.received.toNat ≤ trip.paid.toNat + trip.operations * (supplyPool
        (trip.left.lending.market (d.idOf trip.params))).worthUp 1 := by
  rcases entered_of_supply trip.supplied trip.issuedFits with
    ⟨clock, held, enteredValue⟩
  have reached : Reached d (SharesFit d) trip.entered := by
    refine reached_step trip.reached ?_ trip.supplied
    intro m _
    exact trip.issuedFits
  rcases supplyValue_of_run trip.between reached clock held
    (worthUp_one_pos (supplyPool_priced _) (supplyPool_divided _))
    (assets_le_worthUp_one (supplyPool_divided _)) with
    ⟨clock', _, leftValue⟩
  have paidOut := received_le_value trip.withdrawn
      (clock'.trans (now_congr trip.sameBlock).symm)
  have part : (supplyPool (trip.left.lending.market (d.idOf trip.params))).value
            trip.burned.toNat ≤
        (supplyPool (trip.left.lending.market (d.idOf trip.params))).value
            trip.issued.toNat :=
    value_mono trip.everything
  have total := le_trans paidOut (le_trans part
      (le_trans leftValue (add_le_add_left enteredValue _)))
  exact_mod_cast total

/-! ## The borrow side -/

theorem included_of_borrowSums
    {allowed : World → Action → Prop} {shares : Nat}
    (reached : Reached d allowed w)
    (held : shares ≤ (w.lending.position id user).borrowShares.toNat) :
    shares ≤ (borrowPool (w.lending.market id)).shares :=
  le_trans held (le_trans ((borrowSums reached).entry_le id user)
      (Nat.le_add_right _ _))

theorem priced_of_eases
    {unit : Nat} (eases : DebtEases m m') (positive : 0 < unit)
    (priced : (borrowPool m).assets ≤ unit * (borrowPool m).shares) :
    (borrowPool m').assets ≤ unit * (borrowPool m').shares := by
  rcases eases with cheaper | empty
  · exact priced_of_priceLe (borrowPool_divided m) cheaper priced
  · rw [borrowPool_assets, empty]
    exact Nat.mul_pos positive (borrowPool_divided m')

theorem borrowDrift_of_effect
    {unit : Nat} (effect : ForeignEffect d id user w action w')
    (covered : Covered (w.lending.market id)) (positive : 0 < unit)
    (priced : (borrowPool (w.lending.market id)).assets ≤
        unit * (borrowPool (w.lending.market id)).shares) :
    (borrowPool (w'.lending.market id)).assets ≤
        unit * (borrowPool (w'.lending.market id)).shares ∧
      FallsWithin (operationsOn d id action * unit)
        (borrowPool (w.lending.market id))
        (borrowPool (w'.lending.market id)) := by
  cases effect with
  | aside _ borrow =>
      rw [borrow]
      exact ⟨priced, .of_priceLe (PriceLe.refl _)⟩
  | operation sent counted ledger fit noBadDebt =>
      rw [counted, Nat.one_mul]
      exact ⟨priced_of_eases (borrowPrice_of_ledger ledger fit covered)
          positive priced,
        borrowPrice_fallsWithin ledger fit noBadDebt positive priced⟩

theorem borrowValue_of_run
    {unit shares operations : Nat}
    (run : System.CostedRun (lending d) (Sparing d opening user)
        (operationsOn d id) w operations w')
    (reached : Reached d (SharesFit d) w) (clock : UpToDate opening id w)
    (held : shares ≤ (w.lending.position id user).borrowShares.toNat)
    (positive : 0 < unit)
    (priced : (borrowPool (w.lending.market id)).assets ≤
        unit * (borrowPool (w.lending.market id)).shares) :
    UpToDate opening id w' ∧
      shares ≤ (w'.lending.position id user).borrowShares.toNat ∧
      (borrowPool (w.lending.market id)).value shares ≤
        (borrowPool (w'.lending.market id)).value shares +
          (operations * unit : Nat) := by
  induction run with
  | done =>
      refine ⟨clock, held, ?_⟩
      simp
  | @step source middle target action total permitted step rest ih =>
      rcases permitted with ⟨foreign, sparing⟩
      rcases foreign_effect step foreign clock with ⟨clock', effect⟩
      have reached' : Reached d (SharesFit d) middle :=
        reached_step reached (sharesFit_of_foreign foreign) step
      have held' :
          shares ≤ (middle.lending.position id user).borrowShares.toNat := by
        rw [position_of_sparing sparing effect]
        exact held
      rcases borrowDrift_of_effect effect
        (allCovered_of_reached reached id) positive priced with
        ⟨priced', drift⟩
      rcases ih reached' clock' held' priced' with
        ⟨clockEnd, heldEnd, valueRest⟩
      have valueStep := value_le_add_of_fallsWithin (borrowPool_divided _)
          (borrowPool_divided _) (included_of_borrowSums reached' held')
          drift
      refine ⟨clockEnd, heldEnd, ?_⟩
      rw [Nat.add_mul, Nat.cast_add]
      linarith

/-- An account borrows, others act, and it repays all it owes. -/
structure BorrowTrip (d : Deployment) where
  (start entered left final : World)
  (opening closing : Context)
  (params : MarketParams)
  (taken issued repaid settled : U256)
  (operations : Nat)
  reached : Reached d (SharesFit d) start
  borrowed : Step d start (.call opening (.borrow params taken)
        (.borrow (d.idOf params) opening.msgSender taken issued))
      entered
  issuedFits : issued.toNat < 2 ^ 128
  between : System.CostedRun (lending d) (Sparing d opening opening.msgSender)
      (operationsOn d (d.idOf params)) entered operations left
  repaidAll : Step d left (.call closing (.repayAll params)
        (.repay (d.idOf params) closing.msgSender repaid settled))
      final
  sameSender : closing.msgSender = opening.msgSender
  sameBlock : closing.timestamp = opening.timestamp

theorem entered_of_borrow
    {assets shares : U256}
    (step : Step d w (.call ctx (.borrow params assets)
          (.borrow (d.idOf params) ctx.msgSender assets shares))
        w')
    (fits : shares.toNat < 2 ^ 128) :
    UpToDate ctx (d.idOf params) w' ∧ shares.toNat ≤
        (w'.lending.position (d.idOf params) ctx.msgSender).borrowShares.toNat ∧
      (assets.toNat : ℚ) ≤
        (borrowPool (w'.lending.market (d.idOf params))).value
          shares.toNat := by
  cases step_effect step with
  | @performed _ _ _ _ m m' p' flow _ _ executed =>
      have ledger := executed.ledger
      have market : w'.lending.market (d.idOf params) = m' := executed.market
      have position : w'.lending.position (d.idOf params) ctx.msgSender = p' :=
        executed.position
      rw [market, position]
      refine ⟨upToDate_of_executed executed rfl, ?_, ?_⟩
      · cases ledger with
        | borrow _ _ _ positionEq =>
            rw [Nat.mod_eq_of_lt fits] at positionEq
            dsimp only
            rw [← positionEq]
            exact Nat.le_add_left _ _
      · apply (le_value_iff (borrowPool_divided _)).mpr
        cases ledger with
        | borrow _ _ sharesEq _ totalSharesEq totalAssetsEq =>
            rw [Nat.mod_eq_of_lt fits] at totalSharesEq
            have entered := pool_entered totalAssetsEq totalSharesEq
            apply entered.leave_priceLe_iff.mp
            apply entered.priceGe_iff.mpr
            rw [sharesEq]
            exact le_mulDivCeil_mul (borrowPool_priced m)

theorem value_le_repaid
    {assets shares : U256}
    (step : Step d w (.call ctx (.repayAll params)
        (.repay (d.idOf params) ctx.msgSender assets shares)) w')
    (clock : UpToDate ctx (d.idOf params) w) :
    (borrowPool (w.lending.market (d.idOf params))).value
        (w.lending.position (d.idOf params) ctx.msgSender).borrowShares.toNat ≤
      (assets.toNat : ℚ) := by
  cases step_effect step with
  | @performed _ _ _ _ m m' p' flow _ _ executed =>
      apply (value_le_iff (borrowPool_divided _)).mpr
      have ledger := executed.ledger
      have still : m = w.lending.market (d.idOf params) :=
        still_of_executed executed clock
      cases ledger with
      | repayAll _ _ assetsEq =>
          rw [← still, assetsEq]
          exact le_mulDivCeil_mul (borrowPool_divided m)

theorem borrowTrip_bound (trip : BorrowTrip d) :
    trip.taken.toNat ≤ trip.repaid.toNat + trip.operations * (borrowPool
        (trip.entered.lending.market (d.idOf trip.params))).worthUp 1 := by
  rcases entered_of_borrow trip.borrowed trip.issuedFits with
    ⟨clock, held, enteredValue⟩
  have reached : Reached d (SharesFit d) trip.entered := by
    refine reached_step trip.reached ?_ trip.borrowed
    intro m _
    exact trip.issuedFits
  rcases borrowValue_of_run trip.between reached clock held
    (worthUp_one_pos (borrowPool_priced _) (borrowPool_divided _))
    (assets_le_worthUp_one (borrowPool_divided _)) with
    ⟨clock', held', leftValue⟩
  have settled := value_le_repaid trip.repaidAll
      (clock'.trans (now_congr trip.sameBlock).symm)
  rw [trip.sameSender] at settled
  have total := le_trans enteredValue (le_trans leftValue
      (add_le_add_left (le_trans (value_mono held') settled) _))
  exact_mod_cast total

def RealizesBadDebt : Action → Prop
  | .call _ _ event => event.realizesBadDebt
  | .token _ _ _ => False

theorem supplyPrice_of_step
    (step : Step d w action w') (fit : SharesFit d w action)
    (noBadDebt : ¬ RealizesBadDebt action) (id : Bytes32) :
    PriceLe (supplyPool (w.lending.market id))
      (supplyPool (w'.lending.market id)) := by
  cases step_effect step with
  | token => exact PriceLe.refl _
  | @created ctx params outside submitted valid fresh =>
      by_cases same : id = d.idOf params
      · subst same
        simp only [created, Function.update_self, supplyPool, PriceLe.refl]
      · simp only [created, Function.update_of_ne same, PriceLe.refl]
  | @performed ctx call event w' m m' p' flow outside submitted executed =>
      rw [executed.frame.market]
      by_cases same : id = d.idOf call.params
      · subst same
        rw [Function.update_self]
        have accrued : PriceLe (supplyPool _) (supplyPool m) :=
          supplyPrice_of_grown executed.grown
        have operated : PriceLe (supplyPool m) (supplyPool m') :=
          supplyPrice_of_ledger executed.ledger
            (sharesFit_of_executed executed fit) noBadDebt
        exact accrued.trans (supplyPool_divided m) operated
      · rw [Function.update_of_ne same]

/--
The price of supply shares never falls short of bad debt; and within a block
a round trip gains at most one share, rounded up to a whole asset, for each
call of others on the market, on either side of it.
-/
theorem sharePrice_laws (d : Deployment) :
    (∀ w action w' id, Reached d (SharesFit d) w → Step d w action w' →
        SharesFit d w action → ¬ RealizesBadDebt action →
          PriceLe (supplyPool (w.lending.market id))
            (supplyPool (w'.lending.market id))) ∧
      (∀ ctx params m m', accrueMarket ctx params m = .ok m' →
        PriceLe (supplyPool m) (supplyPool m')) ∧
      (∀ trip : SupplyTrip d, trip.received.toNat ≤ trip.paid.toNat +
          trip.operations * (supplyPool (trip.left.lending.market
              (d.idOf trip.params))).worthUp 1) ∧
      ∀ trip : BorrowTrip d, trip.taken.toNat ≤ trip.repaid.toNat +
          trip.operations * (borrowPool (trip.entered.lending.market
              (d.idOf trip.params))).worthUp 1 := by
  refine ⟨?_, ?_, supplyTrip_bound, borrowTrip_bound⟩
  · intro w action w' id reached step fit noBadDebt
    exact supplyPrice_of_step step fit noBadDebt id
  · intro ctx params m m' accrued
    exact supplyPrice_of_grown (accrueMarket_ok accrued).grown

/-! ## Others do leave rounding behind -/

section Bracket

variable (permitted foreign : World → Action → Prop)
    [∀ w action, Decidable (permitted w action)]
    [∀ w action, Decidable (foreign w action)] (before : List Transaction)
    (opening : Context) (first : Call) (issuing : Event)
    (between : List Transaction)
    (closing : Context) (last : Call) (settling : Event)

/--
The transactions run one after the other, and the calls around `between` emit
the given events.
-/
def bracket : Bool :=
  (script solo permitted before soloWorld).any fun start =>
    (exec solo opening first start).toOption.any fun entered =>
      decide (entered.1 = issuing) &&
        (script solo foreign between entered.2).any fun left =>
          (exec solo closing last left).toOption.any fun final =>
            decide (final.1 = settling)

variable
    {permitted foreign before opening first issuing between closing last
      settling}

theorem trip_of_bracket
    (cost : Action → Nat)
    (openingAdmissible : (Transaction.call opening first).Admissible solo)
    (closingAdmissible : (Transaction.call closing last).Admissible solo)
    (beforeAdmissible : ∀ transaction ∈ before, transaction.Admissible solo)
    (betweenAdmissible : ∀ transaction ∈ between, transaction.Admissible solo)
    (ran :
      bracket permitted foreign before opening first issuing between closing
        last settling = true) :
    ∃ start entered left final total, Reached solo permitted start ∧
        Step solo start (.call opening first issuing) entered ∧
        System.CostedRun (lending solo) foreign cost entered total left ∧
        Step solo left (.call closing last settling) final := by
  rcases (Option.any_eq_true _ _).mp ran with ⟨start, reaches, ran⟩
  rcases (Option.any_eq_true _ _).mp ran with ⟨entered, enters, ran⟩
  rw [Bool.and_eq_true, decide_eq_true_eq] at ran
  rcases ran with ⟨issued, ran⟩
  rcases (Option.any_eq_true _ _).mp ran with ⟨left, leaves, ran⟩
  rcases (Option.any_eq_true _ _).mp ran with ⟨final, closes, settled⟩
  rw [decide_eq_true_eq] at settled
  rcases script_costed cost betweenAdmissible leaves with ⟨total, run⟩
  subst issued settled
  have opens := toOption_eq_some.mp enters
  have ends := toOption_eq_some.mp closes
  exact ⟨start, entered.2, left, final.2, total,
    solo_reached beforeAdmissible reaches,
    ⟨openingAdmissible.1, openingAdmissible.2, opens⟩, run,
    ⟨closingAdmissible.1, closingAdmissible.2, ends⟩⟩

end Bracket

/-- A first supplier, a small loan to it, and an account with spare tokens. -/
def opened : List Transaction :=
  [.call (asking 10 1 0) (.createMarket soloMarket),
    .call (asking 10 1 0) (.supply soloMarket 2000),
    .call (asking 11 1 0) (.supplyCollateral soloMarket 1),
    .token 2 11 (.transfer 10 1),
    .token 2 10 (.approve 99 1),
    .call (asking 10 1 0) (.supplyCollateral soloMarket 1),
    .call (asking 10 1 (10 ^ 56)) (.borrow soloMarket 9),
    .token 1 10 (.transfer 11 9999),
    .token 1 11 (.approve 99 9999),
    .token 1 10 (.transfer 12 10000),
    .token 1 12 (.approve 99 10000)]

/-- The block after enough time for two units of interest. -/
def meanwhile (sender : Address) (answer : U256) : Context :=
  asking sender 1000001 answer

/-- Supply one unit, and withdraw nothing for it. -/
def lostSupply : List Transaction :=
  [.call (meanwhile 11 0) (.supply soloMarket 1),
    .call (meanwhile 11 0) (.withdrawAll soloMarket)]

/-- Borrow one unit, and repay two for it. -/
def dearLoan : List Transaction :=
  [.call (meanwhile 10 (10 ^ 56)) (.borrow soloMarket 1),
    .call (meanwhile 10 0) (.repayAll soloMarket)]

theorem meanwhile_admissible
    {sender : Address} {answer : U256} {request : Call}
    (outside : sender ≠ 99) (named : request.params = soloMarket) :
    (Transaction.call (meanwhile sender answer) request).Admissible solo :=
  ⟨outside, named⟩

theorem opened_admissible :
    ∀ transaction ∈ opened, transaction.Admissible solo := by
  simp [opened, Transaction.Admissible, asking, solo, Call.params]

theorem lostSupply_admissible :
    ∀ transaction ∈ lostSupply ++ lostSupply, transaction.Admissible solo := by
  simp [lostSupply, Transaction.Admissible, meanwhile, asking, solo,
    Call.params]

theorem dearLoan_admissible :
    ∀ transaction ∈ .call (meanwhile 10 0) (.repayAll soloMarket) ::
          (dearLoan ++ dearLoan),
      transaction.Admissible solo := by
  simp [dearLoan, Transaction.Admissible, meanwhile, asking, solo, Call.params]

theorem exists_supplyTrip :
    ∃ trip : SupplyTrip solo, trip.closingCall = .withdrawAll soloMarket ∧
        trip.paid.toNat = 10000 ∧ trip.received.toNat = 10001 := by
  have ran : bracket (SharesFit solo) (Foreign solo (meanwhile 12 0) 12) opened
      (meanwhile 12 0) (.supply soloMarket 10000)
      (.supply 7 12 10000 9990014977)
      (lostSupply ++ lostSupply)
      (meanwhile 12 0) (.withdrawAll soloMarket)
      (.withdraw 7 12 10001 9990014977) = true := by
    decide +kernel
  rcases trip_of_bracket (operationsOn solo 7)
    (meanwhile_admissible (by decide) rfl)
    (meanwhile_admissible (by decide) rfl) opened_admissible
    lostSupply_admissible ran with
    ⟨start, entered, left, final, operations, reached, supplied, between,
      withdrawn⟩
  exact
    ⟨{ start, entered, left, final, operations, reached, supplied, between,
        withdrawn
       opening := meanwhile 12 0
       closing := meanwhile 12 0
       params := soloMarket
       closingCall := .withdrawAll soloMarket
       paid := 10000
       issued := 9990014977
       received := 10001
       burned := 9990014977
       issuedFits := by decide
       sameSender := rfl
       sameBlock := rfl
       everything := le_refl _ },
      rfl, rfl, rfl⟩

theorem exists_borrowTrip :
    ∃ trip : BorrowTrip solo,
      trip.taken.toNat = 1000 ∧ trip.repaid.toNat = 998 := by
  have ran : bracket (SharesFit solo) (Sparing solo (meanwhile 11 0) 11) opened
      (meanwhile 11 (10 ^ 56)) (.borrow soloMarket 1000)
      (.borrow 7 11 1000 833333334)
      (.call (meanwhile 10 0) (.repayAll soloMarket) :: (dearLoan ++ dearLoan))
      (meanwhile 11 0) (.repayAll soloMarket)
      (.repay 7 11 998 833333334) = true := by
    decide +kernel
  rcases trip_of_bracket (operationsOn solo 7)
    (meanwhile_admissible (by decide) rfl)
    (meanwhile_admissible (by decide) rfl) opened_admissible
    dearLoan_admissible ran with
    ⟨start, entered, left, final, operations, reached, borrowed, between,
      repaidAll⟩
  exact
    ⟨{ start, entered, left, final, operations, reached, borrowed, between,
        repaidAll
       opening := meanwhile 11 (10 ^ 56)
       closing := meanwhile 11 0
       params := soloMarket
       taken := 1000
       issued := 833333334
       repaid := 998
       settled := 833333334
       issuedFits := by decide
       sameSender := rfl
       sameBlock := rfl },
      rfl, rfl⟩

theorem accrues_interest :
    accrueMarket (meanwhile 12 0) soloMarket
        ⟨2000, 2000000000, 9, 9000000, 1, 2⟩ =
      .ok ⟨2002, 2000000000, 11, 9000000, 1000001, 2⟩ := by
  decide

theorem sharePrice_laws_solo :
    (∃ trip : SupplyTrip solo, trip.received.toNat = 10001 ∧
        PriceLe (supplyPool (trip.start.lending.market 7))
          (supplyPool (trip.entered.lending.market 7)) ∧
        10001 ≤ 10000 + trip.operations *
            (supplyPool (trip.left.lending.market 7)).worthUp 1) ∧
      PriceLe (supplyPool ⟨2000, 2000000000, 9, 9000000, 1, 2⟩)
        (supplyPool ⟨2002, 2000000000, 11, 9000000, 1000001, 2⟩) ∧
      ∃ trip : BorrowTrip solo, trip.repaid.toNat = 998 ∧ 1000 ≤ 998 +
          trip.operations * (borrowPool
              (trip.entered.lending.market 7)).worthUp 1 := by
  rcases sharePrice_laws solo with ⟨ratio, accrual, supply, borrow⟩
  refine ⟨?_, accrual _ _ _ _ accrues_interest, ?_⟩
  · rcases exists_supplyTrip with ⟨trip, _, paid, received⟩
    have bounded := supply trip
    rw [paid, received] at bounded
    have risen := ratio _ _ _ 7 trip.reached trip.supplied
        (fun _ _ => trip.issuedFits) not_false
    exact ⟨trip, received, risen, bounded⟩
  · rcases exists_borrowTrip with ⟨trip, taken, repaid⟩
    have bounded := borrow trip
    rw [taken, repaid] at bounded
    exact ⟨trip, repaid, bounded⟩

/--
Four calls of others within the block, and a supplier gets back more than it
supplied; five, and a borrower repays less than it took.
-/
theorem roundTrips_gain :
    (∃ trip : SupplyTrip solo, trip.closingCall = .withdrawAll soloMarket ∧
        trip.paid.toNat < trip.received.toNat) ∧
      ∃ trip : BorrowTrip solo, trip.repaid.toNat < trip.taken.toNat := by
  constructor
  · rcases exists_supplyTrip with ⟨trip, everything, paid, received⟩
    exact ⟨trip, everything, by rw [paid, received]; decide⟩
  · rcases exists_borrowTrip with ⟨trip, taken, repaid⟩
    exact ⟨trip, by rw [taken, repaid]; decide⟩

end Eris.Lending.RoundTrip
