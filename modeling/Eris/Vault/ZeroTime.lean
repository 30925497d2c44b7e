import Eris.Vault.RedemptionRate

/-!
# Standing in the vault for no time

An account deposits and in the same block requests its shares back; in
between anybody makes permissionless calls.  `deposit` does not settle the
rewards of earlier blocks first, so an accrual between the two calls pays the
depositor its part of them; and the rounding of others' deposits and requests
stays in the pool.  Nothing else can be gained: once the rewards of the block
are settled and nobody intervenes, the account gets back at most what it paid.
-/

namespace Eris.Vault.ZeroTime

open Foundation Foundation.Checked Foundation.Ledger Foundation.SharePool
  Foundation.Transition Evm.Word Evm.Erc20 Data Contract Operations Protocol
  Solvency RedemptionRate

variable {d : Deployment} {ctx opening : Context} {w w' : World} {s : Storage}
    {operation : Operation} {account : Address} {blockNumber : U256}

/-! ## Permissionless calls in between -/

/--
In the block of `opening`, reserved to no operator, and by others: the
account itself may only call `accrueRewards`, and nobody moves its shares.
-/
def Foreign (opening : Context) (account : Address) (w : World)
    (action : Action) : Prop :=
  Acting w action ∧ match action with
    | .call ctx call =>
        ctx.blockNumber = opening.blockNumber ∧ call.privileged = false ∧
            (ctx.msgSender = account → call = .accrueRewards) ∧
              call.movesFrom account = false
    | .weth _ _ => True

instance (w : World) (action : Action) :
    Decidable (Foreign opening account w action) :=
  match action with
  | .call _ _ => inferInstanceAs (Decidable (_ ∧ _))
  | .weth _ _ => inferInstanceAs (Decidable (_ ∧ _))

def ForeignLabel
    (blockNumber : U256) (account : Address) (w : World)
    (label : Label) : Prop :=
  UnslashedLabel w label ∧ match label with
    | .operation ctx operation =>
        ctx.blockNumber = blockNumber ∧ ¬ Takes ctx account operation
    | .weth _ _ => True

theorem request_of_performs
    {call : Call} {shares assets claimableAt : U256}
    (performs : Call.performs ctx call (.request shares assets claimableAt)) :
    call ≠ .accrueRewards := by
  rintro rfl
  exact performs

theorem move_of_performs
    {call : Call} {sender recipient : Address} {amount : U256}
    (performs : Call.performs ctx call (.move sender recipient amount)) :
    (sender = ctx.msgSender ∧ call ≠ .accrueRewards) ∨
      call = .transferFrom sender recipient amount := by
  cases call with
  | transfer =>
      cases performs
      exact .inl ⟨rfl, fun equal => by cases equal⟩
  | transferFrom =>
      cases performs
      exact .inr rfl
  | _ => simp [Call.performs, Operation.accrues] at performs

theorem untaken_of_foreign
    {call : Call} (foreign : Foreign opening account w (.call ctx call))
    (performs : Call.performs ctx call operation) :
    ¬ Takes ctx account operation := by
  rcases foreign with ⟨_, _, _, own, others⟩
  intro takes
  cases operation with
  | request => exact request_of_performs performs (own takes)
  | move sender recipient amount =>
      rcases takes with ⟨rfl, _⟩
      rcases move_of_performs performs with ⟨itself, notAccrual⟩ | moved
      · exact notAccrual (own itself.symm)
      · subst moved
        simp [Call.movesFrom] at others
  | _ => exact takes

theorem covers_foreign :
    Covers (Foreign opening account)
      (ForeignLabel opening.blockNumber account) := by
  constructor
  · intro world inside ctx call operation foreign performs
    refine ⟨⟨foreign.1, ?_⟩, foreign.2.1, ?_⟩
    · intro other assets equal
      cases equal
      rcases slash_of_performs performs with ⟨bps, rfl⟩
      cases foreign.2.2.1
    · exact untaken_of_foreign foreign performs
  · intro world caller call _
    exact ⟨⟨trivial, fun _ _ equal => by cases equal⟩, trivial⟩

theorem drift_of_operated
    {unit : Nat} (guarded : Guarded w.vault) (seeded : Seeded w.vault)
    (unslashed : ∀ assets, operation ≠ .slash assets)
    (operated : Operated d ctx w operation w') (positive : 0 < unit)
    (priced : (ratePool w.vault).assets ≤ unit * (ratePool w.vault).shares) :
    ∃ gain, total accruedBy w'.log = total accruedBy w.log + gain ∧
        RisesWithin (gain + operation.drift * unit) (ratePool w.vault)
          (ratePool w'.vault) := by
  have adds := guarded.adds
  cases operated with
  | @accrue assets reserve pooled late live taken given =>
      refine ⟨assets.toNat, by simp [total_logged, accruedBy], ?_⟩
      show pooled.toNat * _ ≤ _ * _ + (assets.toNat + 0 * unit) * _
      rw [given, Nat.zero_mul, Nat.add_zero, Nat.add_mul]
      exact le_refl _
  | bootstrap empty =>
      exact absurd (.inl empty) (seeded.live adds)
  | @deposit receiver assets shares pooled supply balance weth live
      quoted some given minted paid =>
      refine ⟨0, by simp [total_logged, accruedBy], ?_⟩
      show RisesWithin (0 + 1 * unit) (ratePool w.vault) _
      rw [Nat.zero_add, Nat.one_mul]
      have entered : Entered (ratePool w.vault) ⟨pooled.toNat, supply.toNat⟩
            assets.toNat shares.toNat :=
        ⟨given.symm, minted.supply.symm⟩
      rw [seeded.convertToShares_eq adds] at quoted
      apply entered.risesWithin_iff.mpr
      rw [(mulDivDown_eq_ok.mp quoted).2.2]
      exact le_trans (lt_mulDivFloor_mul seeded.backed).le
        (Nat.add_le_add_left priced _)
  | @request shares assets claimableAt pooled pending supply balance open_
      drain quoted some burned taken =>
      refine ⟨0, by simp [total_logged, accruedBy], ?_⟩
      show RisesWithin (0 + 1 * unit) (ratePool w.vault) _
      rw [Nat.zero_add, Nat.one_mul]
      have entered : Entered ⟨pooled.toNat, supply.toNat⟩ (ratePool w.vault)
            assets.toNat shares.toNat :=
        ⟨taken, burned.supply⟩
      rw [seeded.convertToAssets_eq adds] at quoted
      apply entered.leave_risesWithin_iff.mpr
      rw [(mulDivDown_eq_ok.mp quoted).2.2]
      exact le_trans (lt_mulDivFloor_mul (seeded.supply_pos adds)).le
        (Nat.add_le_add_left (Nat.le_mul_of_pos_left _ positive) _)
  | slash => exact absurd rfl (unslashed _)
  | tick => exact ⟨0, rfl, .of_priceLe (PriceLe.refl _)⟩
  | _ =>
      exact ⟨0, by simp [total_logged, accruedBy], .of_priceLe (PriceLe.refl _)⟩

/-- What holds of shares an account holds through a run of others. -/
structure Held
    (unit shares operations : Nat) (account : Address) (w w' : World) :
    Prop where
  stocked : Stocked w'
  held : shares ≤ (w'.vault.balanceOf account).toNat
  dearer : PriceLe (ratePool w.vault) (ratePool w'.vault)
  value : (ratePool w'.vault).value shares + total accruedBy w.log ≤
      (ratePool w.vault).value shares + total accruedBy w'.log +
        (operations * unit : Nat)

theorem included_of_held
    {shares : Nat} (adds : SharesAddUp s)
    (held : shares ≤ (s.balanceOf account).toNat) :
    shares ≤ (ratePool s).shares := by
  have part :=
    entry_le_total (fun account => (s.balanceOf account).toNat) account
  rw [adds] at part
  exact le_trans held part

theorem dearer_of_step
    {label : Label} (stocked : Stocked w)
    (permitted : ForeignLabel blockNumber account w label)
    (step : LedgerStep d w label w') :
    Stocked w' ∧ PriceLe (ratePool w.vault) (ratePool w'.vault) := by
  cases label with
  | weth caller call =>
      rcases step with ⟨_, books, _, rfl⟩
      exact ⟨⟨stocked.guarded, stocked.seeded⟩, PriceLe.refl _⟩
  | operation ctx operation =>
      rcases step with ⟨_, operated⟩
      rcases permitted with ⟨⟨acting, unslashed⟩, _⟩
      refine ⟨⟨?_, ?_⟩, ?_⟩
      · exact guarded_of_operated stocked.guarded acting operated
      · exact seeded_of_operated stocked.seeded stocked.guarded.adds
          stocked.guarded.unspendable acting operated
      · refine ratePool_of_operated stocked.guarded ?_ operated
        rintro assets rfl
        exact unslashed ctx assets rfl

theorem held_of_step
    {unit shares : Nat} {label : Label} (stocked : Stocked w)
    (held : shares ≤ (w.vault.balanceOf account).toNat)
    (permitted : ForeignLabel blockNumber account w label)
    (step : LedgerStep d w label w') (positive : 0 < unit)
    (priced : (ratePool w.vault).assets ≤ unit * (ratePool w.vault).shares) :
    Held unit shares label.drift account w w' := by
  have after := dearer_of_step stocked permitted step
  cases label with
  | weth caller call =>
      rcases step with ⟨_, books, _, rfl⟩
      refine ⟨after.1, held, after.2, ?_⟩
      simp [Label.drift]
  | operation ctx operation =>
      rcases step with ⟨_, operated⟩
      rcases permitted with ⟨⟨_, unslashed⟩, _, untaken⟩
      have held' := le_trans held (balance_le_of_operated untaken operated)
      have noSlash (assets : U256) : operation ≠ .slash assets := by
        rintro rfl
        exact unslashed ctx assets rfl
      rcases drift_of_operated stocked.guarded stocked.seeded noSlash operated
        positive priced with
        ⟨gain, logged, rises⟩
      have adds := after.1.guarded.adds
      have valueStep := value_le_add_of_risesWithin
          (stocked.seeded.supply_pos stocked.guarded.adds)
          (after.1.seeded.supply_pos adds) (included_of_held adds held')
          rises
      refine ⟨after.1, held', after.2, ?_⟩
      rw [logged, Nat.cast_add]
      rw [Nat.cast_add] at valueStep
      show _ ≤ _ + _ + ((operation.drift * unit : Nat) : ℚ)
      linarith

theorem held_of_run
    {unit shares operations : Nat}
    (run : System.CostedRun (ledger d) (ForeignLabel blockNumber account)
        Label.drift w operations w')
    (stocked : Stocked w) (held : shares ≤ (w.vault.balanceOf account).toNat)
    (positive : 0 < unit)
    (priced : (ratePool w'.vault).assets ≤ unit * (ratePool w'.vault).shares) :
    Held unit shares operations account w w' := by
  induction run with
  | done =>
      refine ⟨stocked, held, PriceLe.refl _, ?_⟩
      simp
  | @step source middle target label operations permitted step rest ih =>
      rcases dearer_of_step stocked permitted step with ⟨stocked', risen⟩
      have heldMiddle : shares ≤ (middle.vault.balanceOf account).toNat := by
        cases label with
        | weth caller call =>
            rcases step with ⟨_, books, _, rfl⟩
            exact held
        | operation ctx operation =>
            exact le_trans held (balance_le_of_operated permitted.2.2 step.2)
      have later := ih stocked' heldMiddle priced
      have divided := stocked'.seeded.supply_pos stocked'.guarded.adds
      have dearer := risen.trans divided later.dearer
      have dividedTarget :=
        later.stocked.seeded.supply_pos later.stocked.guarded.adds
      have now := held_of_step stocked held permitted step positive
          (priced_of_priceLe dividedTarget dearer priced)
      refine ⟨later.stocked, later.held, dearer, ?_⟩
      have first := now.value
      have second := later.value
      rw [Nat.add_mul, Nat.cast_add]
      linarith

theorem settled_of_run
    {operations : Nat}
    (run : System.CostedRun (ledger d) (ForeignLabel blockNumber account)
        Label.drift w operations w')
    (settled : w.vault.lastAccrualBlock = blockNumber) :
    total accruedBy w'.log = total accruedBy w.log := by
  induction run with
  | done => rfl
  | @step source middle target label operations permitted step rest ih =>
      cases label with
      | weth caller call =>
          rcases step with ⟨_, books, _, rfl⟩
          exact ih settled
      | operation ctx operation =>
          rcases step with ⟨_, operated⟩
          rcases permitted with ⟨_, sameBlock, _⟩
          rw [← sameBlock] at settled
          have kept : middle.vault.lastAccrualBlock = ctx.blockNumber ∧
              total accruedBy middle.log = total accruedBy source.log := by
            cases operated with
            | tick late => exact absurd settled late
            | accrue late => exact absurd settled late
            | _ => exact ⟨settled, by simp [total_logged, accruedBy]⟩
          rw [sameBlock] at kept
          exact (ih kept.1).trans kept.2

/-! ## Depositing and requesting -/

theorem entered_of_deposit
    {receiver : Address} {assets shares : U256} (guarded : Guarded w.vault)
    (outside : ctx.msgSender ≠ d.self) (acting : ctx.msgSender ≠ BURN_ADDRESS)
    (deposited : deposit d ctx assets receiver w = .ok (shares, w')) :
    Stocked w' ∧ shares.toNat ≤ (w'.vault.balanceOf receiver).toNat ∧
        (ratePool w'.vault).value shares.toNat ≤ (assets.toNat : ℚ) ∧
          w'.vault.lastAccrualBlock = w.vault.lastAccrualBlock ∧
            total accruedBy w'.log = total accruedBy w.log := by
  rcases deposit_ok outside deposited with operated | operated
  · have after := guarded_of_operated guarded acting operated
    cases operated with
    | @bootstrap _ _ _ pooled burntSupply burnt supply balance weth empty
        enough some given locked minted paid =>
        have fresh := guarded.fresh_of_unissued empty
        have supplyEq : supply.toNat = assets.toNat := by
          have issued : supply.toNat = burntSupply.toNat + shares.toNat :=
            minted.supply
          have first := locked.supply
          rw [empty] at first
          rw [issued, first, ← enough]
          exact congrArg (· + shares.toNat) (Nat.zero_add _)
        have pooledEq : pooled.toNat = assets.toNat := by
          rw [given, fresh.unpooled]
          exact Nat.zero_add _
        have live : supply ≠ 0 := by
          apply (toNat_pos_iff supply).mp
          rw [supplyEq, ← enough]
          exact Nat.add_pos_right _ some
        have seeded := after.seeded_of_live live
        refine ⟨⟨after, seeded⟩, ?_, ?_, rfl, ?_⟩
        · dsimp only
          rw [withShares_balanceOf_self, minted.balance]
          exact Nat.le_add_left _ _
        · apply (value_le_iff (seeded.supply_pos after.adds)).mpr
          show shares.toNat * pooled.toNat ≤ assets.toNat * supply.toNat
          rw [pooledEq, supplyEq, ← enough]
          exact Nat.mul_le_mul_right _ (Nat.le_add_left _ _)
        · simp [total_logged, accruedBy]
  · have after := guarded_of_operated guarded acting operated
    cases operated with
    | @deposit _ _ _ pooled supply balance weth live priced some given
        minted paid =>
        have before := guarded.seeded_of_live live
        have seeded : Seeded _ :=
          seeded_of_operated before guarded.adds guarded.unspendable acting
            (.deposit live priced some given minted paid)
        refine ⟨⟨after, seeded⟩, ?_, ?_, rfl, ?_⟩
        · dsimp only
          rw [withShares_balanceOf_self, minted.balance]
          exact Nat.le_add_left _ _
        · have entered : Entered (ratePool w.vault) ⟨pooled.toNat, supply.toNat⟩
                assets.toNat shares.toNat :=
            ⟨given.symm, minted.supply.symm⟩
          apply (value_le_iff (seeded.supply_pos after.adds)).mpr
          exact entered.leave_priceGe_iff.mp
            (deposit_priceLe before guarded.adds priced entered)
        · simp [total_logged, accruedBy]

theorem owed_le_value
    (d : Deployment) {shares : U256} {requestId : Nat} {request : WithdrawalRequest}
    (stocked : Stocked w)
    (requested : requestWithdraw ctx shares w = .ok (requestId, w'))
    (found : w'.vault.withdrawalRequests[requestId]? = some request) :
    (request.assets.toNat : ℚ) ≤ (ratePool w.vault).value shares.toNat := by
  rcases requestWithdraw_ok d requested with
    ⟨rfl, assets, claimableAt, operated⟩
  have adds := stocked.guarded.adds
  cases operated with
  | request priced =>
      simp only [List.getElem?_concat_length, Option.some.injEq] at found
      rw [← found]
      rw [stocked.seeded.convertToAssets_eq adds] at priced
      apply (le_value_iff (stocked.seeded.supply_pos adds)).mpr
      show assets.toNat * _ ≤ _
      rw [(mulDivDown_eq_ok.mp priced).2.2]
      exact mulDivFloor_mul_le

/-- An account deposits, others act, and it requests its shares back. -/
structure StakingTrip (d : Deployment) where
  (start entered left final : World)
  (opening closing : Context)
  (receiver : Address)
  (paid issued : U256)
  (requestId : Nat)
  (request : WithdrawalRequest)
  (operations : Nat)
  reached : Reached d Acting start
  outside : opening.msgSender ≠ d.self
  acting : opening.msgSender ≠ BURN_ADDRESS
  deposited : deposit d opening paid receiver start = .ok (issued, entered)
  between : System.CostedRun (vault d) (Foreign opening receiver) Action.drift
      entered operations left
  requested : requestWithdraw closing issued left = .ok (requestId, final)
  owed : final.vault.withdrawalRequests[requestId]? = some request
  sameAccount : closing.msgSender = receiver
  sameBlock : closing.blockNumber = opening.blockNumber

section Bracket

variable (before : List Action) (opening : Context) (receiver : Address)
    (paid issued lastAccrual : U256)
    (between : List Action) (closing : Context) (owed : U256)

/--
The actions run one after the other, the deposit finds the given last
accrual, and the request is owed the given amount.
-/
def bracket : Bool :=
  (script solo Acting before soloWorld).any fun start =>
    decide (start.vault.lastAccrualBlock = lastAccrual) &&
      (deposit solo opening paid receiver start).toOption.any fun entered =>
        decide (entered.1 = issued) &&
          (script solo (Foreign opening receiver) between entered.2).any
            fun left =>
              (requestWithdraw closing issued left).toOption.any fun final =>
                (final.2.vault.withdrawalRequests[final.1]?).any
                  fun request => decide (request.assets = owed)

variable {before opening receiver paid issued lastAccrual between closing owed}

theorem trip_of_bracket
    (beforeAdmissible : ∀ action ∈ before, action.Admissible solo)
    (betweenAdmissible : ∀ action ∈ between, action.Admissible solo)
    (outside : opening.msgSender ≠ solo.self)
    (acting : opening.msgSender ≠ BURN_ADDRESS)
    (sameAccount : closing.msgSender = receiver)
    (sameBlock : closing.blockNumber = opening.blockNumber)
    (ran : bracket before opening receiver paid issued lastAccrual between
        closing owed = true) :
    ∃ trip : StakingTrip solo, trip.paid = paid ∧ trip.request.assets = owed ∧
        trip.start.vault.lastAccrualBlock = lastAccrual ∧
          trip.opening = opening := by
  rcases (Option.any_eq_true _ _).mp ran with ⟨start, reaches, ran⟩
  rw [Bool.and_eq_true, decide_eq_true_eq] at ran
  rcases ran with ⟨last, ran⟩
  rcases (Option.any_eq_true _ _).mp ran with ⟨entered, enters, ran⟩
  rw [Bool.and_eq_true, decide_eq_true_eq] at ran
  rcases ran with ⟨rfl, ran⟩
  rcases (Option.any_eq_true _ _).mp ran with ⟨left, leaves, ran⟩
  rcases (Option.any_eq_true _ _).mp ran with ⟨final, closes, ran⟩
  rcases (Option.any_eq_true _ _).mp ran with ⟨request, found, due⟩
  rcases script_costed Action.drift betweenAdmissible leaves with
    ⟨operations, between⟩
  exact
    ⟨{ start, left, opening, closing, receiver, paid, request, operations,
        between, outside, acting, sameAccount, sameBlock
       entered := entered.2
       final := final.2
       issued := entered.1
       requestId := final.1
       reached := solo_reached beforeAdmissible reaches
       deposited := toOption_eq_some.mp enters
       requested := toOption_eq_some.mp closes
       owed := found },
      rfl, of_decide_eq_true due, last, rfl⟩

end Bracket

/-- A first staker, funded rewards, and an account with spare WETH. -/
def opened : List Action :=
  [.weth 10 (.transfer 11 10000000000000000),
    .weth 11 (.approve 99 10000000000000000),
    .call (inBlock 1 10) (.deposit 1000000000000000 10),
    .call (inBlock 1 10) (.fundRewards 1000000000000000)]

/-- Rewards are settled, and all but the locked shares are redeemed. -/
def emptied : List Action :=
  opened ++ [.call (inBlock 5 10) .accrueRewards,
      .call (inBlock 5 10) (.requestWithdraw 999999999000000)]

theorem emptied_admissible :
    ∀ action ∈ emptied, action.Admissible solo := by
  simp [emptied, opened, Action.Admissible, inBlock, solo]

theorem opened_admissible : ∀ action ∈ opened, action.Admissible solo := by
  intro action member
  exact emptied_admissible action (List.mem_append_left _ member)

theorem exists_late_trip :
    ∃ trip : StakingTrip solo, trip.paid = 1000000000000000 ∧
        trip.request.assets = 1050000000000000 ∧
          trip.start.vault.lastAccrualBlock = 0 ∧
            trip.opening = inBlock 5 11 := by
  have ran :
      bracket opened (inBlock 5 11) 11 1000000000000000 1000000000000000 0
        [.call (inBlock 5 11) .accrueRewards] (inBlock 5 11)
        1050000000000000 = true := by
    decide
  exact trip_of_bracket opened_admissible
    (by simp [Action.Admissible, inBlock, solo])
    (by decide) (by decide) rfl rfl ran

/-- Deposits of two wei, each of which pays for more than its one share. -/
def crumbs : List Action :=
  [.call (inBlock 5 10) (.deposit 2 10), .call (inBlock 5 10) (.deposit 2 10),
    .call (inBlock 5 10) (.deposit 2 10),
    .call (inBlock 5 10) (.deposit 2 10)]

theorem exists_crumbs_trip :
    ∃ trip : StakingTrip solo, trip.paid = 1000000000 ∧
        trip.request.assets = 1000000003 ∧
          trip.start.vault.lastAccrualBlock = 5 ∧
            trip.opening = inBlock 5 11 := by
  have ran : bracket emptied (inBlock 5 11) 11 1000000000 952380952 5 crumbs
      (inBlock 5 11) 1000000003 = true := by
    decide
  exact trip_of_bracket emptied_admissible
    (by simp [crumbs, Action.Admissible, inBlock, solo])
    (by decide) (by decide) rfl rfl ran

end Eris.Vault.ZeroTime
