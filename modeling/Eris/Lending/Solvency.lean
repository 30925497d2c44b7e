import Eris.Lending.Protocol

/-!
# The contract can always pay what its books promise

A market owes its suppliers the assets it has not lent out, and its borrowers
their collateral.  Summed over all markets, and whichever of them share a
token, these promises stay below the contract's own balance of the token.

One operation never raises the cash of its market by more than the tokens it
moved in, and never lowers it by less than the tokens it moved out; interest
raises both asset totals alike and so concerns nobody's cash.  Everything
else is bookkeeping: a stored market carries the parameters its digest names,
and nobody can take tokens from a contract which approved nobody.
-/

namespace Eris.Lending.Solvency

open Foundation Foundation.Ledger Foundation.Transition Evm.Word Evm.Erc20 Data
  Contract Accrual Execution Protocol

def Covered (m : Market) : Prop :=
  m.totalBorrowAssets.toNat ≤ m.totalSupplyAssets.toNat

/-- The supplied assets which are not lent out. -/
def cash (m : Market) : Nat :=
  m.totalSupplyAssets.toNat - m.totalBorrowAssets.toNat

section OneMarket

variable {ctx : Context} {id : Bytes32} {m m' : Market} {p p' : Position}
    {call : Call} {event : Event} {flow : Flow} {badDebt : Nat}

theorem covered_of_grown
    (grown : Grown m m') (covered : Covered m) :
    Covered m' := by
  rcases grown.interest with ⟨interest, supply, borrow⟩
  rw [Covered, supply, borrow]
  exact Nat.add_le_add_right covered interest

theorem cash_of_grown (grown : Grown m m') :
    cash m' = cash m := by
  rcases grown.interest with ⟨interest, supply, borrow⟩
  rw [cash, supply, borrow, Nat.add_sub_add_right]
  rfl

theorem covered_of_writeOff
    (writtenOff : WriteOff m p badDebt m' p') (covered : Covered m) :
    Covered m' ∧ cash m' ≤ cash m := by
  cases writtenOff with
  | none => exact ⟨covered, le_refl _⟩
  | all _ _ badDebtEq _ borrowEq supplyEq =>
      simp only [Covered, cash] at covered ⊢
      omega

theorem covered_of_ledger
    (ledger : LedgerStep ctx id m p call event m' p' flow)
    (covered : Covered m) :
    Covered m' := by
  cases ledger with
  | supply _ _ _ _ _ totalAssetsEq =>
      exact le_trans covered (Nat.le.intro totalAssetsEq)
  | withdraw _ _ _ _ _ _ liquid => exact liquid
  | withdrawAll _ _ _ _ _ liquid => exact liquid
  | supplyCollateral => exact covered
  | withdrawCollateral => exact covered
  | borrow _ _ _ _ _ _ _ liquid => exact liquid
  | repay _ _ _ _ _ _ totalAssetsEq =>
      refine le_trans ?_ covered
      rw [totalAssetsEq]
      exact Nat.sub_le _ _
  | repayAll _ _ _ _ totalAssetsEq =>
      refine le_trans ?_ covered
      rw [totalAssetsEq]
      exact Nat.sub_le _ _
  | liquidate _ _ _ _ _ _ _ totalAssetsEq _ _ writtenOff =>
      refine (covered_of_writeOff writtenOff ?_).1
      refine le_trans ?_ covered
      rw [totalAssetsEq]
      exact Nat.sub_le _ _

theorem cash_of_repaid
    {repaid : Nat} {totalBorrowAssets : U128}
    (totalAssetsEq :
      totalBorrowAssets.toNat = m.totalBorrowAssets.toNat - repaid) :
    m.totalSupplyAssets.toNat - totalBorrowAssets.toNat ≤ cash m + repaid := by
  rw [totalAssetsEq, cash]
  omega

theorem cash_of_ledger
    (ledger : LedgerStep ctx id m p call event m' p' flow)
    (covered : Covered m) :
    cash m' + flow.loanOut ≤ cash m + flow.loanIn := by
  have covered' := covered_of_ledger ledger covered
  simp only [Covered] at covered covered'
  cases ledger with
  | supply _ _ _ _ _ totalAssetsEq =>
      simp only [cash]
      omega
  | withdraw _ _ _ _ _ totalAssetsEq liquid =>
      simp only [cash]
      omega
  | withdrawAll _ _ _ _ totalAssetsEq liquid =>
      simp only [cash]
      omega
  | supplyCollateral => exact le_refl _
  | withdrawCollateral => exact le_refl _
  | borrow _ _ _ _ _ totalAssetsEq _ liquid =>
      simp only [cash]
      omega
  | repay _ _ _ _ _ _ totalAssetsEq =>
      exact cash_of_repaid totalAssetsEq
  | repayAll _ _ _ _ totalAssetsEq =>
      exact cash_of_repaid totalAssetsEq
  | liquidate _ _ _ _ _ _ _ totalAssetsEq _ _ writtenOff =>
      refine le_trans (covered_of_writeOff writtenOff ?_).2
        (cash_of_repaid totalAssetsEq)
      simp only [Covered]
      omega

theorem collateral_of_ledger
    (ledger : LedgerStep ctx id m p call event m' p' flow) :
    m'.totalCollateralAssets.toNat + flow.collateralOut =
      m.totalCollateralAssets.toNat + flow.collateralIn := by
  cases ledger with
  | supply => rfl
  | withdraw => rfl
  | withdrawAll => rfl
  | supplyCollateral _ _ _ totalEq => exact totalEq.symm
  | withdrawCollateral _ _ _ totalEq => exact totalEq
  | borrow => rfl
  | repay => rfl
  | repayAll => rfl
  | liquidate _ _ _ _ _ _ _ _ _ totalCollateralEq writtenOff =>
      rw [writtenOff.others.2.2.1, Nat.add_zero]
      exact totalCollateralEq

end OneMarket

/-- In every market no more is lent than was supplied. -/
def AllCovered (s : Storage) : Prop := ∀ id, Covered (s.market id)

variable {d : Deployment} {allowed : World → Action → Prop} {w : World}

theorem allCovered_of_reached (reached : Reached d allowed w) :
    AllCovered w.lending := by
  refine storage_invariant ?_ ?_ ?_ reached
  · intro id
    exact Nat.le_refl 0
  · intro ctx params s holds _ _ id
    by_cases same : id = d.idOf params
    · subst id
      simp only [created, Function.update_self]
      exact holds _
    · simp only [created, Function.update_of_ne same]
      exact holds id
  · intro ctx call event w w' m m' p' flow holds _ _ executed id
    by_cases same : id = d.idOf call.params
    · subst id
      rw [executed.market]
      exact covered_of_ledger executed.ledger
        (covered_of_grown executed.grown (holds _))
    · rw [executed.frame.market, Function.update_of_ne same]
      exact holds id

/-- A market is blank, or carries the parameters its digest names. -/
def Known (d : Deployment) (s : Storage) : Prop :=
  ∀ id, s.market id = .zero ∨
    s.marketParams id ∈ d.submitted ∧ d.idOf (s.marketParams id) = id

theorem known_of_reached (reached : Reached d allowed w) :
    Known d w.lending := by
  refine storage_invariant ?_ ?_ ?_ reached
  · intro id
    exact .inl rfl
  · intro ctx params s holds submitted _ id
    by_cases same : id = d.idOf params
    · subst id
      simp only [created, Function.update_self]
      exact .inr ⟨submitted, trivial⟩
    · simp only [created, Function.update_of_ne same]
      exact holds id
  · intro ctx call event w w' m m' p' flow holds _ _ executed id
    rw [executed.frame.marketParams]
    by_cases same : id = d.idOf call.params
    · subst id
      rcases holds (d.idOf call.params) with blank | known
      · exact absurd (congrArg Market.lastUpdate blank) executed.created
      · exact .inr known
    · rw [executed.frame.market, Function.update_of_ne same]
      exact holds id

theorem Known.params_eq
    {s : Storage} {params : MarketParams} (known : Known d s)
    (submitted : params ∈ d.submitted)
    (created : (s.market (d.idOf params)).lastUpdate ≠ 0) :
    s.marketParams (d.idOf params) = params := by
  rcases known (d.idOf params) with blank | ⟨stored, digest⟩
  · exact absurd (congrArg Market.lastUpdate blank) created
  · exact d.collisionFree stored submitted digest

/-- What the markets lending `token` could pay out to suppliers. -/
def promisedCash (token : Address) (s : Storage) : Nat :=
  ∑ id, if token = (s.marketParams id).loanToken
    then cash (s.market id) else 0

/-- What the markets secured by `token` owe to borrowers. -/
def promisedCollateral (token : Address) (s : Storage) : Nat :=
  ∑ id, if token = (s.marketParams id).collateralToken
    then (s.market id).totalCollateralAssets.toNat else 0

theorem promises_created
    {ctx : Context} {params : MarketParams} {s : Storage} (known : Known d s)
    (submitted : params ∈ d.submitted) (token : Address) :
    promisedCash token (created d ctx params s) = promisedCash token s ∧
      promisedCollateral token (created d ctx params s) =
        promisedCollateral token s := by
  have atId : s.market (d.idOf params) = .zero ∨
      s.marketParams (d.idOf params) = params := by
    rcases known (d.idOf params) with blank | ⟨stored, digest⟩
    · exact .inl blank
    · exact .inr (d.collisionFree stored submitted digest)
  constructor
  · refine Finset.sum_congr rfl fun id _ => ?_
    by_cases same : id = d.idOf params
    · subst id
      simp only [created, Function.update_self]
      rcases atId with blank | stored
      · simp [blank, cash, Market.zero]
      · rw [stored]
        rfl
    · simp only [created, Function.update_of_ne same]
  · refine Finset.sum_congr rfl fun id _ => ?_
    by_cases same : id = d.idOf params
    · subst id
      simp only [created, Function.update_self]
      rcases atId with blank | stored
      · simp [blank, Market.zero]
      · rw [stored]
    · simp only [created, Function.update_of_ne same]

section Step

variable {ctx : Context} {call : Call} {event : Event} {w' : World}
    {m m' : Market} {p' : Position} {flow : Flow}

theorem promise_step
    (executed : Executed d ctx call event w w' m m' p' flow)
    (promise : MarketParams → Market → Nat) :
    ∑ id, promise (w'.lending.marketParams id) (w'.lending.market id) +
        promise (w.lending.marketParams (d.idOf call.params))
          (w.lending.market (d.idOf call.params)) =
      ∑ id, promise (w.lending.marketParams id) (w.lending.market id) +
        promise (w.lending.marketParams (d.idOf call.params)) m' := by
  have moved := total_of_eq_off (d.idOf call.params) (fun id =>
        promise (w.lending.marketParams id) (w.lending.market id))
      (fun id =>
        promise (w'.lending.marketParams id) (w'.lending.market id))
      (fun id different => by
        rw [executed.frame.market, executed.frame.marketParams,
          Function.update_of_ne different])
  rw [moved, executed.frame.market, executed.frame.marketParams,
    Function.update_self]

theorem promisedCash_step
    (executed : Executed d ctx call event w w' m m' p' flow)
    (known : Known d w.lending) (submitted : call.params ∈ d.submitted)
    (covered : AllCovered w.lending) (token : Address) :
    promisedCash token w'.lending +
        (if token = call.params.loanToken then flow.loanOut else 0) ≤
      promisedCash token w.lending +
        (if token = call.params.loanToken then flow.loanIn else 0) := by
  have moved := promise_step executed fun params m =>
      if token = params.loanToken then cash m else 0
  have moves := cash_of_ledger executed.ledger
      (covered_of_grown executed.grown (covered _))
  rw [cash_of_grown executed.grown] at moves
  rw [known.params_eq submitted executed.created] at moved
  simp only [promisedCash]
  split at moved
  · next here =>
      rw [if_pos here, if_pos here]
      omega
  · next elsewhere =>
      rw [if_neg elsewhere, if_neg elsewhere]
      omega

theorem promisedCollateral_step
    (executed : Executed d ctx call event w w' m m' p' flow)
    (known : Known d w.lending) (submitted : call.params ∈ d.submitted)
    (token : Address) :
    promisedCollateral token w'.lending +
        (if token = call.params.collateralToken
          then flow.collateralOut else 0) =
      promisedCollateral token w.lending +
        (if token = call.params.collateralToken
          then flow.collateralIn else 0) := by
  have moved := promise_step executed fun params m =>
      if token = params.collateralToken
        then m.totalCollateralAssets.toNat else 0
  have moves := collateral_of_ledger executed.ledger
  rw [executed.grown.collateral] at moves
  rw [known.params_eq submitted executed.created] at moved
  simp only [promisedCollateral]
  split at moved
  · next here =>
      rw [if_pos here, if_pos here]
      omega
  · next elsewhere =>
      rw [if_neg elsewhere, if_neg elsewhere]
      omega

end Step

/-- The contract holds what it promises, and lends only what was supplied. -/
structure Solvent (d : Deployment) (w : World) : Prop where
  backed : ∀ token,
    promisedCash token w.lending + promisedCollateral token w.lending ≤
      ((w.tokens token).balanceOf d.self).toNat
  covered : AllCovered w.lending

/-- Solvency together with what its preservation rests on. -/
structure Secured (d : Deployment) (w : World) : Prop where
  known : Known d w.lending
  unapproved : ∀ token, (w.tokens token).Unapproved d.self
  solvent : Solvent d w

theorem Secured.of_initial (initial : Initial d w) : Secured d w := by
  rcases initial with ⟨empty, unapproved⟩
  have nothingPromised : ∀ token, promisedCash token w.lending +
      promisedCollateral token w.lending = 0 := by
    intro token
    simp [promisedCash, promisedCollateral, empty, Storage.empty, cash,
      Market.zero]
  refine ⟨?_, unapproved, ?_, ?_⟩
  · intro id
    rw [empty]
    exact .inl rfl
  · intro token
    rw [nothingPromised]
    exact Nat.zero_le _
  · intro id
    rw [empty]
    exact Nat.le_refl 0

theorem Secured.step
    {action : Action} {w' : World} (secured : Secured d w)
    (step : Step d w action w') (known' : Known d w'.lending)
    (covered' : AllCovered w'.lending) :
    Secured d w' := by
  cases step_effect step with
  | created outside submitted valid fresh =>
      refine ⟨known', secured.unapproved, ?_, covered'⟩
      intro token
      rcases promises_created secured.known submitted token with
        ⟨sameCash, sameCollateral⟩
      dsimp only
      rw [sameCash, sameCollateral]
      exact secured.solvent.backed token
  | performed outside submitted executed =>
      refine ⟨known', ?_, ?_, covered'⟩
      · intro token
        exact executed.transferred.unapproved token (secured.unapproved token)
      · intro token
        have cashMoved := promisedCash_step executed secured.known submitted
            secured.solvent.covered token
        have collateralMoved :=
          promisedCollateral_step executed secured.known submitted token
        have balance := executed.transferred.balance token
        have backed := secured.solvent.backed token
        omega
  | @token address caller call books outside done =>
      have kept := Token.exec_by_other (secured.unapproved address) outside done
      refine ⟨known', ?_, ?_, covered'⟩
      · intro token
        dsimp only
        by_cases same : token = address
        · subst token
          rw [Function.update_self]
          exact kept.2
        · rw [Function.update_of_ne same]
          exact secured.unapproved token
      · intro token
        have backed := secured.solvent.backed token
        dsimp only
        by_cases same : token = address
        · subst token
          rw [Function.update_self]
          exact le_trans backed kept.1
        · rw [Function.update_of_ne same]
          exact backed

theorem secured_of_reached (reached : Reached d allowed w) :
    Secured d w := by
  rcases reached with ⟨start, initial, run⟩
  induction run with
  | refl => exact Secured.of_initial initial
  | tail run move secured =>
      rcases move with ⟨action, permitted, step⟩
      have reached' : Reached d allowed _ :=
        ⟨start, initial, run.tail ⟨action, permitted, step⟩⟩
      exact secured.step step (known_of_reached reached')
        (allCovered_of_reached reached')

theorem solvent_of_reached (reached : Reached d anything w) :
    Solvent d w :=
  (secured_of_reached reached).solvent

theorem solvent_after_lentOut :
    ∃ w, script solo anything lentOut soloWorld = some w ∧ Solvent solo w := by
  have ran : (script solo anything lentOut soloWorld).isSome := by
    decide +kernel
  rcases Option.isSome_iff_exists.mp ran with ⟨w, reaches⟩
  exact
    ⟨w, reaches, solvent_of_reached (solo_reached lentOut_admissible reaches)⟩

end Eris.Lending.Solvency
