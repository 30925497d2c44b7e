import Eris.Lending.Accrual

/-!
# What one call to the lending contract can do

Every successful call other than `createMarket` brings the interest of one
market up to date, performs one operation on the totals of that market and on
the position of one account, and moves the corresponding tokens.
`LedgerStep` lists the operations in terms of natural numbers, with the
guards they passed; `Framed` says what else the storage keeps.  The inversion
theorem `exec_ok` is proved once, function by function, and every invariant
of the contract is derived from it.
-/

namespace Eris.Lending.Execution

open Foundation Foundation.Checked Foundation.SharePool Evm.Word Evm.Erc20 Data
  Contract Accrual

/-! ## Reading the storage back -/

section Reads

variable (s : Storage) (id : Bytes32) (user : Address)

@[simp]
theorem setMarket_market_self : s.setMarket id (s.market id) = s := by
  rw [Storage.setMarket, Function.update_eq_self]

@[simp]
theorem setMarket_market (m : Market) : (s.setMarket id m).market id = m :=
  Function.update_self _ _ _

@[simp]
theorem setMarket_position (m : Market) :
    (s.setMarket id m).position = s.position :=
  rfl

@[simp]
theorem setPosition_position (p : Position) :
    (s.setPosition id user p).position id user = p := by
  simp only [Storage.setPosition, Function.update_self]

@[simp]
theorem noteEntry_market : (noteEntry id user s).market = s.market := by
  rw [noteEntry]
  split <;> rfl

@[simp]
theorem noteEntry_position :
    (noteEntry id user s).position = s.position := by
  rw [noteEntry]
  split <;> rfl

end Reads

/-- How many tokens an operation moves, by kind and direction. -/
structure Flow where
  loanIn : Nat := 0
  loanOut : Nat := 0
  collateralIn : Nat := 0
  collateralOut : Nat := 0

/-- The write-off of a liquidation, on natural numbers. -/
inductive WriteOff (m : Market) (p : Position) :
    Nat → Market → Position → Prop where
  | none (covered : p.collateral = 0 → p.borrowShares = 0) : WriteOff m p 0 m p
  | all {badDebt : Nat}
      {totalBorrowShares totalBorrowAssets totalSupplyAssets : U128}
      (collateralGone : p.collateral = 0)
      (owes : 0 < p.borrowShares.toNat)
      (badDebtEq : badDebt = min m.totalSupplyAssets.toNat
          ((borrowPool m).worthUp p.borrowShares.toNat))
      (sharesEq : totalBorrowShares.toNat + p.borrowShares.toNat =
          m.totalBorrowShares.toNat)
      (borrowEq : totalBorrowAssets.toNat = m.totalBorrowAssets.toNat - badDebt)
      (supplyEq :
        totalSupplyAssets.toNat + badDebt = m.totalSupplyAssets.toNat) :
      WriteOff m p badDebt
        { m with totalBorrowShares, totalBorrowAssets, totalSupplyAssets }
        { p with borrowShares := 0 }

theorem WriteOff.others
    {m m' : Market} {p p' : Position} {badDebt : Nat}
    (writtenOff : WriteOff m p badDebt m' p') :
    p'.collateral = p.collateral ∧ p'.supplyShares = p.supplyShares ∧
      m'.totalCollateralAssets = m.totalCollateralAssets ∧
      m'.totalSupplyShares = m.totalSupplyShares ∧
      m'.lastUpdate = m.lastUpdate := by
  cases writtenOff <;> exact ⟨rfl, rfl, rfl, rfl, rfl⟩

/-- What a liquidator pays for a seizure, at the second read of the oracle. -/
def seizurePayment
    (ctx : Context) (params : MarketParams) (seizedAssets : U256) :
    Result U256 := do
  let collateralPrice ← price ctx params.oracle 1
  let lif ← liquidationIncentiveFactor params.lltv
  let quoted ← mulDivDown seizedAssets collateralPrice ORACLE_PRICE_SCALE
  mulDivUp quoted WAD lif

/--
What a call does to the totals `m` of its settled market and to the position
`p` it works on, at tokens whose total supply is below `supplyCap`.  Asset
amounts enter the 128-bit amounts through `assetCut`, and computed share
amounts through `shareCut`.
-/
inductive CastStep
    (assetCut shareCut : Nat → Nat) (supplyCap : Nat)
    (ctx : Context) (id : Bytes32) (m : Market) (p : Position) :
    Call → Event → Market → Position → Flow → Prop where
  | supply {params : MarketParams} {assets shares supplyShares : U256}
      {totalSupplyShares totalSupplyAssets : U128}
      (small : assets.toNat < supplyCap)
      (positive : 0 < assets.toNat)
      (sharesEq : shares.toNat = mulDivFloor assets.toNat (supplyPool m).shares
          (supplyPool m).assets)
      (positionEq : p.supplyShares.toNat + shares.toNat = supplyShares.toNat)
      (totalSharesEq : m.totalSupplyShares.toNat + shareCut shares.toNat =
          totalSupplyShares.toNat)
      (totalAssetsEq : m.totalSupplyAssets.toNat + assetCut assets.toNat =
          totalSupplyAssets.toNat) :
      CastStep assetCut shareCut supplyCap ctx id m p (.supply params assets)
        (.supply id ctx.msgSender assets shares)
        { m with totalSupplyShares, totalSupplyAssets }
        { p with supplyShares }
        { loanIn := assets.toNat }
  | withdraw {params : MarketParams} {assets shares supplyShares : U256}
      {totalSupplyShares totalSupplyAssets : U128}
      (small : assets.toNat < supplyCap)
      (positive : 0 < assets.toNat)
      (sharesEq : shares.toNat = mulDivCeil assets.toNat (supplyPool m).shares
          (supplyPool m).assets)
      (positionEq : supplyShares.toNat + shares.toNat = p.supplyShares.toNat)
      (totalSharesEq : totalSupplyShares.toNat + shareCut shares.toNat =
          m.totalSupplyShares.toNat)
      (totalAssetsEq : totalSupplyAssets.toNat + assetCut assets.toNat =
          m.totalSupplyAssets.toNat)
      (liquid : m.totalBorrowAssets.toNat ≤ totalSupplyAssets.toNat) :
      CastStep assetCut shareCut supplyCap ctx id m p (.withdraw params assets)
        (.withdraw id ctx.msgSender assets shares)
        { m with totalSupplyShares, totalSupplyAssets }
        { p with supplyShares }
        { loanOut := assets.toNat }
  | withdrawAll {params : MarketParams} {assets : U256}
      {totalSupplyShares totalSupplyAssets : U128}
      (small : assets.toNat < supplyCap)
      (positive : 0 < p.supplyShares.toNat)
      (assetsEq : assets.toNat =
          mulDivFloor p.supplyShares.toNat (supplyPool m).assets
            (supplyPool m).shares)
      (totalSharesEq : totalSupplyShares.toNat + shareCut p.supplyShares.toNat =
          m.totalSupplyShares.toNat)
      (totalAssetsEq : totalSupplyAssets.toNat + assetCut assets.toNat =
          m.totalSupplyAssets.toNat)
      (liquid : m.totalBorrowAssets.toNat ≤ totalSupplyAssets.toNat) :
      CastStep assetCut shareCut supplyCap ctx id m p (.withdrawAll params)
        (.withdraw id ctx.msgSender assets p.supplyShares)
        { m with totalSupplyShares, totalSupplyAssets }
        { p with supplyShares := 0 }
        { loanOut := assets.toNat }
  | supplyCollateral {params : MarketParams} {assets : U256}
      {collateral totalCollateralAssets : U128}
      (small : assets.toNat < supplyCap)
      (positive : 0 < assets.toNat)
      (positionEq :
        p.collateral.toNat + assetCut assets.toNat = collateral.toNat)
      (totalEq : m.totalCollateralAssets.toNat + assetCut assets.toNat =
          totalCollateralAssets.toNat) :
      CastStep assetCut shareCut supplyCap ctx id m p
        (.supplyCollateral params assets)
        (.supplyCollateral id ctx.msgSender assets)
        { m with totalCollateralAssets }
        { p with collateral }
        { collateralIn := assets.toNat }
  | withdrawCollateral {params : MarketParams} {assets : U256}
      {collateral totalCollateralAssets : U128}
      (small : assets.toNat < supplyCap)
      (positive : 0 < assets.toNat)
      (positionEq :
        collateral.toNat + assetCut assets.toNat = p.collateral.toNat)
      (totalEq : totalCollateralAssets.toNat + assetCut assets.toNat =
          m.totalCollateralAssets.toNat)
      (healthy : healthOf ctx params { m with totalCollateralAssets }
          { p with collateral } = .ok true) :
      CastStep assetCut shareCut supplyCap ctx id m p
        (.withdrawCollateral params assets)
        (.withdrawCollateral id ctx.msgSender assets)
        { m with totalCollateralAssets }
        { p with collateral }
        { collateralOut := assets.toNat }
  | borrow {params : MarketParams} {assets shares : U256}
      {borrowShares totalBorrowShares totalBorrowAssets : U128}
      (small : assets.toNat < supplyCap)
      (positive : 0 < assets.toNat)
      (sharesEq : shares.toNat = mulDivCeil assets.toNat (borrowPool m).shares
          (borrowPool m).assets)
      (positionEq :
        p.borrowShares.toNat + shareCut shares.toNat = borrowShares.toNat)
      (totalSharesEq : m.totalBorrowShares.toNat + shareCut shares.toNat =
          totalBorrowShares.toNat)
      (totalAssetsEq : m.totalBorrowAssets.toNat + assetCut assets.toNat =
          totalBorrowAssets.toNat)
      (healthy : healthOf ctx params
          { m with totalBorrowShares, totalBorrowAssets }
          { p with borrowShares } = .ok true)
      (liquid : totalBorrowAssets.toNat ≤ m.totalSupplyAssets.toNat) :
      CastStep assetCut shareCut supplyCap ctx id m p (.borrow params assets)
        (.borrow id ctx.msgSender assets shares)
        { m with totalBorrowShares, totalBorrowAssets }
        { p with borrowShares }
        { loanOut := assets.toNat }
  | repay {params : MarketParams} {asked assets shares : U256}
      {borrowShares totalBorrowShares totalBorrowAssets : U128}
      (small : assets.toNat < supplyCap)
      (positive : 0 < asked.toNat)
      (sharesEq : shares.toNat = min p.borrowShares.toNat
          (mulDivFloor asked.toNat (borrowPool m).shares (borrowPool m).assets))
      (assetsEq :
        assets.toNat = min asked.toNat ((borrowPool m).worthUp shares.toNat))
      (positionEq : borrowShares.toNat + shares.toNat = p.borrowShares.toNat)
      (totalSharesEq :
        totalBorrowShares.toNat + shares.toNat = m.totalBorrowShares.toNat)
      (totalAssetsEq : totalBorrowAssets.toNat =
          m.totalBorrowAssets.toNat - assetCut assets.toNat) :
      CastStep assetCut shareCut supplyCap ctx id m p (.repay params asked)
        (.repay id ctx.msgSender assets shares)
        { m with totalBorrowShares, totalBorrowAssets }
        { p with borrowShares }
        { loanIn := assets.toNat }
  | repayAll {params : MarketParams} {assets : U256}
      {totalBorrowShares totalBorrowAssets : U128}
      (small : assets.toNat < supplyCap)
      (owes : 0 < p.borrowShares.toNat)
      (assetsEq : assets.toNat = (borrowPool m).worthUp p.borrowShares.toNat)
      (totalSharesEq : totalBorrowShares.toNat + p.borrowShares.toNat =
          m.totalBorrowShares.toNat)
      (totalAssetsEq : totalBorrowAssets.toNat =
          m.totalBorrowAssets.toNat - assetCut assets.toNat) :
      CastStep assetCut shareCut supplyCap ctx id m p (.repayAll params)
        (.repay id ctx.msgSender assets (widen p.borrowShares))
        { m with totalBorrowShares, totalBorrowAssets }
        { p with borrowShares := 0 }
        { loanIn := assets.toNat }
  | liquidate {params : MarketParams} {borrower : Address}
      {seizedAssets repaidAssets repaidShares badDebtAssets : U256}
      {totalBorrowShares totalBorrowAssets totalCollateralAssets : U128}
      {borrowShares collateral : U128}
      {m' : Market} {p' : Position}
      (smallSeized : seizedAssets.toNat < supplyCap)
      (smallRepaid : repaidAssets.toNat < supplyCap)
      (positive : 0 < seizedAssets.toNat)
      (unhealthy : healthOf ctx params m p = .ok false)
      (sharesEq : repaidShares.toNat =
          mulDivFloor repaidAssets.toNat (borrowPool m).shares
            (borrowPool m).assets)
      (borrowEq :
        borrowShares.toNat + shareCut repaidShares.toNat = p.borrowShares.toNat)
      (totalSharesEq : totalBorrowShares.toNat + shareCut repaidShares.toNat =
          m.totalBorrowShares.toNat)
      (totalAssetsEq : totalBorrowAssets.toNat =
          m.totalBorrowAssets.toNat - assetCut repaidAssets.toNat)
      (collateralEq :
        collateral.toNat + assetCut seizedAssets.toNat = p.collateral.toNat)
      (totalCollateralEq :
        totalCollateralAssets.toNat + assetCut seizedAssets.toNat =
          m.totalCollateralAssets.toNat)
      (writtenOff : WriteOff { m with
            totalBorrowShares, totalBorrowAssets, totalCollateralAssets }
          { p with borrowShares, collateral }
          badDebtAssets.toNat m' p')
      (priced : seizurePayment ctx params seizedAssets = .ok repaidAssets) :
      CastStep assetCut shareCut supplyCap ctx id m p
        (.liquidate params borrower seizedAssets)
        (.liquidate id ctx.msgSender borrower repaidAssets seizedAssets
          badDebtAssets)
        m' p'
        { loanIn := repaidAssets.toNat
          collateralOut := seizedAssets.toNat }

/--
The operations at tokens whose total supply is below `2 ^ 96`.  Asset amounts
are exact, since a token moved them; computed share amounts enter the 128-bit
totals with their high bits cut off.
-/
abbrev LedgerStep :=
  CastStep (fun amount => amount) (fun amount => amount % 2 ^ 128) (2 ^ 96)

theorem CastStep.lastUpdate
    {assetCut shareCut : Nat → Nat} {supplyCap : Nat}
    {ctx : Context} {id : Bytes32} {m m' : Market} {p p' : Position}
    {call : Call} {event : Event} {flow : Flow}
    (ledger : CastStep assetCut shareCut supplyCap ctx id m p call event m' p'
        flow) :
    m'.lastUpdate = m.lastUpdate := by
  cases ledger with
  | liquidate _ _ _ _ _ _ _ _ _ _ writtenOff =>
      exact writtenOff.others.2.2.2.2
  | _ => rfl

theorem CastStep.of_smallTokens
    {shareCut : Nat → Nat} {supplyCap : Nat}
    {ctx : Context} {id : Bytes32} {m m' : Market} {p p' : Position}
    {call : Call} {event : Event} {flow : Flow}
    (smallTokens : supplyCap ≤ 2 ^ 128)
    (ledger :
      CastStep (fun amount => amount % 2 ^ 128) shareCut supplyCap ctx id m
        p call event m' p' flow) :
    CastStep (fun amount => amount) shareCut supplyCap ctx id m p call event
      m' p' flow := by
  have uncut : ∀ {amount : Nat}, amount < supplyCap →
      amount % 2 ^ 128 = amount := fun small =>
    Nat.mod_eq_of_lt (lt_of_lt_of_le small smallTokens)
  cases ledger with
  | supply small positive sharesEq positionEq totalSharesEq totalAssetsEq =>
      rw [uncut small] at totalAssetsEq
      exact .supply small positive sharesEq positionEq totalSharesEq
        totalAssetsEq
  | withdraw small positive sharesEq positionEq totalSharesEq totalAssetsEq
      liquid =>
      rw [uncut small] at totalAssetsEq
      exact .withdraw small positive sharesEq positionEq totalSharesEq
        totalAssetsEq liquid
  | withdrawAll small positive assetsEq totalSharesEq totalAssetsEq liquid =>
      rw [uncut small] at totalAssetsEq
      exact .withdrawAll small positive assetsEq totalSharesEq totalAssetsEq
        liquid
  | supplyCollateral small positive positionEq totalEq =>
      rw [uncut small] at positionEq totalEq
      exact .supplyCollateral small positive positionEq totalEq
  | withdrawCollateral small positive positionEq totalEq healthy =>
      rw [uncut small] at positionEq totalEq
      exact .withdrawCollateral small positive positionEq totalEq healthy
  | borrow small positive sharesEq positionEq totalSharesEq totalAssetsEq
      healthy liquid =>
      rw [uncut small] at totalAssetsEq
      exact .borrow small positive sharesEq positionEq totalSharesEq
        totalAssetsEq healthy liquid
  | repay small positive sharesEq assetsEq positionEq totalSharesEq
      totalAssetsEq =>
      rw [uncut small] at totalAssetsEq
      exact .repay small positive sharesEq assetsEq positionEq totalSharesEq
        totalAssetsEq
  | repayAll small owes assetsEq totalSharesEq totalAssetsEq =>
      rw [uncut small] at totalAssetsEq
      exact .repayAll small owes assetsEq totalSharesEq totalAssetsEq
  | liquidate smallSeized smallRepaid positive unhealthy sharesEq borrowEq
      totalSharesEq totalAssetsEq collateralEq totalCollateralEq writtenOff
      priced =>
      rw [uncut smallRepaid] at totalAssetsEq
      rw [uncut smallSeized] at collateralEq totalCollateralEq
      exact .liquidate smallSeized smallRepaid positive unhealthy sharesEq
        borrowEq totalSharesEq totalAssetsEq collateralEq
        totalCollateralEq writtenOff priced

/-! ## What else the storage keeps -/

/-- The calls which note that their sender entered the market. -/
def Call.enters : Call → Bool
  | .supply _ _ => true
  | .supplyCollateral _ _ => true
  | .borrow _ _ => true
  | _ => false

/-- The calls which bring the interest of their market up to date. -/
def Call.accrues : Call → Bool
  | .createMarket _ => false
  | .supplyCollateral _ _ => false
  | _ => true

/-- Whether the debtor list followed the debt of one position. -/
inductive DebtorsSynced
    (id : Bytes32) (user : Address) (s s' : Storage)
    (p p' : Position) : Prop where
  | untouched (sameDebt : p'.borrowShares = p.borrowShares)
      (borrowers : s'.borrowers = s.borrowers)
      (borrowerIndex : s'.borrowerIndex = s.borrowerIndex)
  | synced {lists : List Address × (Address → Nat)} (moved :
        IndexedSet.setMembership (s.borrowers id) (s.borrowerIndex id)
          (0 < p'.borrowShares) user = some lists)
      (borrowers : s'.borrowers = Function.update s.borrowers id lists.1)
      (borrowerIndex :
        s'.borrowerIndex = Function.update s.borrowerIndex id lists.2)

/--
From `s` to `s'` the market `id` became `m'` and the position of `user` there
became `p'`; the entry was noted, and only the debtor lists and the lock may
differ besides.
-/
structure Framed
    (id : Bytes32) (user : Address) (enters : Bool) (s s' : Storage)
    (m' : Market) (p' : Position) : Prop where
  market : s'.market = Function.update s.market id m'
  position : s'.position = Function.update s.position id
      (Function.update (s.position id) user p')
  marketParams : s'.marketParams = s.marketParams
  marketIds : s'.marketIds = s.marketIds
  entered : s'.entered = if enters then
        Function.update s.entered id (Function.update (s.entered id) user true)
      else s.entered
  userMarketIds : s'.userMarketIds = if enters ∧ ¬ s.entered id user then
        Function.update s.userMarketIds user (s.userMarketIds user ++ [id])
      else s.userMarketIds

/-- The storage after an accrual, an optional entry and the two writes. -/
def written
    (s : Storage) (id : Bytes32) (user : Address) (enters : Bool)
    (m m' : Market) (p' : Position) : Storage :=
  ((if enters then noteEntry id user (s.setMarket id m)
    else s.setMarket id m).setPosition id user p').setMarket id m'

section Frames

variable {s s' : Storage} {id : Bytes32} {user : Address} {enters : Bool}
    {m m' : Market} {p' : Position}

theorem Framed.of_written :
    Framed id user enters s (written s id user enters m m' p') m' p' := by
  cases enters with
  | false =>
      exact
        ⟨Function.update_idem _ _ _, rfl, rfl, rfl, rfl, by simp [written]; rfl⟩
  | true =>
      by_cases known : s.entered id user
      · simp only [written, noteEntry, Storage.setMarket, known, if_true]
        refine ⟨Function.update_idem _ _ _, rfl, rfl, rfl, ?_, ?_⟩
        · rw [if_pos rfl, ← known, Function.update_eq_self,
            Function.update_eq_self]
          rfl
        · simp only [known, not_true, and_false, if_false]
          rfl
      · simp only [written, noteEntry, Storage.setMarket, known, if_true]
        refine ⟨Function.update_idem _ _ _, rfl, rfl, rfl, rfl, ?_⟩
        exact (if_pos (And.intro rfl known)).symm

@[simp]
theorem written_borrowers :
    (written s id user enters m m' p').borrowers = s.borrowers := by
  rw [written, noteEntry]
  split <;> [split; skip] <;> rfl

@[simp]
theorem written_borrowerIndex :
    (written s id user enters m m' p').borrowerIndex = s.borrowerIndex := by
  rw [written, noteEntry]
  split <;> [split; skip] <;> rfl

@[simp]
theorem written_position :
    (written s id user enters m m' p').position id user = p' :=
  setPosition_position _ _ _ _

theorem syncBorrower_ok
    (done : syncBorrower id user s = .ok s') :
    ∃ lists, IndexedSet.setMembership (s.borrowers id) (s.borrowerIndex id)
          (0 < (s.position id user).borrowShares) user = some lists ∧
        s' = { s with
            borrowers := Function.update s.borrowers id lists.1
            borrowerIndex := Function.update s.borrowerIndex id lists.2 } := by
  rw [syncBorrower] at done
  split at done
  · next added =>
      refine ⟨_, if_pos added, ?_⟩
      exact (Except.ok.inj done).symm
  · next notAdded =>
      split at done
      · next removed =>
          cases popped :
            IndexedSet.swapRemove (s.borrowers id) (s.borrowerIndex id)
              user with
          | none =>
              rw [popped] at done
              cases done
          | some lists =>
              rw [popped] at done
              refine ⟨lists, ?_, (Except.ok.inj done).symm⟩
              rw [IndexedSet.setMembership, if_neg notAdded, if_pos removed]
              exact popped
      · next notRemoved =>
          refine ⟨(s.borrowers id, s.borrowerIndex id), ?_, ?_⟩
          · rw [IndexedSet.setMembership, if_neg notAdded, if_neg notRemoved]
          · rw [Function.update_eq_self, Function.update_eq_self]
            exact (Except.ok.inj done).symm

theorem Framed.of_synced
    (done : syncBorrower id user (written s id user enters m m' p') = .ok s') :
    Framed id user enters s s' m' p' ∧
      DebtorsSynced id user s s' (s.position id user) p' := by
  rcases syncBorrower_ok done with ⟨lists, moved, rfl⟩
  simp only [written_borrowers, written_borrowerIndex, written_position]
    at moved
  constructor
  · have frame : Framed id user enters s _ m' p' := Framed.of_written (m := m)
    exact ⟨frame.market, frame.position, frame.marketParams, frame.marketIds,
      frame.entered, frame.userMarketIds⟩
  · refine .synced moved ?_ ?_
    · simp only [written_borrowers]
    · simp only [written_borrowerIndex]

end Frames

/-! ## Token movements -/

/-- What the contract's own balance of every token gains and loses. -/
structure Transferred
    {supplyCap : Nat} (d : Deployment) (params : MarketParams)
    (before after : Address → Token supplyCap) (flow : Flow) : Prop where
  balance : ∀ token, ((after token).balanceOf d.self).toNat +
        ((if token = params.loanToken then flow.loanOut else 0) +
          (if token = params.collateralToken then flow.collateralOut
            else 0)) =
      ((before token).balanceOf d.self).toNat +
        ((if token = params.loanToken then flow.loanIn else 0) +
          (if token = params.collateralToken then flow.collateralIn
            else 0))
  unapproved : ∀ token,
    (before token).Unapproved d.self → (after token).Unapproved d.self

section Movements

variable {supplyCap : Nat} {d : Deployment} {params : MarketParams}
    {before middle after : Address → Token supplyCap} {flow next : Flow}

theorem Transferred.trans
    (first : Transferred d params before middle flow)
    (second : Transferred d params middle after next) :
    Transferred d params before after
      { loanIn := flow.loanIn + next.loanIn
        loanOut := flow.loanOut + next.loanOut
        collateralIn := flow.collateralIn + next.collateralIn
        collateralOut := flow.collateralOut + next.collateralOut } where
  balance token := by
    have earlier := first.balance token
    have later := second.balance token
    dsimp only
    split_ifs at earlier later ⊢ <;> omega
  unapproved token closed :=
    second.unapproved token (first.unapproved token closed)

end Movements

theorem pullToken_ok
    {supplyCap : Nat} {d : Deployment} {token sender : Address}
    {amount : U256} {tokens after : Address → Token supplyCap}
    (outside : sender ≠ d.self)
    (done : pullToken d token sender amount tokens = .ok after) :
    amount.toNat < supplyCap ∧ (∀ other,
        ((after other).balanceOf d.self).toNat =
          ((tokens other).balanceOf d.self).toNat +
            if other = token then amount.toNat else 0) ∧
      ∀ other, (tokens other).Unapproved d.self →
        (after other).Unapproved d.self := by
  rw [pullToken] at done
  cases books : (tokens token).transferFrom d.self sender d.self amount with
  | error failure =>
      rw [books] at done
      cases done
  | ok moved =>
      rw [books] at done
      have equal := (Except.ok.inj done).symm
      subst equal
      rcases Token.transferFrom_ok books with ⟨transfer, _, allowances⟩
      refine ⟨transfer.amount_lt, fun other => ?_, fun other closed => ?_⟩
      · by_cases isToken : other = token
        · subst other
          rw [Function.update_self, if_pos rfl]
          exact transfer.balance_recipient (Ne.symm outside)
        · rw [Function.update_of_ne isToken, if_neg isToken]
          rfl
      · by_cases isToken : other = token
        · subst other
          rw [Function.update_self]
          intro spender
          rw [allowances d.self (Ne.symm outside)]
          exact closed spender
        · rw [Function.update_of_ne isToken]
          exact closed

theorem pushToken_ok
    {supplyCap : Nat} {d : Deployment} {token recipient : Address}
    {amount : U256} {tokens after : Address → Token supplyCap}
    (outside : recipient ≠ d.self)
    (done : pushToken d token recipient amount tokens = .ok after) :
    amount.toNat < supplyCap ∧ (∀ other,
        ((after other).balanceOf d.self).toNat +
            (if other = token then amount.toNat else 0) =
          ((tokens other).balanceOf d.self).toNat) ∧
      ∀ other, (tokens other).Unapproved d.self →
        (after other).Unapproved d.self := by
  rw [pushToken] at done
  cases books : (tokens token).transfer d.self recipient amount with
  | error failure =>
      rw [books] at done
      cases done
  | ok moved =>
      rw [books] at done
      have equal := (Except.ok.inj done).symm
      subst equal
      rcases Token.move_ok books with ⟨transfer, allowances⟩
      refine ⟨transfer.amount_lt, fun other => ?_, fun other closed => ?_⟩
      · by_cases isToken : other = token
        · subst other
          rw [Function.update_self, if_pos rfl]
          have balance := transfer.balance d.self
          rw [if_pos rfl, if_neg (Ne.symm outside)] at balance
          exact balance
        · rw [Function.update_of_ne isToken, if_neg isToken]
          rfl
      · by_cases isToken : other = token
        · subst other
          rw [Function.update_self]
          intro spender
          rw [allowances]
          exact closed spender
        · rw [Function.update_of_ne isToken]
          exact closed

section Sides

variable {supplyCap : Nat} {d : Deployment} {params : MarketParams}
    {party : Address} {amount : U256} {tokens after : Address → Token supplyCap}

theorem pullLoan_ok
    (outside : party ≠ d.self)
    (done : pullToken d params.loanToken party amount tokens = .ok after) :
    amount.toNat < supplyCap ∧
      Transferred d params tokens after { loanIn := amount.toNat } := by
  rcases pullToken_ok outside done with ⟨small, balance, closed⟩
  exact ⟨small, fun token => by simp [balance], closed⟩

theorem pushLoan_ok
    (outside : party ≠ d.self)
    (done : pushToken d params.loanToken party amount tokens = .ok after) :
    amount.toNat < supplyCap ∧
      Transferred d params tokens after { loanOut := amount.toNat } := by
  rcases pushToken_ok outside done with ⟨small, balance, closed⟩
  exact ⟨small, fun token => by simp [balance], closed⟩

theorem pullCollateral_ok
    (outside : party ≠ d.self)
    (done :
      pullToken d params.collateralToken party amount tokens = .ok after) :
    amount.toNat < supplyCap ∧ Transferred d params tokens after
        { collateralIn := amount.toNat } := by
  rcases pullToken_ok outside done with ⟨small, balance, closed⟩
  exact ⟨small, fun token => by simp [balance], closed⟩

theorem pushCollateral_ok
    (outside : party ≠ d.self)
    (done :
      pushToken d params.collateralToken party amount tokens = .ok after) :
    amount.toNat < supplyCap ∧ Transferred d params tokens after
        { collateralOut := amount.toNat } := by
  rcases pushToken_ok outside done with ⟨small, balance, closed⟩
  exact ⟨small, fun token => by simp [balance], closed⟩

end Sides

/-! ## The inversion of a call -/

/--
Everything a successful call did: from the market `m`, brought up to date by
the call where it accrues, to `m'`, and of the position of its account to
`p'`.
-/
structure ExecutedAs
    (assetCut shareCut : Nat → Nat) {supplyCap : Nat}
    (d : Deployment) (ctx : Context) (call : Call) (event : Event)
    (w w' : Worlds supplyCap) (m m' : Market) (p' : Position)
    (flow : Flow) : Prop where
  accrued : if Call.accrues call then
      accrueMarket ctx call.params (w.lending.market (d.idOf call.params)) =
        .ok m
    else
      m = w.lending.market (d.idOf call.params) ∧ m.lastUpdate ≠ 0
  ledger : CastStep assetCut shareCut supplyCap ctx (d.idOf call.params) m
      (w.lending.position (d.idOf call.params) (call.account ctx))
      call event m' p' flow
  frame : Framed (d.idOf call.params) (call.account ctx) (Call.enters call)
      w.lending w'.lending m' p'
  debtors : DebtorsSynced (d.idOf call.params) (call.account ctx)
      w.lending w'.lending
      (w.lending.position (d.idOf call.params) (call.account ctx)) p'
  transferred : Transferred d call.params w.tokens w'.tokens flow

/-- The same at tokens whose total supply is below `2 ^ 96`. -/
abbrev Executed
    (d : Deployment) (ctx : Context) (call : Call) (event : Event)
    (w w' : World) (m m' : Market) (p' : Position) (flow : Flow) : Prop :=
  ExecutedAs (fun amount => amount) (fun amount => amount % 2 ^ 128)
    d ctx call event w w' m m' p' flow

section Consequences

variable {assetCut shareCut : Nat → Nat} {supplyCap : Nat}
    {d : Deployment} {ctx : Context} {call : Call} {event : Event}
    {w w' : Worlds supplyCap} {m m' : Market} {p' : Position} {flow : Flow}

theorem ExecutedAs.market
    (executed :
      ExecutedAs assetCut shareCut d ctx call event w w' m m' p' flow) :
    w'.lending.market (d.idOf call.params) = m' := by
  rw [executed.frame.market, Function.update_self]

theorem ExecutedAs.position
    (executed :
      ExecutedAs assetCut shareCut d ctx call event w w' m m' p' flow) :
    w'.lending.position (d.idOf call.params) (call.account ctx) = p' := by
  rw [executed.frame.position, Function.update_self, Function.update_self]

theorem ExecutedAs.settled
    (executed : ExecutedAs assetCut shareCut d ctx call event w w' m m' p' flow)
    (accrues : Call.accrues call = true) :
    Settled ctx call.params (w.lending.market (d.idOf call.params)) m := by
  have accrued := executed.accrued
  rw [if_pos accrues] at accrued
  exact accrueMarket_ok accrued

theorem ExecutedAs.created
    (executed :
      ExecutedAs assetCut shareCut d ctx call event w w' m m' p' flow) :
    (w.lending.market (d.idOf call.params)).lastUpdate ≠ 0 := by
  cases accrues : Call.accrues call with
  | true => exact (executed.settled accrues).created
  | false =>
      have accrued := executed.accrued
      rw [accrues] at accrued
      rw [← accrued.1]
      exact accrued.2

theorem ExecutedAs.grown
    (executed :
      ExecutedAs assetCut shareCut d ctx call event w w' m m' p' flow) :
    Grown (w.lending.market (d.idOf call.params)) m := by
  cases accrues : Call.accrues call with
  | true => exact (executed.settled accrues).grown
  | false =>
      have accrued := executed.accrued
      rw [accrues] at accrued
      rw [accrued.1]

end Consequences

def Performed
    (d : Deployment) (ctx : Context) (call : Call) (event : Event)
    (w w' : World) : Prop :=
  ∃ m m' p' flow, Executed d ctx call event w w' m m' p' flow

/-- The call had some such effect, with the high bits of every cast lost. -/
def Cast
    {supplyCap : Nat}
    (d : Deployment) (ctx : Context) (call : Call) (event : Event)
    (w w' : Worlds supplyCap) : Prop :=
  ∃ m m' p' flow, ExecutedAs (fun amount => amount % 2 ^ 128)
      (fun amount => amount % 2 ^ 128) d ctx call event w w' m m' p' flow

theorem Cast.performed
    {d : Deployment} {ctx : Context} {call : Call} {event : Event}
    {w w' : World} (cast : Cast d ctx call event w w') :
    Performed d ctx call event w w' := by
  rcases cast with ⟨m, m', p', flow, executed⟩
  exact ⟨m, m', p', flow, executed.accrued,
    executed.ledger.of_smallTokens (by norm_num), executed.frame,
    executed.debtors, executed.transferred⟩

section Assembly

variable {supplyCap : Nat}
    {d : Deployment} {ctx : Context} {call : Call} {event : Event}
    {w : Worlds supplyCap} {m m' : Market} {p' : Position} {flow : Flow}
    {tokens : Address → Token supplyCap}

theorem Cast.of_written
    (accrued : if Call.accrues call then
        accrueMarket ctx call.params (w.lending.market (d.idOf call.params)) =
          .ok m
      else
        m = w.lending.market (d.idOf call.params) ∧ m.lastUpdate ≠ 0)
    (ledger : CastStep (fun amount => amount % 2 ^ 128)
        (fun amount => amount % 2 ^ 128) supplyCap ctx (d.idOf call.params) m
        (w.lending.position (d.idOf call.params) (call.account ctx))
        call event m' p' flow)
    (sameDebt : p'.borrowShares = (w.lending.position (d.idOf call.params)
        (call.account ctx)).borrowShares)
    (transferred : Transferred d call.params w.tokens tokens flow) :
    Cast d ctx call event w
      ⟨written w.lending (d.idOf call.params) (call.account ctx)
        (Call.enters call) m m' p', tokens⟩ :=
  ⟨m, m', p', flow, accrued, ledger, .of_written,
    .untouched sameDebt written_borrowers written_borrowerIndex,
    transferred⟩

theorem Cast.of_synced
    {s' : Storage}
    (accrued : if Call.accrues call then
        accrueMarket ctx call.params (w.lending.market (d.idOf call.params)) =
          .ok m
      else
        m = w.lending.market (d.idOf call.params) ∧ m.lastUpdate ≠ 0)
    (ledger : CastStep (fun amount => amount % 2 ^ 128)
        (fun amount => amount % 2 ^ 128) supplyCap ctx (d.idOf call.params) m
        (w.lending.position (d.idOf call.params) (call.account ctx))
        call event m' p' flow)
    (synced : syncBorrower (d.idOf call.params) (call.account ctx)
          (written w.lending (d.idOf call.params) (call.account ctx)
            (Call.enters call) m m' p') =
        .ok s')
    (transferred : Transferred d call.params w.tokens tokens flow) :
    Cast d ctx call event w ⟨s', tokens⟩ :=
  ⟨m, m', p', flow, accrued, ledger, (Framed.of_synced synced).1,
    (Framed.of_synced synced).2, transferred⟩

end Assembly

theorem nonReentrant_performed
    {supplyCap : Nat} {d : Deployment} {ctx : Context} {call : Call}
    {body : Worlds supplyCap → Result (Event × Worlds supplyCap)}
    (inside : ∀ event w w', body w = .ok (event, w') →
      Cast d ctx call event w w')
    {event : Event} {w w' : Worlds supplyCap}
    (done : nonReentrant body w = .ok (event, w')) :
    Cast d ctx call event w w' := by
  simp only [nonReentrant, bind_eq_ok, pure_eq_ok, Prod.mk.injEq] at done
  rcases done with ⟨_, _, ⟨event', inner⟩, bodyOk, sameEvent, equal⟩
  subst sameEvent equal
  rcases inside _ _ _ bodyOk with ⟨m, m', p', flow, executed⟩
  have frame := executed.frame
  refine ⟨m, m', p', flow, executed.accrued, executed.ledger,
    ⟨frame.market, frame.position, frame.marketParams, frame.marketIds,
      frame.entered, frame.userMarketIds⟩, ?_, executed.transferred⟩
  cases executed.debtors with
  | untouched sameDebt borrowers borrowerIndex =>
      exact .untouched sameDebt borrowers borrowerIndex
  | synced moved borrowers borrowerIndex =>
      exact .synced moved borrowers borrowerIndex

section Inversions

variable
    {supplyCap : Nat} {d : Deployment} {ctx : Context} {params : MarketParams}
    {assets : U256} {event : Event} {w w' : Worlds supplyCap}

theorem supply_ok
    (outside : ctx.msgSender ≠ d.self)
    (done : supply d ctx params assets w = .ok (event, w')) :
    Cast d ctx (.supply params assets) event w w' := by
  refine nonReentrant_performed (fun event w w' done => ?_) done
  simp only [bind_eq_ok, require_eq_ok, checkedAdd_eq_ok, pure_eq_ok]
    at done
  rcases done with ⟨_, accrued, _, nonzero, shares, sharesOk, done⟩
  rcases accrue_ok accrued with ⟨m, rfl, settled⟩
  simp only [setMarket_market, noteEntry_position, setMarket_position]
    at sharesOk done
  rcases done with ⟨supplyShares, positionEq, totalSupplyShares, sharesEq,
    totalSupplyAssets, assetsEq, tokens, pulled, equal⟩
  rcases Prod.mk.inj equal with ⟨rfl, rfl⟩
  rcases pullLoan_ok outside pulled with ⟨small, transferred⟩
  rw [toNat_narrow] at sharesEq assetsEq
  exact Cast.of_written settled (.supply small ((toNat_pos_iff _).mpr nonzero)
      (toSharesDown_ok sharesOk) positionEq sharesEq assetsEq)
    rfl transferred

theorem withdraw_ok
    (outside : ctx.msgSender ≠ d.self)
    (done : withdraw d ctx params assets w = .ok (event, w')) :
    Cast d ctx (.withdraw params assets) event w w' := by
  refine nonReentrant_performed (fun event w w' done => ?_) done
  simp only [bind_eq_ok, require_eq_ok, checkedSub_eq_ok, pure_eq_ok]
    at done
  rcases done with ⟨_, accrued, _, nonzero, shares, sharesOk, done⟩
  rcases accrue_ok accrued with ⟨m, rfl, settled⟩
  simp only [setMarket_market, setMarket_position] at sharesOk done
  rcases done with ⟨supplyShares, positionEq, totalSupplyShares, sharesEq,
    totalSupplyAssets, assetsEq, _, liquid, tokens, pushed, equal⟩
  rcases Prod.mk.inj equal with ⟨rfl, rfl⟩
  rcases pushLoan_ok outside pushed with ⟨small, transferred⟩
  rw [toNat_narrow] at sharesEq assetsEq
  exact Cast.of_written settled (.withdraw small ((toNat_pos_iff _).mpr nonzero)
      (toSharesUp_ok sharesOk) positionEq sharesEq assetsEq liquid)
    rfl transferred

theorem withdrawAll_ok
    (outside : ctx.msgSender ≠ d.self)
    (done : withdrawAll d ctx params w = .ok (event, w')) :
    Cast d ctx (.withdrawAll params) event w w' := by
  refine nonReentrant_performed (fun event w w' done => ?_) done
  simp only [bind_eq_ok, require_eq_ok, checkedSub_eq_ok, pure_eq_ok]
    at done
  rcases done with ⟨_, accrued, done⟩
  rcases accrue_ok accrued with ⟨m, rfl, settled⟩
  simp only [setMarket_market, setMarket_position] at done
  rcases done with ⟨_, nonzero, assets, assetsOk, totalSupplyShares,
    sharesEq, totalSupplyAssets, assetsEq, _, liquid, tokens, pushed,
    equal⟩
  rcases Prod.mk.inj equal with ⟨rfl, rfl⟩
  rcases pushLoan_ok outside pushed with ⟨small, transferred⟩
  rw [toNat_narrow] at sharesEq assetsEq
  exact Cast.of_written settled
    (.withdrawAll small ((toNat_pos_iff _).mpr nonzero)
      (toAssetsDown_ok assetsOk) sharesEq assetsEq liquid)
    rfl transferred

theorem supplyCollateral_ok
    (outside : ctx.msgSender ≠ d.self)
    (done : supplyCollateral d ctx params assets w = .ok (event, w')) :
    Cast d ctx (.supplyCollateral params assets) event w w' := by
  refine nonReentrant_performed (fun event w w' done => ?_) done
  simp only [bind_eq_ok, require_eq_ok, checkedAdd_eq_ok, pure_eq_ok,
    noteEntry_market, noteEntry_position] at done
  rcases done with ⟨_, created, _, nonzero, collateral, positionEq,
    totalCollateralAssets, totalEq, tokens, pulled, equal⟩
  rcases Prod.mk.inj equal with ⟨rfl, rfl⟩
  rcases pullCollateral_ok outside pulled with ⟨small, transferred⟩
  rw [toNat_narrow] at positionEq totalEq
  have performed : Cast d ctx (.supplyCollateral params assets) _ w
        ⟨written w.lending (d.idOf params) ctx.msgSender true
          (w.lending.market (d.idOf params)) _ _, tokens⟩ :=
    Cast.of_written ⟨rfl, created⟩
      (.supplyCollateral small ((toNat_pos_iff _).mpr nonzero)
        positionEq totalEq)
      rfl transferred
  simp only [written, setMarket_market_self, if_true] at performed
  exact performed

theorem withdrawCollateral_ok
    (outside : ctx.msgSender ≠ d.self)
    (done : withdrawCollateral d ctx params assets w = .ok (event, w')) :
    Cast d ctx (.withdrawCollateral params assets) event w w' := by
  refine nonReentrant_performed (fun event w w' done => ?_) done
  simp only [bind_eq_ok, require_eq_ok, checkedSub_eq_ok, pure_eq_ok]
    at done
  rcases done with ⟨_, accrued, _, nonzero, done⟩
  rcases accrue_ok accrued with ⟨m, rfl, settled⟩
  simp only [setMarket_market, setMarket_position] at done
  rcases done with ⟨collateral, positionEq, totalCollateralAssets, totalEq,
    answer, healthy, _, rfl, tokens, pushed, equal⟩
  simp only [isHealthy, setMarket_market, setMarket_position,
    setPosition_position] at healthy
  rcases Prod.mk.inj equal with ⟨rfl, rfl⟩
  rcases pushCollateral_ok outside pushed with ⟨small, transferred⟩
  rw [toNat_narrow] at positionEq totalEq
  exact Cast.of_written settled
    (.withdrawCollateral small ((toNat_pos_iff _).mpr nonzero)
      positionEq totalEq healthy)
    rfl transferred

theorem borrow_ok
    (outside : ctx.msgSender ≠ d.self)
    (done : borrow d ctx params assets w = .ok (event, w')) :
    Cast d ctx (.borrow params assets) event w w' := by
  refine nonReentrant_performed (fun event w w' done => ?_) done
  simp only [bind_eq_ok, require_eq_ok, checkedAdd_eq_ok, pure_eq_ok]
    at done
  rcases done with ⟨_, accrued, _, nonzero, shares, sharesOk, done⟩
  rcases accrue_ok accrued with ⟨m, rfl, settled⟩
  simp only [setMarket_market, noteEntry_position, setMarket_position]
    at sharesOk done
  rcases done with ⟨borrowShares, positionEq, totalBorrowShares, sharesEq,
    totalBorrowAssets, assetsEq, answer, healthy, _, rfl, _, liquid,
    s', synced, tokens, pushed, equal⟩
  simp only [isHealthy, setMarket_market, setMarket_position,
    setPosition_position] at healthy
  rcases Prod.mk.inj equal with ⟨rfl, rfl⟩
  rcases pushLoan_ok outside pushed with ⟨small, transferred⟩
  rw [toNat_narrow] at positionEq sharesEq assetsEq
  exact Cast.of_synced settled (.borrow small ((toNat_pos_iff _).mpr nonzero)
      (toSharesUp_ok sharesOk) positionEq sharesEq assetsEq healthy
      liquid)
    synced transferred

theorem repay_ok
    (outside : ctx.msgSender ≠ d.self)
    (done : repay d ctx params assets w = .ok (event, w')) :
    Cast d ctx (.repay params assets) event w w' := by
  refine nonReentrant_performed (fun event w w' done => ?_) done
  simp only [bind_eq_ok, require_eq_ok, checkedSub_eq_ok, pure_eq_ok]
    at done
  rcases done with ⟨_, accrued, _, nonzero, computed, computedOk, done⟩
  rcases accrue_ok accrued with ⟨m, rfl, settled⟩
  simp only [setMarket_market, setMarket_position] at computedOk done
  rcases done with ⟨maxAssets, maxOk, borrowShares, positionEq,
    totalBorrowShares, sharesEq, s', synced, tokens, pulled, equal⟩
  rcases Prod.mk.inj equal with ⟨rfl, rfl⟩
  rcases pullLoan_ok outside pulled with ⟨small, transferred⟩
  have sharesIs := toNat_capped computed
      (widen (w.lending.position (d.idOf params) ctx.msgSender).borrowShares)
  generalize capped computed
      (widen (w.lending.position (d.idOf params) ctx.msgSender).borrowShares)
      = shares at *
  rw [toNat_widen, toSharesDown_ok computedOk, min_comm] at sharesIs
  have paidIs := toNat_capped assets maxAssets
  rw [(toAssetsUp_eq_ok.mp maxOk).2.2, toNat_widen] at paidIs
  have sharesSmall : shares.toNat < 2 ^ 128 := by
    rw [sharesIs]
    exact lt_of_le_of_lt (min_le_left _ _) (BitVec.isLt _)
  rw [toNat_narrow_of_lt sharesSmall] at positionEq sharesEq
  exact Cast.of_synced settled
    (.repay small ((toNat_pos_iff _).mpr nonzero) sharesIs paidIs
      positionEq sharesEq
      (by rw [toNat_clampedSub, toNat_narrow]))
    synced transferred

theorem repayAll_ok
    (outside : ctx.msgSender ≠ d.self)
    (done : repayAll d ctx params w = .ok (event, w')) :
    Cast d ctx (.repayAll params) event w w' := by
  refine nonReentrant_performed (fun event w w' done => ?_) done
  simp only [bind_eq_ok, require_eq_ok, checkedSub_eq_ok, pure_eq_ok]
    at done
  rcases done with ⟨_, accrued, done⟩
  rcases accrue_ok accrued with ⟨m, rfl, settled⟩
  simp only [setMarket_market, setMarket_position] at done
  rcases done with ⟨_, owes, assets, assetsOk, totalBorrowShares, sharesEq,
    s', synced, tokens, pulled, equal⟩
  rcases Prod.mk.inj equal with ⟨rfl, rfl⟩
  rcases pullLoan_ok outside pulled with ⟨small, transferred⟩
  have paid := (toAssetsUp_eq_ok.mp assetsOk).2.2
  rw [← toNat_pos_iff, toNat_widen] at owes
  rw [toNat_widen] at paid
  rw [toNat_narrow_of_lt (by rw [toNat_widen]; exact BitVec.isLt _),
    toNat_widen] at sharesEq
  exact Cast.of_synced settled (.repayAll small owes paid sharesEq
      (by rw [toNat_clampedSub, toNat_narrow]))
    synced transferred

theorem writeOff_ok
    {m m' : Market} {p p' : Position} {badDebtAssets : U256}
    (done : writeOff m p = .ok (badDebtAssets, m', p')) :
    WriteOff m p badDebtAssets.toNat m' p' := by
  rw [writeOff] at done
  split at done
  · next bad =>
      simp only [bind_eq_ok, checkedSub_eq_ok, pure_eq_ok,
        Prod.mk.injEq] at done
      rcases done with ⟨owed, owedOk, totalBorrowShares, sharesEq,
        totalSupplyAssets, supplyEq, rfl, rfl, rfl⟩
      have badDebtEq := toNat_capped owed (widen m.totalSupplyAssets)
      rw [toNat_widen, (toAssetsUp_eq_ok.mp owedOk).2.2, toNat_widen,
        toNat_widen, min_comm] at badDebtEq
      have small : (capped owed (widen m.totalSupplyAssets)).toNat < 2 ^ 128 :=
        lt_of_le_of_lt (badDebtEq.trans_le (min_le_left _ _)) (BitVec.isLt _)
      rw [toNat_narrow_of_lt small] at supplyEq
      exact .all bad.1 (BitVec.lt_def.mp bad.2) badDebtEq sharesEq
        (by rw [toNat_clampedSub, toNat_narrow_of_lt small]) supplyEq
  · next covered =>
      simp only [pure_eq_ok, Prod.mk.injEq] at done
      rcases done with ⟨rfl, rfl, rfl⟩
      refine .none fun gone => ?_
      by_contra owes
      exact covered ⟨gone, BitVec.lt_def.mpr ((toNat_pos_iff _).mpr owes)⟩

theorem liquidate_ok
    {borrower : Address} (outside : ctx.msgSender ≠ d.self)
    (done : liquidate d ctx params borrower assets w = .ok (event, w')) :
    Cast d ctx (.liquidate params borrower assets) event w w' := by
  refine nonReentrant_performed (fun event w w' done => ?_) done
  simp only [bind_eq_ok, require_eq_ok, checkedSub_eq_ok, pure_eq_ok]
    at done
  rcases done with ⟨_, accrued, _, nonzero, done⟩
  rcases accrue_ok accrued with ⟨m, rfl, settled⟩
  simp only [isHealthy, setMarket_market, setMarket_position] at done
  rcases done with ⟨_, unhealthy, _, rfl, collateralPrice, priceOk, lif,
    lifOk, quoted, quotedOk, repaidAssets, repaidOk, repaidShares, sharesOk, borrowShares, borrowEq,
    totalBorrowShares, totalSharesEq, collateral, collateralEq,
    totalCollateralAssets, totalCollateralEq, ⟨badDebtAssets, m', p'⟩,
    writtenOff, s', synced, paidTokens, pushed, tokens, pulled, equal⟩
  rcases Prod.mk.inj equal with ⟨rfl, rfl⟩
  rcases pushCollateral_ok outside pushed with ⟨smallSeized, paidOut⟩
  rcases pullLoan_ok outside pulled with ⟨smallRepaid, paidIn⟩
  have priced : seizurePayment ctx params assets = .ok repaidAssets := by
    rw [seizurePayment, priceOk, ok_bind, lifOk, ok_bind, quotedOk, ok_bind,
      repaidOk]
  have transferred := paidOut.trans paidIn
  simp only [Nat.zero_add, Nat.add_zero] at transferred
  rw [toNat_narrow] at borrowEq totalSharesEq collateralEq totalCollateralEq
  exact Cast.of_synced settled
    (.liquidate smallSeized smallRepaid ((toNat_pos_iff _).mpr nonzero)
      unhealthy (toSharesDown_ok sharesOk) borrowEq totalSharesEq
      (by rw [toNat_clampedSub, toNat_narrow])
      collateralEq totalCollateralEq (writeOff_ok writtenOff) priced)
    synced transferred

theorem exec_ok
    {call : Call} (outside : ctx.msgSender ≠ d.self)
    (existing : ∀ params, call ≠ .createMarket params)
    (done : exec d ctx call w = .ok (event, w')) :
    Cast d ctx call event w w' := by
  cases call with
  | createMarket params => exact absurd rfl (existing params)
  | supply params assets => exact supply_ok outside done
  | withdraw params assets => exact withdraw_ok outside done
  | withdrawAll params => exact withdrawAll_ok outside done
  | supplyCollateral params assets => exact supplyCollateral_ok outside done
  | withdrawCollateral params assets =>
      exact withdrawCollateral_ok outside done
  | borrow params assets => exact borrow_ok outside done
  | repay params assets => exact repay_ok outside done
  | repayAll params => exact repayAll_ok outside done
  | liquidate params borrower seizedAssets =>
      exact liquidate_ok outside done

end Inversions

end Eris.Lending.Execution
