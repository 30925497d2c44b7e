import Eris.Lending.Protocol

/-!
# Positions add up to the totals of their market

Each market keeps three totals beside its positions: supply shares, borrow
shares and collateral.  A call writes one position and the totals of one
market, so a sum survives exactly when the two changes balance.

Borrow shares and collateral always balance.  Supply shares are 256 bits wide
in a position and cut to 128 bits in the total, and `supply` does not check
the cast; the supply sums hold along every run in which no `supply` issues
`2 ^ 128` shares or more.
-/

namespace Eris.Lending.LedgerSums

open Foundation Foundation.Checked Foundation.Ledger Foundation.SharePool
  Evm.Word Evm.Erc20 Data Contract Accrual Execution Protocol

/-! ## One sum -/

/-- In every market the positions' amounts add up to the market's total. -/
def AddsUp
    (amount : Position → Nat) (total : Market → Nat) (s : Storage) : Prop :=
  ∀ id, ∑ user, amount (s.position id user) = total (s.market id)

section OneSum

variable {amount : Position → Nat} {total : Market → Nat}
    {id : Bytes32} {user : Address} {enters : Bool} {s s' : Storage}
    {m' : Market} {p' : Position}

theorem AddsUp.entry_le
    (holds : AddsUp amount total s) (id : Bytes32) (user : Address) :
    amount (s.position id user) ≤ total (s.market id) := by
  rw [← holds id]
  exact entry_le_total (fun user => amount (s.position id user)) user

theorem AddsUp.two_entries_le
    (holds : AddsUp amount total s) (id : Bytes32)
    {first second : Address} (different : first ≠ second) :
    amount (s.position id first) + amount (s.position id second) ≤
      total (s.market id) := by
  rw [← holds id]
  exact two_entries_le_total (fun user => amount (s.position id user)) different

theorem Framed.sum_eq
    (frame : Framed id user enters s s' m' p') (amount : Position → Nat) :
    ∑ other, amount (s'.position id other) + amount (s.position id user) =
      ∑ other, amount (s.position id other) + amount p' := by
  have moved := total_of_eq_off user (fun other => amount (s.position id other))
      (fun other => amount (s'.position id other))
      (fun other different => by
        rw [frame.position, Function.update_self,
          Function.update_of_ne different])
  rw [moved, frame.position, Function.update_self, Function.update_self]

theorem AddsUp.step
    (holds : AddsUp amount total s) (frame : Framed id user enters s s' m' p')
    (balanced : amount p' + total (s.market id) =
        amount (s.position id user) + total m') :
    AddsUp amount total s' := by
  intro other
  by_cases same : other = id
  · subst other
    have moved := Framed.sum_eq frame amount
    rw [holds id] at moved
    rw [frame.market, Function.update_self]
    omega
  · rw [frame.market, frame.position, Function.update_of_ne same,
      Function.update_of_ne same]
    exact holds other

theorem AddsUp.balanced
    (before : AddsUp amount total s) (after : AddsUp amount total s')
    (frame : Framed id user enters s s' m' p') :
    amount p' + total (s.market id) =
      amount (s.position id user) + total m' := by
  have moved := Framed.sum_eq frame amount
  have atId := after id
  rw [before id] at moved
  rw [frame.market, Function.update_self] at atId
  omega

theorem AddsUp.empty
    (noAmount : amount .zero = 0) (noTotal : total .zero = 0) :
    AddsUp amount total Storage.empty := by
  intro id
  simp [Storage.empty, noAmount, noTotal]

theorem AddsUp.created
    {d : Deployment} {ctx : Context} {params : MarketParams}
    (holds : AddsUp amount total s)
    (clockless : ∀ m clock, total { m with lastUpdate := clock } = total m) :
    AddsUp amount total (created d ctx params s) := by
  intro id
  by_cases same : id = d.idOf params
  · subst id
    simp only [Protocol.created, Function.update_self, clockless]
    exact holds _
  · simp only [Protocol.created, Function.update_of_ne same]
    exact holds id

end OneSum

section Balance

variable {ctx : Context} {id : Bytes32} {m m' : Market} {p p' : Position}
    {call : Call} {event : Event} {flow : Flow} {badDebt : Nat}

theorem WriteOff.borrow_balanced
    (writtenOff : WriteOff m p badDebt m' p') :
    p'.borrowShares.toNat + m.totalBorrowShares.toNat =
      p.borrowShares.toNat + m'.totalBorrowShares.toNat := by
  cases writtenOff with
  | none => rfl
  | all _ _ _ sharesEq =>
      show 0 + m.totalBorrowShares.toNat = _
      rw [Nat.zero_add, ← sharesEq, Nat.add_comm]

theorem borrow_balanced
    (ledger : LedgerStep ctx id m p call event m' p' flow) :
    p'.borrowShares.toNat + m.totalBorrowShares.toNat =
      p.borrowShares.toNat + m'.totalBorrowShares.toNat := by
  cases ledger with
  | supply => rfl
  | withdraw => rfl
  | withdrawAll => rfl
  | supplyCollateral => rfl
  | withdrawCollateral => rfl
  | borrow _ _ _ positionEq totalSharesEq =>
      dsimp only
      omega
  | repay _ _ _ _ positionEq totalSharesEq =>
      dsimp only
      omega
  | repayAll _ _ _ totalSharesEq =>
      show 0 + m.totalBorrowShares.toNat = _
      rw [Nat.zero_add, ← totalSharesEq, Nat.add_comm]
  | liquidate _ _ _ _ _ borrowEq totalSharesEq _ _ _ writtenOff =>
      have balanced := WriteOff.borrow_balanced writtenOff
      dsimp only at balanced
      omega

theorem collateral_balanced
    (ledger : LedgerStep ctx id m p call event m' p' flow) :
    p'.collateral.toNat + m.totalCollateralAssets.toNat =
      p.collateral.toNat + m'.totalCollateralAssets.toNat := by
  cases ledger with
  | supply => rfl
  | withdraw => rfl
  | withdrawAll => rfl
  | supplyCollateral _ _ positionEq totalEq =>
      dsimp only
      omega
  | withdrawCollateral _ _ positionEq totalEq =>
      dsimp only
      omega
  | borrow => rfl
  | repay => rfl
  | repayAll => rfl
  | liquidate _ _ _ _ _ _ _ _ collateralEq totalCollateralEq writtenOff =>
      rcases writtenOff.others with ⟨collateral, _, total, _, _⟩
      rw [collateral, total]
      dsimp only
      omega

theorem supply_balanced
    (ledger : LedgerStep ctx id m p call event m' p' flow)
    (covered : p.supplyShares.toNat ≤ m.totalSupplyShares.toNat)
    (notSupply : ∀ params assets, call ≠ .supply params assets) :
    p'.supplyShares.toNat + m.totalSupplyShares.toNat =
      p.supplyShares.toNat + m'.totalSupplyShares.toNat := by
  have small : p.supplyShares.toNat < 2 ^ 128 :=
    lt_of_le_of_lt covered m.totalSupplyShares.isLt
  cases ledger with
  | supply => exact absurd rfl (notSupply _ _)
  | withdraw _ _ _ positionEq totalSharesEq =>
      dsimp only
      omega
  | withdrawAll _ _ _ totalSharesEq =>
      show 0 + m.totalSupplyShares.toNat = _
      rw [Nat.mod_eq_of_lt small] at totalSharesEq
      rw [Nat.zero_add, ← totalSharesEq, Nat.add_comm]
  | supplyCollateral => rfl
  | withdrawCollateral => rfl
  | borrow => rfl
  | repay => rfl
  | repayAll => rfl
  | liquidate _ _ _ _ _ _ _ _ _ _ writtenOff =>
      rcases writtenOff.others with ⟨_, position, _, total, _⟩
      rw [position, total]

theorem supply_balanced_iff
    {params : MarketParams} {assets : U256}
    (ledger : LedgerStep ctx id m p (.supply params assets) event m' p' flow) :
    p'.supplyShares.toNat + m.totalSupplyShares.toNat =
        p.supplyShares.toNat + m'.totalSupplyShares.toNat ↔
      assets.toNat * (supplyPool m).shares <
        2 ^ 128 * (supplyPool m).assets := by
  have priced : 0 < (supplyPool m).assets := Nat.succ_pos _
  cases ledger with
  | supply _ _ sharesEq positionEq totalSharesEq =>
      rw [← Nat.div_lt_iff_lt_mul priced]
      change _ ↔ mulDivFloor _ _ _ < _
      rw [← sharesEq]
      dsimp only
      omega

end Balance

/-! ## The sums of the contract -/

structure Sums (s : Storage) : Prop where
  supply : AddsUp (fun p => p.supplyShares.toNat)
      (fun m => m.totalSupplyShares.toNat) s
  borrow : AddsUp (fun p => p.borrowShares.toNat)
      (fun m => m.totalBorrowShares.toNat) s
  collateral : AddsUp (fun p => p.collateral.toNat)
      (fun m => m.totalCollateralAssets.toNat) s

/--
A `supply` issues fewer than `2 ^ 128` shares at the price of the market as
its accrual leaves it; other steps are not restricted.
-/
def SupplyFits (d : Deployment) (w : World) : Action → Prop
  | .call ctx (.supply params assets) _ =>
      ∀ m, accrueMarket ctx params (w.lending.market (d.idOf params)) = .ok m →
        assets.toNat * (supplyPool m).shares < 2 ^ 128 * (supplyPool m).assets
  | _ => True

variable {d : Deployment} {allowed : World → Action → Prop} {w : World}

theorem borrowSums (reached : Reached d allowed w) :
    AddsUp (fun p => p.borrowShares.toNat)
      (fun m => m.totalBorrowShares.toNat) w.lending := by
  refine storage_invariant ?_ ?_ ?_ reached
  · exact AddsUp.empty rfl rfl
  · intro ctx params s holds _ _
    exact holds.created fun _ _ => rfl
  · intro ctx call event w w' m m' p' flow holds _ _ executed
    refine holds.step executed.frame ?_
    rw [← executed.grown.borrowShares]
    exact borrow_balanced executed.ledger

theorem collateralSums (reached : Reached d allowed w) :
    AddsUp (fun p => p.collateral.toNat)
      (fun m => m.totalCollateralAssets.toNat) w.lending := by
  refine storage_invariant ?_ ?_ ?_ reached
  · exact AddsUp.empty rfl rfl
  · intro ctx params s holds _ _
    exact holds.created fun _ _ => rfl
  · intro ctx call event w w' m m' p' flow holds _ _ executed
    refine holds.step executed.frame ?_
    rw [← executed.grown.collateral]
    exact collateral_balanced executed.ledger

theorem supplySums_step_iff
    {ctx : Context} {call : Call} {event : Event} {w' : World}
    {m m' : Market} {p' : Position} {flow : Flow}
    (holds : AddsUp (fun p => p.supplyShares.toNat)
        (fun m => m.totalSupplyShares.toNat) w.lending)
    (executed : Executed d ctx call event w w' m m' p' flow) :
    AddsUp (fun p => p.supplyShares.toNat)
        (fun m => m.totalSupplyShares.toNat) w'.lending ↔
      SupplyFits d w (.call ctx call event) := by
  have balance_iff : p'.supplyShares.toNat + m.totalSupplyShares.toNat =
        (w.lending.position (d.idOf call.params)
          (call.account ctx)).supplyShares.toNat +
          m'.totalSupplyShares.toNat ↔
      SupplyFits d w (.call ctx call event) := by
    by_cases isSupply : ∃ params assets, call = .supply params assets
    · rcases isSupply with ⟨params, assets, rfl⟩
      rw [supply_balanced_iff executed.ledger]
      have accrued := executed.accrued
      simp only [Call.accrues, if_true] at accrued
      constructor
      · intro fits other otherAccrued
        rw [show other = m from
          Except.ok.inj (otherAccrued.symm.trans accrued)]
        exact fits
      · intro fits
        exact fits m accrued
    · have notSupply : ∀ params assets, call ≠ .supply params assets := by
        intro params assets equal
        exact isSupply ⟨params, assets, equal⟩
      have covered : (w.lending.position (d.idOf call.params)
          (call.account ctx)).supplyShares.toNat ≤
          m.totalSupplyShares.toNat := by
        rw [executed.grown.supplyShares]
        exact holds.entry_le (d.idOf call.params) (call.account ctx)
      refine iff_of_true (supply_balanced executed.ledger covered notSupply) ?_
      cases call <;> first | exact trivial | exact absurd rfl (notSupply _ _)
  rw [← balance_iff, executed.grown.supplyShares]
  constructor
  · intro after
    exact holds.balanced after executed.frame
  · intro balanced
    exact holds.step executed.frame balanced

theorem supplySums
    (fits : ∀ ctx call event w w' m m' p' flow,
      Executed d ctx call event w w' m m' p' flow →
        allowed w (.call ctx call event) →
          SupplyFits d w (.call ctx call event))
    (reached : Reached d allowed w) :
    AddsUp (fun p => p.supplyShares.toNat)
      (fun m => m.totalSupplyShares.toNat) w.lending := by
  refine storage_invariant ?_ ?_ ?_ reached
  · exact AddsUp.empty rfl rfl
  · intro ctx params s holds _ _
    exact holds.created fun _ _ => rfl
  · intro ctx call event w w' m m' p' flow holds permitted _ executed
    exact (supplySums_step_iff holds executed).mpr
      (fits _ _ _ _ _ _ _ _ _ executed permitted)

/-- The sums hold, and the next step keeps them exactly when it fits. -/
theorem sums_of_supplyFits (reached : Reached d (SupplyFits d) w) :
    Sums w.lending ∧ ∀ action w', Step d w action w' →
        (Sums w'.lending ↔ SupplyFits d w action) := by
  have holds : Sums w.lending :=
    ⟨supplySums (fun _ _ _ _ _ _ _ _ _ _ fits => fits) reached,
      borrowSums reached, collateralSums reached⟩
  refine ⟨holds, fun action w' step => ?_⟩
  have reached' : Reached d anything w' :=
    reached_step (reached.weaken fun _ _ _ => trivial) trivial step
  have others : Sums w'.lending ↔ AddsUp (fun p => p.supplyShares.toNat)
          (fun m => m.totalSupplyShares.toNat) w'.lending :=
    ⟨Sums.supply,
      fun supply => ⟨supply, borrowSums reached', collateralSums reached'⟩⟩
  rw [others]
  cases step_effect step with
  | created outside submitted valid fresh =>
      exact iff_of_true (holds.supply.created fun _ _ => rfl) trivial
  | performed outside submitted executed =>
      exact supplySums_step_iff holds.supply executed
  | token outside done => exact iff_of_true holds.supply trivial

instance (w : World) (action : Action) :
    Decidable (SupplyFits d w action) :=
  match action with
  | .token _ _ _ => .isTrue trivial
  | .call _ request _ =>
      match request with
      | .supply _ _ => decidableOfOk _ _
      | .createMarket _ => .isTrue trivial
      | .withdraw _ _ => .isTrue trivial
      | .withdrawAll _ => .isTrue trivial
      | .supplyCollateral _ _ => .isTrue trivial
      | .withdrawCollateral _ _ => .isTrue trivial
      | .borrow _ _ => .isTrue trivial
      | .repay _ _ => .isTrue trivial
      | .repayAll _ => .isTrue trivial
      | .liquidate _ _ _ => .isTrue trivial

theorem sums_of_lentOut :
    ∃ w, script solo (SupplyFits solo) lentOut soloWorld = some w ∧
      Sums w.lending := by
  have ran : (script solo (SupplyFits solo) lentOut soloWorld).isSome := by
    decide +kernel
  rcases Option.isSome_iff_exists.mp ran with ⟨w, reaches⟩
  have reached : Reached solo (SupplyFits solo) w :=
    solo_reached lentOut_admissible reaches
  exact ⟨w, reaches, (sums_of_supplyFits reached).1⟩

/--
The loan is liquidated for a worthless seizure; the bad debt wipes out all
supplied assets while the shares stay, and the next `supply` issues more than
`2 ^ 128` shares.
-/
def wipedOut : List Transaction :=
  lentOut ++ [.call (asking 10 1 0) (.liquidate soloMarket 11 1),
      .call (asking 10 1 0) (.supply soloMarket 20000000000000000)]

theorem sums_fail_after_wipeOut :
    ¬ ∀ d w, Reached d anything w → Sums w.lending := by
  intro claimed
  have ran : (script solo anything wipedOut soloWorld).map
        (fun w => (w.lending.position 7 10).supplyShares.toNat) =
      some 400000000000000040000000000000000000000 := by
    decide +kernel
  rcases Option.map_eq_some_iff.mp ran with ⟨w, reaches, entry⟩
  have reached : Reached solo anything w := solo_reached (by
        simp [wipedOut, lentOut, Transaction.Admissible, asking, solo,
          Call.params])
      reaches
  have covered := (claimed solo w reached).supply.entry_le 7 10
  have small := (w.lending.market 7).totalSupplyShares.isLt
  omega

end Eris.Lending.LedgerSums
