import Eris.Lending.Protocol

/-!
# Every debt on the books is backed by collateral

A position without collateral fails the health check as soon as it owes a
single share: its collateral is worth nothing, and a debt is never rounded
down to nothing.  So neither `borrow` nor `withdrawCollateral` can produce an
unbacked debt, and `liquidate` writes off whatever debt remains when it takes
the last collateral.
-/

namespace Eris.Lending.Backing

open Foundation.Checked Foundation.SharePool Evm.Word Data Contract Accrual
  Execution Protocol

/-- A position which owes has collateral. -/
def Backed (p : Position) : Prop :=
  0 < p.borrowShares.toNat → 0 < p.collateral.toNat

variable {d : Deployment} {ctx : Context} {params : MarketParams}
    {id : Bytes32} {m m' : Market} {p p' : Position}
    {call : Call} {event : Event} {flow : Flow} {badDebt : Nat}

theorem backed_of_healthy
    (healthy : healthOf ctx params m p = .ok true) :
    Backed p := by
  intro owes
  by_contra nothing
  have noCollateral : p.collateral.toNat = 0 := Nat.eq_zero_of_not_pos nothing
  rw [healthOf, if_neg ((toNat_pos_iff _).mp owes)] at healthy
  simp only [bind_eq_ok, pure_eq_ok, decide_eq_true_eq, mulDivDown_eq_ok,
    toAssetsUp_eq_ok, toNat_widen] at healthy
  rcases healthy with ⟨totals, _, owed, ⟨_, _, owedEq⟩, answer, _,
    worth, ⟨_, _, worthEq⟩, limit, ⟨_, _, limitEq⟩, enough⟩
  have worthless : worth.toNat = 0 := by
    rw [worthEq, noCollateral, mulDivFloor, Nat.zero_mul, Nat.zero_div]
  have nothingAllowed : limit.toNat = 0 := by
    rw [limitEq, worthless, mulDivFloor, Nat.zero_mul, Nat.zero_div]
  have somethingOwed : 0 < owed.toNat := by
    rw [owedEq]
    exact mulDivCeil_pos owes (Nat.succ_pos _) (Nat.succ_pos _)
  have bound : owed.toNat ≤ limit.toNat := enough
  rw [nothingAllowed] at bound
  exact absurd somethingOwed (Nat.not_lt.mpr bound)

theorem backed_of_writeOff (writtenOff : WriteOff m p badDebt m' p') :
    Backed p' := by
  cases writtenOff with
  | none covered =>
      intro owes
      apply (toNat_pos_iff _).mpr
      intro gone
      exact (toNat_pos_iff _).mp owes (covered gone)
  | all =>
      intro owes
      exact absurd owes (Nat.lt_irrefl 0)

theorem backed_of_ledger
    (ledger : LedgerStep ctx id m p call event m' p' flow) (backed : Backed p) :
    Backed p' := by
  cases ledger with
  | supply => exact backed
  | withdraw => exact backed
  | withdrawAll => exact backed
  | supplyCollateral _ positive positionEq =>
      intro owes
      dsimp only
      rw [← positionEq]
      exact Nat.add_pos_right _ positive
  | withdrawCollateral _ _ _ _ healthy => exact backed_of_healthy healthy
  | borrow _ _ _ _ _ _ healthy => exact backed_of_healthy healthy
  | repay _ _ _ _ positionEq =>
      intro owes
      apply backed
      rw [← positionEq]
      exact Nat.add_pos_left owes _
  | repayAll =>
      intro owes
      exact absurd owes (Nat.lt_irrefl 0)
  | liquidate _ _ _ _ _ _ _ _ _ _ writtenOff =>
      exact backed_of_writeOff writtenOff

/-- Every position of every market which owes has collateral. -/
def AllBacked (s : Storage) : Prop := ∀ id user, Backed (s.position id user)

theorem allBacked_of_framed
    {user : Address} {enters : Bool} {s s' : Storage}
    (frame : Framed id user enters s s' m' p') (holds : AllBacked s)
    (backed : Backed p') :
    AllBacked s' := by
  intro other account
  rw [frame.position]
  by_cases sameMarket : other = id
  · subst other
    rw [Function.update_self]
    by_cases sameUser : account = user
    · subst account
      rw [Function.update_self]
      exact backed
    · rw [Function.update_of_ne sameUser]
      exact holds _ _
  · rw [Function.update_of_ne sameMarket]
    exact holds _ _

/-- In every reachable state every position which owes has collateral. -/
theorem allBacked_of_reached
    {w : World} (reached : Reached d anything w) :
    ∀ id user, 0 < (w.lending.position id user).borrowShares.toNat →
        0 < (w.lending.position id user).collateral.toNat := by
  show AllBacked w.lending
  refine storage_invariant ?_ ?_ ?_ reached
  · intro id user owes
    exact absurd owes (Nat.lt_irrefl 0)
  · intro ctx params s holds _ _ id user
    exact holds id user
  · intro ctx call event w w' m m' p' flow holds _ _ executed
    exact allBacked_of_framed executed.frame holds
      (backed_of_ledger executed.ledger (holds _ _))

theorem backed_after_lentOut :
    ∃ w, script solo anything lentOut soloWorld = some w ∧
      0 < (w.lending.position 7 11).borrowShares.toNat ∧
        0 < (w.lending.position 7 11).collateral.toNat := by
  have ran : (script solo anything lentOut soloWorld).map
        (fun w => decide (0 < (w.lending.position 7 11).borrowShares.toNat))
      = some true := by
    decide +kernel
  rcases Option.map_eq_some_iff.mp ran with ⟨w, reaches, owes⟩
  have indebted := of_decide_eq_true owes
  exact ⟨w, reaches, indebted,
    allBacked_of_reached (solo_reached lentOut_admissible reaches) 7 11
      indebted⟩

end Eris.Lending.Backing
