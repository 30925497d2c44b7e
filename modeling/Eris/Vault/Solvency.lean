import Eris.Vault.Protocol

/-!
# What the vault holds and what it owes

The WETH of the vault covers three purses: the pool, the queued withdrawals
and the reward reserve.  What is queued is exactly what the unclaimed requests
are owed; what was ever accrued was funded before.
-/

namespace Eris.Vault.Solvency

open Foundation Foundation.Checked Foundation.Ledger Foundation.Transition
  Evm.Word Evm.Erc20 Data Contract Operations Protocol

variable {d : Deployment} {ctx : Context} {w w' : World} {s : Storage}
    {log : List Entry} {operation : Operation}
    {permitted : World → Label → Prop}

/-! ## Totals of the log -/

def total (measure : Event → Nat) (log : List Entry) : Nat :=
  (log.map fun entry => measure entry.event).sum

/-- The rewards an event moved into the pool. -/
def accruedBy : Event → Nat
  | .rewardsAccrued assets _ _ => assets.toNat
  | _ => 0

def fundedBy : Event → Nat
  | .rewardsFunded _ assets _ => assets.toNat
  | _ => 0

theorem total_logged
    (measure : Event → Nat) (ctx : Context) (w : World) (events : List Event) :
    total measure (logged ctx w events) =
      total measure w.log + (events.map measure).sum := by
  rw [total, logged, List.map_append, List.sum_append, List.map_map]
  rfl

/-- What was accrued came out of what was funded. -/
def Rewarded (s : Storage) (log : List Entry) : Prop :=
  s.rewardReserve.toNat + total accruedBy log = total fundedBy log

theorem rewarded_of_operated
    (holds : Rewarded w.vault w.log)
    (operated : Operated d ctx w operation w') :
    Rewarded w'.vault w'.log := by
  unfold Rewarded at holds ⊢
  cases operated with
  | accrue late live taken given =>
      simp only [total_logged, List.map_cons, List.map_nil, List.sum_cons,
        List.sum_nil, accruedBy, fundedBy]
      omega
  | fund given paid =>
      simp only [total_logged, List.map_cons, List.map_nil, List.sum_cons,
        List.sum_nil, accruedBy, fundedBy]
      omega
  | tick => exact holds
  | _ =>
      simpa [total_logged, accruedBy, fundedBy, withShares, setAllowance]
        using holds

theorem total_events_eq_zero
    {measure : Event → Nat}
    (operator : ∀ account allowed, measure (.operatorSet account allowed) = 0)
    (rate : ∀ value, measure (.rewardRateSet value) = 0)
    (delay : ∀ value, measure (.withdrawalDelaySet value) = 0)
    (blockNumber : U256) :
    total measure (d.events.map fun event => ⟨blockNumber, event⟩) = 0 := by
  rw [total, Deployment.events]
  split <;> simp [operator, rate, delay]

theorem rewarded_of_reachable
    (reachable : (ledger d).Reachable permitted w) :
    Rewarded w.vault w.log := by
  refine books_invariant ?_ ?_ reachable
  · intro blockNumber
    have accrued : total accruedBy _ = 0 :=
      total_events_eq_zero (d := d) (fun _ _ => rfl) (fun _ => rfl)
        (fun _ => rfl) blockNumber
    have funded : total fundedBy _ = 0 :=
      total_events_eq_zero (d := d) (fun _ _ => rfl) (fun _ => rfl)
        (fun _ => rfl) blockNumber
    rw [Rewarded, accrued, funded]
    rfl
  · intro ctx operation w w' holds _ _ operated
    exact rewarded_of_operated holds operated

def owed (request : WithdrawalRequest) : Nat :=
  if request.claimed then 0 else request.assets.toNat

/-- An open request of `owner`. -/
def openFor (owner : Address) (request : WithdrawalRequest) : Bool :=
  decide (request.owner = owner) && !request.claimed

/-- The positions of all requests `owner` ever made. -/
def idsOf (requests : List WithdrawalRequest) (owner : Address) :
    List Nat :=
  (List.range requests.length).filter fun requestId =>
    requests[requestId]?.any fun request => decide (request.owner = owner)

/-- The bookkeeping of the queue agrees with its requests. -/
structure Queued (s : Storage) : Prop where
  pending : s.pendingWithdrawalWeth.toNat = (s.withdrawalRequests.map owed).sum
  count : s.openRequestCount.toNat =
      s.withdrawalRequests.countP fun request => !request.claimed
  ids : ∀ owner, s.requestIdsOf owner = idsOf s.withdrawalRequests owner

theorem idsOf_append
    (requests : List WithdrawalRequest) (request : WithdrawalRequest)
    (owner : Address) :
    idsOf (requests ++ [request]) owner = if request.owner = owner then
        idsOf requests owner ++ [requests.length]
      else idsOf requests owner := by
  have earlier : (List.range requests.length).filter (fun requestId =>
          (requests ++ [request])[requestId]?.any fun request =>
            decide (request.owner = owner)) =
        idsOf requests owner := by
    apply List.filter_congr
    intro requestId member
    rw [List.getElem?_append_left (List.mem_range.mp member)]
  rw [idsOf, List.length_append, List.length_singleton,
    List.range_succ, List.filter_append, earlier]
  split
  · next own => simp [own]
  · next foreign => simp [foreign]

theorem idsOf_set
    {requests : List WithdrawalRequest} {requestId : Nat}
    {request changed : WithdrawalRequest}
    (found : requests[requestId]? = some request)
    (sameOwner : changed.owner = request.owner) (owner : Address) :
    idsOf (requests.set requestId changed) owner = idsOf requests owner := by
  rw [idsOf, List.length_set]
  apply List.filter_congr
  intro other _
  by_cases same : requestId = other
  · subst other
    rw [List.getElem?_set_self (List.getElem?_eq_some_iff.mp found).1, found]
    simp [sameOwner]
  · rw [List.getElem?_set_ne same]

theorem queued_of_operated
    (holds : Queued w.vault) (operated : Operated d ctx w operation w') :
    Queued w'.vault := by
  rcases holds with ⟨pending, count, ids⟩
  cases operated with
  | request priced some burned taken owedEq counted =>
      refine ⟨?_, ?_, ?_⟩
      · simp only [List.map_append, List.sum_append, owedEq, pending]
        rfl
      · simp only [List.countP_append, counted, count]
        rfl
      · intro owner
        simp only [idsOf_append]
        split
        · next own =>
            subst own
            rw [Function.update_self, ids]
        · next foreign =>
            rw [Function.update_of_ne (Ne.symm foreign), ids]
  | @claim requestId request _ _ _ found own unclaimed final settled
      counted paid =>
      have inside := (List.getElem?_eq_some_iff.mp found).1
      have located := (List.getElem?_eq_some_iff.mp found).2
      refine ⟨?_, ?_, ?_⟩
      · have moved := listTotal_set owed { request with claimed := true } found
        have before : owed request = request.assets.toNat := by
          simp [owed, unclaimed]
        have after : owed { request with claimed := true } = 0 := rfl
        rw [before, after] at moved
        dsimp only
        omega
      · have positive : 0 < w.vault.withdrawalRequests.countP
            fun request => !request.claimed := by
          apply List.countP_pos_iff.mpr
          exact ⟨request, List.mem_of_getElem? found, by simp [unclaimed]⟩
        simp only [List.countP_set inside, located, unclaimed,
          Bool.not_false, Bool.not_true, if_true, Bool.false_eq_true,
          if_false]
        omega
      · intro owner
        refine (ids owner).trans (Eq.symm (idsOf_set found ?_ owner))
        rfl
  | _ => exact ⟨pending, count, ids⟩

theorem queued_of_reachable
    (reachable : (ledger d).Reachable permitted w) :
    Queued w.vault := by
  refine storage_invariant ?_ ?_ reachable
  · intro blockNumber
    exact ⟨rfl, rfl, fun _ => rfl⟩
  · intro ctx operation w w' holds _ _ operated
    exact queued_of_operated holds operated

/-! ## The shares -/

/-- The balances of the share token add up to its supply. -/
def SharesAddUp (s : Storage) : Prop :=
  ∑ account, (s.balanceOf account).toNat = s.totalSupply.toNat

theorem sharesAddUp_minted
    {recipient : Address} {amount supply balance : U256}
    (minted : Minted s recipient amount supply balance)
    (holds : SharesAddUp s) :
    SharesAddUp (withShares s recipient supply balance) := by
  have moved := total_of_eq_off recipient
      (fun account => (s.balanceOf account).toNat)
      (fun account =>
        (Function.update s.balanceOf recipient balance account).toNat)
      (fun account different => by rw [Function.update_of_ne different])
  rw [Function.update_self, holds, minted.balance] at moved
  rw [SharesAddUp, withShares, minted.supply]
  linarith

theorem sharesAddUp_burned
    {sender : Address} {amount supply balance : U256}
    (burned : Burned s sender amount supply balance) (holds : SharesAddUp s) :
    SharesAddUp (withShares s sender supply balance) := by
  have moved := total_of_eq_off sender
      (fun account => (s.balanceOf account).toNat)
      (fun account =>
        (Function.update s.balanceOf sender balance account).toNat)
      (fun account different => by rw [Function.update_of_ne different])
  rw [Function.update_self, holds, ← burned.balance, ← burned.supply]
    at moved
  show ∑ account, (Function.update s.balanceOf sender balance account).toNat =
    supply.toNat
  linarith

theorem sharesAddUp_of_operated
    (holds : SharesAddUp w.vault) (operated : Operated d ctx w operation w') :
    SharesAddUp w'.vault := by
  cases operated with
  | bootstrap empty enough some given locked minted paid =>
      exact sharesAddUp_minted minted (sharesAddUp_minted locked holds)
  | deposit live priced some given minted paid =>
      exact sharesAddUp_minted minted holds
  | request priced some burned =>
      exact sharesAddUp_burned burned holds
  | @move sender recipient amount debited credited allowance entitled spent
      debit credit =>
      have taken := total_of_eq_off sender
          (fun account => (w.vault.balanceOf account).toNat)
          (fun account =>
            (Function.update w.vault.balanceOf sender debited account).toNat)
          (fun account different => by rw [Function.update_of_ne different])
      have given := total_of_eq_off recipient (fun account =>
            (Function.update w.vault.balanceOf sender debited account).toNat)
          (fun account =>
            (Function.update
              (Function.update w.vault.balanceOf sender debited) recipient
              credited account).toNat)
          (fun account different => by rw [Function.update_of_ne different])
      rw [Function.update_self, holds] at taken
      rw [Function.update_self, credit] at given
      rw [SharesAddUp]
      linarith
  | _ => exact holds

theorem sharesAddUp_of_reachable
    (reachable : (ledger d).Reachable permitted w) :
    SharesAddUp w.vault := by
  refine storage_invariant ?_ ?_ reachable
  · intro blockNumber
    simp [SharesAddUp, Storage.deployed]
  · intro ctx operation w w' holds _ _ operated
    exact sharesAddUp_of_operated holds operated

/-- The vault holds what it owes, and nobody may spend it. -/
structure Covered (d : Deployment) (w : World) : Prop where
  covered :
    w.vault.totalPooledWeth.toNat + w.vault.pendingWithdrawalWeth.toNat +
        w.vault.rewardReserve.toNat ≤
      (w.weth.balanceOf d.self).toNat
  unapproved : w.weth.Unapproved d.self

theorem Transferred.received
    {amount : U256} {before after : Weth} (outside : ctx.msgSender ≠ d.self)
    (paid : Transferred d ctx.msgSender d.self amount before after)
    (unapproved : before.Unapproved d.self) :
    (after.balanceOf d.self).toNat =
        (before.balanceOf d.self).toNat + amount.toNat ∧
      after.Unapproved d.self :=
  ⟨paid.moved.balance_recipient outside.symm,
    fun spender => (paid.kept spender).trans (unapproved spender)⟩

theorem Transferred.given
    {recipient : Address} {amount : U256} {before after : Weth}
    (outside : recipient ≠ d.self)
    (paid : Transferred d d.self recipient amount before after)
    (unapproved : before.Unapproved d.self) :
    (after.balanceOf d.self).toNat + amount.toNat =
        (before.balanceOf d.self).toNat ∧
      after.Unapproved d.self :=
  ⟨paid.moved.balance_sender outside,
    fun spender => (paid.kept spender).trans (unapproved spender)⟩

theorem covered_of_operated
    (holds : Covered d w) (outside : ctx.msgSender ≠ d.self)
    (operated : Operated d ctx w operation w') :
    Covered d w' := by
  rcases holds with ⟨covered, unapproved⟩
  cases operated with
  | accrue late live taken given =>
      refine ⟨?_, unapproved⟩
      dsimp only
      omega
  | bootstrap empty enough some given locked minted paid =>
      rcases Transferred.received outside paid unapproved with
        ⟨balance, kept⟩
      refine ⟨?_, kept⟩
      dsimp only [withShares]
      omega
  | deposit live priced some given minted paid =>
      rcases Transferred.received outside paid unapproved with
        ⟨balance, kept⟩
      refine ⟨?_, kept⟩
      dsimp only [withShares]
      omega
  | request priced some burned taken owedEq =>
      refine ⟨?_, unapproved⟩
      dsimp only [withShares]
      omega
  | claim found own unclaimed final settled counted paid =>
      rcases Transferred.given outside paid unapproved with ⟨balance, kept⟩
      refine ⟨?_, kept⟩
      dsimp only
      omega
  | fund given paid =>
      rcases Transferred.received outside paid unapproved with
        ⟨balance, kept⟩
      refine ⟨?_, kept⟩
      dsimp only
      omega
  | slash entitled partially cut taken paid =>
      rcases Transferred.given d.alive.symm paid unapproved with
        ⟨balance, kept⟩
      refine ⟨?_, kept⟩
      dsimp only
      omega
  | _ => exact ⟨covered, unapproved⟩

theorem covered_of_reachable
    (reachable : (ledger d).Reachable permitted w) :
    Covered d w := by
  refine System.Reachable.invariant ?_ ?_ reachable
  · intro world initial
    rcases initial with ⟨⟨blockNumber, storage, _⟩, unapproved⟩
    refine ⟨?_, unapproved⟩
    rw [storage]
    exact Nat.zero_le _
  · intro world label next holds _ step
    cases label with
    | operation ctx operation =>
        exact covered_of_operated holds step.1 step.2
    | weth caller call =>
        rcases step with ⟨outside, books, done, rfl⟩
        have kept := Token.exec_by_other holds.unapproved outside done
        exact ⟨le_trans holds.covered kept.1, kept.2⟩

/-! ## The view of an account -/

/-- One for a request which is still open. -/
def unclaimed (request : WithdrawalRequest) : Nat :=
  if request.claimed then 0 else 1

theorem checkedAdd_fits
    (left right : U256) (fits : left.toNat + right.toNat < 2 ^ 256) :
    ∃ sum, (checkedAdd left right : Result U256) = .ok sum ∧
      sum.toNat = left.toNat + right.toNat := by
  rcases exists_toNat_eq fits with ⟨sum, sumEq⟩
  exact ⟨sum, checkedAdd_eq_ok.mpr sumEq.symm, sumEq⟩

theorem tally_add
    (ctx : Context) (t : Tally) {requestId : Nat} {request : WithdrawalRequest}
    (found : s.withdrawalRequests[requestId]? = some request)
    (countFits : t.openRequests.toNat + unclaimed request < 2 ^ 256)
    (owedFits : t.pendingAssets.toNat + t.claimableAssets.toNat + owed request <
        2 ^ 256) :
    ∃ t', Tally.add ctx s t requestId = .ok t' ∧
      t'.openRequests.toNat = t.openRequests.toNat + unclaimed request ∧
        t'.pendingAssets.toNat + t'.claimableAssets.toNat =
          t.pendingAssets.toNat + t.claimableAssets.toNat + owed request := by
  unfold Tally.add
  simp only [found]
  by_cases claimed : request.claimed = true
  · rw [if_pos claimed]
    exact ⟨t, rfl, by simp [unclaimed, claimed], by simp [owed, claimed]⟩
  · have one : unclaimed request = 1 := if_neg claimed
    have due : owed request = request.assets.toNat := if_neg claimed
    rw [one] at countFits ⊢
    rw [due] at owedFits ⊢
    rw [if_neg claimed]
    rcases checkedAdd_fits t.openRequests 1 countFits with
      ⟨count, countOk, countEq⟩
    rw [countOk, ok_bind]
    split
    · rcases checkedAdd_fits t.claimableAssets request.assets (by omega) with
        ⟨claimable, claimableOk, claimableEq⟩
      rw [claimableOk, ok_bind]
      exact ⟨_, rfl, countEq, by dsimp only; omega⟩
    · rcases checkedAdd_fits t.pendingAssets request.assets (by omega) with
        ⟨pending, pendingOk, pendingEq⟩
      rw [pendingOk, ok_bind]
      exact ⟨_, rfl, countEq, by dsimp only; omega⟩

/-- A measure of the request at a position, if there is one. -/
def atId
    (s : Storage) (measure : WithdrawalRequest → Nat) (requestId : Nat) :
    Nat :=
  s.withdrawalRequests[requestId]?.elim 0 measure

theorem tally_run
    (ctx : Context) (ids : List Nat) (t : Tally)
    (known : ∀ id ∈ ids, ∃ request, s.withdrawalRequests[id]? = some request)
    (countFits :
      t.openRequests.toNat + (ids.map (atId s unclaimed)).sum < 2 ^ 256)
    (owedFits : t.pendingAssets.toNat + t.claimableAssets.toNat +
          (ids.map (atId s owed)).sum <
        2 ^ 256) :
    ∃ t', ids.foldlM (Tally.add ctx s) t = .ok t' ∧ t'.openRequests.toNat =
          t.openRequests.toNat + (ids.map (atId s unclaimed)).sum ∧
        t'.pendingAssets.toNat + t'.claimableAssets.toNat =
          t.pendingAssets.toNat + t.claimableAssets.toNat +
            (ids.map (atId s owed)).sum := by
  induction ids generalizing t with
  | nil => exact ⟨t, rfl, rfl, rfl⟩
  | cons id rest ih =>
      rcases known id List.mem_cons_self with ⟨request, found⟩
      have counts : atId s unclaimed id = unclaimed request := by
        rw [atId, found, Option.elim_some]
      have owes : atId s owed id = owed request := by
        rw [atId, found, Option.elim_some]
      simp only [List.map_cons, List.sum_cons, counts, owes]
        at countFits owedFits ⊢
      rcases tally_add ctx t found (by omega) (by omega) with
        ⟨t₁, added, countEq, owedEq⟩
      rcases ih t₁
        (fun other member => known other (List.mem_cons_of_mem _ member))
        (by omega) (by omega) with
        ⟨t₂, rested, countEq', owedEq'⟩
      refine ⟨t₂, ?_, by omega, by omega⟩
      rw [List.foldlM_cons, added, ok_bind]
      exact rested

theorem countP_eq_total
    (passes : WithdrawalRequest → Bool) (requests : List WithdrawalRequest) :
    requests.countP passes =
      (requests.map fun request => if passes request then 1 else 0).sum :=
  by
  induction requests with
  | nil => rfl
  | cons request rest ih =>
      rw [List.countP_cons, List.map_cons, List.sum_cons, ih, Nat.add_comm]

theorem total_unclaimed
    (queued : Queued s) (owner : Address) :
    ((s.requestIdsOf owner).map (atId s unclaimed)).sum =
      s.withdrawalRequests.countP (openFor owner) := by
  rw [queued.ids owner, idsOf, countP_eq_total]
  refine (total_filter_range unclaimed s.withdrawalRequests
    fun request => decide (request.owner = owner)).trans ?_
  congr 1
  apply List.map_congr_left
  intro request _
  by_cases own : request.owner = owner <;>
    cases claimed : request.claimed <;>
    simp [unclaimed, openFor, own, claimed]

theorem total_owed_le
    (queued : Queued s) (owner : Address) :
    ((s.requestIdsOf owner).map (atId s owed)).sum ≤
      s.pendingWithdrawalWeth.toNat := by
  rw [queued.ids owner, idsOf, queued.pending]
  refine le_trans (total_filter_range owed s.withdrawalRequests
    fun request => decide (request.owner = owner)).le ?_
  apply List.sum_le_sum
  intro request _
  split
  · exact le_refl _
  · exact Nat.zero_le _

theorem tally_of_queued
    (queued : Queued s) (ctx : Context) (owner : Address) :
    ∃ t, (s.requestIdsOf owner).foldlM (Tally.add ctx s) ⟨0, 0, 0, 0⟩ = .ok t ∧
      t.openRequests.toNat = s.withdrawalRequests.countP (openFor owner) := by
  have fewer : s.withdrawalRequests.countP (openFor owner) ≤
      s.openRequestCount.toNat := by
    rw [queued.count]
    apply List.countP_mono_left
    intro request _ opened
    exact (Bool.and_eq_true_iff.mp opened).2
  have counted := total_unclaimed queued owner
  have bounded := total_owed_le queued owner
  have countLt := s.openRequestCount.isLt
  have pendingLt := s.pendingWithdrawalWeth.isLt
  rcases tally_run ctx (s.requestIdsOf owner) ⟨0, 0, 0, 0⟩ (by
        intro id member
        rw [queued.ids owner] at member
        have inside := List.mem_range.mp (List.mem_filter.mp member).1
        exact ⟨_, List.getElem?_eq_getElem inside⟩)
      (by simp; omega) (by simp; omega) with
    ⟨t, ran, countEq, _⟩
  refine ⟨t, ran, ?_⟩
  rw [countEq, counted]
  exact Nat.zero_add _

/-- What a solvent vault satisfies between any two calls. -/
structure Solvent (d : Deployment) (w : World) : Prop where
  covered :
    w.vault.totalPooledWeth.toNat + w.vault.pendingWithdrawalWeth.toNat +
        w.vault.rewardReserve.toNat ≤
      (w.weth.balanceOf d.self).toNat
  pending : w.vault.pendingWithdrawalWeth.toNat =
      (w.vault.withdrawalRequests.map owed).sum
  openRequests : w.vault.openRequestCount.toNat =
      w.vault.withdrawalRequests.countP fun request => !request.claimed
  accountRequests : ∀ ctx owner shareAssets,
    convertToAssets (w.vault.balanceOf owner) w.vault = .ok shareAssets →
      ∃ summary, accountSummary ctx owner w.vault = .ok summary ∧
        summary.openRequests.toNat =
          w.vault.withdrawalRequests.countP (openFor owner)
  shares :
    ∑ account, (w.vault.balanceOf account).toNat = w.vault.totalSupply.toNat
  rewards : total accruedBy w.log ≤ total fundedBy w.log

theorem accountSummary_of_queued
    (queued : Queued s) (ctx : Context) {owner : Address} {shareAssets : U256}
    (quoted : convertToAssets (s.balanceOf owner) s = .ok shareAssets) :
    ∃ summary, accountSummary ctx owner s = .ok summary ∧
      summary.openRequests.toNat =
        s.withdrawalRequests.countP (openFor owner) := by
  rcases tally_of_queued queued ctx owner with ⟨t, ran, counted⟩
  refine ⟨{ t with shares := s.balanceOf owner, shareAssets }, ?_, counted⟩
  rw [accountSummary, quoted, ok_bind, ran]
  rfl

/--
The vault is solvent in every reachable state, and a direct donation leaves
all of its books, hence its redemption rate, as they were.
-/
theorem solvent_vault (reached : Reached d anything w) :
    Solvent d w ∧ ∀ caller call w', Step d w (.weth caller call) w' →
        stEthPerToken w'.vault = stEthPerToken w.vault ∧
          w'.vault = w.vault := by
  have reachable := reached_ledger covers_anything reached
  have queued := queued_of_reachable reachable
  have rewarded := rewarded_of_reachable reachable
  constructor
  · constructor
    · exact (covered_of_reachable reachable).covered
    · exact queued.pending
    · exact queued.count
    · intro ctx owner shareAssets quoted
      exact accountSummary_of_queued queued ctx quoted
    · exact sharesAddUp_of_reachable reachable
    · rw [← rewarded]
      exact Nat.le_add_left _ _
  · intro caller call w' step
    rcases step with ⟨_, books, _, rfl⟩
    exact ⟨rfl, rfl⟩

theorem solvent_after_staked :
    ∃ w, script solo anything staked soloWorld = some w ∧ Solvent solo w := by
  have ran : (script solo anything staked soloWorld).isSome := by
    decide
  rcases Option.isSome_iff_exists.mp ran with ⟨w, reaches⟩
  exact ⟨w, reaches, (solvent_vault (solo_reached staked_admissible reaches)).1⟩

end Eris.Vault.Solvency
