import Eris.Vault.Solvency

/-!
# Claiming everything that is due

`claimAllWithdrawals` and the two summaries of an account walk the same list
of requests.  One request at a time, the loop which pays agrees with the loop
which reports: a request is paid, and marked, exactly when it counts as
claimable.  `claimAll_laws` carries the agreement over the whole list.
-/

namespace Eris.Vault.Claiming

open Foundation Foundation.Checked Foundation.Ledger Foundation.Transition
  Evm.Word Evm.Erc20 Data Contract Operations Protocol Solvency

variable {d : Deployment} {ctx : Context} {w w' : World} {s : Storage}
    {id : Nat} {request : WithdrawalRequest}

/-! ## One request -/

/-- A request which can be claimed in this block. -/
def Due (ctx : Context) (request : WithdrawalRequest) : Prop :=
  request.claimed = false ∧ request.claimableAt ≤ ctx.blockNumber

instance (ctx : Context) : DecidablePred (Due ctx) :=
  fun _ => inferInstanceAs (Decidable (_ ∧ _))

def due (ctx : Context) (request : WithdrawalRequest) : Nat :=
  if Due ctx request then request.assets.toNat else 0

/-- A request after it was claimed, if it was due. -/
def settle (ctx : Context) (request : WithdrawalRequest) :
    WithdrawalRequest :=
  if Due ctx request then { request with claimed := true } else request

theorem not_due_settle (ctx : Context) (request : WithdrawalRequest) :
    ¬ Due ctx (settle ctx request) := by
  unfold settle
  split
  · exact fun still => Bool.noConfusion still.1
  · next undue => exact undue

theorem settle_settle (ctx : Context) (request : WithdrawalRequest) :
    settle ctx (settle ctx request) = settle ctx request :=
  if_neg (not_due_settle ctx request)

theorem due_le_owed (ctx : Context) (request : WithdrawalRequest) :
    due ctx request ≤ owed request := by
  unfold due owed
  split
  · next ready => simp [ready.1]
  · exact Nat.zero_le _

theorem skipped_iff (ctx : Context) (request : WithdrawalRequest) :
    (request.claimed = true ∨ ctx.blockNumber < request.claimableAt) ↔
      ¬ Due ctx request := by
  rw [Due, not_and_or, Bool.not_eq_false, BitVec.not_le]

/-- All that claiming the requests `ids` changes, and what it pays. -/
structure ClaimedAll
    (d : Deployment) (ctx : Context) (ids : List Nat) (w : World)
    (paid : Nat) (w' : World) : Prop where
  requests : ∀ id, w'.vault.withdrawalRequests[id]? =
      w.vault.withdrawalRequests[id]?.map fun request =>
        if id ∈ ids then settle ctx request else request
  vault : w.vault = { w'.vault with
        withdrawalRequests := w.vault.withdrawalRequests
        pendingWithdrawalWeth := w.vault.pendingWithdrawalWeth
        openRequestCount := w.vault.openRequestCount }
  pending : w'.vault.pendingWithdrawalWeth.toNat + paid =
      w.vault.pendingWithdrawalWeth.toNat
  balance : ∀ account, (w'.weth.balanceOf account).toNat +
        (if account = d.self then paid else 0) =
      (w.weth.balanceOf account).toNat +
        (if account = ctx.msgSender then paid else 0)
  allowance : w'.weth.allowance = w.weth.allowance

theorem ClaimedAll.nothing : ClaimedAll d ctx [] w 0 w where
  requests id := by simp
  vault := rfl
  pending := rfl
  balance account := by split_ifs <;> rfl
  allowance := rfl

theorem ClaimedAll.cons
    {id : Nat} {rest : List Nat} {paid others : Nat} {middle : World}
    (first : ClaimedAll d ctx [id] w paid middle)
    (second : ClaimedAll d ctx rest middle others w') :
    ClaimedAll d ctx (id :: rest) w (paid + others) w' where
  requests other := by
    rw [second.requests, first.requests, Option.map_map]
    congr 1
    funext request
    simp only [Function.comp_apply, List.mem_cons]
    by_cases here : other = id <;> by_cases again : other ∈ rest <;>
      simp [here, again, settle_settle]
  vault := by
    refine first.vault.trans ?_
    rw [second.vault]
  pending := by
    rw [← first.pending, ← second.pending]
    omega
  balance account := by
    have earlier := first.balance account
    have later := second.balance account
    split_ifs at earlier later ⊢ <;> omega
  allowance := second.allowance.trans first.allowance

theorem ClaimedAll.skipped
    (found : w.vault.withdrawalRequests[id]? = some request)
    (undue : ¬ Due ctx request) :
    ClaimedAll d ctx [id] w 0 w where
  requests other := by
    by_cases same : other = id
    · subst other
      rw [found]
      simp [settle, undue]
    · simp [same]
  vault := rfl
  pending := rfl
  balance account := by split_ifs <;> rfl
  allowance := rfl

theorem transfer_of_enough
    {supplyCap : Nat} {token : Token supplyCap} {sender : Address}
    {amount : U256} (recipient : Address)
    (enough : amount.toNat ≤ (token.balanceOf sender).toNat) :
    ∃ after, token.transfer sender recipient amount = .ok after ∧
      Token.Moved token after sender recipient amount ∧
      after.allowance = token.allowance := by
  have sent : token.transfer sender recipient amount = .ok _ := dif_pos enough
  rcases Token.move_ok sent with ⟨moved, allowance⟩
  exact ⟨_, sent, moved, allowance⟩

theorem claimWithdraw_of_due
    (queued : Queued w.vault) (covered : Covered d w)
    (found : w.vault.withdrawalRequests[id]? = some request)
    (own : request.owner = ctx.msgSender) (ready : Due ctx request) :
    ∃ w', claimWithdraw d ctx id w = .ok (request.assets, w') ∧
      ClaimedAll d ctx [id] w request.assets.toNat w' := by
  have owing : owed request = request.assets.toNat := by
    simp [owed, ready.1]
  have part : request.assets.toNat ≤ w.vault.pendingWithdrawalWeth.toNat := by
    have moved := listTotal_set owed { request with claimed := true } found
    have settled : owed { request with claimed := true } = 0 := rfl
    rw [queued.pending]
    omega
  have opened : 1 ≤ w.vault.openRequestCount.toNat := by
    rw [queued.count]
    exact List.countP_pos_iff.mpr
      ⟨request, List.mem_of_getElem? found, by simp [ready.1]⟩
  have held : request.assets.toNat ≤ (w.weth.balanceOf d.self).toNat := by
    have enough := covered.covered
    omega
  rcases exists_toNat_eq (lt_of_le_of_lt (Nat.sub_le _ request.assets.toNat)
    w.vault.pendingWithdrawalWeth.isLt) with ⟨pending, pendingEq⟩
  rcases exists_toNat_eq
    (lt_of_le_of_lt (Nat.sub_le _ 1) w.vault.openRequestCount.isLt) with
    ⟨opened', openedEq⟩
  rcases transfer_of_enough ctx.msgSender held with
    ⟨weth, sent, moved, allowance⟩
  refine ⟨emit ctx (.withdrawalClaimed ctx.msgSender id request.assets) { w with
        weth
        vault := { w.vault with
            withdrawalRequests := w.vault.withdrawalRequests.set id
                { request with claimed := true }
            pendingWithdrawalWeth := pending
            openRequestCount := opened' } }, ?_, ?_⟩
  · simp only [claimWithdraw, found, bind_eq_ok, require_eq_ok,
      checkedSub_eq_ok, pure_eq_ok]
    refine ⟨(), own, (), ready.1, (), ready.2, pending, ?_, opened', ?_, weth,
      sent, rfl⟩
    · omega
    · show opened'.toNat + 1 = _
      omega
  · refine ⟨fun other => ?_, rfl, ?_, moved.balance, allowance⟩
    · show (w.vault.withdrawalRequests.set id _)[other]? = _
      by_cases same : other = id
      · subst other
        rw [List.getElem?_set_self (List.getElem?_eq_some_iff.mp found).1,
          found]
        simp [settle, ready]
      · rw [List.getElem?_set_ne (Ne.symm same)]
        simp [same]
    · show pending.toNat + request.assets.toNat = _
      omega

theorem atId_of_found
    {measure : WithdrawalRequest → Nat}
    (found : s.withdrawalRequests[id]? = some request) :
    atId s measure id = measure request := by
  rw [atId, found, Option.elim_some]

theorem claimEach_due
    {ids : List Nat} {assets : U256} (outside : ctx.msgSender ≠ d.self)
    (reachable : (ledger d).Reachable System.anything w) (distinct : ids.Nodup)
    (known : ∀ id ∈ ids, ∃ request,
      w.vault.withdrawalRequests[id]? = some request ∧
        request.owner = ctx.msgSender)
    (fits : assets.toNat + (ids.map (atId w.vault (due ctx))).sum < 2 ^ 256) :
    ∃ total w', claimEach d ctx ids assets w = .ok (total, w') ∧
      total.toNat = assets.toNat + (ids.map (atId w.vault (due ctx))).sum ∧
      ClaimedAll d ctx ids w (ids.map (atId w.vault (due ctx))).sum w' := by
  induction ids generalizing assets w with
  | nil => exact ⟨assets, w, rfl, rfl, .nothing⟩
  | cons id rest ih =>
      rcases known id List.mem_cons_self with ⟨request, found, own⟩
      have fresh := (List.nodup_cons.mp distinct).1
      have pays : atId w.vault (due ctx) id = due ctx request :=
        atId_of_found found
      simp only [List.map_cons, List.sum_cons, pays] at fits ⊢
      simp only [claimEach, found]
      by_cases ready : Due ctx request
      · have paid : due ctx request = request.assets.toNat := if_pos ready
        rw [if_neg fun skip => (skipped_iff ctx request).mp skip ready]
        rcases claimWithdraw_of_due (queued_of_reachable reachable)
          (covered_of_reachable reachable) found own ready with
          ⟨middle, claimed, first⟩
        have elsewhere : ∀ other ∈ rest,
            middle.vault.withdrawalRequests[other]? =
              w.vault.withdrawalRequests[other]? := by
          intro other member
          have different : other ∉ [id] := by
            rw [List.mem_singleton]
            rintro rfl
            exact fresh member
          rw [first.requests]
          simp [different]
        have sameDue : rest.map (atId middle.vault (due ctx)) =
            rest.map (atId w.vault (due ctx)) := by
          refine List.map_congr_left fun other member => ?_
          rw [atId, atId, elsewhere other member]
        rcases exists_toNat_eq
          (show assets.toNat + request.assets.toNat < 2 ^ 256 by omega) with
          ⟨sum, sumEq⟩
        have reachable' : (ledger d).Reachable System.anything middle :=
          reachable.extend (Relation.ReflTransGen.single
              ⟨.operation ctx (.claim id), trivial, outside,
                claimWithdraw_ok claimed⟩)
        have fits' : sum.toNat + (rest.map (atId middle.vault (due ctx))).sum <
            2 ^ 256 := by
          rw [sameDue]
          omega
        rcases ih reachable' (List.nodup_cons.mp distinct).2
          (fun other member => by
              rw [elsewhere other member]
              exact known other (List.mem_cons_of_mem _ member))
            fits' with
          ⟨total, w', others, totalEq, second⟩
        rw [sameDue] at totalEq second
        refine ⟨total, w', ?_, by omega, ?_⟩
        · simp only [bind_eq_ok, checkedAdd_eq_ok]
          exact ⟨_, claimed, sum, sumEq.symm, others⟩
        · rw [paid]
          exact first.cons second
      · have unpaid : due ctx request = 0 := if_neg ready
        rw [unpaid, Nat.zero_add] at fits
        rw [if_pos ((skipped_iff ctx request).mpr ready)]
        rcases ih reachable (List.nodup_cons.mp distinct).2 (fun other member =>
              known other (List.mem_cons_of_mem _ member))
            fits with
          ⟨total, w', others, totalEq, second⟩
        refine ⟨total, w', others, by omega, ?_⟩
        rw [unpaid]
        exact (ClaimedAll.skipped found ready).cons second

theorem claimEach_of_not_due
    {ids : List Nat}
    (known : ∀ id ∈ ids, ∃ request,
      w.vault.withdrawalRequests[id]? = some request ∧ ¬ Due ctx request)
    (assets : U256) :
    claimEach d ctx ids assets w = .ok (assets, w) := by
  induction ids with
  | nil => rfl
  | cons id rest ih =>
      rcases known id List.mem_cons_self with ⟨request, found, undue⟩
      simp only [claimEach, found]
      rw [if_pos ((skipped_iff ctx request).mpr undue)]
      exact ih fun other member =>
          known other (List.mem_cons_of_mem _ member)

/-! ## The summaries -/

/-- What a request adds to the part of the summaries it belongs to. -/
def pendingPart (ctx : Context) (request : WithdrawalRequest) : Nat :=
  if request.claimed = false ∧ ¬ request.claimableAt ≤ ctx.blockNumber then
    request.assets.toNat
  else 0

def reachablePart
    (ctx : Context) (horizonBlock : U256) (request : WithdrawalRequest) :
    Nat :=
  if request.claimableAt ≤ horizonBlock then pendingPart ctx request else 0

def unreachablePart
    (ctx : Context) (horizonBlock : U256) (request : WithdrawalRequest) :
    Nat :=
  if request.claimableAt ≤ horizonBlock then 0 else pendingPart ctx request

theorem due_add_pendingPart (ctx : Context) (request : WithdrawalRequest) :
    due ctx request + pendingPart ctx request = owed request := by
  unfold due Due pendingPart owed
  by_cases claimed : request.claimed = false <;>
    by_cases ready : request.claimableAt ≤ ctx.blockNumber <;>
    simp [claimed, ready]

theorem tally_add_parts
    {t t' : Tally} (added : Tally.add ctx s t id = .ok t') :
    t'.claimableAssets.toNat = t.claimableAssets.toNat + atId s (due ctx) id ∧
      t'.pendingAssets.toNat =
        t.pendingAssets.toNat + atId s (pendingPart ctx) id := by
  unfold Tally.add at added
  cases found : s.withdrawalRequests[id]? with
  | none =>
      rw [found] at added
      cases added
  | some request =>
      rw [found] at added
      simp only [atId, found, Option.elim_some]
      dsimp only at added
      unfold due Due pendingPart
      split at added
      · next claimed =>
          rw [← pure_eq_ok.mp added]
          simp [claimed]
      · next unclaimed =>
          simp only [bind_eq_ok] at added
          rcases added with ⟨count, _, added⟩
          split at added
          · next ready =>
              simp only [bind_eq_ok, checkedAdd_eq_ok, pure_eq_ok] at added
              rcases added with ⟨claimable, claimableEq, rfl⟩
              simp [unclaimed, ready, claimableEq]
          · next early =>
              simp only [bind_eq_ok, checkedAdd_eq_ok, pure_eq_ok] at added
              rcases added with ⟨pending, pendingEq, rfl⟩
              simp [unclaimed, early, pendingEq]

theorem tallyAt_add_parts
    {horizonBlock : U256} {t t' : TallyAt}
    (added : TallyAt.add ctx horizonBlock s t id = .ok t') :
    t'.reachableAssets.toNat =
        t.reachableAssets.toNat + atId s (reachablePart ctx horizonBlock) id ∧
      t'.unreachableAssets.toNat = t.unreachableAssets.toNat +
          atId s (unreachablePart ctx horizonBlock) id := by
  unfold TallyAt.add at added
  cases found : s.withdrawalRequests[id]? with
  | none =>
      rw [found] at added
      cases added
  | some request =>
      rw [found] at added
      simp only [atId, found, Option.elim_some]
      dsimp only at added
      unfold reachablePart unreachablePart pendingPart
      split at added
      · next claimed =>
          rw [← pure_eq_ok.mp added]
          simp [claimed]
      · next unclaimed =>
          simp only [bind_eq_ok] at added
          rcases added with ⟨count, _, added⟩
          split at added
          · next ready =>
              simp only [bind_eq_ok, checkedAdd_eq_ok, pure_eq_ok] at added
              rcases added with ⟨claimable, _, rfl⟩
              simp [ready]
          · next early =>
              split at added
              · next inTime =>
                  simp only [bind_eq_ok, checkedAdd_eq_ok, pure_eq_ok]
                    at added
                  rcases added with ⟨within, withinEq, rfl⟩
                  simp [unclaimed, early, inTime, withinEq]
              · next late =>
                  simp only [bind_eq_ok, checkedAdd_eq_ok, pure_eq_ok]
                    at added
                  rcases added with ⟨beyond, beyondEq, rfl⟩
                  simp [unclaimed, early, late, beyondEq]

/-- A tally by the horizon has split the pending amount of a tally. -/
structure Splits (t : Tally) (u : TallyAt) : Prop where
  claimable : u.claimableAssets = t.claimableAssets
  openRequests : u.openRequests = t.openRequests
  pending :
    u.reachableAssets.toNat + u.unreachableAssets.toNat = t.pendingAssets.toNat

theorem tallyAt_follows
    (horizonBlock : U256) {t t' : Tally} {u : TallyAt} (splits : Splits t u)
    (added : Tally.add ctx s t id = .ok t') :
    ∃ u', TallyAt.add ctx horizonBlock s u id = .ok u' ∧ Splits t' u' := by
  rcases splits with ⟨claimable, openRequests, pending⟩
  unfold Tally.add at added
  unfold TallyAt.add
  cases found : s.withdrawalRequests[id]? with
  | none =>
      rw [found] at added
      cases added
  | some request =>
      rw [found] at added
      dsimp only at added ⊢
      split at added
      · next claimed =>
          rw [← pure_eq_ok.mp added, if_pos claimed]
          exact ⟨u, rfl, claimable, openRequests, pending⟩
      · next unclaimed =>
          rw [if_neg unclaimed, openRequests, claimable]
          simp only [bind_eq_ok] at added
          rcases added with ⟨count, countOk, added⟩
          rw [countOk, ok_bind]
          split at added
          · next ready =>
              rw [if_pos ready]
              simp only [bind_eq_ok, pure_eq_ok] at added
              rcases added with ⟨sum, sumOk, rfl⟩
              rw [sumOk, ok_bind]
              exact ⟨_, rfl, rfl, rfl, pending⟩
          · next early =>
              rw [if_neg early]
              simp only [bind_eq_ok, checkedAdd_eq_ok, pure_eq_ok] at added
              rcases added with ⟨sum, sumEq, rfl⟩
              have bound := sum.isLt
              split
              · rcases checkedAdd_fits u.reachableAssets request.assets
                  (by omega) with ⟨within, withinOk, withinEq⟩
                rw [withinOk, ok_bind]
                refine ⟨_, rfl, rfl, rfl, ?_⟩
                dsimp only
                omega
              · rcases checkedAdd_fits u.unreachableAssets request.assets
                  (by omega) with ⟨beyond, beyondOk, beyondEq⟩
                rw [beyondOk, ok_bind]
                refine ⟨_, rfl, rfl, rfl, ?_⟩
                dsimp only
                omega

/-- A measure summed over all requests an account ever made. -/
def ownTotal
    (measure : WithdrawalRequest → Nat) (owner : Address) (s : Storage) :
    Nat :=
  (s.withdrawalRequests.map fun request =>
    if request.owner = owner then measure request else 0).sum

theorem total_ids
    (queued : Queued s) (measure : WithdrawalRequest → Nat) (owner : Address) :
    ((s.requestIdsOf owner).map (atId s measure)).sum =
      ownTotal measure owner s := by
  rw [queued.ids owner, idsOf, ownTotal]
  refine (total_filter_range measure s.withdrawalRequests
    fun request => decide (request.owner = owner)).trans ?_
  simp only [decide_eq_true_eq]

theorem ownTotal_add
    (first second : WithdrawalRequest → Nat) (owner : Address) (s : Storage) :
    ownTotal first owner s + ownTotal second owner s =
      ownTotal (fun request => first request + second request) owner s := by
  rw [ownTotal, ownTotal, ownTotal, ← List.sum_map_add]
  congr 1
  apply List.map_congr_left
  intro request _
  split <;> rfl

/--
The two summaries of one account: the same open requests, split into those
claimable now, those which finalize by the horizon and the others.
-/
structure Reported
    (ctx : Context) (owner : Address) (horizonBlock : U256) (s : Storage)
    (summary : AccountSummary) (split : AccountSummaryAt) : Prop where
  claimable : split.claimableAssets = summary.claimableAssets ∧
      summary.claimableAssets.toNat = ownTotal (due ctx) owner s
  pending : summary.pendingAssets.toNat = ownTotal (pendingPart ctx) owner s
  reachable : split.reachableAssets.toNat =
      ownTotal (reachablePart ctx horizonBlock) owner s
  unreachable : split.unreachableAssets.toNat =
      ownTotal (unreachablePart ctx horizonBlock) owner s
  openRequests : split.openRequests = summary.openRequests ∧
      summary.openRequests.toNat = s.withdrawalRequests.countP (openFor owner)
  total : split.claimableAssets.toNat + split.reachableAssets.toNat +
        split.unreachableAssets.toNat =
      ownTotal owed owner s

theorem summaries_of_queued
    (queued : Queued s) (ctx : Context) (owner : Address)
    (horizonBlock : U256) {shareAssets : U256}
    (quoted : convertToAssets (s.balanceOf owner) s = .ok shareAssets) :
    ∃ summary split, accountSummary ctx owner s = .ok summary ∧
        accountSummaryAt ctx owner horizonBlock s = .ok split ∧
        Reported ctx owner horizonBlock s summary split := by
  rcases tally_of_queued queued ctx owner with ⟨t, ran, counted⟩
  rcases foldlM_followed (fun t u id t' => tallyAt_follows horizonBlock)
      (Splits.mk rfl rfl rfl :
        Splits ⟨0, 0, 0, 0⟩ (⟨0, 0, 0, 0⟩ : TallyAt)) ran with
    ⟨u, ranAt, claimable, openRequests, pending⟩
  have claimableEq := foldlM_measured (fun t : Tally => t.claimableAssets.toNat)
      (atId s (due ctx)) (fun _ _ _ added => (tally_add_parts added).1) ran
  have pendingEq := foldlM_measured (fun t : Tally => t.pendingAssets.toNat)
      (atId s (pendingPart ctx))
      (fun _ _ _ added => (tally_add_parts added).2) ran
  have reachableEq :=
    foldlM_measured (fun u : TallyAt => u.reachableAssets.toNat)
      (atId s (reachablePart ctx horizonBlock))
      (fun _ _ _ added => (tallyAt_add_parts added).1) ranAt
  have unreachableEq :=
    foldlM_measured (fun u : TallyAt => u.unreachableAssets.toNat)
      (atId s (unreachablePart ctx horizonBlock))
      (fun _ _ _ added => (tallyAt_add_parts added).2) ranAt
  have nothing : (0 : U256).toNat = 0 := rfl
  simp only [total_ids queued, nothing, Nat.zero_add]
    at claimableEq pendingEq reachableEq unreachableEq
  refine ⟨{ t with shares := s.balanceOf owner, shareAssets },
    { u with shares := s.balanceOf owner, shareAssets }, ?_, ?_, ?_⟩
  · rw [accountSummary, quoted, ok_bind, ran]
    rfl
  · rw [accountSummaryAt, quoted, ok_bind, ranAt]
    rfl
  · refine ⟨⟨claimable, claimableEq⟩, pendingEq, reachableEq, unreachableEq,
      ⟨openRequests, counted⟩, ?_⟩
    show u.claimableAssets.toNat + u.reachableAssets.toNat +
      u.unreachableAssets.toNat = _
    rw [claimable, Nat.add_assoc, pending, claimableEq, pendingEq, ownTotal_add]
    congr 1
    funext request
    exact due_add_pendingPart ctx request

/-! ## Claiming everything that is due -/

/-- What `claimAllWithdrawals` pays and changes. -/
structure ClaimedDue
    (d : Deployment) (ctx : Context) (w : World) (paid : U256)
    (w' : World) : Prop where
  /-- It pays what the summary of the caller reports as claimable. -/
  reported : ∀ summary, accountSummary ctx ctx.msgSender w.vault = .ok summary →
      paid = summary.claimableAssets
  /-- The due requests of the caller are claimed, and no others touched. -/
  requests : w'.vault.withdrawalRequests =
      w.vault.withdrawalRequests.map fun request =>
        if request.owner = ctx.msgSender then settle ctx request
        else request
  vault : w.vault = { w'.vault with
        withdrawalRequests := w.vault.withdrawalRequests
        pendingWithdrawalWeth := w.vault.pendingWithdrawalWeth
        openRequestCount := w.vault.openRequestCount }
  pending : w'.vault.pendingWithdrawalWeth.toNat + paid.toNat =
      w.vault.pendingWithdrawalWeth.toNat
  openRequests : w'.vault.openRequestCount.toNat =
      w'.vault.withdrawalRequests.countP fun request => !request.claimed
  balance : ∀ account, (w'.weth.balanceOf account).toNat +
        (if account = d.self then paid.toNat else 0) =
      (w.weth.balanceOf account).toNat +
        (if account = ctx.msgSender then paid.toNat else 0)
  allowance : w'.weth.allowance = w.weth.allowance
  /-- A second call in the same block pays nothing. -/
  again : claimAllWithdrawals d ctx w' = .ok (0, w')

theorem mem_idsOf
    {requests : List WithdrawalRequest} {owner : Address} :
    id ∈ idsOf requests owner ↔
      ∃ request, requests[id]? = some request ∧ request.owner = owner := by
  rw [idsOf, List.mem_filter, List.mem_range]
  constructor
  · rintro ⟨inside, own⟩
    rw [List.getElem?_eq_getElem inside] at own ⊢
    exact ⟨_, rfl, of_decide_eq_true own⟩
  · rintro ⟨request, found, own⟩
    refine ⟨(List.getElem?_eq_some_iff.mp found).1, ?_⟩
    rw [found]
    exact decide_eq_true own

theorem claimedDue_of_reachable
    (reachable : (ledger d).Reachable System.anything w)
    (outside : ctx.msgSender ≠ d.self) :
    ∃ paid w', claimAllWithdrawals d ctx w = .ok (paid, w') ∧
      ClaimedDue d ctx w paid w' := by
  have queued := queued_of_reachable reachable
  have ids := queued.ids ctx.msgSender
  have dueTotal := total_ids queued (due ctx) ctx.msgSender
  have bounded : ownTotal (due ctx) ctx.msgSender w.vault ≤
      w.vault.pendingWithdrawalWeth.toNat := by
    refine le_trans ?_ (total_owed_le queued ctx.msgSender)
    rw [total_ids queued]
    apply List.sum_le_sum
    intro request _
    split
    · exact due_le_owed ctx request
    · exact le_refl _
  have pendingLt := w.vault.pendingWithdrawalWeth.isLt
  have nothing : (0 : U256).toNat = 0 := rfl
  have fits : (0 : U256).toNat + ((w.vault.requestIdsOf ctx.msgSender).map
          (atId w.vault (due ctx))).sum <
      2 ^ 256 := by
    rw [dueTotal, nothing]
    omega
  have distinct : (w.vault.requestIdsOf ctx.msgSender).Nodup := by
    rw [ids]
    exact List.nodup_range.filter _
  rcases claimEach_due outside reachable distinct
    (fun id member => mem_idsOf.mp (ids ▸ member)) fits with
    ⟨paid, w', done, paidEq, claimed⟩
  rw [dueTotal, nothing, Nat.zero_add] at paidEq
  rw [dueTotal, ← paidEq] at claimed
  have requests : w'.vault.withdrawalRequests =
      w.vault.withdrawalRequests.map fun request =>
          if request.owner = ctx.msgSender then settle ctx request
          else request := by
    apply List.ext_getElem?
    intro id
    rw [claimed.requests, List.getElem?_map]
    cases found : w.vault.withdrawalRequests[id]? with
    | none => rfl
    | some request =>
        have own_iff : id ∈ w.vault.requestIdsOf ctx.msgSender ↔
            request.owner = ctx.msgSender := by
          rw [ids, mem_idsOf, found]
          simp
        simp only [Option.map_some, own_iff]
  have reachable' : (ledger d).Reachable System.anything w' := reachable.extend
      ((claimEach_ok outside done).weaken fun _ _ _ => trivial).runs
  have sameIds : w'.vault.requestIdsOf = w.vault.requestIdsOf := by
    rw [claimed.vault]
  refine ⟨paid, w', done,
    { reported := fun summary read => ?_
      requests := requests
      vault := claimed.vault
      pending := claimed.pending
      openRequests := (queued_of_reachable reachable').count
      balance := claimed.balance
      allowance := claimed.allowance
      again := ?_ }⟩
  · have priced := read
    simp only [accountSummary, bind_eq_ok] at priced
    rcases priced with ⟨shareAssets, quoted, _⟩
    rcases summaries_of_queued queued ctx ctx.msgSender 0 quoted with
      ⟨other, _, otherRead, _, reported⟩
    rw [← Except.ok.inj (otherRead.symm.trans read), ← BitVec.toNat_inj,
      paidEq, reported.claimable.2]
  · refine claimEach_of_not_due (fun id member => ?_) 0
    rw [sameIds] at member
    rcases mem_idsOf.mp (ids ▸ member) with ⟨request, found, own⟩
    refine ⟨settle ctx request, ?_, not_due_settle ctx request⟩
    rw [claimed.requests, found, Option.map_some, if_pos member]

/--
Claiming everything pays what the summary reports as claimable, touches
nothing else and leaves nothing to claim; and for every account and horizon
the two summaries report the same open requests.
-/
theorem claimAll_laws
    (reached : Reached d anything w)
    (ctx : Context) (outside : ctx.msgSender ≠ d.self) :
    (∃ paid w', claimAllWithdrawals d ctx w = .ok (paid, w') ∧
      ClaimedDue d ctx w paid w') ∧
      ∀ owner horizonBlock shareAssets,
        convertToAssets (w.vault.balanceOf owner) w.vault = .ok shareAssets →
          ∃ summary split, accountSummary ctx owner w.vault = .ok summary ∧
              accountSummaryAt ctx owner horizonBlock w.vault = .ok split ∧
              Reported ctx owner horizonBlock w.vault summary split := by
  have reachable := reached_ledger covers_anything reached
  refine ⟨claimedDue_of_reachable reachable outside, ?_⟩
  intro owner horizonBlock shareAssets quoted
  exact summaries_of_queued (queued_of_reachable reachable) ctx owner
    horizonBlock quoted

/-- Two requests of one account, and one block in which only one is due. -/
def twoRequests : List Action :=
  staked ++ [.call (inBlock 4 10) (.requestWithdraw 700)]

theorem twoRequests_admissible :
    ∀ action ∈ twoRequests, action.Admissible solo := by
  simp [twoRequests, staked, Action.Admissible, inBlock, solo]

theorem claimAll_of_twoRequests :
    ∃ w w' : World, w.vault.withdrawalRequests =
          [⟨10, 500, 510, 5, false⟩, ⟨10, 700, 714, 7, false⟩] ∧
        claimAllWithdrawals solo (inBlock 6 10) w = .ok (510, w') ∧
        w'.vault.withdrawalRequests =
          [⟨10, 500, 510, 5, true⟩, ⟨10, 700, 714, 7, false⟩] := by
  have ran : (script solo anything twoRequests soloWorld).map (fun w =>
          (w.vault.withdrawalRequests,
            (claimAllWithdrawals solo (inBlock 6 10) w).toOption.map
              Prod.fst)) =
        some ([⟨10, 500, 510, 5, false⟩, ⟨10, 700, 714, 7, false⟩],
          some 510) := by
    decide
  rcases Option.map_eq_some_iff.mp ran with ⟨w, reaches, equal⟩
  rcases Prod.mk.inj equal with ⟨requests, pays⟩
  rcases (claimAll_laws (solo_reached twoRequests_admissible reaches)
    (inBlock 6 10) (by decide)).1 with ⟨paid, w', done, claimed⟩
  rw [done] at pays
  have paidEq : paid = 510 := Option.some.inj pays
  subst paidEq
  refine ⟨w, w', requests, done, ?_⟩
  rw [claimed.requests, requests]
  decide

end Eris.Vault.Claiming
