import Eris.Foundation.Transition
import Eris.Vault.Contract

/-!
# The elementary operations of the vault

Every call is a short run of elementary operations: a slash is an accrual
followed by the penalty, `claimAllWithdrawals` is a run of claims.  The
operations form an abstract ledger, which states each of them once, as what
it needed and all it changed, in exact arithmetic; and the contract refines
this ledger.  Every invariant of the vault is proved about the ledger.
-/

namespace Eris.Vault.Operations

open Foundation Foundation.Checked Foundation.SharePool Foundation.Transition
  Evm.Word Evm.Erc20 Data Contract

variable {d : Deployment} {ctx : Context} {w w' : World} {s : Storage}
    {assets shares amount accrued : U256} {recipient : Address}

/-! ## The abstract ledger -/

inductive Operation where
  | tick
  | accrue (assets : U256)
  | bootstrap (receiver : Address) (assets shares : U256)
  | deposit (receiver : Address) (assets shares : U256)
  | request (shares assets claimableAt : U256)
  | claim (requestId : Nat)
  | fund (assets : U256)
  | slash (assets : U256)
  | setRewardRate (ratePerBlockRay : U256)
  | setWithdrawalDelayBlocks (delayBlocks : U256)
  | setQueueThroughput (weiPerBlock : U256)
  | setOperator (account : Address) (allowed : Bool)
  | approve (spender : Address) (amount : U256)
  | move (sender recipient : Address) (amount : U256)
deriving DecidableEq

/-- `amount` of WETH changed hands, and the vault approved nobody for it. -/
structure Transferred
    (d : Deployment) (sender recipient : Address) (amount : U256)
    (before after : Weth) : Prop where
  moved : Token.Moved before after sender recipient amount
  kept :
    ∀ spender, after.allowance d.self spender = before.allowance d.self spender

/-- The new balance and the new supply after `amount` shares are minted. -/
structure Minted
    (s : Storage) (recipient : Address) (amount supply balance : U256) :
    Prop where
  supply : supply.toNat = s.totalSupply.toNat + amount.toNat
  balance : balance.toNat = (s.balanceOf recipient).toNat + amount.toNat

/-- The new balance and the new supply after `amount` shares are burned. -/
structure Burned
    (s : Storage) (sender : Address) (amount supply balance : U256) :
    Prop where
  supply : supply.toNat + amount.toNat = s.totalSupply.toNat
  balance : balance.toNat + amount.toNat = (s.balanceOf sender).toNat

/-- The share books with one balance and the supply rewritten. -/
def withShares
    (s : Storage) (account : Address) (supply balance : U256) : Storage :=
  { s with
    totalSupply := supply
    balanceOf := Function.update s.balanceOf account balance }

def logged (ctx : Context) (w : World) (events : List Event) : List Entry :=
  w.log ++ events.map fun event => ⟨ctx.blockNumber, event⟩

/-- What an operation needs, and all it changes. -/
inductive Operated (d : Deployment) (ctx : Context) (w : World) :
    Operation → World → Prop where
  | tick (late : w.vault.lastAccrualBlock ≠ ctx.blockNumber) :
      Operated d ctx w .tick { w with
          vault := { w.vault with lastAccrualBlock := ctx.blockNumber } }
  | accrue {assets reserve pooled : U256}
      (late : w.vault.lastAccrualBlock ≠ ctx.blockNumber)
      (live : w.vault.totalSupply ≠ 0)
      (taken : reserve.toNat + assets.toNat = w.vault.rewardReserve.toNat)
      (given : pooled.toNat = w.vault.totalPooledWeth.toNat + assets.toNat) :
      Operated d ctx w (.accrue assets) { w with
          vault := { w.vault with
              lastAccrualBlock := ctx.blockNumber
              rewardReserve := reserve
              totalPooledWeth := pooled }
          log := logged ctx w [.rewardsAccrued assets pooled reserve] }
  | bootstrap {receiver : Address}
      {assets shares pooled burntSupply burnt supply balance : U256}
      {weth : Weth}
      (empty : w.vault.totalSupply = 0)
      (enough : BOOTSTRAP_BURN_SHARES.toNat + shares.toNat = assets.toNat)
      (some : 0 < shares.toNat)
      (given : pooled.toNat = w.vault.totalPooledWeth.toNat + assets.toNat)
      (locked :
        Minted w.vault BURN_ADDRESS BOOTSTRAP_BURN_SHARES burntSupply burnt)
      (minted : Minted (withShares w.vault BURN_ADDRESS burntSupply burnt)
          receiver shares supply balance)
      (paid : Transferred d ctx.msgSender d.self assets w.weth weth) :
      Operated d ctx w (.bootstrap receiver assets shares)
        { vault :=
            { withShares
                (withShares w.vault BURN_ADDRESS burntSupply burnt)
                receiver supply balance with
              totalPooledWeth := pooled }
          weth
          log := logged ctx w [.transfer 0 BURN_ADDRESS BOOTSTRAP_BURN_SHARES,
              .transfer 0 receiver shares,
              .deposited ctx.msgSender receiver assets shares] }
  | deposit {receiver : Address}
      {assets shares pooled supply balance : U256} {weth : Weth}
      (live : w.vault.totalSupply ≠ 0)
      (priced : convertToShares assets w.vault = .ok shares)
      (some : 0 < shares.toNat)
      (given : pooled.toNat = w.vault.totalPooledWeth.toNat + assets.toNat)
      (minted : Minted w.vault receiver shares supply balance)
      (paid : Transferred d ctx.msgSender d.self assets w.weth weth) :
      Operated d ctx w (.deposit receiver assets shares)
        { vault :=
            { withShares w.vault receiver supply balance with
              totalPooledWeth := pooled }
          weth
          log := logged ctx w [.transfer 0 receiver shares,
              .deposited ctx.msgSender receiver assets shares] }
  | request
      {shares assets claimableAt pooled pending supply balance open_ drain :
        U256}
      (priced : convertToAssets shares w.vault = .ok assets)
      (some : 0 < assets.toNat)
      (burned : Burned w.vault ctx.msgSender shares supply balance)
      (taken : pooled.toNat + assets.toNat = w.vault.totalPooledWeth.toNat)
      (owed :
        pending.toNat = w.vault.pendingWithdrawalWeth.toNat + assets.toNat)
      (counted : open_.toNat = w.vault.openRequestCount.toNat + 1)
      (estimated : estimateClaimableAt ctx assets w.vault = .ok claimableAt)
      (drained : drain =
          if 0 < w.vault.queueThroughputWeiPerBlock then claimableAt
          else w.vault.queueDrainBlock) :
      Operated d ctx w (.request shares assets claimableAt) { w with
          vault := { withShares w.vault ctx.msgSender supply balance with
              totalPooledWeth := pooled
              pendingWithdrawalWeth := pending
              queueDrainBlock := drain
              withdrawalRequests := w.vault.withdrawalRequests ++
                  [⟨ctx.msgSender, shares, assets, claimableAt, false⟩]
              requestIdsOf := Function.update w.vault.requestIdsOf ctx.msgSender
                  (w.vault.requestIdsOf ctx.msgSender ++
                    [w.vault.withdrawalRequests.length])
              openRequestCount := open_ }
          log := logged ctx w [.transfer ctx.msgSender 0 shares,
              .withdrawalRequested ctx.msgSender
                w.vault.withdrawalRequests.length shares assets
                claimableAt] }
  | claim {requestId : Nat} {request : WithdrawalRequest}
      {pending open_ : U256} {weth : Weth}
      (found : w.vault.withdrawalRequests[requestId]? = some request)
      (own : request.owner = ctx.msgSender)
      (unclaimed : request.claimed = false)
      (final : request.claimableAt ≤ ctx.blockNumber)
      (settled : pending.toNat + request.assets.toNat =
          w.vault.pendingWithdrawalWeth.toNat)
      (counted : open_.toNat + 1 = w.vault.openRequestCount.toNat)
      (paid : Transferred d d.self ctx.msgSender request.assets w.weth weth) :
      Operated d ctx w (.claim requestId)
        { vault :=
            { w.vault with
              withdrawalRequests := w.vault.withdrawalRequests.set requestId
                  { request with claimed := true }
              pendingWithdrawalWeth := pending
              openRequestCount := open_ }
          weth
          log := logged ctx w
              [.withdrawalClaimed ctx.msgSender requestId request.assets] }
  | fund {assets reserve : U256} {weth : Weth} (given :
        reserve.toNat = w.vault.rewardReserve.toNat + assets.toNat)
      (paid : Transferred d ctx.msgSender d.self assets w.weth weth) :
      Operated d ctx w (.fund assets)
        { vault := { w.vault with rewardReserve := reserve }
          weth
          log := logged ctx w [.rewardsFunded ctx.msgSender assets reserve] }
  | slash {bps slashed pooled : U256} {weth : Weth}
      (entitled : w.vault.operators ctx.msgSender = true)
      (partially : bps.toNat < 10000)
      (cut : slashed.toNat =
          mulDivFloor w.vault.totalPooledWeth.toNat bps.toNat 10000)
      (taken : pooled.toNat + slashed.toNat = w.vault.totalPooledWeth.toNat)
      (paid : Transferred d d.self BURN_ADDRESS slashed w.weth weth) :
      Operated d ctx w (.slash slashed)
        { vault := { w.vault with totalPooledWeth := pooled }
          weth
          log := logged ctx w [.slashed slashed pooled] }
  | setRewardRate {ratePerBlockRay : U256}
      (entitled : w.vault.operators ctx.msgSender = true) :
      Operated d ctx w (.setRewardRate ratePerBlockRay) { w with
          vault := { w.vault with rewardRatePerBlockRay := ratePerBlockRay }
          log := logged ctx w [.rewardRateSet ratePerBlockRay] }
  | setWithdrawalDelayBlocks {delayBlocks : U256}
      (entitled : w.vault.operators ctx.msgSender = true) :
      Operated d ctx w (.setWithdrawalDelayBlocks delayBlocks) { w with
          vault := { w.vault with withdrawalDelayBlocks := delayBlocks }
          log := logged ctx w [.withdrawalDelaySet delayBlocks] }
  | setQueueThroughput {weiPerBlock : U256}
      (entitled : w.vault.operators ctx.msgSender = true) :
      Operated d ctx w (.setQueueThroughput weiPerBlock) { w with
          vault := { w.vault with queueThroughputWeiPerBlock := weiPerBlock }
          log := logged ctx w [.queueThroughputSet weiPerBlock] }
  | setOperator {account : Address} {allowed : Bool}
      (entitled : w.vault.operators ctx.msgSender = true) :
      Operated d ctx w (.setOperator account allowed) { w with
          vault := { w.vault with
              operators := Function.update w.vault.operators account allowed }
          log := logged ctx w [.operatorSet account allowed] }
  | approve {spender : Address} {amount : U256} :
      Operated d ctx w (.approve spender amount) { w with
          vault := setAllowance ctx.msgSender spender amount w.vault
          log := logged ctx w [.approval ctx.msgSender spender amount] }
  | move {sender recipient : Address} {amount debited credited : U256}
      {allowance : Address → Address → U256}
      (entitled : sender = ctx.msgSender ∨
          amount.toNat ≤ (w.vault.allowance sender ctx.msgSender).toNat)
      (spent : ∀ owner spender, (allowance owner spender).toNat ≤
          (w.vault.allowance owner spender).toNat)
      (debit : debited.toNat + amount.toNat = (w.vault.balanceOf sender).toNat)
      (credit : credited.toNat =
          (Function.update w.vault.balanceOf sender debited
            recipient).toNat + amount.toNat) :
      Operated d ctx w (.move sender recipient amount) { w with
          vault := { w.vault with
              balanceOf := Function.update
                  (Function.update w.vault.balanceOf sender debited)
                  recipient credited
              allowance }
          log := logged ctx w [.transfer sender recipient amount] }

/-- One for each operation whose rounding the price of a share may feel. -/
def Operation.drift : Operation → Nat
  | .bootstrap _ _ _ => 1
  | .deposit _ _ _ => 1
  | .request _ _ _ => 1
  | _ => 0

/-- An operation of the vault, or somebody else's call to its asset. -/
inductive Label where
  | operation (ctx : Context) (operation : Operation)
  | weth (caller : Address) (call : Token.Call)

def Label.drift : Label → Nat
  | .operation _ performed => performed.drift
  | .weth _ _ => 0

/-- Freshly deployed, having approved nobody to spend its assets. -/
def Initial (d : Deployment) (w : World) : Prop :=
  (∃ blockNumber, w.vault = .deployed d blockNumber ∧
      w.log = d.events.map fun event => ⟨blockNumber, event⟩) ∧
    w.weth.Unapproved d.self

def CalledWeth
    (d : Deployment) (w : World) (caller : Address) (call : Token.Call)
    (w' : World) : Prop :=
  caller ≠ d.self ∧
    ∃ books, w.weth.exec caller call = .ok books ∧ w' = { w with weth := books }

def LedgerStep (d : Deployment) (w : World) : Label → World → Prop
  | .operation ctx operation, w' =>
      ctx.msgSender ≠ d.self ∧ Operated d ctx w operation w'
  | .weth caller call, w' => CalledWeth d w caller call w'

def ledger (d : Deployment) : System World Label where
  initial := Initial d
  step := LedgerStep d

theorem mint_ok
    (done : mint ctx recipient amount w = .ok w') :
    ∃ supply balance, Minted w.vault recipient amount supply balance ∧ w' =
        emit ctx (.transfer 0 recipient amount)
          { w with vault := withShares w.vault recipient supply balance }
    := by
  simp only [mint, bind_eq_ok, checkedAdd_eq_ok, pure_eq_ok] at done
  rcases done with ⟨supply, supplyEq, balance, balanceEq, rfl⟩
  exact ⟨supply, balance, ⟨supplyEq.symm, balanceEq.symm⟩, rfl⟩

theorem burn_ok
    {sender : Address} (done : burn ctx sender amount w = .ok w') :
    ∃ supply balance, Burned w.vault sender amount supply balance ∧ w' =
        emit ctx (.transfer sender 0 amount)
          { w with vault := withShares w.vault sender supply balance }
    := by
  simp only [burn, bind_eq_ok, require_eq_ok, checkedSub_eq_ok,
    pure_eq_ok] at done
  rcases done with ⟨_, _, balance, balanceEq, supply, supplyEq, rfl⟩
  exact ⟨supply, balance, ⟨supplyEq, balanceEq⟩, rfl⟩

theorem transferred_of_pull
    {before after : Weth} (outside : ctx.msgSender ≠ d.self)
    (done :
      before.transferFrom d.self ctx.msgSender d.self amount = .ok after) :
    Transferred d ctx.msgSender d.self amount before after := by
  rcases Token.transferFrom_ok done with ⟨moved, _, others⟩
  exact ⟨moved, fun spender => congrFun (others d.self outside.symm) spender⟩

theorem transferred_of_push
    {before after : Weth}
    (done : before.transfer d.self recipient amount = .ok after) :
    Transferred d d.self recipient amount before after := by
  rcases Token.move_ok done with ⟨moved, allowance⟩
  exact ⟨moved, fun spender => by rw [allowance]⟩

/-! ## What a call performs -/

/-- The two operations of `accrueRewards`. -/
def Operation.accrues : Operation → Prop
  | .tick => True
  | .accrue _ => True
  | _ => False

/-- The operations a call may be made of. -/
def Call.performs (ctx : Context) : Call → Operation → Prop
  | .deposit assets receiver, operation =>
      ∃ shares, operation = .bootstrap receiver assets shares ∨
          operation = .deposit receiver assets shares
  | .requestWithdraw shares, operation =>
      ∃ assets claimableAt, operation = .request shares assets claimableAt
  | .redeem shares _ _, operation =>
      ∃ assets claimableAt, operation = .request shares assets claimableAt
  | .withdraw _ _ _, operation =>
      ∃ shares assets claimableAt,
        operation = .request shares assets claimableAt
  | .claimWithdraw requestId, operation => operation = .claim requestId
  | .claimAllWithdrawals, operation =>
      ∃ requestId, operation = .claim requestId
  | .accrueRewards, operation => operation.accrues
  | .fundRewards assets, operation => operation = .fund assets
  | .slash _, operation =>
      operation.accrues ∨ ∃ assets, operation = .slash assets
  | .setRewardRate ratePerBlockRay, operation =>
      operation.accrues ∨ operation = .setRewardRate ratePerBlockRay
  | .setWithdrawalDelayBlocks delayBlocks, operation =>
      operation = .setWithdrawalDelayBlocks delayBlocks
  | .setQueueThroughput weiPerBlock, operation =>
      operation = .setQueueThroughput weiPerBlock
  | .setOperator account allowed, operation =>
      operation = .setOperator account allowed
  | .approve spender amount, operation =>
      operation = .approve spender amount
  | .transfer recipient amount, operation =>
      operation = .move ctx.msgSender recipient amount
  | .transferFrom sender recipient amount, operation =>
      operation = .move sender recipient amount

def PartOf
    (ctx : Context) (allowed : Operation → Prop) (_ : World) : Label → Prop
  | .operation other operation => other = ctx ∧ allowed operation
  | .weth _ _ => False

abbrev CallRun
    (d : Deployment) (ctx : Context) (allowed : Operation → Prop) :
    World → Nat → World → Prop :=
  System.CostedRun (ledger d) (PartOf ctx allowed) Label.drift

variable {allowed : Operation → Prop}

theorem callRun_single
    {operation : Operation} (outside : ctx.msgSender ≠ d.self)
    (permitted : allowed operation) (operated : Operated d ctx w operation w') :
    CallRun d ctx allowed w operation.drift w' := by
  show CallRun d ctx allowed w (Label.drift (.operation ctx operation)) w'
  exact System.CostedRun.single ⟨rfl, permitted⟩ ⟨outside, operated⟩

theorem callRun_weaken
    {weaker : Operation → Prop} {total : Nat}
    (imply : ∀ operation, allowed operation → weaker operation)
    (run : CallRun d ctx allowed w total w') :
    CallRun d ctx weaker w total w' := by
  refine System.CostedRun.weaken ?_ run
  intro world label permitted
  cases label with
  | operation other operation =>
      exact ⟨permitted.1, imply _ permitted.2⟩
  | weth => exact permitted

theorem accrueRewards_ok
    (outside : ctx.msgSender ≠ d.self)
    (done : accrueRewards ctx w = .ok (accrued, w')) :
    CallRun d ctx Operation.accrues w 0 w' := by
  simp only [accrueRewards, bind_eq_ok, checkedSub_eq_ok] at done
  rcases done with ⟨elapsed, elapsedEq, done⟩
  split at done
  · cases pure_eq_ok.mp done
    exact .done
  · next someTime =>
      have late : w.vault.lastAccrualBlock ≠ ctx.blockNumber := by
        intro same
        apply someTime
        rw [same] at elapsedEq
        exact eq_zero_of_toNat (Nat.add_eq_right.mp elapsedEq)
      have ticked : Operated d ctx w .tick _ := .tick late
      split at done
      · cases pure_eq_ok.mp done
        exact callRun_single outside trivial ticked
      · next productive =>
          push Not at productive
          simp only [bind_eq_ok] at done
          rcases done with ⟨perBlock, _, product, _, quotient, _, done⟩
          split at done
          · cases pure_eq_ok.mp done
            exact callRun_single outside trivial ticked
          · simp only [bind_eq_ok, checkedSub_eq_ok, checkedAdd_eq_ok,
              pure_eq_ok] at done
            rcases done with ⟨reserve, taken, pooled, given, equal⟩
            cases equal
            exact callRun_single outside trivial
              (.accrue late productive.1 taken given.symm)

theorem deposit_ok
    {receiver : Address} (outside : ctx.msgSender ≠ d.self)
    (done : deposit d ctx assets receiver w = .ok (shares, w')) :
    Operated d ctx w (.bootstrap receiver assets shares) w' ∨
      Operated d ctx w (.deposit receiver assets shares) w' := by
  simp only [deposit, bind_eq_ok, require_eq_ok, checkedAdd_eq_ok,
    pure_eq_ok] at done
  rcases done with
    ⟨_, _, _, _, _, _, quoted, priced, _, some, weth, pulled, pooled, given,
      last, locked, done⟩
  have paid := transferred_of_pull outside pulled
  split at locked
  · next empty =>
      have unpriced : quoted = assets := by
        rw [convertToShares, if_pos (.inl empty)] at priced
        exact (pure_eq_ok.mp priced).symm
      simp only [lockShares, bind_eq_ok, require_eq_ok, checkedSub_eq_ok,
        pure_eq_ok] at locked
      rcases locked with ⟨_, large, rest, restEq, burnt, lockOk, equal⟩
      cases equal
      rcases done with ⟨final, mintedOk, equal⟩
      rcases mint_ok lockOk with ⟨burntSupply, balance, lockedShares, rfl⟩
      rcases mint_ok mintedOk with ⟨supply, credited, minted, rfl⟩
      cases equal
      left
      convert
        Operated.bootstrap empty (by rw [← unpriced, ← restEq, Nat.add_comm])
          ?_ given.symm ⟨lockedShares.supply, lockedShares.balance⟩
          ⟨minted.supply, minted.balance⟩ paid using 1
      · simp [emit, logged, withShares]
      · have more : BOOTSTRAP_BURN_SHARES.toNat < quoted.toNat :=
          BitVec.lt_def.mp large
        rw [← restEq] at more
        exact Nat.lt_add_left_iff_pos.mp more
  · next live =>
      cases pure_eq_ok.mp locked
      rcases done with ⟨final, mintedOk, equal⟩
      rcases mint_ok mintedOk with ⟨supply, credited, minted, rfl⟩
      cases equal
      right
      convert Operated.deposit live priced (BitVec.lt_def.mp some) given.symm
        ⟨minted.supply, minted.balance⟩ paid using 1
      simp [emit, logged, withShares]

theorem requestWithdraw_ok
    (d : Deployment) {requestId : Nat}
    (done : requestWithdraw ctx shares w = .ok (requestId, w')) :
    requestId = w.vault.withdrawalRequests.length ∧ ∃ assets claimableAt,
        Operated d ctx w (.request shares assets claimableAt) w' := by
  simp only [requestWithdraw, bind_eq_ok, require_eq_ok, checkedSub_eq_ok,
    checkedAdd_eq_ok, pure_eq_ok] at done
  rcases done with
    ⟨_, _, assets, priced, _, some, _, _, burnt, burnOk, pooled, taken,
      pending, owed, claimableAt, estimated, count, counted, equal⟩
  rcases burn_ok burnOk with ⟨supply, balance, burned, rfl⟩
  cases equal
  dsimp only [emit, withShares] at taken owed counted
  refine ⟨rfl, assets, claimableAt, ?_⟩
  have quoted : estimateClaimableAt ctx assets w.vault = .ok claimableAt :=
    estimated
  convert Operated.request priced (BitVec.lt_def.mp some) burned taken owed.symm
    counted.symm quoted rfl using 1
  simp only [emit, logged, withShares, List.map_cons, List.map_nil,
    List.append_assoc, List.cons_append, List.nil_append]
  rfl

theorem claimWithdraw_ok
    {requestId : Nat}
    (done : claimWithdraw d ctx requestId w = .ok (assets, w')) :
    Operated d ctx w (.claim requestId) w' := by
  simp only [claimWithdraw] at done
  split at done
  · cases done
  · next request found =>
      simp only [bind_eq_ok, require_eq_ok, checkedSub_eq_ok,
        pure_eq_ok] at done
      rcases done with
        ⟨_, own, _, unclaimed, _, final, pending, settled, count, counted,
          weth, pushed, equal⟩
      cases equal
      exact .claim found own unclaimed final settled counted
        (transferred_of_push pushed)

theorem claimEach_ok
    {ids : List Nat} {before after : U256} (outside : ctx.msgSender ≠ d.self)
    (done : claimEach d ctx ids before w = .ok (after, w')) :
    CallRun d ctx (fun operation => ∃ id, operation = .claim id) w 0 w' := by
  induction ids generalizing before w with
  | nil =>
      cases pure_eq_ok.mp done
      exact .done
  | cons id rest ih =>
      simp only [claimEach] at done
      split at done
      · cases done
      · split at done
        · exact ih done
        · simp only [bind_eq_ok] at done
          rcases done with ⟨⟨paid, middle⟩, claimed, sum, _, done⟩
          have first :
              CallRun d ctx (fun operation => ∃ id, operation = .claim id)
                w 0 middle :=
            callRun_single outside ⟨id, rfl⟩ (claimWithdraw_ok claimed)
          exact first.append (ih done)

theorem move_ok
    {sender recipient : Address} {amount : U256}
    {allowance : Address → Address → U256}
    (entitled : sender = ctx.msgSender ∨
        amount.toNat ≤ (w.vault.allowance sender ctx.msgSender).toNat)
    (spent : ∀ owner spender, (allowance owner spender).toNat ≤
        (w.vault.allowance owner spender).toNat)
    (done : move ctx sender recipient amount
        { w with vault := { w.vault with allowance } } = .ok w') :
    Operated d ctx w (.move sender recipient amount) w' := by
  simp only [move, bind_eq_ok, require_eq_ok, checkedSub_eq_ok,
    checkedAdd_eq_ok, pure_eq_ok] at done
  rcases done with ⟨_, _, _, _, debited, debit, credited, credit, rfl⟩
  exact .move entitled spent debit credit.symm

theorem transferFrom_ok
    {sender : Address}
    (done : transferFrom ctx sender recipient amount w = .ok w') :
    Operated d ctx w (.move sender recipient amount) w' := by
  simp only [transferFrom] at done
  split at done
  · next unlimited =>
      have entitled :
          amount.toNat ≤ (w.vault.allowance sender ctx.msgSender).toNat := by
        rw [unlimited, BitVec.toNat_allOnes]
        exact Nat.le_sub_one_of_lt amount.isLt
      exact move_ok (.inr entitled) (fun _ _ => le_refl _) done
  · simp only [bind_eq_ok, require_eq_ok] at done
    rcases done with ⟨_, enough, done⟩
    have entitled := BitVec.le_def.mp enough
    refine move_ok (.inr entitled) ?_ done
    intro owner spender
    by_cases sameOwner : owner = sender
    · subst owner
      rw [Function.update_self]
      by_cases sameSpender : spender = ctx.msgSender
      · subst spender
        rw [Function.update_self, BitVec.toNat_sub_of_le enough]
        exact Nat.sub_le _ _
      · rw [Function.update_of_ne sameSpender]
    · rw [Function.update_of_ne sameOwner]

theorem fundRewards_ok
    (outside : ctx.msgSender ≠ d.self)
    (done : fundRewards d ctx assets w = .ok w') :
    Operated d ctx w (.fund assets) w' := by
  simp only [fundRewards, bind_eq_ok, require_eq_ok, checkedAdd_eq_ok,
    pure_eq_ok] at done
  rcases done with ⟨_, _, weth, pulled, reserve, given, rfl⟩
  exact .fund given.symm (transferred_of_pull outside pulled)

/-- The same accounts may operate the vault. -/
def SameOperators (w w' : World) : Prop :=
  w'.vault.operators = w.vault.operators

theorem accrueRewards_operators
    (outside : ctx.msgSender ≠ d.self)
    (done : accrueRewards ctx w = .ok (accrued, w')) :
    SameOperators w w' := by
  refine (accrueRewards_ok outside done).runs.invariant ?_ rfl
  intro world label next same permitted step
  cases label with
  | weth => exact permitted.elim
  | operation other operation =>
      rcases step with ⟨_, operated⟩
      cases operated with
      | tick => exact same
      | accrue => exact same
      | _ => exact permitted.2.elim

theorem callRun_accrue_first
    (later : Operation → Prop) (outside : ctx.msgSender ≠ d.self)
    (done : accrueRewards ctx w = .ok (accrued, w')) :
    CallRun d ctx
      (fun operation => operation.accrues ∨ later operation) w 0 w' :=
  callRun_weaken (fun _ => Or.inl) (accrueRewards_ok outside done)

theorem slash_ok
    {bps slashed : U256} (outside : ctx.msgSender ≠ d.self)
    (done : slash d ctx bps w = .ok (slashed, w')) :
    CallRun d ctx (fun operation =>
        operation.accrues ∨ ∃ assets, operation = .slash assets)
      w 0 w' := by
  simp only [slash, onlyOperator, bind_eq_ok, require_eq_ok] at done
  rcases done with
    ⟨_, entitled, _, partially, ⟨accrued, middle⟩, accrues, cut, cutOk, done⟩
  have first :=
    callRun_accrue_first (fun operation => ∃ assets, operation = .slash assets)
      outside accrues
  split at done
  · cases pure_eq_ok.mp done
    exact first
  · simp only [bind_eq_ok, checkedSub_eq_ok, pure_eq_ok] at done
    rcases done with ⟨pooled, taken, weth, pushed, equal⟩
    cases equal
    rw [← accrueRewards_operators outside accrues] at entitled
    have second := Operated.slash entitled (BitVec.lt_def.mp partially)
        (mulDivDown_eq_ok.mp cutOk).2.2 taken (transferred_of_push pushed)
    exact first.append (callRun_single outside (.inr ⟨_, rfl⟩) second)

theorem setRewardRate_ok
    {ratePerBlockRay : U256} (outside : ctx.msgSender ≠ d.self)
    (done : setRewardRate ctx ratePerBlockRay w = .ok w') :
    CallRun d ctx (fun operation =>
        operation.accrues ∨ operation = .setRewardRate ratePerBlockRay)
      w 0 w' := by
  simp only [setRewardRate, onlyOperator, bind_eq_ok, require_eq_ok,
    pure_eq_ok] at done
  rcases done with ⟨_, entitled, ⟨accrued, middle⟩, accrues, rfl⟩
  have first := callRun_accrue_first
      (fun operation => operation = .setRewardRate ratePerBlockRay) outside
      accrues
  rw [← accrueRewards_operators outside accrues] at entitled
  exact first.append
    (callRun_single outside (.inr rfl) (.setRewardRate entitled))

theorem exec_ok
    {call : Call} (outside : ctx.msgSender ≠ d.self)
    (done : exec d ctx w call = .ok w') :
    CallRun d ctx (Call.performs ctx call) w call.drift w' := by
  cases call with
  | deposit assets receiver =>
      simp only [exec, map_eq_ok] at done
      rcases done with ⟨⟨shares, _⟩, done, rfl⟩
      rcases deposit_ok outside done with first | later
      · refine callRun_single outside ?_ first
        exact ⟨shares, .inl rfl⟩
      · refine callRun_single outside ?_ later
        exact ⟨shares, .inr rfl⟩
  | requestWithdraw shares =>
      simp only [exec, map_eq_ok] at done
      rcases done with ⟨⟨requestId, _⟩, done, rfl⟩
      rcases requestWithdraw_ok d done with
        ⟨_, assets, claimableAt, operated⟩
      refine callRun_single outside ?_ operated
      exact ⟨assets, claimableAt, rfl⟩
  | redeem shares receiver owner =>
      simp only [exec, redeem, map_eq_ok, bind_eq_ok] at done
      rcases done with ⟨_, ⟨_, _, ⟨requestId, last⟩, done, paid⟩, rfl⟩
      split at paid
      · cases paid
      · cases pure_eq_ok.mp paid
        rcases requestWithdraw_ok d done with
          ⟨_, assets, claimableAt, operated⟩
        refine callRun_single outside ?_ operated
        exact ⟨assets, claimableAt, rfl⟩
  | withdraw assets receiver owner =>
      simp only [exec, withdraw, map_eq_ok, bind_eq_ok, pure_eq_ok] at done
      rcases done with
        ⟨_, ⟨_, _, shares, _, _, _, ⟨requestId, last⟩, done, rfl⟩, rfl⟩
      rcases requestWithdraw_ok d done with
        ⟨_, paid, claimableAt, operated⟩
      refine callRun_single outside ?_ operated
      exact ⟨shares, paid, claimableAt, rfl⟩
  | claimWithdraw requestId =>
      simp only [exec, map_eq_ok] at done
      rcases done with ⟨⟨assets, _⟩, done, rfl⟩
      refine callRun_single outside ?_ (claimWithdraw_ok done)
      rfl
  | claimAllWithdrawals =>
      simp only [exec, claimAllWithdrawals, map_eq_ok] at done
      rcases done with ⟨⟨assets, _⟩, done, rfl⟩
      exact claimEach_ok outside done
  | accrueRewards =>
      simp only [exec, map_eq_ok] at done
      rcases done with ⟨⟨accrued, _⟩, done, rfl⟩
      exact accrueRewards_ok outside done
  | fundRewards assets =>
      refine callRun_single outside ?_ (fundRewards_ok outside done)
      rfl
  | slash bps =>
      simp only [exec, map_eq_ok] at done
      rcases done with ⟨⟨slashed, _⟩, done, rfl⟩
      exact slash_ok outside done
  | setRewardRate ratePerBlockRay =>
      exact setRewardRate_ok outside done
  | setWithdrawalDelayBlocks delayBlocks =>
      simp only [exec, setWithdrawalDelayBlocks, onlyOperator, bind_eq_ok,
        require_eq_ok, pure_eq_ok] at done
      rcases done with ⟨_, entitled, rfl⟩
      refine callRun_single outside ?_ (.setWithdrawalDelayBlocks entitled)
      rfl
  | setQueueThroughput weiPerBlock =>
      simp only [exec, setQueueThroughput, onlyOperator, bind_eq_ok,
        require_eq_ok, pure_eq_ok] at done
      rcases done with ⟨_, entitled, rfl⟩
      refine callRun_single outside ?_ (.setQueueThroughput entitled)
      rfl
  | setOperator account allowed =>
      simp only [exec, setOperator, onlyOperator, bind_eq_ok,
        require_eq_ok, pure_eq_ok] at done
      rcases done with ⟨_, entitled, rfl⟩
      refine callRun_single outside ?_ (.setOperator entitled)
      rfl
  | approve spender amount =>
      cases pure_eq_ok.mp done
      refine callRun_single outside ?_ .approve
      rfl
  | transfer recipient amount =>
      have operated :=
        @move_ok d _ _ _ _ _ _ _ (.inl rfl) (fun _ _ => le_refl _) done
      refine callRun_single outside ?_ operated
      rfl
  | transferFrom sender recipient amount =>
      refine callRun_single outside ?_ (transferFrom_ok done)
      rfl

end Eris.Vault.Operations
