import Eris.Vault.Data

/-!
# The functions of `MockLSTVault.sol`

Each function is written in the order of its source and in the source's
words.  A call takes a world to a world or reverts; the functions which
return a value return it along with the world.
-/

namespace Eris.Vault.Contract

open Foundation.Checked Evm.Word Evm.Erc20 Data

def emit (ctx : Context) (event : Event) (w : World) : World :=
  { w with log := w.log ++ [⟨ctx.blockNumber, event⟩] }

/-! ## Conversions -/

def convertToShares (assets : U256) (s : Storage) : Result U256 :=
  if s.totalSupply = 0 ∨ s.totalPooledWeth = 0 then return assets
  else mulDivDown assets s.totalSupply s.totalPooledWeth

def convertToAssets (shares : U256) (s : Storage) : Result U256 :=
  if s.totalSupply = 0 ∨ s.totalPooledWeth = 0 then return shares
  else mulDivDown shares s.totalPooledWeth s.totalSupply

/-- WETH per `1e18` shares: the redemption rate. -/
def stEthPerToken (s : Storage) : Result U256 :=
  convertToAssets 1000000000000000000 s

/-! ## The share token -/

def mint
    (ctx : Context) (recipient : Address) (amount : U256) (w : World) :
    Result World := do
  let s := w.vault
  let totalSupply ← checkedAdd s.totalSupply amount
  let balance ← checkedAdd (s.balanceOf recipient) amount
  let balanceOf := Function.update s.balanceOf recipient balance
  return emit ctx (.transfer 0 recipient amount)
    { w with vault := { s with totalSupply, balanceOf } }

def burn
    (ctx : Context) (sender : Address) (amount : U256) (w : World) :
    Result World := do
  let s := w.vault
  require (amount ≤ s.balanceOf sender) "LST: insufficient balance"
  let balance ← checkedSub (s.balanceOf sender) amount
  let totalSupply ← checkedSub s.totalSupply amount
  let balanceOf := Function.update s.balanceOf sender balance
  return emit ctx (.transfer sender 0 amount)
    { w with vault := { s with totalSupply, balanceOf } }

/-- `_transfer` -/
def move
    (ctx : Context) (sender recipient : Address) (amount : U256)
    (w : World) : Result World := do
  let s := w.vault
  require (recipient ≠ 0) "LST: zero receiver"
  require (amount ≤ s.balanceOf sender) "LST: insufficient balance"
  let debited ← checkedSub (s.balanceOf sender) amount
  let balanceOf := Function.update s.balanceOf sender debited
  let credited ← checkedAdd (balanceOf recipient) amount
  let balanceOf := Function.update balanceOf recipient credited
  return emit ctx (.transfer sender recipient amount)
    { w with vault := { s with balanceOf } }

def setAllowance
    (owner spender : Address) (amount : U256) (s : Storage) : Storage :=
  { s with
    allowance := Function.update s.allowance owner
        (Function.update (s.allowance owner) spender amount) }

def approve
    (ctx : Context) (spender : Address) (amount : U256) (w : World) :
    Result World :=
  return emit ctx (.approval ctx.msgSender spender amount)
    { w with vault := setAllowance ctx.msgSender spender amount w.vault }

def transfer
    (ctx : Context) (recipient : Address) (amount : U256) (w : World) :
    Result World :=
  move ctx ctx.msgSender recipient amount w

/-- The greatest allowance is never used up. -/
def transferFrom
    (ctx : Context) (sender recipient : Address) (amount : U256)
    (w : World) : Result World := do
  let allowed := w.vault.allowance sender ctx.msgSender
  if allowed = BitVec.allOnes 256 then move ctx sender recipient amount w
  else do
    require (amount ≤ allowed) "LST: insufficient allowance"
    move ctx sender recipient amount { w with
        vault := setAllowance sender ctx.msgSender (allowed - amount) w.vault }

/-! ## Staking -/

def lockShares (ctx : Context) (shares : U256) (w : World) :
    Result (U256 × World) := do
  require (BOOTSTRAP_BURN_SHARES < shares) "LST: initial deposit too small"
  let shares ← checkedSub shares BOOTSTRAP_BURN_SHARES
  let w ← mint ctx BURN_ADDRESS BOOTSTRAP_BURN_SHARES w
  return (shares, w)

def deposit
    (d : Deployment) (ctx : Context) (assets : U256) (receiver : Address)
    (w : World) : Result (U256 × World) := do
  require (0 < assets) "LST: zero assets"
  require (receiver ≠ 0) "LST: zero receiver"
  let bootstrap := w.vault.totalSupply = 0
  require (bootstrap → MIN_INITIAL_DEPOSIT ≤ assets)
    "LST: initial deposit too small"
  let shares ← convertToShares assets w.vault
  require (0 < shares) "LST: zero shares"
  let weth ← w.weth.transferFrom d.self ctx.msgSender d.self assets
  let totalPooledWeth ← checkedAdd w.vault.totalPooledWeth assets
  let w := { w with vault := { w.vault with totalPooledWeth }, weth }
  let (shares, w) ←
    (if bootstrap then lockShares ctx shares w else pure (shares, w))
  let w ← mint ctx receiver shares w
  return (shares, emit ctx (.deposited ctx.msgSender receiver assets shares) w)

/-! ## The withdrawal queue -/

def estimateClaimableAt
    (ctx : Context) (assets : U256) (s : Storage) : Result U256 := do
  let floorBlock ← checkedAdd ctx.blockNumber s.withdrawalDelayBlocks
  let throughput := s.queueThroughputWeiPerBlock
  if throughput = 0 then return floorBlock
  let start :=
    if floorBlock < s.queueDrainBlock then s.queueDrainBlock else floorBlock
  let sum ← checkedAdd assets throughput
  let padded ← checkedSub sum 1
  let service ← checkedDiv padded throughput
  checkedAdd start service

def requestWithdraw
    (ctx : Context) (shares : U256) (w : World) :
    Result (Nat × World) := do
  require (0 < shares) "LST: zero shares"
  let assets ← convertToAssets shares w.vault
  require (0 < assets) "LST: zero assets"
  require (assets ≤ w.vault.totalPooledWeth) "LST: insufficient pool"
  let w ← burn ctx ctx.msgSender shares w
  let s := w.vault
  let totalPooledWeth ← checkedSub s.totalPooledWeth assets
  let pendingWithdrawalWeth ← checkedAdd s.pendingWithdrawalWeth assets
  let requestId := s.withdrawalRequests.length
  let claimableAt ← estimateClaimableAt ctx assets s
  let queueDrainBlock := if 0 < s.queueThroughputWeiPerBlock then claimableAt
    else s.queueDrainBlock
  let withdrawalRequests := s.withdrawalRequests ++
      [⟨ctx.msgSender, shares, assets, claimableAt, false⟩]
  let requestIdsOf := Function.update s.requestIdsOf ctx.msgSender
      (s.requestIdsOf ctx.msgSender ++ [requestId])
  let openRequestCount ← checkedAdd s.openRequestCount 1
  return (requestId, emit ctx
      (.withdrawalRequested ctx.msgSender requestId shares assets claimableAt)
      { w with
        vault := { s with
            totalPooledWeth, pendingWithdrawalWeth, queueDrainBlock,
            withdrawalRequests, requestIdsOf, openRequestCount } })

def redeem
    (ctx : Context) (shares : U256) (receiver owner : Address)
    (w : World) : Result (U256 × World) := do
  require (receiver = ctx.msgSender ∧ owner = ctx.msgSender)
    "LST: only self redeem"
  let (requestId, w) ← requestWithdraw ctx shares w
  match w.vault.withdrawalRequests[requestId]? with
  | none => .error .panic
  | some request => return (request.assets, w)

def withdraw
    (ctx : Context) (assets : U256) (receiver owner : Address)
    (w : World) : Result (U256 × World) := do
  require (receiver = ctx.msgSender ∧ owner = ctx.msgSender)
    "LST: only self withdraw"
  let shares ← convertToShares assets w.vault
  require (0 < shares) "LST: zero shares"
  let (_, w) ← requestWithdraw ctx shares w
  return (shares, w)

def claimWithdraw
    (d : Deployment) (ctx : Context) (requestId : Nat) (w : World) :
    Result (U256 × World) := do
  let s := w.vault
  match s.withdrawalRequests[requestId]? with
  | none => .error (.reason "LST: no such request")
  | some request => do
      require (request.owner = ctx.msgSender) "LST: not request owner"
      require (request.claimed = false) "LST: already claimed"
      require (request.claimableAt ≤ ctx.blockNumber) "LST: not finalized"
      let withdrawalRequests :=
        s.withdrawalRequests.set requestId { request with claimed := true }
      let assets := request.assets
      let pendingWithdrawalWeth ← checkedSub s.pendingWithdrawalWeth assets
      let openRequestCount ← checkedSub s.openRequestCount 1
      let weth ← w.weth.transfer d.self ctx.msgSender assets
      return (assets,
        emit ctx (.withdrawalClaimed ctx.msgSender requestId assets) { w with
            weth
            vault := { s with
                withdrawalRequests, pendingWithdrawalWeth,
                openRequestCount } })

/-- The loop of `claimAllWithdrawals` over the ids of the caller. -/
def claimEach
    (d : Deployment) (ctx : Context) :
    List Nat → U256 → World → Result (U256 × World)
  | [], assets, w => return (assets, w)
  | requestId :: rest, assets, w =>
      match w.vault.withdrawalRequests[requestId]? with
      | none => .error .panic
      | some request =>
          if request.claimed = true ∨ ctx.blockNumber < request.claimableAt then
            claimEach d ctx rest assets w
          else do
            let (paid, w) ← claimWithdraw d ctx requestId w
            let assets ← checkedAdd assets paid
            claimEach d ctx rest assets w

def claimAllWithdrawals
    (d : Deployment) (ctx : Context) (w : World) :
    Result (U256 × World) :=
  claimEach d ctx (w.vault.requestIdsOf ctx.msgSender) 0 w

/-! ## Yield -/

def accrueRewards (ctx : Context) (w : World) :
    Result (U256 × World) := do
  let s := w.vault
  let elapsed ← checkedSub ctx.blockNumber s.lastAccrualBlock
  if elapsed = 0 then return (0, w)
  let s := { s with lastAccrualBlock := ctx.blockNumber }
  if s.totalSupply = 0 ∨ s.rewardRatePerBlockRay = 0 ∨ s.rewardReserve = 0 then
    return (0, { w with vault := s })
  let perBlock ← checkedMul s.totalPooledWeth s.rewardRatePerBlockRay
  let product ← checkedMul perBlock elapsed
  let accrued ← checkedDiv product RAY
  let accrued := capped accrued s.rewardReserve
  if accrued = 0 then return (0, { w with vault := s })
  let rewardReserve ← checkedSub s.rewardReserve accrued
  let totalPooledWeth ← checkedAdd s.totalPooledWeth accrued
  return (accrued,
    emit ctx (.rewardsAccrued accrued totalPooledWeth rewardReserve)
      { w with vault := { s with rewardReserve, totalPooledWeth } })

def fundRewards
    (d : Deployment) (ctx : Context) (assets : U256) (w : World) :
    Result World := do
  require (0 < assets) "LST: zero assets"
  let weth ← w.weth.transferFrom d.self ctx.msgSender d.self assets
  let rewardReserve ← checkedAdd w.vault.rewardReserve assets
  return emit ctx (.rewardsFunded ctx.msgSender assets rewardReserve)
    { w with vault := { w.vault with rewardReserve }, weth }

/-- The modifier `onlyOperator`. -/
def onlyOperator (ctx : Context) (w : World) : Result Unit :=
  require (w.vault.operators ctx.msgSender = true) "LST: not operator"

def slash
    (d : Deployment) (ctx : Context) (bps : U256) (w : World) :
    Result (U256 × World) := do
  onlyOperator ctx w
  require (bps < 10000) "LST: bps out of range"
  let (_, w) ← accrueRewards ctx w
  let slashed ← mulDivDown w.vault.totalPooledWeth bps 10000
  if slashed = 0 then return (0, w)
  let totalPooledWeth ← checkedSub w.vault.totalPooledWeth slashed
  let weth ← w.weth.transfer d.self BURN_ADDRESS slashed
  return (slashed, emit ctx (.slashed slashed totalPooledWeth)
      { w with vault := { w.vault with totalPooledWeth }, weth })

/-! ## Configuration -/

def setRewardRate
    (ctx : Context) (ratePerBlockRay : U256) (w : World) :
    Result World := do
  onlyOperator ctx w
  let (_, w) ← accrueRewards ctx w
  return emit ctx (.rewardRateSet ratePerBlockRay) { w with
      vault := { w.vault with rewardRatePerBlockRay := ratePerBlockRay } }

def setWithdrawalDelayBlocks
    (ctx : Context) (delayBlocks : U256) (w : World) :
    Result World := do
  onlyOperator ctx w
  return emit ctx (.withdrawalDelaySet delayBlocks) { w with
      vault := { w.vault with withdrawalDelayBlocks := delayBlocks } }

def setQueueThroughput
    (ctx : Context) (weiPerBlock : U256) (w : World) :
    Result World := do
  onlyOperator ctx w
  return emit ctx (.queueThroughputSet weiPerBlock) { w with
      vault := { w.vault with queueThroughputWeiPerBlock := weiPerBlock } }

def setOperator
    (ctx : Context) (account : Address) (allowed : Bool) (w : World) :
    Result World := do
  onlyOperator ctx w
  return emit ctx (.operatorSet account allowed) { w with
      vault := { w.vault with
          operators := Function.update w.vault.operators account allowed } }

def exec (d : Deployment) (ctx : Context) (w : World) :
    Call → Result World
  | .deposit assets receiver =>
      Prod.snd <$> deposit d ctx assets receiver w
  | .requestWithdraw shares => Prod.snd <$> requestWithdraw ctx shares w
  | .redeem shares receiver owner =>
      Prod.snd <$> redeem ctx shares receiver owner w
  | .withdraw assets receiver owner =>
      Prod.snd <$> withdraw ctx assets receiver owner w
  | .claimWithdraw requestId =>
      Prod.snd <$> claimWithdraw d ctx requestId w
  | .claimAllWithdrawals => Prod.snd <$> claimAllWithdrawals d ctx w
  | .accrueRewards => Prod.snd <$> accrueRewards ctx w
  | .fundRewards assets => fundRewards d ctx assets w
  | .slash bps => Prod.snd <$> slash d ctx bps w
  | .setRewardRate ratePerBlockRay => setRewardRate ctx ratePerBlockRay w
  | .setWithdrawalDelayBlocks delayBlocks =>
      setWithdrawalDelayBlocks ctx delayBlocks w
  | .setQueueThroughput weiPerBlock => setQueueThroughput ctx weiPerBlock w
  | .setOperator account allowed => setOperator ctx account allowed w
  | .approve spender amount => approve ctx spender amount w
  | .transfer recipient amount => transfer ctx recipient amount w
  | .transferFrom sender recipient amount =>
      transferFrom ctx sender recipient amount w

/-! ## Views -/

/-- What `accountSummary` accumulates over the requests of an account. -/
structure Tally where
  pendingAssets : U256
  claimableAssets : U256
  nextClaimableAt : U256
  openRequests : U256
deriving DecidableEq

/-- One round of the loop of `accountSummary`. -/
def Tally.add
    (ctx : Context) (s : Storage) (t : Tally) (requestId : Nat) :
    Result Tally :=
  match s.withdrawalRequests[requestId]? with
  | none => .error .panic
  | some request =>
      if request.claimed = true then return t
      else do
        let openRequests ← checkedAdd t.openRequests 1
        if request.claimableAt ≤ ctx.blockNumber then
          let claimableAssets ← checkedAdd t.claimableAssets request.assets
          return { t with openRequests, claimableAssets }
        else
          let pendingAssets ← checkedAdd t.pendingAssets request.assets
          let nextClaimableAt := if t.nextClaimableAt = 0 ∨
                request.claimableAt < t.nextClaimableAt then
              request.claimableAt
            else t.nextClaimableAt
          return { t with openRequests, pendingAssets, nextClaimableAt }

structure AccountSummary extends Tally where
  shares : U256
  shareAssets : U256
deriving DecidableEq

def accountSummary (ctx : Context) (owner : Address) (s : Storage) :
    Result AccountSummary := do
  let shares := s.balanceOf owner
  let shareAssets ← convertToAssets shares s
  let tally ← (s.requestIdsOf owner).foldlM (Tally.add ctx s) ⟨0, 0, 0, 0⟩
  return { tally with shares, shareAssets }

/-- What `accountSummaryAt` accumulates over the requests of an account. -/
structure TallyAt where
  claimableAssets : U256
  reachableAssets : U256
  unreachableAssets : U256
  openRequests : U256
deriving DecidableEq

/-- One round of the loop of `accountSummaryAt`. -/
def TallyAt.add
    (ctx : Context) (horizonBlock : U256) (s : Storage) (t : TallyAt)
    (requestId : Nat) : Result TallyAt :=
  match s.withdrawalRequests[requestId]? with
  | none => .error .panic
  | some request =>
      if request.claimed = true then return t
      else do
        let openRequests ← checkedAdd t.openRequests 1
        if request.claimableAt ≤ ctx.blockNumber then
          let claimableAssets ← checkedAdd t.claimableAssets request.assets
          return { t with openRequests, claimableAssets }
        else if request.claimableAt ≤ horizonBlock then
          let reachableAssets ← checkedAdd t.reachableAssets request.assets
          return { t with openRequests, reachableAssets }
        else
          let unreachableAssets ← checkedAdd t.unreachableAssets request.assets
          return { t with openRequests, unreachableAssets }

structure AccountSummaryAt extends TallyAt where
  shares : U256
  shareAssets : U256
deriving DecidableEq

def accountSummaryAt
    (ctx : Context) (owner : Address) (horizonBlock : U256) (s : Storage) :
    Result AccountSummaryAt := do
  let shares := s.balanceOf owner
  let shareAssets ← convertToAssets shares s
  let tally ← (s.requestIdsOf owner).foldlM (TallyAt.add ctx horizonBlock s)
      ⟨0, 0, 0, 0⟩
  return { tally with shares, shareAssets }

/-- WETH held minus every obligation, and never negative. -/
def surplusWeth (d : Deployment) (w : World) : Result U256 := do
  let held := w.weth.balanceOf d.self
  let obligations ←
    checkedAdd w.vault.totalPooledWeth w.vault.pendingWithdrawalWeth
  let owed ← checkedAdd obligations w.vault.rewardReserve
  return if owed < held then held - owed else 0

end Eris.Vault.Contract
