import Eris.Evm.Erc20

/-!
# The data model of `MockLSTVault.sol`

The vault keeps three disjoint purses of one token: what backs the shares,
rewards funded but not yet distributed, and what queued withdrawals are owed.
Shares are a plain ERC-20; withdrawal requests are never removed from their
array, only marked as claimed.

The log of the vault is kept as well.  No call reads it; it is what the
totals "ever funded" and "ever paid" are about.
-/

namespace Eris.Vault.Data

open Foundation.Checked Evm.Word Evm.Erc20

structure WithdrawalRequest where
  owner : Address
  shares : U256
  assets : U256
  claimableAt : U256
  claimed : Bool
deriving DecidableEq

def RAY : U256 := 1000000000000000000000000000

def MIN_INITIAL_DEPOSIT : U256 := 1000000000000000

def BOOTSTRAP_BURN_SHARES : U256 := 1000000

def BURN_ADDRESS : Address := 0xdead

/-- The reasons of the contract are plain strings. -/
abbrev Result (Value : Type) := Outcome String Value

structure Storage where
  totalSupply : U256
  balanceOf : Address → U256
  allowance : Address → Address → U256
  totalPooledWeth : U256
  rewardReserve : U256
  pendingWithdrawalWeth : U256
  rewardRatePerBlockRay : U256
  lastAccrualBlock : U256
  withdrawalDelayBlocks : U256
  queueThroughputWeiPerBlock : U256
  queueDrainBlock : U256
  operators : Address → Bool
  withdrawalRequests : List WithdrawalRequest
  requestIdsOf : Address → List Nat
  openRequestCount : U256

inductive Event where
  | transfer (sender recipient : Address) (value : U256)
  | approval (owner spender : Address) (value : U256)
  | deposited (caller receiver : Address) (assets shares : U256)
  | withdrawalRequested (owner : Address) (requestId : Nat)
      (shares assets claimableAt : U256)
  | withdrawalClaimed (owner : Address) (requestId : Nat) (assets : U256)
  | rewardsAccrued (assets totalPooledWeth rewardReserve : U256)
  | rewardsFunded (sender : Address) (assets rewardReserve : U256)
  | slashed (assets totalPooledWeth : U256)
  | rewardRateSet (rewardRatePerBlockRay : U256)
  | withdrawalDelaySet (withdrawalDelayBlocks : U256)
  | queueThroughputSet (queueThroughputWeiPerBlock : U256)
  | operatorSet (account : Address) (allowed : Bool)
deriving DecidableEq

/-- An event and the block it was emitted in. -/
structure Entry where
  blockNumber : U256
  event : Event
deriving DecidableEq

/-- The underlying asset; nothing is assumed about the size of its supply. -/
abbrev Weth := Token (2 ^ 256)

/-- The contract's storage, the books of its asset, and its log. -/
structure World where
  vault : Storage
  weth : Weth
  log : List Entry

/-- Where the vault lives, and the arguments of its constructor. -/
structure Deployment where
  self : Address
  deployer : Address
  envOperator : Address
  rewardRatePerBlockRay : U256
  withdrawalDelayBlocks : U256
  alive : self ≠ BURN_ADDRESS

/-- The sender of a transaction and the number of its block. -/
structure Context where
  msgSender : Address
  blockNumber : U256

def Storage.deployed (d : Deployment) (blockNumber : U256) : Storage where
  totalSupply := 0
  balanceOf := fun _ => 0
  allowance := fun _ _ => 0
  totalPooledWeth := 0
  rewardReserve := 0
  pendingWithdrawalWeth := 0
  rewardRatePerBlockRay := d.rewardRatePerBlockRay
  lastAccrualBlock := blockNumber
  withdrawalDelayBlocks := d.withdrawalDelayBlocks
  queueThroughputWeiPerBlock := 0
  queueDrainBlock := 0
  operators := fun account =>
    decide
      (account = d.deployer ∨ (d.envOperator ≠ 0 ∧ account = d.envOperator))
  withdrawalRequests := []
  requestIdsOf := fun _ => []
  openRequestCount := 0

def Deployment.events (d : Deployment) : List Event :=
  [.operatorSet d.deployer true] ++
    (if d.envOperator ≠ 0 ∧ d.envOperator ≠ d.deployer then
      [.operatorSet d.envOperator true]
    else []) ++
    [.rewardRateSet d.rewardRatePerBlockRay,
      .withdrawalDelaySet d.withdrawalDelayBlocks]

/--
The state-changing calls.  `deposit(assets)` is `deposit` with the sender as
its receiver.
-/
inductive Call where
  | deposit (assets : U256) (receiver : Address)
  | requestWithdraw (shares : U256)
  | redeem (shares : U256) (receiver owner : Address)
  | withdraw (assets : U256) (receiver owner : Address)
  | claimWithdraw (requestId : Nat)
  | claimAllWithdrawals
  | accrueRewards
  | fundRewards (assets : U256)
  | slash (bps : U256)
  | setRewardRate (ratePerBlockRay : U256)
  | setWithdrawalDelayBlocks (delayBlocks : U256)
  | setQueueThroughput (weiPerBlock : U256)
  | setOperator (account : Address) (allowed : Bool)
  | approve (spender : Address) (amount : U256)
  | transfer (recipient : Address) (amount : U256)
  | transferFrom (sender recipient : Address) (amount : U256)
deriving DecidableEq

def Call.privileged : Call → Bool
  | .slash _ => true
  | .setRewardRate _ => true
  | .setWithdrawalDelayBlocks _ => true
  | .setQueueThroughput _ => true
  | .setOperator _ _ => true
  | _ => false

/-- Spends an allowance on the shares of `account`. -/
def Call.movesFrom (account : Address) : Call → Bool
  | .transferFrom sender _ _ => decide (sender = account)
  | _ => false

/-- One for each call which issues or redeems shares. -/
def Call.drift : Call → Nat
  | .deposit _ _ => 1
  | .requestWithdraw _ => 1
  | .redeem _ _ _ => 1
  | .withdraw _ _ _ => 1
  | _ => 0

end Eris.Vault.Data
