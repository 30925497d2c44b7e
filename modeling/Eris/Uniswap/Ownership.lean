import Eris.Foundation.LogFeed

/-!
# The ledger of liquidity positions an account obtained itself

`sdk/src/protocols/uniswapLpOwnership.ts`.  The ledger reads the position
manager's transfers.  A position counts for an account when its transfer
arrived in a transaction which the account sent; it stops counting when it
leaves.  Holdings carry the blocks they were held between, so that a ledger
which has read past a block still answers for that block.

Accounts are lower-cased addresses, token ids are numbers.  The holdings of
the source are objects which its lists and its index share; a stored holding
carries the identity of its object.
-/

namespace Eris.Uniswap.Ownership

open Foundation.LogFeed

variable {Account : Type} [DecidableEq Account]

/-- The most positions of one account which are valued at a boundary. -/
def lpPositionsLimit : Nat := 128

/-- How many of its own positions are tracked by id for an account. -/
def lpOwnTrackLimit : Nat := 8 * lpPositionsLimit

abbrev TokenId := Nat

/-- A transfer of the position manager, with the sender of its transaction. -/
structure LpTransfer (Account : Type) where
  fromAccount : Account
  toAccount : Account
  tokenId : TokenId
  blockNumber : Nat
  logIndex : Nat
  txFrom : Option Account
  deriving DecidableEq

/-- Where a transfer stands in the chain. -/
def LpTransfer.position (transfer : LpTransfer Account) : Position :=
  toLex (transfer.blockNumber, transfer.logIndex)

/-- A position with the first block it was held at, unknown for a seeded one,
and the block it left the account at. -/
structure Holding where
  tokenId : TokenId
  fromBlock : Option Nat
  untilBlock : Option Nat
  deriving DecidableEq

/-- The position has not left the account. -/
def Holding.isOpen (holding : Holding) : Bool := holding.untilBlock.isNone

def Holding.held (holding : Holding) (block : Nat) : Bool :=
  (holding.fromBlock.all (· ≤ block)) && (holding.untilBlock.all (block < ·))

/-- The position was not released at or before a block. -/
def Holding.outlives (block : Nat) (holding : Holding) : Bool :=
  holding.untilBlock.all (block < ·)

/-- The state of an account, as a snapshot writes it. -/
structure AccountState where
  own : List Holding
  seeded : List Holding
  overflow : List (Nat × Int)
  overflowBase : Int
  deriving DecidableEq

/-- What the ledger says an account holds at a block. -/
structure LpHeldAt where
  tokenIds : List TokenId
  heldOwn : Nat
  heldSeeded : Nat
  ownOverflow : Int
  deriving DecidableEq

namespace AccountState

def overflowNow (state : AccountState) : Int :=
  state.overflowBase + (state.overflow.map Prod.snd).sum

/-- The overflow at a block: the base and the entries up to the block. -/
def overflowAt (state : AccountState) (block : Nat) : Int :=
  state.overflowBase + ((state.overflow.filter (·.1 ≤ block)).map Prod.snd).sum

/-- The holdings of an account at a block. -/
def heldAt (state : AccountState) (block : Nat) : LpHeldAt :=
  let own := state.own.filter (·.held block)
  let seeded := state.seeded.filter (·.held block)
  { tokenIds :=
      ((own ++ seeded).take lpPositionsLimit).map Holding.tokenId
    heldOwn := own.length
    heldSeeded := seeded.length
    ownOverflow := max 0 (state.overflowAt block) }

/-- Forget holdings released up to a block, and fold the overflow up to it. -/
def prune (block : Nat) (state : AccountState) : AccountState where
  own := state.own.filter (·.outlives block)
  seeded := state.seeded.filter (·.outlives block)
  overflow := state.overflow.filter (block < ·.1)
  overflowBase := state.overflowAt block

end AccountState

/-- A holding with the identity of its object. -/
structure Stored where
  reference : Nat
  holding : Holding
  deriving DecidableEq

def Stored.close (reference block : Nat) (stored : Stored) : Stored :=
  if stored.reference = reference then
    { stored with
      holding := { stored.holding with untilBlock := some block } }
  else
    stored

/-- An account's state with its derived part: the open holding of each token
id, and how many open holdings are its own (an account without an entry has
none). -/
structure TrackedAccount where
  own : List Stored
  seeded : List Stored
  overflow : List (Nat × Int)
  overflowBase : Int
  index : TokenId → Option Stored
  openOwn : Int
  nextReference : Nat

namespace TrackedAccount

def empty : TrackedAccount where
  own := []
  seeded := []
  overflow := []
  overflowBase := 0
  index := fun _ => none
  openOwn := 0
  nextReference := 0

def holdings (account : TrackedAccount) : List Stored :=
  account.own ++ account.seeded

def saved (account : TrackedAccount) : AccountState where
  own := account.own.map Stored.holding
  seeded := account.seeded.map Stored.holding
  overflow := account.overflow
  overflowBase := account.overflowBase

/-- Seed a position, unless the account is known to have it. -/
def seedOne (account : TrackedAccount) (tokenId : TokenId) :
    TrackedAccount :=
  if (account.index tokenId).isSome then
    account
  else
    let stored : Stored := ⟨account.nextReference, tokenId, none, none⟩
    { account with
      seeded := account.seeded ++ [stored]
      index := Function.update account.index tokenId (some stored)
      nextReference := account.nextReference + 1 }

def unseed (account : TrackedAccount) : TrackedAccount :=
  { account with
    seeded := []
    index := (account.seeded.filter (·.holding.isOpen)).foldl
        (fun index stored =>
          Function.update index stored.holding.tokenId none)
        account.index }

/-- What the account held when the ledger began tracking it. -/
def seed (account : TrackedAccount) (tokenIds : List TokenId) :
    TrackedAccount :=
  (tokenIds.take lpPositionsLimit).foldl seedOne account.unseed

def release (account : TrackedAccount) (tokenId : TokenId) (block : Nat) :
    TrackedAccount :=
  match account.index tokenId with
  | some stored =>
      { account with
        own := account.own.map (Stored.close stored.reference block)
        seeded := account.seeded.map (Stored.close stored.reference block)
        index := Function.update account.index tokenId none
        openOwn := if stored.holding.fromBlock.isSome then
            account.openOwn - 1
          else
            account.openOwn }
  | none =>
      if 0 < account.saved.overflowNow then
        { account with overflow := account.overflow ++ [(block, -1)] }
      else
        account

/-- A position arrives in a transaction which the account sent. -/
def acquire (account : TrackedAccount) (tokenId : TokenId) (block : Nat) :
    TrackedAccount :=
  if account.openOwn < lpOwnTrackLimit then
    let stored : Stored := ⟨account.nextReference, tokenId, block, none⟩
    { account with
      own := account.own ++ [stored]
      index := Function.update account.index tokenId (some stored)
      openOwn := account.openOwn + 1
      nextReference := account.nextReference + 1 }
  else
    { account with overflow := account.overflow ++ [(block, 1)] }

/-- Forget what no boundary after a block can ask about. -/
def prune (block : Nat) (account : TrackedAccount) : TrackedAccount :=
  { account with
    own := account.own.filter (·.holding.outlives block)
    seeded := account.seeded.filter (·.holding.outlives block)
    overflow := account.overflow.filter (block < ·.1)
    overflowBase := account.saved.overflowAt block }

def store (first : Nat) (holdings : List Holding) : List Stored :=
  (holdings.zipIdx first).map fun entry => ⟨entry.2, entry.1⟩

/-- An account read back, with its derived part. -/
def restore (state : AccountState) : TrackedAccount :=
  let own := store 0 state.own
  let seeded := store state.own.length state.seeded
  { own
    seeded
    overflow := state.overflow
    overflowBase := state.overflowBase
    index := ((own ++ seeded).filter (·.holding.isOpen)).foldl
        (fun index stored =>
          Function.update index stored.holding.tokenId (some stored))
        (fun _ => none)
    openOwn := (own.filter (·.holding.isOpen)).length
    nextReference := state.own.length + state.seeded.length }

end TrackedAccount

structure LpOwnershipLedger (Account : Type) where
  state : Account → Option TrackedAccount

structure LpOwnershipLedgerState (Account : Type) where
  accounts : Account → Option AccountState

namespace LpOwnershipLedger

def modify
    (ledger : LpOwnershipLedger Account) (account : Account)
    (change : TrackedAccount → TrackedAccount) :
    LpOwnershipLedger Account :=
  ⟨Function.update ledger.state account ((ledger.state account).map change)⟩

def tracks (ledger : LpOwnershipLedger Account) (account : Account) : Bool :=
  (ledger.state account).isSome

def track (ledger : LpOwnershipLedger Account) (account : Account) :
    LpOwnershipLedger Account :=
  if ledger.tracks account then
    ledger
  else
    ⟨Function.update ledger.state account (some TrackedAccount.empty)⟩

def new (accounts : List Account) : LpOwnershipLedger Account :=
  accounts.foldl track ⟨fun _ => none⟩

/-- Track an account, with what it holds at that time. -/
def seed
    (ledger : LpOwnershipLedger Account) (account : Account)
    (tokenIds : List TokenId) : LpOwnershipLedger Account :=
  (ledger.track account).modify account (·.seed tokenIds)

/-- The transfer leaves its sender, if it is tracked. -/
def depart
    (ledger : LpOwnershipLedger Account) (transfer : LpTransfer Account) :
    LpOwnershipLedger Account :=
  if ledger.tracks transfer.fromAccount then
    ledger.modify transfer.fromAccount
      (·.release transfer.tokenId transfer.blockNumber)
  else
    ledger

/-- The transfer arrives in a transaction which its recipient sent. -/
def arrive
    (ledger : LpOwnershipLedger Account) (transfer : LpTransfer Account) :
    LpOwnershipLedger Account :=
  if ledger.tracks transfer.toAccount ∧
      transfer.txFrom = some transfer.toAccount then
    ledger.modify transfer.toAccount
      (·.acquire transfer.tokenId transfer.blockNumber)
  else
    ledger

def ingestOne
    (ledger : LpOwnershipLedger Account) (transfer : LpTransfer Account) :
    LpOwnershipLedger Account :=
  (ledger.depart transfer).arrive transfer

/-- Read the transfers of a call, in chain order. -/
def ingest
    (ledger : LpOwnershipLedger Account)
    (transfers : List (LpTransfer Account)) : LpOwnershipLedger Account :=
  feed LpTransfer.position ingestOne ledger transfers

/-- What an account holds at a block; nothing for an untracked one. -/
def heldAt
    (ledger : LpOwnershipLedger Account) (account : Account) (block : Nat) :
    Option LpHeldAt :=
  (ledger.state account).map (·.saved.heldAt block)

/-- Forget what no boundary after a block can ask about. -/
def prune (ledger : LpOwnershipLedger Account) (block : Nat) :
    LpOwnershipLedger Account :=
  ⟨fun account => (ledger.state account).map (·.prune block)⟩

def snapshot (ledger : LpOwnershipLedger Account) :
    LpOwnershipLedgerState Account :=
  ⟨fun account => (ledger.state account).map (·.saved)⟩

def restore (state : LpOwnershipLedgerState Account) :
    LpOwnershipLedger Account :=
  ⟨fun account => (state.accounts account).map TrackedAccount.restore⟩

end LpOwnershipLedger

end Eris.Uniswap.Ownership
