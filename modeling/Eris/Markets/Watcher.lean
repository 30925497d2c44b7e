import Eris.Foundation.InsertionMap
import Eris.Foundation.Transition

/-!
# The registry section of an observation

A watcher builds an agent's view of the market registry, observation by
observation.  It reads each entry once and keeps it, and feeds every entry to
a ledger of what the agent moved into each market and did not get back.  An
observation carries the newest entries and the environment's own listings,
and what the agent has left in the unverified ones among them.

Addresses are taken in lower case.
-/

namespace Eris.Markets.Watcher

open Foundation Foundation.Transition

inductive RegistryKind where
  | unknown
  | uniswapV3Pool
  | balancerWeightedPool
  | curvePlainPool
  | curveTwocryptoPool
  | lendingMarket
  | erc20
deriving DecidableEq

structure RegistryEntry (Address : Type) where
  market : Address
  kind : RegistryKind
  creator : Address
  token0 : Address
  token1 : Address
  oracle : Address
  codehash : Nat
  verified : Bool
  registeredAtBlock : Nat
  extra : Nat
deriving DecidableEq

/-- A `Transfer` log: the number of its topics, and what could be decoded. -/
structure TransferLog (Address : Type) where
  address : Address
  topics : Nat
  sender : Option Address
  recipient : Option Address
  value : Option Nat
deriving DecidableEq

/--
What the node answers at an observation, every read succeeding; the owner of
an oracle where one is read.
-/
structure View (Address : Type) where
  blockNumber : Nat
  registry : List (RegistryEntry Address)
  logs : Nat → List (TransferLog Address)
  codehash : Address → Nat
  oracleOwner : Address → Option Address
  balanceOf : Address → Address → Nat
  allowance : Address → Address → Nat

def REGISTRY_OBSERVATION_LIMIT : Nat := 128

def REGISTRY_PINNED_LIMIT : Nat := 32

def UNLIMITED_ALLOWANCE_THRESHOLD : Nat := 2 ^ 255

section Ledger

variable {Address : Type} [DecidableEq Address]

structure StrandedFlow (Address : Type) where
  market : Address
  token : Address
  amountRaw : Nat
deriving DecidableEq

structure StrandedLedger (Address : Type) where
  net : InsertionMap (Address × Address) Int

def StrandedLedger.opened : StrandedLedger Address where
  net := .empty

/-- Add to the net of a market and a token. -/
def StrandedLedger.add
    (ledger : StrandedLedger Address) (market token : Address)
    (amount : Int) : StrandedLedger Address where
  net := ledger.net.alter (market, token) fun held => held.getD 0 + amount

/-- One log of `apply`. -/
def StrandedLedger.applyLog
    (me : Address) (markets : List Address)
    (ledger : StrandedLedger Address) (log : TransferLog Address) :
    StrandedLedger Address :=
  if log.topics ≠ 3 then ledger
  else
    match log.sender, log.recipient, log.value with
    | some sender, some recipient, some value =>
        if sender = me ∧ recipient ∈ markets then
          ledger.add recipient log.address value
        else if recipient = me ∧ sender ∈ markets then
          ledger.add sender log.address (-value)
        else ledger
    | _, _, _ => ledger

def StrandedLedger.apply
    (ledger : StrandedLedger Address) (logs : List (TransferLog Address))
    (me : Address) (markets : List Address) : StrandedLedger Address :=
  logs.foldl (StrandedLedger.applyLog me markets) ledger

def StrandedLedger.outstanding (ledger : StrandedLedger Address) :
    List (StrandedFlow Address) :=
  ledger.net.entries.filterMap fun entry =>
    if entry.2 ≤ 0 then none
    else some ⟨entry.1.1, entry.1.2, entry.2.toNat⟩

/-- Cap each flow by what the market still holds of the token. -/
def clampToBalances
    (flows : List (StrandedFlow Address))
    (balances : Address → Address → Option Nat) :
    List (StrandedFlow Address) :=
  flows.filterMap fun flow =>
    match balances flow.market flow.token with
    | none => some flow
    | some held =>
        let amount := if held < flow.amountRaw then held else flow.amountRaw
        if 0 < amount then some { flow with amountRaw := amount } else none

/-- The blocks of a range, both ends included. -/
def blocksOf (fromBlock toBlock : Nat) : List Nat :=
  List.range' fromBlock (toBlock + 1 - fromBlock)

/-- The transfers that can move the agent's balance over a range. -/
def fetchAgentTransfers
    (view : View Address) (agent : Address) (fromBlock toBlock : Nat) :
    List (TransferLog Address) :=
  let logs := (blocksOf fromBlock toBlock).flatMap view.logs
  logs.filter (fun log => decide (log.sender = some agent)) ++
    logs.filter (fun log => decide (log.recipient = some agent))

end Ledger

structure ObservedEntry (Address : Type) where
  entry : RegistryEntry Address
  mine : Bool
  codehashNow : Nat
  oracleOwner : Option Address
deriving DecidableEq

structure Allowance (Address : Type) where
  spender : Address
  token : Address
  amount : Nat
  unlimited : Bool
deriving DecidableEq

structure RegistryObservation (Address : Type) where
  entries : List (ObservedEntry Address)
  allowances : List (Allowance Address)
  strandedUnknown : List (StrandedFlow Address)
  dropped : Nat
deriving DecidableEq

/-- What a watcher is made for; `pricedTokens` in the order of the set. -/
structure WatcherConfig (Address : Type) where
  agent : Address
  fromBlock : Nat
  pricedTokens : List Address

structure MarketRegistryWatcher (Address : Type) where
  ledger : StrandedLedger Address
  markets : List Address
  scannedThroughBlock : Option Nat
  known : List (RegistryEntry Address)
  pinned : List Nat
  environmentCreators : Finset Address

section Watcher

variable {Address : Type} [DecidableEq Address] (config : WatcherConfig Address)

def MarketRegistryWatcher.opened : MarketRegistryWatcher Address where
  ledger := .opened
  markets := []
  scannedThroughBlock := none
  known := []
  pinned := []
  environmentCreators := ∅

/-- The creators of the environment's own listings. -/
def environmentCreatorsOf (entries : List (RegistryEntry Address)) :
    Finset Address :=
  ((entries.filter fun e => decide (e.kind = .erc20) && e.verified).map
    RegistryEntry.creator).toFinset

/-- `new Set(...)`, in ascending order. -/
def ascendingSet (indices : List Nat) : List Nat :=
  indices.dedup.insertionSort (· ≤ ·)

namespace MarketRegistryWatcher

/-- What the watcher forgets when the registry is shorter than it knows. -/
def restarted (watcher : MarketRegistryWatcher Address) :
    MarketRegistryWatcher Address :=
  { watcher with
    known := []
    markets := []
    pinned := []
    environmentCreators := ∅ }

/-- Extend the pinned listings with those among the entries from an index. -/
def pinFrom (watcher : MarketRegistryWatcher Address) (index : Nat) :
    MarketRegistryWatcher Address :=
  let creators := watcher.environmentCreators ∪
      environmentCreatorsOf (watcher.known.drop index)
  let start :=
    if watcher.environmentCreators.card < creators.card then 0 else index
  let found :=
    (List.range' start (watcher.known.length - start)).filter fun i =>
      match watcher.known[i]? with
      | none => false
      | some entry => decide (entry.creator ∈ creators)
  { watcher with
    environmentCreators := creators
    pinned := ascendingSet (watcher.pinned ++ found) }

/-- The entries the registry has beyond those known are read and kept. -/
def takes (watcher : MarketRegistryWatcher Address) (view : View Address) :
    MarketRegistryWatcher Address :=
  let fresh := view.registry.drop watcher.known.length
  { watcher with
    known := watcher.known ++ fresh
    markets := watcher.markets ++ fresh.map RegistryEntry.market }.pinFrom
    watcher.known.length

/-- The entries of one observation: the window, then older listings. -/
def carried (watcher : MarketRegistryWatcher Address) :
    List (RegistryEntry Address) :=
  let all := watcher.known
  let windowStart := all.length - REGISTRY_OBSERVATION_LIMIT
  let older := watcher.pinned.filter fun i => decide (i < windowStart)
  (all.drop windowStart).reverse ++
    (older.drop (older.length - REGISTRY_PINNED_LIMIT)).reverse.filterMap
      fun i => all[i]?

def start (watcher : MarketRegistryWatcher Address) : Nat :=
  match watcher.scannedThroughBlock with
  | none => config.fromBlock
  | some block => block + 1

def scans (watcher : MarketRegistryWatcher Address) (view : View Address) :
    MarketRegistryWatcher Address :=
  if watcher.start config ≤ view.blockNumber then
    { watcher with
      ledger := watcher.ledger.apply
          (fetchAgentTransfers view config.agent (watcher.start config)
            view.blockNumber)
          config.agent watcher.markets
      scannedThroughBlock := some view.blockNumber }
  else watcher

/-- What is left in the unverified markets carried, in priced tokens. -/
def strandedUnknown
    (watcher : MarketRegistryWatcher Address) (view : View Address) :
    List (StrandedFlow Address) :=
  let unknownMarkets :=
    (watcher.carried.filter fun e => !e.verified).map RegistryEntry.market
  let outstanding := watcher.ledger.outstanding.filter fun flow =>
      decide (flow.market ∈ unknownMarkets) &&
        decide (flow.token ∈ config.pricedTokens)
  clampToBalances outstanding fun market token =>
    some (view.balanceOf market token)

/-- The allowances of the entries carried, over the priced tokens. -/
def allowances
    (watcher : MarketRegistryWatcher Address) (view : View Address) :
    List (Allowance Address) :=
  (watcher.carried.flatMap fun e =>
      config.pricedTokens.map fun token => (e.market, token)).filterMap
    fun pair =>
      let amount := view.allowance pair.1 pair.2
      if 0 < amount then
        some ⟨pair.1, pair.2, amount,
            decide (UNLIMITED_ALLOWANCE_THRESHOLD ≤ amount)⟩
      else none

def observation
    (watcher : MarketRegistryWatcher Address) (view : View Address) :
    RegistryObservation Address where
  entries := watcher.carried.map fun e =>
      { entry := e
        mine := decide (e.creator = config.agent)
        codehashNow := view.codehash e.market
        oracleOwner := view.oracleOwner e.oracle }
  allowances := watcher.allowances config view
  strandedUnknown := watcher.strandedUnknown config view
  dropped := watcher.known.length - watcher.carried.length

/-- The watcher as it reads on: from the start when the registry is shorter. -/
def resumed (watcher : MarketRegistryWatcher Address) (view : View Address) :
    MarketRegistryWatcher Address :=
  if view.registry.length < watcher.known.length then watcher.restarted
  else watcher

def reads (watcher : MarketRegistryWatcher Address) (view : View Address) :
    MarketRegistryWatcher Address :=
  ((watcher.resumed view).takes view).scans config view

def read (watcher : MarketRegistryWatcher Address) (view : View Address) :
    RegistryObservation Address :=
  (watcher.reads config view).observation config view

end MarketRegistryWatcher

end Watcher

end Eris.Markets.Watcher
