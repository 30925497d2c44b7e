import Eris.Registry.Capacity
import Eris.Registry.FairOrder

/-!
# The sweep for markets

`core/src/realtime/marketRegistry.ts`.  Every block the environment looks for
new markets: the logs of the factory, of the lending singleton and of the
token launcher, and the contracts created by a transaction.  Contracts wait to
be probed; what is found waits to be published.  Both queues are bounded.
-/

namespace Eris.Registry.Sweep

open Capacity FairOrder

def ZERO_ADDRESS : String := "0x0000000000000000000000000000000000000000"

def ZERO_BYTES32 : String :=
  "0x0000000000000000000000000000000000000000000000000000000000000000"

def MAX_PENDING_ENTRIES : Nat := 2048

def MAX_PENDING_PER_CREATOR : Nat := 64

def MAX_CLASSIFY_PER_SWEEP : Nat := 64

def CLASSIFY_ATTEMPTS : Nat := 3

/-- What is found and waits to be published. -/
structure PendingEntry where
  market : String
  kind : RegistryKind
  creator : String
  token0 : String
  token1 : String
  oracle : String
  codehash : String
  verified : Bool
  extra : String
  seenAtBlock : Nat
  environment : Bool
deriving DecidableEq

structure Candidate where
  address : String
  creator : String
  attempts : Nat
deriving DecidableEq

/-- A `PoolCreated` log, with the sender of its transaction. -/
structure PoolCreated where
  pool : Option String
  token0 : Option String
  token1 : Option String
  sender : String

structure CreateMarket where
  id : String
  creator : String
  loanToken : String
  collateralToken : String
  oracle : String

structure Launched where
  caller : Option String
  token : Option String

structure CreatedContract where
  address : String
  creator : String

inductive UntrustedReadFailure where
  | revert
  | outOfGas
  | timeout
  | error
deriving DecidableEq

structure ClassifiedContract where
  kind : RegistryKind
  failure : Option UntrustedReadFailure
deriving DecidableEq

/-- The logs and contracts of a range of blocks, and what probes answer. -/
structure SweepView where
  toBlock : Nat
  pools : List PoolCreated
  markets : List CreateMarket
  launches : List Launched
  created : List CreatedContract
  codehash : String → String
  classified : Candidate → ClassifiedContract

/-- What a run deploys, and what is the environment's own. -/
structure RegistrySetup where
  uniswapFactory : Bool
  lending : Option String
  tokenLauncher : Bool
  environmentCreators : List String
  environmentAddresses : List String
  perBlockCap : Nat

structure MarketRegistryRuntime where
  pending : List PendingEntry
  seen : List (String × String)
  classifyQueue : List Candidate

def MarketRegistryRuntime.opened : MarketRegistryRuntime where
  pending := []
  seen := []
  classifyQueue := []

section Sweep

variable (toLowerCase : String → String) (setup : RegistrySetup)

def entryKey (market extra : String) : String × String :=
  (toLowerCase market, toLowerCase extra)

def PendingEntry.key (entry : PendingEntry) : String × String :=
  entryKey toLowerCase entry.market entry.extra

def Candidate.key (c : Candidate) : String × String :=
  entryKey toLowerCase c.address ZERO_BYTES32

def isEnvironmentCreator (creator : String) : Bool :=
  decide (toLowerCase creator ∈ setup.environmentCreators)

def isEnvironmentAddress (address : String) : Bool :=
  decide (toLowerCase address ∈ setup.environmentAddresses)

def foundPools (view : SweepView) : List PendingEntry :=
  if setup.uniswapFactory then
    view.pools.filterMap fun log =>
      log.pool.map fun pool =>
        { market := pool
          kind := .uniswapV3Pool
          creator := log.sender
          token0 := log.token0.getD ZERO_ADDRESS
          token1 := log.token1.getD ZERO_ADDRESS
          oracle := ZERO_ADDRESS
          codehash := view.codehash pool
          verified := true
          extra := ZERO_BYTES32
          seenAtBlock := view.toBlock
          environment := false }
  else []

/-- The markets of the lending singleton. -/
def foundMarkets (view : SweepView) : List PendingEntry :=
  match setup.lending with
  | none => []
  | some lending =>
      view.markets.map fun log =>
        { market := lending
          kind := .lendingMarket
          creator := log.creator
          token0 := log.loanToken
          token1 := log.collateralToken
          oracle := log.oracle
          codehash := view.codehash lending
          verified := true
          extra := log.id
          seenAtBlock := view.toBlock
          environment := false }

def foundLaunches (view : SweepView) : List PendingEntry :=
  if setup.tokenLauncher then
    view.launches.filterMap fun log =>
      log.token.bind fun token =>
        log.caller.map fun caller =>
          { market := token
            kind := .erc20
            creator := caller
            token0 := ZERO_ADDRESS
            token1 := ZERO_ADDRESS
            oracle := ZERO_ADDRESS
            codehash := view.codehash token
            verified := true
            extra := ZERO_BYTES32
            seenAtBlock := view.toBlock
            environment := true }
  else []

def foundLogs (view : SweepView) : List PendingEntry :=
  foundPools setup view ++ foundMarkets setup view ++ foundLaunches setup view

/-- The contracts created which are new, to be probed for the first time. -/
def newCandidates
    (runtime : MarketRegistryRuntime) (view : SweepView) : List Candidate :=
  (view.created.filter fun c =>
      !isEnvironmentAddress toLowerCase setup c.address && !decide
          (entryKey toLowerCase c.address ZERO_BYTES32 ∈ runtime.seen) &&
        !decide (toLowerCase c.address ∈ runtime.classifyQueue.map fun queued =>
              toLowerCase queued.address)).map
    fun c => ⟨c.address, c.creator, 0⟩

/-- The contracts to be probed, in the order in which they are. -/
def candidates
    (runtime : MarketRegistryRuntime) (view : SweepView) : List Candidate :=
  fairOrder toLowerCase (fun c : Candidate =>
      if isEnvironmentCreator toLowerCase setup c.creator then 0 else 1)
    Candidate.creator
    (runtime.classifyQueue ++ newCandidates toLowerCase setup runtime view)

/-- The node did not answer, and the contract is tried again. -/
def retries (view : SweepView) (c : Candidate) : Bool :=
  (decide ((view.classified c).failure = some .timeout) ||
      decide ((view.classified c).failure = some .error)) &&
    decide (c.attempts + 1 < CLASSIFY_ATTEMPTS)

def probedEntry (view : SweepView) (c : Candidate) : PendingEntry where
  market := c.address
  kind := (view.classified c).kind
  creator := c.creator
  token0 := ZERO_ADDRESS
  token1 := ZERO_ADDRESS
  oracle := ZERO_ADDRESS
  codehash := view.codehash c.address
  verified := false
  extra := ZERO_BYTES32
  seenAtBlock := view.toBlock
  environment := false

structure Intake where
  seen : List (String × String)
  pending : List PendingEntry
  added : Nat

/-- An entry at one of the environment's own addresses. -/
def isOwn (entry : PendingEntry) : Bool :=
  isEnvironmentAddress toLowerCase setup entry.market &&
    decide (entry.kind ≠ .lendingMarket)

/-- The entry with the mark of the environment's listings. -/
def marked (entry : PendingEntry) : PendingEntry :=
  { entry with
    environment := entry.environment ||
        isEnvironmentCreator toLowerCase setup entry.creator }

/-- Queue one entry, unless it was seen or is the environment's own. -/
def Intake.takes (intake : Intake) (entry : PendingEntry) : Intake :=
  if entry.key toLowerCase ∈ intake.seen then intake
  else if isOwn toLowerCase setup entry then intake
  else
    { seen := intake.seen ++ [entry.key toLowerCase]
      pending := intake.pending ++ [marked toLowerCase setup entry]
      added := intake.added + 1 }

/-- What a sweep did: whom it probed, left waiting, and dropped. -/
structure SweepReport where
  probed : List Candidate
  left : List Candidate
  droppedToClassify : List Candidate
  droppedToPublish : List PendingEntry

def capCandidates (waiting : List Candidate) :
    List Candidate × List Candidate :=
  capByCreator MAX_PENDING_PER_CREATOR MAX_PENDING_ENTRIES
    (fun c => toLowerCase c.creator)
    (fun c => isEnvironmentCreator toLowerCase setup c.creator) waiting

/-- Order and bound what waits to be published. -/
def capPending (pending : List PendingEntry) :
    List PendingEntry × List PendingEntry :=
  capByCreator MAX_PENDING_PER_CREATOR MAX_PENDING_ENTRIES
    (fun e => toLowerCase e.creator) PendingEntry.environment
    (fairOrder toLowerCase
      (fun e : PendingEntry => pendingTier e.environment e.kind)
      PendingEntry.creator pending)

def sweepMarkets (runtime : MarketRegistryRuntime) (view : SweepView) :
    MarketRegistryRuntime × SweepReport :=
  let candidates := candidates toLowerCase setup runtime view
  let fresh := candidates.take MAX_CLASSIFY_PER_SWEEP
  let left := candidates.drop MAX_CLASSIFY_PER_SWEEP
  let waiting := capCandidates toLowerCase setup left
  let retried := (fresh.filter (retries view)).map fun c =>
      { c with attempts := c.attempts + 1 }
  let probed := (fresh.filter fun c => !retries view c).map (probedEntry view)
  let intake :=
    (foundLogs setup view ++ probed).foldl (Intake.takes toLowerCase setup)
      ⟨runtime.seen, runtime.pending, 0⟩
  let backlog := if intake.added = 0 then (intake.pending, [])
    else capPending toLowerCase intake.pending
  ({ pending := backlog.1
     seen := intake.seen
     classifyQueue := waiting.1 ++ retried },
    { probed := fresh
      left := left
      droppedToClassify := waiting.2
      droppedToPublish := backlog.2 })

/-- `registerPending`: the batch, where there is one and its send succeeds. -/
def registerPending (runtime : MarketRegistryRuntime) (sent : Bool) :
    MarketRegistryRuntime × Option (List PendingEntry) :=
  if runtime.pending = [] then (runtime, none)
  else if sent then
    ({ runtime with
       pending := runtime.pending.drop
          (runtime.pending.take setup.perBlockCap).length },
      some (runtime.pending.take setup.perBlockCap))
  else (runtime, none)

end Sweep

end Eris.Registry.Sweep
