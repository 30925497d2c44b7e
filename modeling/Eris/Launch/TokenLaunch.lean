import Eris.Foundation.Attempts
import Eris.Foundation.Transition
import Eris.Launch.WaveSchedule

/-!
# Listing a token and driving its wave

`core/src/realtime/tokenLaunch.ts`, `stepTokenLaunch`: each block the driver
lists what should be listed, buys what the wave should have bought and sells
what the decay should have sold.  A transaction it sends lands, reverts, is
dropped or stays in the pool, in any order; the driver reads receipts and
balances back, and a read or a send may fail.
-/

namespace Eris.Launch.TokenLaunch

open Foundation Attempts Transition WaveSchedule

/-! ## The state of one launch -/

inductive Kind where
  | listing
  | approveUsdc
  | approveToken
  | buy
  | sell
  deriving DecidableEq

inductive Phase where
  | pending
  | listing
  | live
  | failed
  deriving DecidableEq

inductive Side where
  | buy
  | sell
  deriving DecidableEq

def Side.kind : Side → Kind
  | .buy => .buy
  | .sell => .sell

/-- The kind of the approval a swap needs. -/
def Side.approval : Side → Kind
  | .buy => .approveUsdc
  | .sell => .approveToken

structure Pending where
  hash : Nat
  blockIndex : Nat
  kind : Side
  amountIn : Nat
  usdcBefore : Nat
  deriving DecidableEq

structure Listing where
  hash : Nat
  blockIndex : Nat
  deriving DecidableEq

/-- `TokenLaunchState`: what changes of it.  A token is named by the listing
attempt that makes it. -/
structure TokenLaunchState where
  phase : Phase
  token : Option Nat
  listAttempts : Nat
  listing : Option Listing
  waveStartUsdc : Option Nat
  heldAtDecayStart : Option Nat
  pending : Option Pending
  approvedUsdc : Bool
  approvedToken : Bool
  capStoppedAfter : Option Nat
  grossBuyUsdc : Nat
  tokensSold : Nat
  sellUsdcReceived : Nat
  closedReported : Bool

/-- A launch staged by `setupTokenLaunch`. -/
def stagedState : TokenLaunchState where
  phase := .pending
  token := none
  listAttempts := 0
  listing := none
  waveStartUsdc := none
  heldAtDecayStart := none
  pending := none
  approvedUsdc := false
  approvedToken := false
  capStoppedAfter := none
  grossBuyUsdc := 0
  tokensSold := 0
  sellUsdcReceived := 0
  closedReported := false

/-- A launch and the window it belongs to. -/
structure Config where
  event : ResolvedStressEvent
  launch : ResolvedTokenLaunch

/-- A launch with the transactions its two wallets sent. -/
structure World where
  state : TokenLaunchState
  ledger : Ledger Kind

/-- What the chain answers a launch in one block.  A read or a send that fails
answers nothing. -/
structure Reads where
  listingReceipt : Bool
  listingPool : Bool
  launchedLog : Bool
  listingSend : Bool
  pendingReceipt : Bool
  balanceAfterSell : Option Nat
  usdcNow : Option Nat
  price : Option ℚ
  held : Option Nat
  quoted : Option Nat
  nonce : Bool
  approveSend : Bool
  swapSend : Bool

def pendingTimeoutBlocks : Nat := 3

/-- `LIST_ATTEMPTS`. -/
def maxListAttempts : Nat := 3

def minDeltaBps : Nat := 100

/-- A submission is past the blocks it is waited for. -/
def timedOut (blockIndex sentAt : Nat) : Prop :=
  ¬((blockIndex : Int) - sentAt < pendingTimeoutBlocks)

instance (blockIndex sentAt : Nat) : Decidable (timedOut blockIndex sentAt) :=
  inferInstanceAs (Decidable (¬_))

/-- The receipt of a transaction: whether it succeeded, or nothing where
there is none or the read fails. -/
def receipt (ledger : Ledger Kind) (answers : Bool) (hash : Nat) :
    Option Bool :=
  if answers then
    match ledger.fate hash with
    | .landed => some true
    | .reverted => some false
    | .flying => none
    | .dropped => none
  else none

/-- How a part of the step ends: it goes on, it returns, or it throws. -/
inductive Flow where
  | onward
  | returned
  | thrown
  deriving DecidableEq

/-! ## Listing -/

def sendListing (blockIndex : Nat) (reads : Reads) (world : World) :
    World × Flow :=
  let state := world.state
  if state.phase ≠ .pending then (world, .returned)
  else if maxListAttempts ≤ state.listAttempts then
    ({ world with state := { state with phase := .failed } }, .returned)
  else
    let attempt := state.listAttempts + 1
    if reads.listingSend then
      ({ state :=
          { state with
            listAttempts := attempt
            token := some attempt
            listing := some ⟨world.ledger.next, blockIndex⟩
            phase := .listing }
         ledger := world.ledger.send .listing 0 1 }, .returned)
    else
      ({ world with
          state :=
            { state with listAttempts := attempt, token := some attempt } },
        .thrown)

/-- What becomes of a listing that was submitted. -/
def settleListing (blockIndex : Nat) (reads : Reads) (world : World) :
    World × Flow :=
  let state := world.state
  match state.phase, state.listing with
  | .listing, some listing =>
      match receipt world.ledger reads.listingReceipt listing.hash with
      | none =>
          if timedOut blockIndex listing.blockIndex then
            ({ state := { state with listing := none, phase := .pending }
               ledger := world.ledger.abandon listing.hash }, .onward)
          else (world, .returned)
      | some false =>
          if state.token.isSome ∧ reads.listingPool = false then
            (world, .thrown)
          else
            ({ world with
                state := { state with
                    token := none
                    listing := none
                    phase :=
                      if maxListAttempts ≤ state.listAttempts then .failed
                      else .pending } }, .onward)
      | some true =>
          if reads.launchedLog then
            ({ world with
                state := { state with phase := .live, listing := none } },
              .returned)
          else (world, .thrown)
  | _, _ => (world, .onward)

def advanceListing (blockIndex : Nat) (reads : Reads) (world : World) :
    World × Flow :=
  match settleListing blockIndex reads world with
  | (settled, .onward) => sendListing blockIndex reads settled
  | (settled, flow) => (settled, flow)

/-- `settlePending`: it returns where the swap is still waited for. -/
def settlePending (blockIndex : Nat) (reads : Reads) (world : World) :
    World × Flow :=
  let state := world.state
  match state.pending with
  | none => (world, .onward)
  | some pending =>
      match receipt world.ledger reads.pendingReceipt pending.hash with
      | none =>
          if timedOut blockIndex pending.blockIndex then
            ({ state := { state with pending := none }
               ledger := world.ledger.abandon pending.hash }, .onward)
          else (world, .returned)
      | some false =>
          ({ world with state := { state with pending := none } }, .onward)
      | some true =>
          match pending.kind with
          | .buy =>
              ({ world with
                  state := { state with
                      grossBuyUsdc := state.grossBuyUsdc + pending.amountIn
                      pending := none } }, .onward)
          | .sell =>
              let sold := { state with
                  tokensSold := state.tokensSold + pending.amountIn }
              match reads.balanceAfterSell with
              | none => ({ world with state := sold }, .thrown)
              | some usdcNow =>
                  ({ world with
                      state := { sold with
                          sellUsdcReceived := state.sellUsdcReceived +
                              (usdcNow - pending.usdcBefore)
                          pending := none } }, .onward)

def progress (state : TokenLaunchState) : Kind → Nat
  | .listing => if state.phase = .live then 1 else 0
  | .approveUsdc => if state.approvedUsdc then 1 else 0
  | .approveToken => if state.approvedToken then 1 else 0
  | .buy => state.grossBuyUsdc
  | .sell => state.tokensSold

def approved (state : TokenLaunchState) : Side → Bool
  | .buy => state.approvedUsdc
  | .sell => state.approvedToken

/-- The state with the approval of a side sent. -/
def withApproval (state : TokenLaunchState) : Side → TokenLaunchState
  | .buy => { state with approvedUsdc := true }
  | .sell => { state with approvedToken := true }

/-- The approval a swap needs, sent before it; nothing where sending it
throws. -/
def sendApproval (side : Side) (reads : Reads) (world : World) :
    Option World :=
  if approved world.state side then some world
  else if reads.approveSend then
    some
      { state := withApproval world.state side
        ledger := world.ledger.send side.approval 0 1 }
  else none

def sendSwap (side : Side) (amountIn usdcBefore blockIndex : Nat)
    (reads : Reads) (world : World) : World :=
  match reads.quoted with
  | none => world
  | some 0 => world
  | some (_ + 1) =>
      if reads.nonce then
        match sendApproval side reads world with
        | none => world
        | some ready =>
            if reads.swapSend then
              { state :=
                  { ready.state with
                    pending := some
                        { hash := ready.ledger.next
                          blockIndex := blockIndex
                          kind := side
                          amountIn := amountIn
                          usdcBefore := usdcBefore } }
                ledger := ready.ledger.send side.kind
                    (progress ready.state side.kind) amountIn }
            else ready
      else world

variable (config : Config)

/-- `waveTargets`: the buy target and the share to have sold back. -/
def waveTargets (state : TokenLaunchState) (target : TokenLaunchTarget) :
    Nat × ℚ :=
  match state.capStoppedAfter with
  | none => (waveBuyTargetUnits config.launch target, target.sellBackFrac)
  | some stopped =>
      (state.grossBuyUsdc,
        launchSellBackFrac config.launch target.rampIndex stopped
          config.event.holdBlocks config.event.decayBlocks)

/-- The smallest buy that is not rounding. -/
def minDelta : Nat :=
  match waveBlockUsdcUnits config.launch with
  | some block => block * minDeltaBps / 10000
  | none =>
      waveUsdcUnits config.launch * minDeltaBps / 10000 /
        max 1 (rampOf config.event config.launch)

def stepSell (sellBackFrac : ℚ) (usdcNow blockIndex : Nat) (reads : Reads)
    (world : World) : World :=
  if 0 < sellBackFrac ∧ world.state.token.isSome then
    match reads.held with
    | none => world
    | some held =>
        let start := world.state.heldAtDecayStart.getD held
        let begun := { world with
            state := { world.state with heldAtDecayStart := some start } }
        let sellDelta := scaleUnits start sellBackFrac - world.state.tokensSold
        if 0 < sellDelta ∧ start * minDeltaBps / 10000 ≤ sellDelta then
          if 0 < min sellDelta held then
            sendSwap .sell (min sellDelta held) usdcNow blockIndex reads begun
          else begun
        else begun
  else world

/-- The wave of one block, once nothing is pending. -/
def stepWave (blockIndex : Nat) (reads : Reads) (world : World) : World :=
  match reads.usdcNow with
  | none => world
  | some usdcNow =>
      let target := tokenLaunchTargetAt config.event config.launch blockIndex
      let opened := { world with
          state := { world.state with
              waveStartUsdc := some (world.state.waveStartUsdc.getD usdcNow) } }
      let targets := waveTargets config opened.state target
      let buyDelta := targets.1 - opened.state.grossBuyUsdc
      if 0 < buyDelta ∧ minDelta config ≤ buyDelta then
        match reads.price with
        | none => opened
        | some price =>
            let amountIn := min buyDelta usdcNow
            if 0 < amountIn ∧ waveBuyCapped price config.launch = true then
              { opened with
                state := { opened.state with
                    capStoppedAfter := some
                        (capStopRamp config.event config.launch target) } }
            else if 0 < amountIn then
              sendSwap .buy amountIn usdcNow blockIndex reads opened
            else stepSell targets.2 usdcNow blockIndex reads opened
      else stepSell targets.2 usdcNow blockIndex reads opened

def reportClosed (blockIndex : Nat) (world : World) : World :=
  if (tokenLaunchTargetAt config.event config.launch blockIndex).justClosed
  then { world with state := { world.state with closedReported := true } }
  else world

/-- What a launch does in a block after its listing. -/
def stepLive (blockIndex : Nat) (reads : Reads) (world : World) : World :=
  if world.state.phase ≠ .live then world
  else
    match settlePending blockIndex reads world with
    | (settled, .onward) =>
        if config.launch.dud then settled
        else stepWave config blockIndex reads settled
    | (settled, _) => settled

/-- One launch in one block of `stepTokenLaunch`. -/
def stepLaunch (blockIndex : Nat) (reads : Reads) (world : World) : World :=
  if (tokenLaunchTargetAt config.event config.launch blockIndex).listed then
    if world.state.phase = .pending ∨ world.state.phase = .listing then
      match advanceListing blockIndex reads world with
      | (advanced, .thrown) => advanced
      | (advanced, _) =>
          stepLive config blockIndex reads
            (reportClosed config blockIndex advanced)
    else stepLive config blockIndex reads (reportClosed config blockIndex world)
  else world

/-- What happens in a run: a block is processed for every launch, or a
transaction of one launch comes down. -/
inductive Event (Index : Type) where
  | block (blockIndex : Nat) (reads : Index → Reads)
  | land (index : Index) (hash : Nat)
  | revert (index : Index) (hash : Nat)
  | drop (index : Index) (hash : Nat)

variable {Index : Type} [DecidableEq Index]

/-- A transaction in the pool comes down. -/
def comeDown (fate : Fate) (index : Index) (hash : Nat)
    (worlds : Index → World) : Option (Index → World) :=
  let ledger := (worlds index).ledger
  if hash < ledger.next ∧ ledger.fate hash = .flying then
    some (Function.update worlds index
        { worlds index with ledger := ledger.resolve hash fate })
  else none

/-- What an event does to the launches of a run. -/
def happen (configs : Index → Config) (worlds : Index → World) :
    Event Index → Option (Index → World)
  | .block blockIndex reads =>
      some fun index =>
        stepLaunch (configs index) blockIndex (reads index) (worlds index)
  | .land index hash => comeDown .landed index hash worlds
  | .revert index hash => comeDown .reverted index hash worlds
  | .drop index hash => comeDown .dropped index hash worlds

/-- The runs of `stepTokenLaunch` over any order of confirmations, reverts and
late landings. -/
def launchSystem (configs : Index → Config) :
    System (Index → World) (Event Index) where
  initial worlds := ∀ index, worlds index = ⟨stagedState, Ledger.empty⟩
  step worlds event next := happen configs worlds event = some next

end Eris.Launch.TokenLaunch
