import Eris.Foundation.InsertionMap
import Eris.Foundation.Transition

/-!
# The flow wallets over a long period

The flow's wallets are funded once and spend a round of orders in each pass of
the block handler.  In the passes which land on a multiple of the top-up
interval the coordinator checks them, and grants each token below its floor
what it was funded with; the grant is there one pass later.  The interval is
derived from the rounds the floors last.
-/

namespace Eris.Flow.TopUp

open Foundation Foundation.Transition

def FLOW_TELEMETRY_BLOCKS : Int := 300

def FLOW_TOPUP_FLOOR_BPS : Nat := 5000

/-- What a wallet holds; a base it has no entry for counts as nothing. -/
@[ext]
structure FlowWalletHoldings where
  ethWei : Nat
  wethWei : Nat
  usdcUnits : Nat
  bases : String → Nat

structure FlowWalletTargets where
  ethWei : Nat
  wethWei : Nat
  usdcUnits : Nat
  bases : InsertionMap String Nat

/-- What was held of a refilled token, and what it is refilled to. -/
structure Refill where
  heldWei : Nat
  targetWei : Nat
deriving DecidableEq

structure FlowTopUp where
  ethWei : Nat
  wethWei : Nat
  usdcUnits : Nat
  bases : List (String × Nat)
  refilled : List (String × Refill)
deriving DecidableEq

/-- The most of each token a wallet commits in a single round. -/
structure FlowDrainPerRound where
  wethWei : Nat
  usdcUnits : Nat
  bases : InsertionMap String Nat

/-- `funded.bases[symbol] ?? 0n` -/
def FlowWalletTargets.base (target : FlowWalletTargets) (symbol : String) :
    Nat :=
  (target.bases.get symbol).getD 0

def below (held target : Nat) : Bool :=
  decide (0 < target) && decide (held * 10000 < target * FLOW_TOPUP_FLOOR_BPS)

def flowTopUpFloor (target : Nat) : Nat := target * FLOW_TOPUP_FLOOR_BPS / 10000

def FlowWalletTargets.floors (target : FlowWalletTargets) :
    FlowWalletTargets where
  ethWei := flowTopUpFloor target.ethWei
  wethWei := flowTopUpFloor target.wethWei
  usdcUnits := flowTopUpFloor target.usdcUnits
  bases :=
    { entries :=
        target.bases.entries.map fun entry =>
          (entry.1, flowTopUpFloor entry.2)
      distinct := by
        rw [List.map_map]
        exact target.bases.distinct }

/-- The smaller number of rounds, one token counted in. -/
def solventWith (limit : Option Nat) (pair : Nat × Nat) : Option Nat :=
  if pair.2 = 0 ∨ pair.1 = 0 then limit
  else
    match limit with
    | none => some (pair.1 / pair.2)
    | some rounds => some (min (pair.1 / pair.2) rounds)

/-- What is funded and drained of each token the flow spends. -/
def drainPairs (funded : FlowWalletTargets) (drain : FlowDrainPerRound) :
    List (Nat × Nat) :=
  (funded.wethWei, drain.wethWei) :: (funded.usdcUnits, drain.usdcUnits) ::
    drain.bases.entries.map fun entry => (funded.base entry.1, entry.2)

def flowSolventRounds
    (funded : FlowWalletTargets) (drain : FlowDrainPerRound) : Option Nat :=
  (drainPairs funded drain).foldl solventWith none

def flowTopUpIntervalBlocks
    (configuredBlocks : Int) (target : FlowWalletTargets)
    (drain : FlowDrainPerRound) : Int :=
  if configuredBlocks ≤ 0 then configuredBlocks
  else
    match flowSolventRounds target.floors drain with
    | none => configuredBlocks
    | some rounds =>
        let safe : Int := rounds - 1
        if configuredBlocks ≤ safe then configuredBlocks
        else if safe < 1 then 1
        else safe

/-- The refill of one token, when it is below its floor. -/
def mark (symbol : String) (held target : Nat) : List (String × Refill) :=
  if below held target then [(symbol, ⟨held, target⟩)] else []

/-- The bases below their floor; the wrapped native token has its own field. -/
def basesBelow (held : FlowWalletHoldings) (target : FlowWalletTargets) :
    List (String × Nat) :=
  target.bases.entries.filter fun entry =>
    decide (entry.1 ≠ "WETH") && below (held.bases entry.1) entry.2

/-- The plan of a wallet, which may refill nothing. -/
def topUpPlan (held : FlowWalletHoldings) (target : FlowWalletTargets) :
    FlowTopUp where
  ethWei := if below held.ethWei target.ethWei then target.ethWei else 0
  wethWei := if below held.wethWei target.wethWei then target.wethWei else 0
  usdcUnits :=
    if below held.usdcUnits target.usdcUnits then target.usdcUnits else 0
  bases := basesBelow held target
  refilled := mark "ETH" held.ethWei target.ethWei ++
      mark "WETH" held.wethWei target.wethWei ++
      mark "USDC" held.usdcUnits target.usdcUnits ++
      (basesBelow held target).map fun entry =>
        (entry.1, ⟨held.bases entry.1, entry.2⟩)

def planFlowTopUp (held : FlowWalletHoldings) (target : FlowWalletTargets) :
    Option FlowTopUp :=
  if 0 < (topUpPlan held target).refilled.length then
    some (topUpPlan held target)
  else none

/-- A token granted is at its target, another stays as it is. -/
def granted (held amount : Nat) : Nat := if 0 < amount then amount else held

/-- What a wallet holds once its grant is there. -/
def FlowWalletHoldings.landed
    (held : FlowWalletHoldings) (plan : Option FlowTopUp) :
    FlowWalletHoldings :=
  match plan with
  | none => held
  | some plan =>
      { ethWei := granted held.ethWei plan.ethWei
        wethWei := granted held.wethWei plan.wethWei
        usdcUnits := granted held.usdcUnits plan.usdcUnits
        bases := fun symbol =>
          granted (held.bases symbol)
            (((plan.bases.find? (·.1 = symbol)).map Prod.snd).getD 0) }

def FlowWalletHoldings.spend (held spent : FlowWalletHoldings) :
    FlowWalletHoldings where
  ethWei := held.ethWei - spent.ethWei
  wethWei := held.wethWei - spent.wethWei
  usdcUnits := held.usdcUnits - spent.usdcUnits
  bases symbol := held.bases symbol - spent.bases symbol

/-- A round commits at most the cap of each token. -/
structure WithinCaps (spent : FlowWalletHoldings) (drain : FlowDrainPerRound) :
    Prop where
  wethWei : spent.wethWei ≤ drain.wethWei
  usdcUnits : spent.usdcUnits ≤ drain.usdcUnits
  bases : ∀ symbol, spent.bases symbol ≤ (drain.bases.get symbol).getD 0

structure FlowRun where
  runStartBlock : Int
  flowTopUpEveryBlocks : Int
  target : FlowWalletTargets
  drain : FlowDrainPerRound

/-- The interval the wallets are visited on; without top-ups, only looked at. -/
def FlowRun.flowTelemetryEvery (run : FlowRun) : Int :=
  if 0 < run.flowTopUpEveryBlocks then
    flowTopUpIntervalBlocks run.flowTopUpEveryBlocks run.target run.drain
  else FLOW_TELEMETRY_BLOCKS

/-- The pass at a block visits the wallets. -/
def FlowRun.Visits (run : FlowRun) (block : Int) : Prop :=
  run.runStartBlock < block ∧
    (block - run.runStartBlock) % run.flowTelemetryEvery = 0

instance (run : FlowRun) (block : Int) : Decidable (run.Visits block) :=
  inferInstanceAs (Decidable (_ ∧ _))

/--
The wallets after a pass: what each holds, the grants decided and not yet
there, and the rounds since the last visit.
-/
structure FlowWallets (Wallet : Type) where
  block : Int
  held : Wallet → FlowWalletHoldings
  planned : Wallet → Option FlowTopUp
  rounds : Nat

/-- What the next pass finds in a wallet. -/
def FlowWallets.balance
    {Wallet : Type} (wallets : FlowWallets Wallet) (wallet : Wallet) :
    FlowWalletHoldings :=
  (wallets.held wallet).landed (wallets.planned wallet)

/-- A pass at a block, and the round each wallet commits in it. -/
structure FlowPass (Wallet : Type) where
  block : Int
  spent : Wallet → FlowWalletHoldings

section Passes

variable {Wallet : Type} (run : FlowRun)

/-- The wallets as the setup funded them. -/
def FlowWallets.funded : FlowWallets Wallet where
  block := run.runStartBlock - 1
  held _ :=
    { ethWei := run.target.ethWei
      wethWei := run.target.wethWei
      usdcUnits := run.target.usdcUnits
      bases := run.target.base }
  planned _ := none
  rounds := 0

/-- One pass: the grants are there, the round is sent, a visit plans. -/
def FlowWallets.passes
    (wallets : FlowWallets Wallet) (pass : FlowPass Wallet) :
    FlowWallets Wallet where
  block := pass.block
  held wallet := (wallets.balance wallet).spend (pass.spent wallet)
  planned wallet := if run.Visits pass.block ∧ 0 < run.flowTopUpEveryBlocks then
      planFlowTopUp (wallets.balance wallet) run.target
    else none
  rounds := if run.Visits pass.block then 1 else wallets.rounds + 1

/-- The passes of a run; the heads only move on. -/
def flowPasses : System (FlowWallets Wallet) (FlowPass Wallet) where
  initial wallets := wallets = .funded run
  step wallets pass next := wallets.block < pass.block ∧
      (∀ wallet, WithinCaps (pass.spent wallet) run.drain) ∧
      next = wallets.passes run pass

end Passes

end Eris.Flow.TopUp
