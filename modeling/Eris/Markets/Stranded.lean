import Eris.Markets.Nets
import Eris.Markets.Window

/-!
# Stranded holdings stay visible

A watcher is compared with a fresh one, made when the registry was last seen
shorter.  As long as the registry grows, the ledger of the fresh watcher holds
what the agent moved into each market since its entry was read.  A watcher
which saw the registry shorter keeps its ledger and the block it has scanned
to; it agrees with the fresh one when nothing was in the ledger and nothing
moves in the blocks it leaves out.
-/

namespace Eris.Markets.Stranded

open Foundation Foundation.Transition Watcher Nets Window

variable {Address : Type} [DecidableEq Address]

/--
A watcher in use, the fresh watcher it is compared with, the block from which
the transfers into a market count, and what was last seen.
-/
structure Watching (Address : Type) where
  watcher : MarketRegistryWatcher Address
  fresh : MarketRegistryWatcher Address
  since : Address → Option Nat
  view : Option (View Address)

def Watching.opened : Watching Address where
  watcher := .opened
  fresh := .opened
  since _ := none
  view := none

/-- The registry has fewer entries than the watcher knows. -/
def Watching.Shorter (watching : Watching Address) (view : View Address) :
    Prop :=
  view.registry.length < watching.watcher.known.length

instance (watching : Watching Address) (view : View Address) :
    Decidable (watching.Shorter view) :=
  inferInstanceAs (Decidable (_ < _))

/-- The fresh watcher an observation is compared with. -/
def Watching.base (watching : Watching Address) (view : View Address) :
    MarketRegistryWatcher Address :=
  if watching.Shorter view then .opened else watching.fresh

variable (config : WatcherConfig Address)

def Watching.observes (watching : Watching Address) (view : View Address) :
    Watching Address where
  watcher := watching.watcher.reads config view
  fresh := (watching.base view).reads config view
  since market :=
    ((if watching.Shorter view then none else watching.since market)).or
      (if market ∈ view.registry.map RegistryEntry.market then
        some ((watching.base view).start config)
      else none)
  view := some view

structure Extends (earlier later : View Address) : Prop where
  blockNumber : earlier.blockNumber ≤ later.blockNumber
  registry : earlier.registry <+: later.registry
  logs : ∀ block ≤ earlier.blockNumber, earlier.logs block = later.logs block

def observations : System (Watching Address) (View Address) where
  initial watching := watching = .opened
  step watching view next := (watching.Shorter view ∨
      ∀ earlier, watching.view = some earlier → Extends earlier view) ∧
      next = watching.observes config view

/-- What the agent moved into a market since its entry was read. -/
def netSince
    (watching : Watching Address) (view : View Address)
    (market token : Address) : Int :=
  match watching.since market with
  | none => 0
  | some start =>
      (((blocksOf start view.blockNumber).flatMap view.logs).map
        (flow config.agent market token)).sum

def Unverified (entries : List (RegistryEntry Address)) (market : Address) :
    Prop :=
  ∃ entry ∈ entries, entry.verified = false ∧ entry.market = market

/-- What is left in a market and still there. -/
def IsStranded
    (watching : Watching Address) (view : View Address)
    (stranded : StrandedFlow Address) : Prop :=
  Unverified view.registry stranded.market ∧
    stranded.token ∈ config.pricedTokens ∧
    0 < stranded.amountRaw ∧
    (stranded.amountRaw : Int) =
      min (view.balanceOf stranded.market stranded.token : Int)
        (netSince config watching view stranded.market stranded.token)

structure Visible (watching : Watching Address) : Prop where
  stranded : ∀ view, watching.view = some view → ∀ stranded,
      stranded ∈ (watching.watcher.observation config view).strandedUnknown ↔
        IsStranded config watching view stranded
  once : ∀ view, watching.view = some view → (accounts
      (watching.watcher.observation config view).strandedUnknown).Nodup
  fresh : ∀ view, watching.view = some view →
      watching.watcher.observation config view =
        watching.fresh.observation config view

/--
Where the registry is seen shorter, the ledger is empty; the blocks a fresh
watcher would scan and this one does not hold no transfer between the agent
and an entry; the agent is no entry; and the unverified entries in which
something of the agent's is left are in its window.
-/
structure InView (watching : Watching Address) (view : View Address) :
    Prop where
  empty : watching.Shorter view → watching.watcher.ledger = .opened
  quiet : ∀ block, (watching.base view).start config ≤ block →
      block < watching.watcher.start config →
      block ≤ view.blockNumber → ∀ log ∈ view.logs block,
          Quiet config.agent (view.registry.map RegistryEntry.market) log
  outside : ∀ entry ∈ view.registry, entry.market ≠ config.agent
  carried : ∀ market, ∀ token ∈ config.pricedTokens,
      Unverified view.registry market →
        0 < netSince config (watching.observes config view) view market token →
        0 < view.balanceOf market token →
          Unverified (window view.registry) market

section Steps

variable
    {config} {watcher : MarketRegistryWatcher Address} {view : View Address}

@[simp]
theorem takes_start :
    (watcher.takes view).start config = watcher.start config :=
  rfl

@[simp]
theorem takes_known :
    (watcher.takes view).known =
      watcher.known ++ view.registry.drop watcher.known.length :=
  rfl

@[simp]
theorem takes_markets :
    (watcher.takes view).markets = watcher.markets ++
        (view.registry.drop watcher.known.length).map RegistryEntry.market :=
  rfl

theorem scans_known : (watcher.scans config view).known = watcher.known := by
  unfold MarketRegistryWatcher.scans
  split <;> rfl

theorem scans_markets :
    (watcher.scans config view).markets = watcher.markets := by
  unfold MarketRegistryWatcher.scans
  split <;> rfl

theorem scans_start :
    (watcher.scans config view).start config =
      if watcher.start config ≤ view.blockNumber then view.blockNumber + 1
      else watcher.start config := by
  unfold MarketRegistryWatcher.scans
  split <;> rfl

theorem scans_ledger :
    (watcher.scans config view).ledger =
      if watcher.start config ≤ view.blockNumber then
        watcher.ledger.apply
          (fetchAgentTransfers view config.agent (watcher.start config)
            view.blockNumber)
          config.agent watcher.markets
      else watcher.ledger := by
  unfold MarketRegistryWatcher.scans
  split <;> rfl

omit [DecidableEq Address] in
theorem resumed_of_known
    (prefix_ : watcher.known <+: view.registry) :
    watcher.resumed view = watcher := by
  unfold MarketRegistryWatcher.resumed
  rw [if_neg (not_lt.mpr prefix_.length_le)]

theorem known_of_prefix
    (prefix_ : watcher.known <+: view.registry) :
    (watcher.takes view).known = view.registry := by
  rcases prefix_ with ⟨rest, whole⟩
  rw [takes_known, ← whole, List.drop_left]

end Steps

end Eris.Markets.Stranded
