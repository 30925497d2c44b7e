import Eris.Markets.Stranded

/-!
# Reading on

What an observation keeps of a watcher: it knows the whole registry, its
ledger nets what moved since each entry was read, and it stays the watcher a
fresh one would be.
-/

namespace Eris.Markets.StrandedLaws

open Foundation Foundation.Transition Watcher Nets Window Stranded

variable {Address : Type} [DecidableEq Address] {config : WatcherConfig Address}
    {watcher fresh : MarketRegistryWatcher Address}
    {since : Address → Option Nat} {view : View Address}

/-- What moved into a market over the blocks scanned since it was read. -/
def movedOver
    (config : WatcherConfig Address) (view : View Address)
    (market token : Address) (first length : Nat) : Int :=
  (((List.range' first length).flatMap view.logs).map
    (flow config.agent market token)).sum

/-- The ledger nets each market over the blocks scanned since it was read. -/
structure Nets
    (config : WatcherConfig Address) (watcher : MarketRegistryWatcher Address)
    (since : Address → Option Nat) (view : View Address) : Prop where
  unread : ∀ market, since market = none →
      market ∉ watcher.markets ∧ ∀ token, netOf watcher.ledger market token = 0
  read : ∀ market first, since market = some first → market ∈ watcher.markets ∧
      first ≤ watcher.start config ∧
      (first < watcher.start config →
        watcher.start config ≤ view.blockNumber + 1) ∧
      ∀ token, netOf watcher.ledger market token =
          movedOver config view market token first
            (watcher.start config - first)

structure Ready
    (config : WatcherConfig Address) (watcher : MarketRegistryWatcher Address)
    (since : Address → Option Nat) (view : View Address) : Prop where
  known : watcher.known <+: view.registry
  markets : watcher.markets = watcher.known.map RegistryEntry.market
  pins : Pins watcher
  opening : config.fromBlock ≤ watcher.start config
  nets : Nets config watcher since view

structure Caught
    (config : WatcherConfig Address) (watcher : MarketRegistryWatcher Address)
    (since : Address → Option Nat) (view : View Address) : Prop where
  ready : Ready config watcher since view
  whole : watcher.known = view.registry
  late : view.blockNumber < watcher.start config

theorem ready_opened :
    Ready config .opened (fun _ => none) view where
  known := List.nil_prefix
  markets := rfl
  pins := ⟨rfl, rfl⟩
  opening := Nat.le_refl _
  nets :=
    { unread := by
        intro market _
        exact ⟨List.not_mem_nil, fun token => rfl⟩
      read := by
        intro market first none
        cases none }

theorem movedOver_extends
    {earlier later : View Address} (extends_ : Extends earlier later)
    {market token : Address} {first length : Nat}
    (inside : 0 < length → first + length ≤ earlier.blockNumber + 1) :
    movedOver config later market token first length =
      movedOver config earlier market token first length := by
  have same : (List.range' first length).flatMap later.logs =
      (List.range' first length).flatMap earlier.logs := by
    apply List.flatMap_congr
    intro block member
    rw [List.mem_range'_1] at member
    have early := inside (by omega)
    exact (extends_.logs block (by omega)).symm
  unfold movedOver
  rw [same]

theorem Caught.ready_later
    {earlier : View Address} (caught : Caught config watcher since earlier)
    (extends_ : Extends earlier view) :
    Ready config watcher since view where
  known := by
    rw [caught.whole]
    exact extends_.registry
  markets := caught.ready.markets
  pins := caught.ready.pins
  opening := caught.ready.opening
  nets :=
    { unread := caught.ready.nets.unread
      read := by
        intro market first read
        rcases caught.ready.nets.read market first read with
          ⟨listed, lower, near, net⟩
        have grown := extends_.blockNumber
        refine ⟨listed, lower, ?_, ?_⟩
        · intro scanned
          have bound := near scanned
          omega
        · intro token
          rw [net token]
          symm
          apply movedOver_extends extends_
          intro positive
          have bound := near (by omega)
          omega }

theorem reads_known (ready : Ready config watcher since view) :
    (watcher.reads config view).known = view.registry := by
  unfold MarketRegistryWatcher.reads
  rw [resumed_of_known ready.known, scans_known, known_of_prefix ready.known]

theorem reads_markets (ready : Ready config watcher since view) :
    (watcher.reads config view).markets =
      view.registry.map RegistryEntry.market := by
  unfold MarketRegistryWatcher.reads
  rw [resumed_of_known ready.known, scans_markets, takes_markets,
    ready.markets, ← List.map_append, ← takes_known,
    known_of_prefix ready.known]

theorem reads_start (ready : Ready config watcher since view) :
    (watcher.reads config view).start config =
      if watcher.start config ≤ view.blockNumber then view.blockNumber + 1
      else watcher.start config := by
  unfold MarketRegistryWatcher.reads
  rw [resumed_of_known ready.known, scans_start]
  rfl

theorem reads_ledger (ready : Ready config watcher since view) :
    (watcher.reads config view).ledger =
      if watcher.start config ≤ view.blockNumber then
        watcher.ledger.apply
          (fetchAgentTransfers view config.agent (watcher.start config)
            view.blockNumber)
          config.agent (view.registry.map RegistryEntry.market)
      else watcher.ledger := by
  have markets := reads_markets ready
  unfold MarketRegistryWatcher.reads at markets ⊢
  rw [resumed_of_known ready.known] at markets ⊢
  rw [scans_markets] at markets
  rw [scans_ledger, markets]
  rfl

theorem reads_pins (ready : Ready config watcher since view) :
    Pins (watcher.reads config view) := by
  have pins : Pins (watcher.takes view) := by
    apply pinned_pinFrom rfl
    · exact ready.pins.creators
    · exact ready.pins.pinned
  unfold MarketRegistryWatcher.reads
  rw [resumed_of_known ready.known]
  unfold MarketRegistryWatcher.scans
  split
  · exact ⟨pins.creators, pins.pinned⟩
  · exact pins

/-- The blocks from which transfers count once a view has been read. -/
def sinceRead
    (config : WatcherConfig Address) (watcher : MarketRegistryWatcher Address)
    (since : Address → Option Nat) (view : View Address)
    (market : Address) : Option Nat :=
  (since market).or (if market ∈ view.registry.map RegistryEntry.market then
      some (watcher.start config)
    else none)

theorem netOf_reads
    (ready : Ready config watcher since view)
    (outside : config.agent ∉ view.registry.map RegistryEntry.market)
    {market : Address}
    (listed : market ∈ view.registry.map RegistryEntry.market)
    (token : Address) :
    netOf (watcher.reads config view).ledger market token =
      netOf watcher.ledger market token +
        movedOver config view market token (watcher.start config)
          ((watcher.reads config view).start config -
            watcher.start config) := by
  rw [reads_ledger ready, reads_start ready]
  split
  · have other : market ≠ config.agent := by
      rintro rfl
      exact outside listed
    rw [netOf_apply outside, if_pos listed]
    unfold fetchAgentTransfers
    rw [sum_fetched other]
    rfl
  · rw [Nat.sub_self]
    exact (add_zero _).symm

theorem movedOver_add
    (market token : Address) {first middle last : Nat}
    (lower : first ≤ middle) (upper : middle ≤ last) :
    movedOver config view market token first (middle - first) +
        movedOver config view market token middle (last - middle) =
      movedOver config view market token first (last - first) := by
  have length : last - first = (middle - first) + (last - middle) := by omega
  have start : middle = first + (middle - first) := by omega
  unfold movedOver
  rw [length, ← List.range'_append_1, ← start, List.flatMap_append,
    List.map_append, List.sum_append]

theorem reads_nets
    (ready : Ready config watcher since view)
    (outside : config.agent ∉ view.registry.map RegistryEntry.market) :
    Nets config (watcher.reads config view)
      (sinceRead config watcher since view) view := by
  have later :
      watcher.start config ≤ (watcher.reads config view).start config := by
    rw [reads_start ready]
    split <;> omega
  have near : watcher.start config < (watcher.reads config view).start config →
      (watcher.reads config view).start config = view.blockNumber + 1 := by
    rw [reads_start ready]
    split <;> omega
  have markets := reads_markets ready
  constructor
  · intro market unread
    rcases Option.or_eq_none_iff.mp unread with ⟨before, unlisted⟩
    have absent : market ∉ view.registry.map RegistryEntry.market := by
      intro listed
      rw [if_pos listed] at unlisted
      cases unlisted
    refine ⟨?_, ?_⟩
    · rw [markets]
      exact absent
    · intro token
      rw [reads_ledger ready]
      split
      · rw [netOf_apply outside, if_neg absent, add_zero]
        exact (ready.nets.unread market before).2 token
      · exact (ready.nets.unread market before).2 token
  · intro market first read
    cases before : since market with
    | some earlier =>
        unfold sinceRead at read
        rw [before] at read
        cases read
        rcases ready.nets.read market first before with
          ⟨listed, lower, bound, net⟩
        have listedNow : market ∈ view.registry.map RegistryEntry.market := by
          rw [ready.markets] at listed
          exact (ready.known.map RegistryEntry.market).subset listed
        refine ⟨?_, by omega, ?_, ?_⟩
        · rw [markets]
          exact listedNow
        · intro scanned
          by_cases same :
              watcher.start config = (watcher.reads config view).start config
          · rw [← same] at scanned ⊢
            exact bound scanned
          · exact (near (by omega)).le
        · intro token
          rw [netOf_reads ready outside listedNow, net token,
            movedOver_add market token lower later]
    | none =>
        unfold sinceRead at read
        rw [before] at read
        have listed : market ∈ view.registry.map RegistryEntry.market := by
          by_contra absent
          rw [if_neg absent] at read
          cases read
        rw [if_pos listed] at read
        cases read
        refine ⟨?_, later, ?_, ?_⟩
        · rw [markets]
          exact listed
        · intro scanned
          exact (near scanned).le
        · intro token
          rw [netOf_reads ready outside listed,
            (ready.nets.unread market before).2 token, zero_add]

theorem caught_reads
    (ready : Ready config watcher since view)
    (outside : config.agent ∉ view.registry.map RegistryEntry.market) :
    Caught config (watcher.reads config view)
      (sinceRead config watcher since view) view where
  ready :=
    { known := by
        rw [reads_known ready]
      markets := by
        rw [reads_markets ready, reads_known ready]
      pins := reads_pins ready
      opening := by
        have before := ready.opening
        rw [reads_start ready]
        split <;> omega
      nets := reads_nets ready outside }
  whole := reads_known ready
  late := by
    rw [reads_start ready]
    split <;> omega

end Eris.Markets.StrandedLaws
