import Eris.Markets.StrandedLaws

/-!
# What the observations show

The watcher in use stays the fresh one but for the block it has scanned to, as
long as the blocks it leaves out are quiet.  What it shows is then what the
ledger of the fresh watcher nets, capped by what is there, for the unverified
entries in the window.
-/

namespace Eris.Markets.StrandedRuns

open Foundation Foundation.Transition Watcher Nets Window Stranded StrandedLaws

variable {Address : Type} [DecidableEq Address] {config : WatcherConfig Address}
    {watcher fresh : MarketRegistryWatcher Address}
    {watching : Watching Address} {view : View Address}

/-! ## The watcher in use and the fresh one -/

/-- A watcher is a fresh one which has scanned further. -/
structure Agrees
    (config : WatcherConfig Address)
    (watcher fresh : MarketRegistryWatcher Address) : Prop where
  same :
    watcher = { fresh with scannedThroughBlock := watcher.scannedThroughBlock }
  late : fresh.start config ≤ watcher.start config

omit [DecidableEq Address] in
theorem resumed_start :
    (watcher.resumed view).start config = watcher.start config := by
  unfold MarketRegistryWatcher.resumed
  split <;> rfl

omit [DecidableEq Address] in
theorem base_of_shorter (shorter : watching.Shorter view) :
    watching.base view = .opened :=
  if_pos shorter

omit [DecidableEq Address] in
theorem base_of_grown (grown : ¬watching.Shorter view) :
    watching.base view = watching.fresh :=
  if_neg grown

omit [DecidableEq Address] in
theorem resumed_of_shorter (shorter : watching.Shorter view) :
    watching.watcher.resumed view = watching.watcher.restarted :=
  if_pos shorter

omit [DecidableEq Address] in
theorem resumed_of_grown (grown : ¬watching.Shorter view) :
    watching.watcher.resumed view = watching.watcher :=
  if_neg grown

omit [DecidableEq Address] in
theorem agrees_base
    (agrees : Agrees config watching.watcher watching.fresh)
    (opening : config.fromBlock ≤ watching.fresh.start config)
    (empty : watching.Shorter view → watching.watcher.ledger = .opened) :
    Agrees config (watching.watcher.resumed view) (watching.base view) := by
  have late := agrees.late
  by_cases shorter : watching.Shorter view
  · rw [resumed_of_shorter shorter, base_of_shorter shorter]
    constructor
    · unfold MarketRegistryWatcher.restarted
      rw [empty shorter]
      rfl
    · exact le_trans opening late
  · rw [resumed_of_grown shorter, base_of_grown shorter]
    exact agrees

theorem scans_eq (watcher : MarketRegistryWatcher Address) :
    watcher.scans config view = { watcher with
        ledger := (watcher.scans config view).ledger
        scannedThroughBlock :=
          (watcher.scans config view).scannedThroughBlock } := by
  unfold MarketRegistryWatcher.scans
  split <;> rfl

theorem agrees_reads
    {since : Address → Option Nat}
    (agrees : Agrees config (watcher.resumed view) fresh)
    (ready : Ready config fresh since view)
    (quiet : ∀ block, fresh.start config ≤ block →
        block < watcher.start config → block ≤ view.blockNumber →
          ∀ log ∈ view.logs block,
            Quiet config.agent (view.registry.map RegistryEntry.market) log) :
    Agrees config (watcher.reads config view) (fresh.reads config view) := by
  rcases agrees with ⟨same, late⟩
  rw [resumed_start] at late
  have started : (watcher.resumed view).start config = watcher.start config :=
    resumed_start
  have markets := reads_markets ready
  have ledger := reads_ledger ready
  have freshStart := reads_start ready
  unfold MarketRegistryWatcher.reads at markets ledger freshStart ⊢
  rw [resumed_of_known ready.known] at markets ledger freshStart ⊢
  rw [scans_markets] at markets
  generalize watcher.resumed view = resumed at same started ⊢
  have taken : resumed.takes view = { fresh.takes view with
          scannedThroughBlock := resumed.scannedThroughBlock } := by
    rw [same]
    rfl
  have takenMarkets : (resumed.takes view).markets =
      view.registry.map RegistryEntry.market := by
    rw [taken]
    exact markets
  have takenLedger : (resumed.takes view).ledger = fresh.ledger := by
    rw [taken]
    rfl
  have scanned : ((resumed.takes view).scans config view).ledger =
      ((fresh.takes view).scans config view).ledger := by
    rw [ledger, scans_ledger, takenMarkets, takenLedger, takes_start, started]
    by_cases reached : watcher.start config ≤ view.blockNumber
    · rw [if_pos reached, if_pos (le_trans late reached)]
      symm
      apply apply_fetched_quiet late (by omega)
      intro block lower upper
      exact quiet block lower upper (by omega)
    · rw [if_neg reached]
      split
      · next behind =>
          have skipped := apply_fetched_quiet
              (show fresh.start config ≤ view.blockNumber + 1 by omega)
              (le_refl _)
              (fun block lower upper =>
                quiet block lower (by omega) (by omega))
              fresh.ledger
          rw [skipped]
          unfold fetchAgentTransfers blocksOf
          rw [Nat.sub_self]
          rfl
      · rfl
  constructor
  · rw [scans_eq (fresh.takes view), ← scanned]
    have ended := @scans_eq _ _ config view (resumed.takes view)
    rw [taken] at ended ⊢
    exact ended
  · rw [freshStart, scans_start, takes_start, started]
    split <;> split <;> omega

/-- Where the agent has something, the window shows it. -/
def Shown
    (config : WatcherConfig Address) (watching : Watching Address)
    (view : View Address) : Prop :=
  ∀ market, ∀ token ∈ config.pricedTokens, Unverified view.registry market →
      0 < netSince config watching view market token →
        0 < view.balanceOf market token →
          Unverified (window view.registry) market

structure Kept
    (config : WatcherConfig Address) (watching : Watching Address) :
    Prop where
  unseen : watching.view = none → watching = .opened
  caught : ∀ view, watching.view = some view →
      Caught config watching.fresh watching.since view
  agrees : Agrees config watching.watcher watching.fresh
  shown : ∀ view, watching.view = some view → Shown config watching view

theorem kept_opened : Kept config (.opened : Watching Address) where
  unseen _ := rfl
  caught _ seen := nomatch seen
  agrees := ⟨rfl, Nat.le_refl _⟩
  shown _ seen := nomatch seen

omit [DecidableEq Address] in
theorem not_shorter_opened : ¬(.opened : Watching Address).Shorter view :=
  Nat.not_lt_zero _

theorem ready_base
    (kept : Kept config watching)
    (growth : watching.Shorter view ∨
        ∀ earlier, watching.view = some earlier → Extends earlier view) :
    Ready config (watching.base view) (fun market =>
        if watching.Shorter view then none else watching.since market)
      view := by
  by_cases shorter : watching.Shorter view
  · rw [base_of_shorter shorter]
    simp only [if_pos shorter]
    exact ready_opened
  · rw [base_of_grown shorter]
    simp only [if_neg shorter]
    cases seen : watching.view with
    | none =>
        rw [kept.unseen seen]
        exact ready_opened
    | some earlier =>
        apply (kept.caught earlier seen).ready_later
        rcases growth with short | grown
        · exact absurd short shorter
        · exact grown earlier seen

theorem opening_fresh (kept : Kept config watching) :
    config.fromBlock ≤ watching.fresh.start config := by
  cases seen : watching.view with
  | none =>
      rw [kept.unseen seen]
      exact Nat.le_refl _
  | some earlier => exact (kept.caught earlier seen).ready.opening

theorem kept_step
    {next : Watching Address} (kept : Kept config watching)
    (inView : InView config watching view)
    (step : (observations config).step watching view next) :
    Kept config next := by
  rcases step with ⟨growth, rfl⟩
  have ready := ready_base kept growth
  have outside : config.agent ∉ view.registry.map RegistryEntry.market := by
    intro listed
    rcases List.mem_map.mp listed with ⟨entry, member, same⟩
    exact inView.outside entry member same
  constructor
  · intro unseen
    cases unseen
  · intro seenView seen
    cases seen
    exact caught_reads ready outside
  · apply agrees_reads _ ready inView.quiet
    apply agrees_base kept.agrees (opening_fresh kept) inView.empty
  · intro seenView seen
    cases seen
    exact inView.carried

theorem netSince_eq
    (caught : Caught config watching.fresh watching.since view)
    (market token : Address) :
    netOf watching.fresh.ledger market token =
      netSince config watching view market token := by
  have late := caught.late
  unfold netSince
  cases read : watching.since market with
  | none => exact (caught.ready.nets.unread market read).2 token
  | some first =>
      rcases caught.ready.nets.read market first read with
        ⟨_, lower, near, net⟩
      have length : watching.fresh.start config - first =
          view.blockNumber + 1 - first := by
        by_cases scanned : first < watching.fresh.start config
        · have bound := near scanned
          omega
        · omega
      rw [net token, length]
      rfl

theorem observation_eq (agrees : Agrees config watcher fresh) :
    watcher.observation config view = fresh.observation config view := by
  rw [agrees.same]
  rfl

theorem mem_strandedUnknown {stranded : StrandedFlow Address} :
    stranded ∈ (fresh.observation config view).strandedUnknown ↔
      0 < stranded.amountRaw ∧ Unverified fresh.carried stranded.market ∧
        stranded.token ∈ config.pricedTokens ∧
        (stranded.amountRaw : Int) =
          min (view.balanceOf stranded.market stranded.token : Int)
            (netOf fresh.ledger stranded.market stranded.token) := by
  change stranded ∈ fresh.strandedUnknown config view ↔ _
  unfold MarketRegistryWatcher.strandedUnknown
  rw [mem_clampToBalances]
  simp only [List.mem_filter, mem_outstanding, Bool.and_eq_true,
    decide_eq_true_eq, List.mem_map, Bool.not_eq_eq_eq_not, Bool.not_true]
  constructor
  · rintro ⟨positive, amount, ⟨⟨_, net⟩, ⟨entry, ⟨listed, own⟩, same⟩,
      priced⟩, capped⟩
    refine ⟨positive, ⟨entry, listed, own, same⟩, priced, ?_⟩
    rw [net, capped]
    omega
  · rintro ⟨positive, ⟨entry, listed, own, same⟩, priced, capped⟩
    refine ⟨positive, (netOf fresh.ledger stranded.market stranded.token).toNat,
      ⟨⟨?_, ?_⟩, ⟨entry, ⟨listed, own⟩, same⟩, priced⟩, ?_⟩
    · omega
    · omega
    · omega

theorem nodup_strandedUnknown :
    (accounts (fresh.observation config view).strandedUnknown).Nodup := by
  show (accounts (fresh.strandedUnknown config view)).Nodup
  unfold MarketRegistryWatcher.strandedUnknown
  apply List.Sublist.nodup (accounts_clampToBalances _ _)
  apply List.Sublist.nodup _ (nodup_outstanding fresh.ledger)
  exact List.filter_sublist.map _

theorem visible_of_kept (kept : Kept config watching) :
    Visible config watching := by
  constructor
  · intro view seen stranded
    have caught := kept.caught view seen
    have shown := kept.shown view seen
    have carried : watching.fresh.carried = window view.registry := by
      rw [carried_eq_window caught.ready.pins, caught.whole]
    rw [observation_eq kept.agrees, mem_strandedUnknown,
      netSince_eq caught, carried]
    constructor
    · rintro ⟨positive, ⟨entry, listed, unverified, same⟩, priced, capped⟩
      refine ⟨⟨entry, ?_, unverified, same⟩, priced, positive, capped⟩
      exact mem_of_mem_window listed
    · rintro ⟨unverified, priced, positive, capped⟩
      refine ⟨positive, ?_, priced, capped⟩
      apply shown _ _ priced unverified <;> omega
  · intro view seen
    rw [observation_eq kept.agrees]
    exact nodup_strandedUnknown
  · intro view seen
    exact observation_eq kept.agrees

/--
As long as every observation is in view, what the agent has left in each
unverified entry is shown, and the observations are those of a watcher made
when the registry was last shorter.
-/
theorem strandedUnknown_visible
    (config : WatcherConfig Address) {watching : Watching Address}
    (reachable : (observations config).Reachable (InView config) watching) :
    Visible config watching := by
  apply visible_of_kept
  apply @System.Reachable.invariant _ _ _ _ (Kept config) _ _ _ reachable
  · rintro start rfl
    exact kept_opened
  · intro source label target kept allowed step
    exact kept_step kept allowed step

/-! ## Some runs -/

def exampleConfig : WatcherConfig Nat where
  agent := 0
  fromBlock := 10
  pricedTokens := [7]

def exampleEntry (market : Nat) : RegistryEntry Nat where
  market := market
  kind := .unknown
  creator := 1000 + market
  token0 := 0
  token1 := 0
  oracle := 0
  codehash := 0
  verified := false
  registeredAtBlock := 10
  extra := 0

/-- The agent moves one hundred of a token into the first market. -/
def exampleDeposit (market : Nat) : TransferLog Nat where
  address := 7
  topics := 3
  sender := some 0
  recipient := some market
  value := some 100

def exampleView
    (blockNumber entries depositBlock : Nat) : View Nat where
  blockNumber := blockNumber
  registry := (List.range entries).map fun index => exampleEntry (index + 1)
  logs block := if block = depositBlock then [exampleDeposit 1] else []
  codehash _ := 0
  oracleOwner _ := none
  balanceOf _ _ := 100
  allowance _ _ := 0

/-- An entry read, the registry seen without it, and with it once more. -/
def exampleReverted : Watching Nat :=
  ((Watching.opened.observes exampleConfig (exampleView 10 1 12)).observes
    exampleConfig (exampleView 10 0 12)).observes exampleConfig
      (exampleView 12 1 12)

theorem exampleView_inView
    {watching : Watching Nat} {entries block : Nat}
    (few : entries ≤ REGISTRY_OBSERVATION_LIMIT)
    (empty : watching.watcher.ledger = .opened)
    (level : watching.watcher.start exampleConfig ≤
        (watching.base (exampleView block entries 12)).start exampleConfig ∨
        block < 12) :
    InView exampleConfig watching (exampleView block entries 12) where
  empty _ := empty
  quiet := by
    intro number lower upper mined log logged
    rcases level with caught | early
    · omega
    · have silent : number ≠ 12 := by
        have inside : number ≤ block := mined
        omega
      change log ∈ (if number = 12 then [exampleDeposit 1] else []) at logged
      rw [if_neg silent] at logged
      cases logged
  outside := by
    intro entry listed
    rcases List.mem_map.mp listed with ⟨index, _, rfl⟩
    exact Nat.succ_ne_zero index
  carried := by
    rintro market token _ ⟨entry, listed, unverified, same⟩ _ _
    refine ⟨entry, ?_, unverified, same⟩
    have start : (exampleView block entries 12).registry.length -
          REGISTRY_OBSERVATION_LIMIT =
        0 := by
      unfold exampleView
      rw [List.length_map, List.length_range]
      omega
    unfold Window.window
    rw [start]
    exact List.mem_append_left _ (List.mem_reverse.mpr listed)

/-- What the agent moved in after the registry was shorter is shown. -/
theorem exampleReverted_visible :
    Visible exampleConfig exampleReverted ∧
      (exampleReverted.watcher.observation exampleConfig
        (exampleView 12 1 12)).strandedUnknown =
        [⟨1, 7, 100⟩] := by
  constructor
  · apply strandedUnknown_visible
    refine ⟨.opened, rfl, ?_⟩
    have first :
        (observations exampleConfig).Runs (InView exampleConfig) .opened
          (Watching.opened.observes exampleConfig (exampleView 10 1 12)) := by
      apply Relation.ReflTransGen.single
      refine ⟨exampleView 10 1 12, ?_, Or.inr ?_, rfl⟩
      · apply exampleView_inView (by decide) rfl
        exact Or.inl (by decide)
      · intro earlier seen
        cases seen
    have second := first.tail ⟨exampleView 10 0 12,
        exampleView_inView (by decide) rfl (Or.inr (by decide)),
        Or.inl (by decide), rfl⟩
    apply second.tail
    refine ⟨exampleView 12 1 12, ?_, Or.inr ?_, rfl⟩
    · apply exampleView_inView (by decide) rfl
      exact Or.inl (by decide)
    · intro earlier seen
      cases seen
      exact ⟨by decide, List.nil_prefix, fun _ _ => rfl⟩
  · decide

/-- One deposit, then as many newer entries as the window has room for. -/
def exampleHidden : Watching Nat :=
  (Watching.opened.observes exampleConfig (exampleView 10 1 10)).observes
    exampleConfig (exampleView 11 129 10)

/-- One deposit, then a shorter registry on a chain without it. -/
def exampleKept : Watching Nat :=
  (Watching.opened.observes exampleConfig (exampleView 10 2 10)).observes
    exampleConfig (exampleView 10 1 99)

/--
Newer entries hide what is left in an older one; and a watcher which saw the
registry shorter still shows what was moved on the chain that went back.
-/
theorem exampleHidden_not_visible :
    ((observations exampleConfig).Reachable (fun watching view =>
          ¬watching.Shorter view ∧
            ∀ entry ∈ view.registry, entry.market ≠ exampleConfig.agent)
        exampleHidden ∧
      IsStranded exampleConfig exampleHidden (exampleView 11 129 10)
        ⟨1, 7, 100⟩ ∧
      (exampleHidden.watcher.observation exampleConfig
        (exampleView 11 129 10)).strandedUnknown = []) ∧
    ((observations exampleConfig).Reachable (fun _ view =>
          ∀ entry ∈ view.registry, entry.market ≠ exampleConfig.agent)
        exampleKept ∧
      (exampleKept.watcher.observation exampleConfig
        (exampleView 10 1 99)).strandedUnknown = [⟨1, 7, 100⟩] ∧
      (exampleKept.fresh.observation exampleConfig
        (exampleView 10 1 99)).strandedUnknown = []) := by
  have outside : ∀ blockNumber entries depositBlock,
      ∀ entry ∈ (exampleView blockNumber entries depositBlock).registry,
        entry.market ≠ exampleConfig.agent := by
    intro blockNumber entries depositBlock entry listed
    rcases List.mem_map.mp listed with ⟨index, _, rfl⟩
    exact Nat.succ_ne_zero index
  have opened : ∀ view : View Nat, ∀ earlier,
        (Watching.opened : Watching Nat).view = some earlier →
          Extends earlier view :=
    fun _ _ seen => nomatch seen
  refine ⟨⟨?_, ?_, ?_⟩, ?_, ?_, ?_⟩
  · refine ⟨.opened, rfl, ?_⟩
    have first := (Relation.ReflTransGen.refl
        (r := (observations exampleConfig).Moves fun watching view =>
          ¬watching.Shorter view ∧
            ∀ entry ∈ view.registry, entry.market ≠ exampleConfig.agent)
        (a := Watching.opened)).tail
        ⟨exampleView 10 1 10, ⟨not_shorter_opened, outside 10 1 10⟩,
          Or.inr (opened _), rfl⟩
    apply first.tail
    refine ⟨exampleView 11 129 10, ⟨?_, outside 11 129 10⟩, Or.inr ?_, rfl⟩
    · decide +kernel
    · intro earlier seen
      cases seen
      refine ⟨by decide, ⟨_, rfl⟩, fun _ _ => rfl⟩
  · refine ⟨⟨exampleEntry 1, ?_, rfl, rfl⟩, ?_, ?_, ?_⟩ <;> decide +kernel
  · decide +kernel
  · refine ⟨.opened, rfl, ?_⟩
    have first := (Relation.ReflTransGen.refl
        (r := (observations exampleConfig).Moves fun _ view =>
          ∀ entry ∈ view.registry, entry.market ≠ exampleConfig.agent)
        (a := Watching.opened)).tail
        ⟨exampleView 10 2 10, outside 10 2 10, Or.inr (opened _), rfl⟩
    apply first.tail
    refine ⟨exampleView 10 1 99, outside 10 1 99, Or.inl ?_, rfl⟩
    decide
  · decide
  · decide

end Eris.Markets.StrandedRuns
