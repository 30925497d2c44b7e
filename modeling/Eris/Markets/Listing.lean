import Eris.Foundation.Paging
import Eris.Markets.Stranded

/-!
# What an observation lists

`sdk/src/agentMarkets.ts`, the entries of an observation, and
`sdk/src/marketRegistry.ts`, `readRegistryEntriesFrom`.  A watcher reads the
entries it does not know page by page, and pins the environment's own listings
among them.  What it lists is what the whole registry gives: the newest
entries and, older than these, the newest of the environment's listings.
-/

namespace Eris.Markets.Listing

open Foundation.Paging Foundation.Transition Watcher Window Stranded

variable {Address : Type} [DecidableEq Address]

def REGISTRY_PAGE_SIZE : Nat := 256

/-- The number of the pages between an index and the end of a registry. -/
def pageCount (first count : Nat) : Nat :=
  (count - first + (REGISTRY_PAGE_SIZE - 1)) / REGISTRY_PAGE_SIZE

/-- The entries from an index on, in pages, and the length of the list. -/
def readRegistryEntriesFrom
    (registry : List (RegistryEntry Address)) (first : Nat) :
    Nat × List (RegistryEntry Address) :=
  let starts := (List.range (pageCount first registry.length)).map fun number =>
      first + number * REGISTRY_PAGE_SIZE
  (registry.length,
    starts.flatMap fun start => page registry start REGISTRY_PAGE_SIZE)

variable (config : WatcherConfig Address)

/-- The entries the registry has beyond those known, read in pages. -/
def takesPages
    (watcher : MarketRegistryWatcher Address) (view : View Address) :
    MarketRegistryWatcher Address :=
  let fresh := (readRegistryEntriesFrom view.registry watcher.known.length).2
  { watcher with
    known := watcher.known ++ fresh
    markets := watcher.markets ++ fresh.map RegistryEntry.market }.pinFrom
    watcher.known.length

/-- The watcher after an observation which reads in pages. -/
def readsPages
    (watcher : MarketRegistryWatcher Address) (view : View Address) :
    MarketRegistryWatcher Address :=
  (takesPages (watcher.resumed view) view).scans config view

/-- The observation of a watcher which reads in pages. -/
def readPages
    (watcher : MarketRegistryWatcher Address) (view : View Address) :
    RegistryObservation Address :=
  (readsPages config watcher view).observation config view

/-- The environment's listings which are older than the window. -/
def olderListings (registry : List (RegistryEntry Address)) : List Nat :=
  (List.range (registry.length - REGISTRY_OBSERVATION_LIMIT)).filter
    (createdBy (environmentCreatorsOf registry) registry)

/--
An observation of the whole registry lists an index: it is one of the newest,
or an environment's listing with fewer newer ones outside the window than
there is room for.
-/
def Lists (registry : List (RegistryEntry Address)) (index : Nat) : Bool :=
  decide (registry.length - REGISTRY_OBSERVATION_LIMIT ≤ index) ||
    createdBy (environmentCreatorsOf registry) registry index && decide
        ((olderListings registry).countP (fun newer => index < newer) <
          REGISTRY_PINNED_LIMIT)

/-- The indices an observation lists, newest first. -/
def listedIndices (registry : List (RegistryEntry Address)) : List Nat :=
  ((List.range registry.length).filter (Lists registry)).reverse

/-- An observation lists what the whole registry gives. -/
structure Exact
    (registry : List (RegistryEntry Address))
    (observation : RegistryObservation Address) : Prop where
  entries : observation.entries.map (fun entry => some entry.entry) =
      (listedIndices registry).map (registry[·]?)
  newestFirst : (listedIndices registry).Pairwise (· > ·)
  dropped : observation.dropped =
      (List.range registry.length).countP fun index =>
        !Lists registry index

/-- A watcher in use and the registry it last saw. -/
structure Watched (Address : Type) where
  watcher : MarketRegistryWatcher Address
  registry : List (RegistryEntry Address)

/-- The observations of a registry which only grows. -/
def growth : System (Watched Address) (View Address) where
  initial watched := watched = ⟨.opened, []⟩
  step watched view next := watched.registry <+: view.registry ∧
      next = ⟨readsPages config watched.watcher view, view.registry⟩

omit [DecidableEq Address] in
theorem readRegistryEntriesFrom_eq
    (registry : List (RegistryEntry Address)) (first : Nat) :
    (readRegistryEntriesFrom registry first).2 = registry.drop first := by
  have sized : (registry.drop first).length ≤
      pageCount first registry.length * REGISTRY_PAGE_SIZE := by
    rw [List.length_drop, pageCount, REGISTRY_PAGE_SIZE]
    omega
  rw [← flatMap_page (registry.drop first) REGISTRY_PAGE_SIZE
    (pageCount first registry.length) sized]
  change (List.map _ _).flatMap _ = _
  rw [List.flatMap_map]
  apply List.flatMap_congr
  intro number _
  rw [page, page, List.drop_drop]

variable
    {config} {watcher : MarketRegistryWatcher Address} {view : View Address}

theorem takesPages_eq : takesPages watcher view = watcher.takes view := by
  unfold takesPages MarketRegistryWatcher.takes
  rw [readRegistryEntriesFrom_eq]

theorem readsPages_eq :
    readsPages config watcher view = watcher.reads config view := by
  rw [readsPages, takesPages_eq]
  rfl

theorem filter_few_after
    {indices : List Nat} (increasing : indices.Pairwise (· < ·)) (room : Nat) :
    indices.filter (fun index =>
          decide (indices.countP (fun later => index < later) < room)) =
      indices.drop (indices.length - room) := by
  induction indices with
  | nil => rw [List.filter_nil, List.drop_nil]
  | cons first rest ih =>
      rw [List.pairwise_cons] at increasing
      have after : (first :: rest).countP (fun later => first < later) =
            rest.length := by
        rw [List.countP_cons_of_neg (by simp), List.countP_eq_length]
        intro later member
        exact decide_eq_true (increasing.1 later member)
      have same : rest.filter (fun index =>
                decide
                  ((first :: rest).countP (fun later => index < later) <
                    room)) =
            rest.filter (fun index =>
                decide (rest.countP (fun later => index < later) < room)) := by
        apply List.filter_congr
        intro index member
        have before := increasing.1 index member
        rw [List.countP_cons_of_neg]
        rw [decide_eq_true_eq]
        omega
      rw [List.filter_cons, after, same, ih increasing.2, List.length_cons]
      by_cases fits : rest.length < room
      · rw [if_pos (decide_eq_true fits),
          Nat.sub_eq_zero_of_le fits.le, Nat.sub_eq_zero_of_le fits]
        rfl
      · rw [if_neg (by simpa using fits), Nat.succ_sub (not_lt.mp fits)]
        rfl

variable {registry : List (RegistryEntry Address)}

omit [DecidableEq Address] in
theorem range_split :
    List.range registry.length =
      List.range (registry.length - REGISTRY_OBSERVATION_LIMIT) ++
        List.range' (registry.length - REGISTRY_OBSERVATION_LIMIT)
          (registry.length -
            (registry.length - REGISTRY_OBSERVATION_LIMIT)) := by
  have joined := @List.range'_append_1 0
      (registry.length - REGISTRY_OBSERVATION_LIMIT)
      (registry.length - (registry.length - REGISTRY_OBSERVATION_LIMIT))
  rw [Nat.zero_add, Nat.add_sub_cancel' (Nat.sub_le _ _)] at joined
  rw [List.range_eq_range', List.range_eq_range', joined]

theorem older_listingsOf :
    (listingsOf registry).filter
        (fun i => decide (i < registry.length - REGISTRY_OBSERVATION_LIMIT)) =
      olderListings registry := by
  unfold listingsOf olderListings
  rw [range_split, List.filter_append, List.filter_append]
  have early : ∀ indices : List Nat,
      (∀ i ∈ indices, i < registry.length - REGISTRY_OBSERVATION_LIMIT) →
        indices.filter (fun i =>
                decide (i < registry.length - REGISTRY_OBSERVATION_LIMIT)) =
            indices := by
    intro indices inside
    rw [List.filter_eq_self]
    intro i member
    exact decide_eq_true (inside i member)
  have late : ((List.range' (registry.length - REGISTRY_OBSERVATION_LIMIT)
        (registry.length -
          (registry.length - REGISTRY_OBSERVATION_LIMIT))).filter
      (createdBy (environmentCreatorsOf registry) registry)).filter (fun i =>
              decide (i < registry.length - REGISTRY_OBSERVATION_LIMIT)) =
        [] := by
    rw [List.filter_eq_nil_iff]
    intro i member
    have inside := List.mem_range'_1.mp (List.mem_filter.mp member).1
    rw [decide_eq_true_eq]
    omega
  rw [late, List.append_nil, early]
  intro i member
  exact List.mem_range.mp (List.mem_filter.mp member).1

theorem filter_lists_older :
    (List.range (registry.length - REGISTRY_OBSERVATION_LIMIT)).filter
        (Lists registry) =
      (olderListings registry).drop
        ((olderListings registry).length - REGISTRY_PINNED_LIMIT) := by
  have increasing : (olderListings registry).Pairwise (· < ·) :=
    List.pairwise_lt_range.filter _
  rw [← filter_few_after increasing]
  unfold olderListings
  rw [List.filter_filter]
  apply List.filter_congr
  intro i member
  have before : ¬registry.length - REGISTRY_OBSERVATION_LIMIT ≤ i :=
    not_le.mpr (List.mem_range.mp member)
  rw [Lists, decide_eq_false before, Bool.false_or, Bool.and_comm]
  rfl

theorem filter_lists_newest :
    (List.range' (registry.length - REGISTRY_OBSERVATION_LIMIT)
        (registry.length -
          (registry.length - REGISTRY_OBSERVATION_LIMIT))).filter
        (Lists registry) =
      List.range' (registry.length - REGISTRY_OBSERVATION_LIMIT)
        (registry.length - (registry.length - REGISTRY_OBSERVATION_LIMIT)) := by
  rw [List.filter_eq_self]
  intro i member
  rw [Lists, decide_eq_true (List.mem_range'_1.mp member).1, Bool.true_or]

theorem listedIndices_eq :
    listedIndices registry =
      (List.range' (registry.length - REGISTRY_OBSERVATION_LIMIT)
          (registry.length -
            (registry.length - REGISTRY_OBSERVATION_LIMIT))).reverse ++
        ((olderListings registry).drop ((olderListings registry).length -
            REGISTRY_PINNED_LIMIT)).reverse := by
  rw [listedIndices, range_split, List.filter_append, filter_lists_older,
    filter_lists_newest, List.reverse_append]

omit [DecidableEq Address] in
theorem map_getElem?_range' (start : Nat) :
    (List.range' start (registry.length - start)).map (registry[·]?) =
      (registry.drop start).map some := by
  apply List.ext_getElem?
  intro i
  rw [List.getElem?_map, List.getElem?_map, List.getElem?_drop]
  by_cases inside : i < registry.length - start
  · rw [List.getElem?_range' inside]
    have within : start + i < registry.length := by omega
    simp [within]
  · have outside : registry.length ≤ start + i := by omega
    rw [List.getElem?_eq_none (by rw [List.length_range']; omega),
      List.getElem?_eq_none outside]
    rfl

theorem window_eq :
    (window registry).map some =
      (listedIndices registry).map (registry[·]?) := by
  have present : ∀ indices : List Nat, (∀ i ∈ indices, i < registry.length) →
      (indices.filterMap fun i => registry[i]?).map some =
        indices.map (registry[·]?) := by
    intro indices
    induction indices with
    | nil => intro _; rfl
    | cons i rest ih =>
        intro inside
        rw [List.forall_mem_cons] at inside
        rw [List.filterMap_cons_some (List.getElem?_eq_getElem inside.1),
          List.map_cons, List.map_cons, ih inside.2,
          List.getElem?_eq_getElem inside.1]
  unfold window
  dsimp only
  rw [older_listingsOf, List.map_append, listedIndices_eq, List.map_append,
    List.map_reverse, List.map_reverse, map_getElem?_range', present]
  intro i member
  have listed := List.mem_of_mem_drop (List.mem_reverse.mp member)
  have early := List.mem_range.mp (List.mem_filter.mp listed).1
  omega

/-- A watcher which has pinned the listings of the registry it saw. -/
structure UpToDate (watched : Watched Address) : Prop where
  known : watched.watcher.known = watched.registry
  pins : Pins watched.watcher

theorem UpToDate.reads
    {watched : Watched Address} (upToDate : UpToDate watched)
    (grown : watched.registry <+: view.registry) :
    UpToDate ⟨readsPages config watched.watcher view, view.registry⟩ := by
  have prefix_ : watched.watcher.known <+: view.registry := by
    rw [upToDate.known]
    exact grown
  have pins : Pins (watched.watcher.takes view) :=
    pinned_pinFrom rfl upToDate.pins.creators upToDate.pins.pinned
  have unfolded : readsPages config watched.watcher view =
      (watched.watcher.takes view).scans config view := by
    rw [readsPages_eq, MarketRegistryWatcher.reads, resumed_of_known prefix_]
  constructor
  · change (readsPages config watched.watcher view).known = view.registry
    rw [unfolded, scans_known, known_of_prefix prefix_]
  · change Pins (readsPages config watched.watcher view)
    rw [unfolded, MarketRegistryWatcher.scans]
    split
    · exact ⟨pins.creators, pins.pinned⟩
    · exact pins

theorem upToDate_of_reachable
    {watched : Watched Address}
    (reachable : (growth config).Reachable System.anything watched) :
    UpToDate watched := by
  apply System.Reachable.invariant _ _ reachable
  · rintro _ rfl
    exact ⟨rfl, rfl, rfl⟩
  · rintro watched view _ upToDate _ ⟨grown, rfl⟩
    exact upToDate.reads grown

theorem entries_observation :
    (watcher.observation config view).entries.map
        (fun entry => some entry.entry) =
      watcher.carried.map some := by
  unfold MarketRegistryWatcher.observation
  rw [List.map_map]
  rfl

theorem UpToDate.exact
    {watched : Watched Address} (upToDate : UpToDate watched) :
    Exact watched.registry (watched.watcher.observation config view) := by
  have carried : watched.watcher.carried = window watched.registry := by
    rw [carried_eq_window upToDate.pins, upToDate.known]
  have lengths := congrArg List.length (@window_eq _ _ watched.registry)
  rw [List.length_map, List.length_map, listedIndices, List.length_reverse,
    ← List.countP_eq_length_filter] at lengths
  constructor
  · rw [entries_observation, carried]
    exact window_eq
  · rw [listedIndices, List.pairwise_reverse]
    exact List.pairwise_lt_range.filter _
  · have parts := @List.length_eq_countP_add_countP _ (Lists watched.registry)
        (List.range watched.registry.length)
    rw [List.length_range] at parts
    have dropped : (watched.watcher.observation config view).dropped =
        watched.registry.length - (window watched.registry).length := by
      rw [← upToDate.known, ← carried_eq_window upToDate.pins]
      rfl
    have rest : (List.range watched.registry.length).countP
          (fun index => decide ¬Lists watched.registry index = true) =
        (List.range watched.registry.length).countP fun index =>
            !Lists watched.registry index := by
      apply List.countP_congr
      intro index _
      cases Lists watched.registry index <;> decide
    rw [dropped, lengths]
    omega

/-- Every observation of a registry which only grows lists what the whole
registry gives. -/
theorem observation_lists
    (config : WatcherConfig Address) {watched : Watched Address}
    (reachable : (growth config).Reachable System.anything watched)
    (view : View Address) (grown : watched.registry <+: view.registry) :
    Exact view.registry (readPages config watched.watcher view) :=
  ((upToDate_of_reachable reachable).reads grown).exact

/-- An entry which a launch wallet created. -/
def launched (market : String) (kind : RegistryKind) : RegistryEntry String where
  market := market
  kind := kind
  creator := "launch"
  token0 := "token"
  token1 := "usdc"
  oracle := "none"
  codehash := 0
  verified := true
  registeredAtBlock := 0
  extra := 0

/-- What a node answers which knows of some entries. -/
def viewOf (registry : List (RegistryEntry String)) : View String where
  blockNumber := 0
  registry := registry
  logs _ := []
  codehash _ := 0
  oracleOwner _ := none
  balanceOf _ _ := 0
  allowance _ _ := 0

/-- A pool is seen a block before the token it was launched with. -/
theorem observation_lists_launch :
    let watched : WatcherConfig String := ⟨"agent", 0, ["usdc"]⟩
    let pool := launched "pool" .uniswapV3Pool
    let token := launched "token" .erc20
    Exact [pool, token]
      (readPages watched (readsPages watched .opened (viewOf [pool]))
        (viewOf [pool, token])) :=
  observation_lists ⟨"agent", 0, ["usdc"]⟩
    ⟨_, rfl, System.Runs.single trivial ⟨List.nil_prefix, rfl⟩⟩
    (viewOf [launched "pool" .uniswapV3Pool, launched "token" .erc20])
    ⟨[launched "token" .erc20], rfl⟩

end Eris.Markets.Listing
