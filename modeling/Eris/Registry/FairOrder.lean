import Eris.Foundation.RoundRobin

/-!
# The drain order of a backlog

`core/src/realtime/marketRegistry.ts`.  A backlog is served tier by tier, the
lowest first, and inside a tier one item of each creator per round.  Creators
take their turns in the order in which they first appear.

The order is fair to creators, and a backlog which is kept in it continues
its rotation after any number of items is served.
-/

namespace Eris.Registry.FairOrder

open Foundation Foundation.RoundRobin

variable {Item Tier : Type} [LinearOrder Tier]

/-- The kinds of contracts which the registry publishes. -/
inductive RegistryKind
  | uniswapV3Pool
  | balancerWeightedPool
  | curvePlainPool
  | curveTwocryptoPool
  | lendingMarket
  | erc20
  | unknown
  deriving DecidableEq

/-- Participant entries drain factory-made kinds first, then all others. -/
def kindPriority : RegistryKind → Nat
  | .uniswapV3Pool => 0
  | .balancerWeightedPool => 0
  | .curvePlainPool => 0
  | .curveTwocryptoPool => 0
  | .lendingMarket => 0
  | .erc20 => 1
  | .unknown => 2

/-- The tier an entry drains in: the environment's own listings first. -/
def pendingTier (environment : Bool) (kind : RegistryKind) : Nat :=
  if environment then 0 else 1 + kindPriority kind

variable
  (toLowerCase : String → String)
  (tierOf : Item → Tier) (creatorOf : Item → String)

/-- The key under which the items of a creator queue. -/
def creatorKey (item : Item) : String := toLowerCase (creatorOf item)

/-- Put an item into the queue of its creator. -/
def enter
    (item : Item) (byCreator : Option (InsertionMap String (List Item))) :
    InsertionMap String (List Item) :=
  (byCreator.getD .empty).alter (creatorKey toLowerCase creatorOf item)
    (enqueue item)

/-- The queues of the creators of each tier. -/
def tiers (items : List Item) :
    InsertionMap Tier (InsertionMap String (List Item)) :=
  InsertionMap.gather tierOf (enter toLowerCase creatorOf) items

def fairOrder (items : List Item) : List Item :=
  let tiers := tiers toLowerCase tierOf creatorOf items
  (tiers.keys.insertionSort (· ≤ ·)).flatMap fun tier =>
    match tiers.get tier with
    | some byCreator => rounds byCreator.values
    | none => []

/-- The queues of the tiers, lowest tier first: every queue has items, and
every item is of its tier and creator. -/
structure Backlog where
  tiers : List (Tier × InsertionMap String (List Item))
  ascending : (tiers.map Prod.fst).Pairwise (· < ·)
  filled : ∀ entry ∈ tiers, entry.2.entries ≠ []
  named : ∀ entry ∈ tiers,
      WellNamed (creatorKey toLowerCase creatorOf) entry.2.entries
  tiered :
    ∀ entry ∈ tiers, ∀ item ∈ rounds entry.2.values, tierOf item = entry.1

variable {toLowerCase} {tierOf} {creatorOf}

/-- The items of a backlog, in the order in which they are served. -/
def Backlog.serve
    (backlog : Backlog toLowerCase tierOf creatorOf) : List Item :=
  backlog.tiers.flatMap fun entry => rounds entry.2.values

variable {items : List Item}

omit [LinearOrder Tier] in
theorem accumulate_enter (items : List Item) :
    InsertionMap.accumulate (enter toLowerCase creatorOf) items =
      if items = [] then
        none
      else
        some (queuesOf (creatorKey toLowerCase creatorOf) items) := by
  induction items using List.reverseRecOn with
  | nil => rfl
  | append_singleton items item ih =>
      have snoc :
          queuesOf (creatorKey toLowerCase creatorOf) (items ++ [item]) =
            (queuesOf (creatorKey toLowerCase creatorOf) items).alter
              (creatorKey toLowerCase creatorOf item) (enqueue item) :=
        InsertionMap.gather_snoc item
      rw [InsertionMap.accumulate] at ih ⊢
      rw [List.foldl_append, ih, snoc]
      by_cases nothing : items = []
      · subst nothing
        rfl
      · rw [if_neg nothing, if_neg (by simp)]
        rfl

/-- The tiers of a backlog with their queues. -/
def tierQueues
    (toLowerCase : String → String) (tierOf : Item → Tier)
    (creatorOf : Item → String) (items : List Item) :
    List (Tier × InsertionMap String (List Item)) :=
  ((items.map tierOf).eraseDups.insertionSort (· ≤ ·)).map fun tier =>
    (tier, queuesOf (creatorKey toLowerCase creatorOf)
        (items.filter (tierOf · = tier)))

theorem fairOrder_eq :
    fairOrder toLowerCase tierOf creatorOf items =
      (tierQueues toLowerCase tierOf creatorOf items).flatMap
        fun entry => rounds entry.2.values := by
  have keys_tiers : (tiers toLowerCase tierOf creatorOf items).keys =
        (items.map tierOf).eraseDups :=
    InsertionMap.keys_gather
  have get_tiers (tier : Tier) :
      (tiers toLowerCase tierOf creatorOf items).get tier =
        InsertionMap.accumulate (enter toLowerCase creatorOf)
          (items.filter (tierOf · = tier)) :=
    InsertionMap.get_gather tier
  simp only [fairOrder, tierQueues, keys_tiers, get_tiers, List.flatMap_map]
  apply List.flatMap_congr
  intro tier listed
  rw [List.mem_insertionSort, List.mem_eraseDups] at listed
  rcases List.mem_map.1 listed with ⟨item, member, rfl⟩
  rw [accumulate_enter, if_neg]
  apply List.ne_nil_of_mem
  exact List.mem_filter.2 ⟨member, by simp⟩

def backlogOf
    (toLowerCase : String → String) (tierOf : Item → Tier)
    (creatorOf : Item → String) (items : List Item) :
    Backlog toLowerCase tierOf creatorOf where
  tiers := tierQueues toLowerCase tierOf creatorOf items
  ascending := by
    have same : (tierQueues toLowerCase tierOf creatorOf items).map Prod.fst =
        (items.map tierOf).eraseDups.insertionSort (· ≤ ·) := by
      rw [tierQueues, List.map_map]
      exact List.map_id _
    rw [same]
    have sorted : ((items.map tierOf).eraseDups.insertionSort (· ≤ ·)).Pairwise
          (· ≤ ·) :=
      List.pairwise_insertionSort (· ≤ ·) _
    have distinct :
        ((items.map tierOf).eraseDups.insertionSort (· ≤ ·)).Nodup :=
      (List.perm_insertionSort (· ≤ ·) _).nodup_iff.2
        InsertionMap.nodup_eraseDups
    exact (sorted.and distinct).imp fun both => lt_of_le_of_ne both.1 both.2
  filled := by
    intro entry listed
    rcases List.mem_map.1 listed with ⟨tier, known, rfl⟩
    rw [List.mem_insertionSort, List.mem_eraseDups] at known
    rcases List.mem_map.1 known with ⟨item, member, rfl⟩
    rw [queuesOf_entries]
    apply List.ne_nil_of_mem
    apply List.mem_map_of_mem (List.mem_eraseDups.2 _)
    · exact creatorKey toLowerCase creatorOf item
    · exact List.mem_map_of_mem (List.mem_filter.2 ⟨member, by simp⟩)
  named := by
    intro entry listed
    rcases List.mem_map.1 listed with ⟨tier, known, rfl⟩
    exact queuesOf_wellNamed _
  tiered := by
    intro entry listed item served
    rcases List.mem_map.1 listed with ⟨tier, known, rfl⟩
    have member := (rounds_queuesOf_perm _).mem_iff.1 served
    simpa using (List.mem_filter.1 member).2

theorem fairOrder_eq_serve :
    fairOrder toLowerCase tierOf creatorOf items =
      (backlogOf toLowerCase tierOf creatorOf items).serve :=
  fairOrder_eq

theorem filter_serve
    (entries : List (Tier × InsertionMap String (List Item)))
    (distinct : (entries.map Prod.fst).Nodup)
    (tiered :
      ∀ entry ∈ entries, ∀ item ∈ rounds entry.2.values, tierOf item = entry.1)
    {entry : Tier × InsertionMap String (List Item)}
    (listed : entry ∈ entries) :
    (entries.flatMap fun entry => rounds entry.2.values).filter
        (tierOf · = entry.1) =
      rounds entry.2.values := by
  have none (others : List (Tier × InsertionMap String (List Item))) (tiered :
        ∀ entry ∈ others, ∀ item ∈ rounds entry.2.values, tierOf item = entry.1)
      (absent : entry.1 ∉ others.map Prod.fst) :
      (others.flatMap fun entry => rounds entry.2.values).filter
        (tierOf · = entry.1) = [] := by
    apply List.filter_eq_nil_iff.2
    intro item member
    rcases List.mem_flatMap.1 member with ⟨other, here, served⟩
    rw [decide_eq_true_eq, tiered other here item served]
    intro same
    exact absent (same ▸ List.mem_map_of_mem here)
  induction entries with
  | nil => cases listed
  | cons first rest ih =>
      rw [List.map_cons, List.nodup_cons] at distinct
      have tieredRest : ∀ entry ∈ rest, ∀ item ∈ rounds entry.2.values,
            tierOf item = entry.1 :=
        fun other here => tiered other (List.mem_cons_of_mem _ here)
      rw [List.flatMap_cons, List.filter_append]
      rcases List.mem_cons.1 listed with rfl | later
      · rw [none rest tieredRest distinct.1, List.append_nil]
        apply List.filter_eq_self.2
        intro item served
        simpa using tiered entry List.mem_cons_self item served
      · rw [ih distinct.2 tieredRest later,
          List.filter_eq_nil_iff.2, List.nil_append]
        intro item served
        rw [decide_eq_true_eq, tiered first List.mem_cons_self item served]
        intro same
        exact distinct.1 (same ▸ List.mem_map_of_mem later)

namespace Backlog

variable (backlog : Backlog toLowerCase tierOf creatorOf)

theorem distinct : (backlog.tiers.map Prod.fst).Nodup :=
  backlog.ascending.imp fun less => less.ne

theorem rounds_ne_nil
    {entry : Tier × InsertionMap String (List Item)}
    (listed : entry ∈ backlog.tiers) : rounds entry.2.values ≠ [] := by
  intro nothing
  have keys := eraseDups_rounds entry.2.entries (backlog.named entry listed)
      entry.2.distinct
  have served : rounds (entry.2.entries.map Prod.snd) = [] := nothing
  rw [served, List.map_nil, List.eraseDups_nil] at keys
  exact backlog.filled entry listed (List.map_eq_nil_iff.1 keys.symm)

theorem mem_tiers {tier : Tier} :
    tier ∈ (backlog.serve.map tierOf).eraseDups ↔
      tier ∈ backlog.tiers.map Prod.fst := by
  rw [List.mem_eraseDups, List.mem_map, List.mem_map]
  constructor
  · rintro ⟨item, member, rfl⟩
    rcases List.mem_flatMap.1 member with ⟨entry, listed, served⟩
    exact ⟨entry, listed, (backlog.tiered entry listed item served).symm⟩
  · rintro ⟨entry, listed, rfl⟩
    rcases List.exists_mem_of_ne_nil _ (backlog.rounds_ne_nil listed) with
      ⟨item, served⟩
    exact ⟨item, List.mem_flatMap.2 ⟨entry, listed, served⟩,
      backlog.tiered entry listed item served⟩

theorem tierQueues_serve :
    tierQueues toLowerCase tierOf creatorOf backlog.serve = backlog.tiers := by
  have tiers : (backlog.serve.map tierOf).eraseDups.insertionSort (· ≤ ·) =
      backlog.tiers.map Prod.fst := by
    have perm :
        ((backlog.serve.map tierOf).eraseDups.insertionSort (· ≤ ·)).Perm
          (backlog.tiers.map Prod.fst) :=
      (List.perm_insertionSort _ _).trans
        ((List.perm_ext_iff_of_nodup InsertionMap.nodup_eraseDups
          backlog.distinct).2 fun _ => backlog.mem_tiers)
    exact perm.eq_of_pairwise' (List.pairwise_insertionSort (· ≤ ·) _)
      (backlog.ascending.imp fun less => less.le)
  unfold tierQueues
  rw [tiers, List.map_map]
  refine (List.map_congr_left ?_).trans (List.map_id _)
  intro entry listed
  have served :=
    filter_serve backlog.tiers backlog.distinct backlog.tiered listed
  simp only [Function.comp_apply]
  rw [show backlog.serve.filter (tierOf · = entry.1) = _ from served,
    queuesOf_rounds entry.2 (backlog.named entry listed)]
  rfl

theorem fairOrder_serve :
    fairOrder toLowerCase tierOf creatorOf backlog.serve = backlog.serve := by
  rw [fairOrder_eq, backlog.tierQueues_serve]
  rfl

theorem serve_tail :
    ∃ rest : Backlog toLowerCase tierOf creatorOf,
      backlog.serve.tail = rest.serve := by
  rcases backlog with ⟨tiers, ascending, filled, named, tiered⟩
  cases tiers with
  | nil => exact ⟨⟨[], ascending, filled, named, tiered⟩, rfl⟩
  | cons first rest =>
      rw [List.map_cons, List.pairwise_cons] at ascending
      have filledRest : ∀ entry ∈ rest, entry.2.entries ≠ [] :=
        fun entry listed => filled entry (List.mem_cons_of_mem _ listed)
      have namedRest : ∀ entry ∈ rest,
            WellNamed (creatorKey toLowerCase creatorOf) entry.2.entries :=
        fun entry listed => named entry (List.mem_cons_of_mem _ listed)
      have tieredRest : ∀ entry ∈ rest, ∀ item ∈ rounds entry.2.values,
            tierOf item = entry.1 :=
        fun entry listed => tiered entry (List.mem_cons_of_mem _ listed)
      let whole : Backlog toLowerCase tierOf creatorOf :=
        ⟨first :: rest, List.pairwise_cons.2 ascending, filled, named, tiered⟩
      have someItem : rounds first.2.values ≠ [] :=
        whole.rounds_ne_nil List.mem_cons_self
      rcases rounds_tail first.2 (named first List.mem_cons_self) with
        ⟨queues, namedQueues, isTail⟩
      have tail_eq : whole.serve.tail = rounds queues.values ++
          rest.flatMap fun entry => rounds entry.2.values := by
        rw [Backlog.serve, List.flatMap_cons,
          List.tail_append_of_ne_nil someItem, isTail]
      by_cases served : queues.entries = []
      · refine ⟨⟨rest, ascending.2, filledRest, namedRest, tieredRest⟩, ?_⟩
        have nothing : rounds queues.values = [] := by
          rw [InsertionMap.values, served]
          rfl
        rw [show Backlog.serve _ = whole.serve from rfl, tail_eq, nothing,
          List.nil_append]
        rfl
      · refine ⟨⟨(first.1, queues) :: rest, List.pairwise_cons.2 ascending,
          ?_, ?_, ?_⟩, tail_eq⟩
        · intro entry listed
          rcases List.mem_cons.1 listed with rfl | later
          · exact served
          · exact filledRest entry later
        · intro entry listed
          rcases List.mem_cons.1 listed with rfl | later
          · exact namedQueues
          · exact namedRest entry later
        · intro entry listed
          rcases List.mem_cons.1 listed with rfl | later
          · intro item member
            apply tiered first List.mem_cons_self
            rw [← isTail] at member
            exact List.mem_of_mem_tail member
          · exact tieredRest entry later

theorem serve_drop (count : Nat) :
    ∃ rest : Backlog toLowerCase tierOf creatorOf,
      backlog.serve.drop count = rest.serve := by
  induction count with
  | zero => exact ⟨backlog, rfl⟩
  | succ count ih =>
      rcases ih with ⟨rest, isRest⟩
      rcases rest.serve_tail with ⟨last, isLast⟩
      refine ⟨last, ?_⟩
      rw [← List.tail_drop, isRest, isLast]

theorem serve_sorted :
    backlog.serve.Pairwise fun first second =>
      tierOf first ≤ tierOf second := by
  unfold Backlog.serve
  rw [List.flatMap_def, List.pairwise_flatten]
  constructor
  · intro items listed
    rcases List.mem_map.1 listed with ⟨entry, inside, rfl⟩
    apply List.pairwise_of_forall_mem_list
    intro first firstServed second secondServed
    rw [backlog.tiered entry inside first firstServed,
      backlog.tiered entry inside second secondServed]
  · rw [List.pairwise_map]
    apply List.Pairwise.imp_of_mem _ (List.pairwise_map.1 backlog.ascending)
    intro earlier later listed listedLater less
      first firstServed second secondServed
    rw [backlog.tiered earlier listed first firstServed,
      backlog.tiered later listedLater second secondServed]
    exact less.le

end Backlog

theorem fairOrder_perm :
    (fairOrder toLowerCase tierOf creatorOf items).Perm items := by
  rw [fairOrder_eq, tierQueues, List.flatMap_map]
  have parts : (((items.map tierOf).eraseDups.insertionSort (· ≤ ·)).flatMap
      fun tier => items.filter (tierOf · = tier)).Perm items := by
    apply flatMap_filter_perm
    · exact (List.perm_insertionSort _ _).nodup_iff.2
        InsertionMap.nodup_eraseDups
    · intro item member
      rw [List.mem_insertionSort, List.mem_eraseDups]
      exact List.mem_map_of_mem member
  refine List.Perm.trans ?_ parts
  apply List.Perm.flatMap_left
  intro tier listed
  exact rounds_queuesOf_perm _

variable (toLowerCase) (tierOf) (creatorOf)

/-- How many items of a tier a creator has among given ones. -/
def share (tier : Tier) (creator : String) (items : List Item) : Nat :=
  items.countP fun item =>
    tierOf item = tier ∧ creatorKey toLowerCase creatorOf item = creator

variable {toLowerCase} {tierOf} {creatorOf}

theorem share_eq_count
    (tier : Tier) (creator : String) (items : List Item) :
    share toLowerCase tierOf creatorOf tier creator items =
      ((items.filter (tierOf · = tier)).map
        (creatorKey toLowerCase creatorOf)).count creator := by
  rw [List.count, List.countP_map, List.countP_filter]
  apply List.countP_congr
  intro item member
  simp only [Function.comp_apply, Bool.and_eq_true, beq_iff_eq,
    decide_eq_true_eq]
  exact and_comm

/-- Before an item a creator has at most one more item of its tier than the
creator of the item has. -/
theorem share_before
    {before after : List Item} {item : Item}
    (split :
      fairOrder toLowerCase tierOf creatorOf items = before ++ item :: after)
    (creator : String) :
    share toLowerCase tierOf creatorOf (tierOf item) creator before ≤
      share toLowerCase tierOf creatorOf (tierOf item)
        (creatorKey toLowerCase creatorOf item) before + 1 := by
  rw [share_eq_count, share_eq_count]
  rw [fairOrder_eq_serve] at split
  have member : item ∈ (backlogOf toLowerCase tierOf creatorOf items).serve := by
    rw [split]
    exact List.mem_append_right _ List.mem_cons_self
  rcases List.mem_flatMap.1 member with ⟨entry, listed, served⟩
  have tier :=
    (backlogOf toLowerCase tierOf creatorOf items).tiered entry listed
      item served
  have part := filter_serve (backlogOf toLowerCase tierOf creatorOf items).tiers
      (backlogOf toLowerCase tierOf creatorOf items).distinct
      (backlogOf toLowerCase tierOf creatorOf items).tiered listed
  rw [show List.flatMap _ _ = _ from split, List.filter_append,
    List.filter_cons_of_pos (by simpa using tier), ← tier] at part
  exact count_rounds entry.2
    ((backlogOf toLowerCase tierOf creatorOf items).named entry listed)
    part.symm creator

/-- The drain order is a permutation sorted by tier, in which an item that is
its creator's k-th of a tier is preceded in that tier by at most k items of
any creator, and which is continued when items were served. -/
theorem fairOrder_fair (items : List Item) :
    let served := fairOrder toLowerCase tierOf creatorOf items
    served.Perm items ∧ (served.Pairwise fun first second =>
        tierOf first ≤ tierOf second) ∧
      (∀ before item after creator, served = before ++ item :: after →
          share toLowerCase tierOf creatorOf (tierOf item) creator before ≤ min
              (share toLowerCase tierOf creatorOf (tierOf item) creator items)
              (share toLowerCase tierOf creatorOf (tierOf item)
                (creatorKey toLowerCase creatorOf item) before + 1)) ∧
      ∀ count, fairOrder toLowerCase tierOf creatorOf (served.drop count) =
          served.drop count := by
  intro served
  refine ⟨fairOrder_perm, ?_, ?_, ?_⟩
  · rw [show served = _ from fairOrder_eq_serve]
    exact Backlog.serve_sorted _
  · intro before item after creator split
    apply le_min
    · have perm : (before ++ item :: after).Perm items := split ▸ fairOrder_perm
      unfold share
      rw [← perm.countP_eq, List.countP_append]
      exact Nat.le_add_right _ _
    · exact share_before split creator
  · intro count
    have isServed :
        served = (backlogOf toLowerCase tierOf creatorOf items).serve :=
      fairOrder_eq_serve
    rcases (backlogOf toLowerCase tierOf creatorOf items).serve_drop count with
      ⟨rest, isRest⟩
    rw [isServed, isRest]
    exact rest.fairOrder_serve

/-- A creator with two contracts and one with one, in two tiers. -/
example :
    fairOrder id Prod.fst Prod.snd
        [(1, "a"), (1, "a"), (1, "b"), (0, "e"), (1, "c")] =
      [(0, "e"), (1, "a"), (1, "b"), (1, "c"), (1, "a")] := by
  decide

end Eris.Registry.FairOrder
