import Eris.Markets.Watcher

/-!
# The window of a registry

An observation has room for the newest entries of the registry and for the
newest of the environment's own listings that are older.  A watcher which
extends its listings entry by entry pins the ones the whole registry gives.
-/

namespace Eris.Markets.Window

open Watcher

variable {Address : Type} [DecidableEq Address]

/-- The entry of an index is by one of some creators. -/
def createdBy
    (creators : Finset Address) (registry : List (RegistryEntry Address))
    (i : Nat) : Bool :=
  match registry[i]? with
  | none => false
  | some entry => decide (entry.creator ∈ creators)

/-- The environment's own listings, by index. -/
def listingsOf (registry : List (RegistryEntry Address)) : List Nat :=
  (List.range registry.length).filter
    (createdBy (environmentCreatorsOf registry) registry)

/--
The entries of a registry which an observation has room for: the newest ones,
and the newest of the environment's own listings that are older.
-/
def window (registry : List (RegistryEntry Address)) :
    List (RegistryEntry Address) :=
  let start := registry.length - REGISTRY_OBSERVATION_LIMIT
  let older := (listingsOf registry).filter fun i => decide (i < start)
  (registry.drop start).reverse ++
    (older.drop (older.length - REGISTRY_PINNED_LIMIT)).reverse.filterMap
      fun i => registry[i]?

/-- The watcher has pinned the listings of the entries it knows. -/
structure Pins (watcher : MarketRegistryWatcher Address) : Prop where
  creators : watcher.environmentCreators = environmentCreatorsOf watcher.known
  pinned : watcher.pinned = listingsOf watcher.known

theorem carried_eq_window
    {watcher : MarketRegistryWatcher Address} (pins : Pins watcher) :
    watcher.carried = window watcher.known := by
  unfold MarketRegistryWatcher.carried window
  rw [pins.pinned]

theorem mem_of_mem_window
    {registry : List (RegistryEntry Address)} {entry : RegistryEntry Address}
    (member : entry ∈ window registry) :
    entry ∈ registry := by
  rcases List.mem_append.mp member with newest | older
  · exact List.mem_of_mem_drop (List.mem_reverse.mp newest)
  · rcases List.mem_filterMap.mp older with ⟨index, _, found⟩
    exact List.mem_of_getElem? found

theorem environmentCreatorsOf_append
    (first second : List (RegistryEntry Address)) :
    environmentCreatorsOf (first ++ second) =
      environmentCreatorsOf first ∪ environmentCreatorsOf second := by
  unfold environmentCreatorsOf
  rw [List.filter_append, List.map_append, List.toFinset_append]

theorem ascendingSet_eq
    {indices sorted : List Nat} (ascending : sorted.Pairwise (· < ·))
    (same : ∀ index, index ∈ indices ↔ index ∈ sorted) :
    ascendingSet indices = sorted := by
  have distinct : (ascendingSet indices).Nodup :=
    (List.perm_insertionSort _ _).nodup_iff.mpr (List.nodup_dedup indices)
  have members : ∀ index, index ∈ ascendingSet indices ↔ index ∈ sorted := by
    intro index
    unfold ascendingSet
    rw [List.mem_insertionSort, List.mem_dedup]
    exact same index
  apply List.Perm.eq_of_pairwise
  · intro first second _ _ below above
    exact Nat.le_antisymm below above
  · exact List.pairwise_insertionSort (· ≤ ·) _
  · exact ascending.imp Nat.le_of_lt
  · apply (List.perm_ext_iff_of_nodup distinct _).mpr members
    exact ascending.imp Nat.ne_of_lt

theorem pairwise_listingsOf (registry : List (RegistryEntry Address)) :
    (listingsOf registry).Pairwise (· < ·) :=
  List.pairwise_lt_range.filter _

theorem createdBy_append
    (creators : Finset Address) (first second : List (RegistryEntry Address))
    {index : Nat} (inside : index < first.length) :
    createdBy creators (first ++ second) index =
      createdBy creators first index := by
  unfold createdBy
  rw [List.getElem?_append_left inside]

theorem pinned_pinFrom
    {watcher : MarketRegistryWatcher Address}
    {read fresh : List (RegistryEntry Address)}
    (known : watcher.known = read ++ fresh)
    (creators : watcher.environmentCreators = environmentCreatorsOf read)
    (pinned : watcher.pinned = listingsOf read) :
    Pins (watcher.pinFrom read.length) := by
  have merged : watcher.environmentCreators ∪
        environmentCreatorsOf (watcher.known.drop read.length) =
      environmentCreatorsOf watcher.known := by
    rw [known, List.drop_left, creators, environmentCreatorsOf_append]
  constructor
  · exact merged
  · change ascendingSet (watcher.pinned ++ List.filter _ _) =
      listingsOf watcher.known
    simp only [merged]
    apply ascendingSet_eq (pairwise_listingsOf _)
    intro index
    change index ∈ watcher.pinned ++ (List.range' _ _).filter
      (createdBy (environmentCreatorsOf watcher.known) watcher.known) ↔ _
    unfold listingsOf
    rw [List.mem_append, List.mem_filter, List.mem_filter, pinned,
      listingsOf, List.mem_filter, List.mem_range, List.mem_range,
      List.mem_range'_1]
    have grown :
        environmentCreatorsOf read ⊆ environmentCreatorsOf watcher.known := by
      rw [known, environmentCreatorsOf_append]
      exact Finset.subset_union_left
    have longer : read.length ≤ watcher.known.length := by
      rw [known, List.length_append]
      omega
    have kept : ∀ held ⊆ environmentCreatorsOf watcher.known,
        index < read.length → createdBy held read index = true →
        createdBy (environmentCreatorsOf watcher.known) watcher.known
          index = true := by
      intro held part inside created
      rw [known, createdBy_append _ _ _ inside, ← known]
      unfold createdBy at created ⊢
      cases found : read[index]? with
      | none =>
          rw [found] at created
          cases created
      | some entry =>
          rw [found] at created
          simp only [decide_eq_true_eq] at created ⊢
          exact part created
    split
    · constructor
      · rintro (⟨inside, created⟩ | ⟨⟨_, inside⟩, created⟩)
        · exact ⟨by omega, kept _ grown inside created⟩
        · exact ⟨by omega, created⟩
      · rintro ⟨inside, created⟩
        exact Or.inr ⟨⟨by omega, by omega⟩, created⟩
    · next same =>
        have equal : environmentCreatorsOf read =
            environmentCreatorsOf watcher.known := by
          apply Finset.eq_of_subset_of_card_le grown
          rw [creators] at same
          omega
        constructor
        · rintro (⟨inside, created⟩ | ⟨⟨_, inside⟩, created⟩)
          · exact ⟨by omega, kept _ grown inside created⟩
          · exact ⟨by omega, created⟩
        · rintro ⟨inside, created⟩
          by_cases early : index < read.length
          · left
            refine ⟨early, ?_⟩
            rw [known, createdBy_append _ _ _ early, ← known, ← equal]
              at created
            exact created
          · right
            exact ⟨⟨by omega, by omega⟩, created⟩

end Eris.Markets.Window
