import Mathlib

/-!
# Sorting with a comparison function

Insertion sort by a total and transitive relation is stable: what is kept of
a sorted list is the sorted kept part.

Sorting an array by a comparison function promises less.  When the function
is consistent on the elements, that is a total preorder, the result is sorted
and stable; otherwise the result is some permutation of the elements.
-/

namespace Eris.Foundation

variable {Item : Type}

namespace StableSort

variable
  {relation : Item → Item → Prop} [DecidableRel relation]
  {item other : Item} {items first second : List Item}

theorem orderedInsert_append
    (before : ∀ other ∈ second, relation item other) :
    (first ++ second).orderedInsert relation item =
      first.orderedInsert relation item ++ second := by
  induction first with
  | nil =>
      cases second with
      | nil => rfl
      | cons other rest =>
          rw [List.nil_append, List.orderedInsert_cons_of_le]
          · rfl
          · exact before other List.mem_cons_self
  | cons other rest ih =>
      rw [List.cons_append, List.orderedInsert, List.orderedInsert]
      split
      · rfl
      · rw [ih, List.cons_append]

theorem insertionSort_append
    (before : ∀ earlier ∈ first, ∀ later ∈ second, relation earlier later) :
    (first ++ second).insertionSort relation =
      first.insertionSort relation ++ second.insertionSort relation := by
  induction first with
  | nil => rfl
  | cons item rest ih =>
      rw [List.cons_append, List.insertionSort_cons, ih (fun earlier member =>
            before earlier (List.mem_cons_of_mem _ member)),
        List.insertionSort_cons]
      apply orderedInsert_append
      intro other member
      exact before item List.mem_cons_self other
        ((List.mem_insertionSort _).1 member)

theorem orderedInsert_front
    (before : ∀ other ∈ items, relation item other) :
    items.orderedInsert relation item = item :: items := by
  have front := @orderedInsert_append Item relation _ item [] items before
  simpa using front

theorem filter_orderedInsert_of_drop
    {keep : Item → Bool} (dropped : ¬ keep item) :
    (items.orderedInsert relation item).filter keep = items.filter keep := by
  induction items with
  | nil => simp [dropped]
  | cons other rest ih =>
      rw [List.orderedInsert_cons]
      split
      · rw [List.filter_cons_of_neg dropped]
      · rw [List.filter_cons, List.filter_cons, ih]

variable [IsTrans Item relation]

theorem filter_orderedInsert_of_keep
    {keep : Item → Bool} (kept : keep item) (sorted : items.Pairwise relation) :
    (items.orderedInsert relation item).filter keep =
      (items.filter keep).orderedInsert relation item := by
  induction items with
  | nil => simp [kept]
  | cons other rest ih =>
      rcases List.pairwise_cons.1 sorted with ⟨first, later⟩
      by_cases before : relation item other
      · rw [List.orderedInsert_cons_of_le _ _ before,
          List.filter_cons_of_pos kept]
        symm
        apply orderedInsert_front
        intro candidate member
        rcases List.mem_cons.1 (List.mem_filter.1 member).1 with
          rfl | inside
        · exact before
        · exact IsTrans.trans _ _ _ before (first candidate inside)
      · rw [List.orderedInsert_of_not_le _ _ before]
        by_cases keptOther : keep other
        · rw [List.filter_cons_of_pos keptOther,
            List.filter_cons_of_pos keptOther,
            List.orderedInsert_of_not_le _ _ before,
            ih later]
        · rw [List.filter_cons_of_neg keptOther,
            List.filter_cons_of_neg keptOther,
            ih later]

theorem filter_insertionSort
    [Std.Total relation] (keep : Item → Bool) :
    (items.filter keep).insertionSort relation =
      (items.insertionSort relation).filter keep := by
  induction items with
  | nil => rfl
  | cons item rest ih =>
      rw [List.insertionSort_cons]
      by_cases kept : keep item
      · rw [filter_orderedInsert_of_keep kept (List.pairwise_insertionSort _ _),
          List.filter_cons_of_pos kept, ← ih,
          List.insertionSort_cons]
      · rw [filter_orderedInsert_of_drop kept, List.filter_cons_of_neg kept, ih]

end StableSort

/-- A comparison function: `lt` when the first element comes first. -/
abbrev Comparison (Item : Type) := Item → Item → Ordering

/-- A comparison function is a total preorder on the elements of a list. -/
structure Consistent
    (compare : Comparison Item) (items : List Item) : Prop where
  swap : ∀ first ∈ items, ∀ second ∈ items,
      compare second first = (compare first second).swap
  trans : ∀ first ∈ items, ∀ second ∈ items, ∀ third ∈ items,
      compare first second ≠ .gt →
        compare second third ≠ .gt → compare first third ≠ .gt

/-- A sort of arrays: always a permutation, and sorted and stable when the
comparison function is consistent. -/
structure ArraySort (Item : Type) where
  sort : Comparison Item → List Item → List Item
  perm : ∀ compare items, (sort compare items).Perm items
  sorted : ∀ compare items, Consistent compare items →
      (sort compare items).Pairwise (compare · · ≠ .gt)
  stable : ∀ compare items, Consistent compare items → ∀ item ∈ items,
      (sort compare items).filter (compare · item = .eq) =
        items.filter (compare · item = .eq)

section Consistent

variable {compare : Comparison Item} {items : List Item}

theorem Consistent.refl
    (consistent : Consistent compare items)
    {item : Item} (listed : item ∈ items) :
    compare item item = .eq := by
  have same := consistent.swap item listed item listed
  cases result : compare item item with
  | eq => rfl
  | lt =>
      rw [result] at same
      cases same
  | gt =>
      rw [result] at same
      cases same

theorem Consistent.eq_symm
    (consistent : Consistent compare items) {first second : Item}
    (firstListed : first ∈ items) (secondListed : second ∈ items)
    (equal : compare first second = .eq) :
    compare second first = .eq := by
  rw [consistent.swap first firstListed second secondListed, equal]
  rfl

theorem Consistent.lt_iff
    (consistent : Consistent compare items) {first second : Item}
    (firstListed : first ∈ items) (secondListed : second ∈ items) :
    compare first second = .lt ↔ compare second first = .gt := by
  rw [consistent.swap first firstListed second secondListed]
  cases compare first second <;> simp

theorem Consistent.of_subset
    {fewer : List Item}
    (consistent : Consistent compare items) (subset : fewer ⊆ items) :
    Consistent compare fewer :=
  ⟨fun first firstListed second secondListed =>
      consistent.swap first (subset firstListed) second (subset secondListed),
    fun first firstListed second secondListed third thirdListed =>
      consistent.trans first (subset firstListed) second
        (subset secondListed) third (subset thirdListed)⟩

theorem Consistent.lt_of_lt_of_le
    (consistent : Consistent compare items) {first second third : Item}
    (firstListed : first ∈ items) (secondListed : second ∈ items)
    (thirdListed : third ∈ items) (less : compare first second = .lt)
    (noGreater : compare second third ≠ .gt) :
    compare first third = .lt := by
  have bound := consistent.trans first firstListed second secondListed third
      thirdListed (by simp [less]) noGreater
  cases result : compare first third with
  | lt => rfl
  | gt => exact (bound result).elim
  | eq =>
      have back := consistent.trans second secondListed third thirdListed first
          firstListed noGreater
          (by
            rw [consistent.eq_symm firstListed thirdListed result]
            simp)
      exact (back ((consistent.lt_iff firstListed secondListed).1 less)).elim

theorem Consistent.lt_of_le_of_lt
    (consistent : Consistent compare items) {first second third : Item}
    (firstListed : first ∈ items) (secondListed : second ∈ items)
    (thirdListed : third ∈ items) (noGreater : compare first second ≠ .gt)
    (less : compare second third = .lt) :
    compare first third = .lt := by
  have bound := consistent.trans first firstListed second secondListed third
      thirdListed noGreater (by simp [less])
  cases result : compare first third with
  | lt => rfl
  | gt => exact (bound result).elim
  | eq =>
      have back := consistent.trans third thirdListed first firstListed second
          secondListed
          (by
            rw [consistent.eq_symm firstListed thirdListed result]
            simp)
          noGreater
      exact (back ((consistent.lt_iff secondListed thirdListed).1 less)).elim

theorem Consistent.of_linearOrder
    {Key : Type} [LinearOrder Key] (keys : List Key) :
    Consistent (fun first second => Ord.compare first second) keys := by
  refine ⟨?_, ?_⟩
  · intro first _ second _
    exact Std.OrientedCmp.eq_swap
  · intro first _ second _ third _ before after
    rw [ne_eq, compare_gt_iff_gt, not_lt] at before after ⊢
    exact before.trans after

theorem Consistent.comap
    {Key : Type} {compareKeys : Comparison Key} {key : Item → Key}
    (consistent : Consistent compareKeys (items.map key)) :
    Consistent
      (fun first second => compareKeys (key first) (key second)) items :=
  ⟨fun first firstListed second secondListed =>
      consistent.swap _ (List.mem_map_of_mem firstListed) _
        (List.mem_map_of_mem secondListed),
    fun first firstListed second secondListed third thirdListed =>
      consistent.trans _ (List.mem_map_of_mem firstListed) _
        (List.mem_map_of_mem secondListed) _
        (List.mem_map_of_mem thirdListed)⟩

theorem Consistent.reverse (consistent : Consistent compare items) :
    Consistent (fun first second => compare second first) items :=
  ⟨fun first firstListed second secondListed =>
      consistent.swap second secondListed first firstListed,
    fun first firstListed second secondListed third thirdListed before after =>
      consistent.trans third thirdListed second secondListed first
        firstListed after before⟩

theorem Consistent.lexicographic
    {next : Comparison Item} (consistent : Consistent compare items)
    (consistentNext : Consistent next items) :
    Consistent (fun first second =>
        (compare first second).then (next first second))
      items := by
  refine ⟨?_, ?_⟩
  · intro first firstListed second secondListed
    rw [consistent.swap first firstListed second secondListed,
      consistentNext.swap first firstListed second secondListed,
      Ordering.swap_then]
  · intro first firstListed second secondListed third thirdListed before after
    cases left : compare first second with
    | gt => simp [left] at before
    | lt =>
        have bound : compare second third ≠ .gt := by
          intro greater
          simp [greater] at after
        simp [consistent.lt_of_lt_of_le firstListed secondListed
          thirdListed left bound]
    | eq =>
        cases right : compare second third with
        | gt => simp [right] at after
        | lt =>
            simp [consistent.lt_of_le_of_lt firstListed secondListed
              thirdListed (by simp [left]) right]
        | eq =>
            have bound := consistent.trans first firstListed second secondListed
                third thirdListed (by simp [left]) (by simp [right])
            rw [left] at before
            rw [right] at after
            cases whole : compare first third with
            | lt => simp
            | gt => exact (bound whole).elim
            | eq =>
                exact consistentNext.trans first firstListed second
                  secondListed third thirdListed before after

/-- The elements of a list, compared no greater. -/
def NoGreater
    (compare : Comparison Item) (items : List Item)
    (first second : { item // item ∈ items }) : Prop :=
  compare first.1 second.1 ≠ .gt

instance : DecidableRel (NoGreater compare items) :=
  fun first second =>
    inferInstanceAs (Decidable (compare first.1 second.1 ≠ .gt))

theorem Consistent.total (consistent : Consistent compare items) :
    Std.Total (NoGreater compare items) := by
  constructor
  intro first second
  by_cases greater : compare first.1 second.1 = .gt
  · right
    intro other
    rw [consistent.swap first.1 first.2 second.1 second.2, greater]
      at other
    cases other
  · exact Or.inl greater

theorem Consistent.isTrans (consistent : Consistent compare items) :
    IsTrans { item // item ∈ items } (NoGreater compare items) :=
  ⟨fun first second third =>
    consistent.trans first.1 first.2 second.1 second.2 third.1 third.2⟩

theorem insertionSort_attach :
    items.insertionSort (compare · · ≠ .gt) =
      (items.attach.insertionSort (NoGreater compare items)).map
        Subtype.val := by
  have mapped := List.map_insertionSort (NoGreater compare items)
      (fun first second => compare first second ≠ .gt) Subtype.val
      items.attach (fun _ _ _ _ => Iff.rfl)
  rw [List.attach_map_subtype_val] at mapped
  exact mapped.symm

end Consistent

theorem ArraySort.eq_of_perm
    (sorting : ArraySort Item) {compare : Comparison Item}
    {items others : List Item} (perm : others.Perm items)
    (consistent : Consistent compare items)
    (ties : ∀ first ∈ items, ∀ second ∈ items,
        compare first second = .eq → first = second) :
    sorting.sort compare others = sorting.sort compare items := by
  have consistentOthers := consistent.of_subset perm.subset
  apply List.Perm.eq_of_pairwise _
    (sorting.sorted compare others consistentOthers)
    (sorting.sorted compare items consistent)
    ((sorting.perm compare others).trans
      (perm.trans (sorting.perm compare items).symm))
  intro first second firstListed secondListed noLater noEarlier
  have firstIn : first ∈ items :=
    perm.subset ((sorting.perm compare others).subset firstListed)
  have secondIn : second ∈ items :=
    (sorting.perm compare items).subset secondListed
  apply ties first firstIn second secondIn
  cases result : compare first second with
  | eq => rfl
  | gt => exact (noLater result).elim
  | lt =>
      exact (noEarlier ((consistent.lt_iff firstIn secondIn).1 result)).elim

theorem ArraySort.filter_eq
    (sorting : ArraySort Item) {compare : Comparison Item}
    {items others : List Item} (consistent : Consistent compare items)
    (consistentOthers : Consistent compare others)
    (same : sorting.sort compare others = sorting.sort compare items)
    {item : Item} (listed : item ∈ items) (listedOther : item ∈ others) :
    others.filter (compare · item = .eq) =
      items.filter (compare · item = .eq) := by
  rw [← sorting.stable compare items consistent item listed,
    ← sorting.stable compare others consistentOthers item listedOther,
    same]

/-- The comparison of strings in a locale, a total preorder. -/
structure Collation where
  localeCompare : Comparison String
  consistent : ∀ ids, Consistent localeCompare ids

/-- The comparison of strings by their characters. -/
def Collation.byCharacters : Collation where
  localeCompare := Ord.compare
  consistent := Consistent.of_linearOrder

def ArraySort.insertion (Item : Type) : ArraySort Item where
  sort compare items := items.insertionSort (compare · · ≠ .gt)
  perm compare items := List.perm_insertionSort _ _
  sorted compare items consistent := by
    have := consistent.total
    have := consistent.isTrans
    rw [insertionSort_attach, List.pairwise_map]
    exact List.pairwise_insertionSort (NoGreater compare items) _
  stable compare items consistent item listed := by
    have := consistent.total
    have := consistent.isTrans
    rw [insertionSort_attach, List.filter_map,
      ← StableSort.filter_insertionSort]
    have tied : (items.attach.filter
        ((fun candidate => decide (compare candidate item = .eq)) ∘
          Subtype.val)).Pairwise (NoGreater compare items) := by
      apply List.pairwise_of_forall_mem_list
      intro first firstKept second secondKept
      have firstEqual := (List.mem_filter.1 firstKept).2
      have secondEqual := (List.mem_filter.1 secondKept).2
      simp only [Function.comp_apply, decide_eq_true_eq]
        at firstEqual secondEqual
      apply consistent.trans first.1 first.2 item listed second.1 second.2
      · simp [firstEqual]
      · rw [consistent.eq_symm second.2 listed secondEqual]
        simp
    rw [tied.insertionSort_eq, ← List.filter_map, List.attach_map_subtype_val]

end Eris.Foundation
