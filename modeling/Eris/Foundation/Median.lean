import Mathlib

/-!
# Medians

At most half of some values lie on either side of their median, which the
order of the values does not change.  So where fewer than half of them are
changed, the median stays between two of those which are not.
-/

namespace Eris.Foundation.Median

variable {Number : Type} [LinearOrder Number]

def sorted (values : List Number) : List Number :=
  values.mergeSort fun first second => decide (first ≤ second)

theorem sorted_perm (values : List Number) : (sorted values).Perm values :=
  List.mergeSort_perm _ _

theorem sorted_pairwise (values : List Number) :
    (sorted values).Pairwise (· ≤ ·) :=
  List.pairwise_mergeSort' (· ≤ ·) values

variable {values others : List Number} {limit : Number} {place : ℕ}

theorem sorted_eq_of_perm (same : values.Perm others) :
    sorted values = sorted others :=
  ((sorted_perm values).trans (same.trans (sorted_perm others).symm)).eq_of_pairwise'
    (sorted_pairwise values) (sorted_pairwise others)

theorem countP_above_le
    (ordered : values.Pairwise (· ≤ ·)) (bound : place < values.length)
    (reached : values[place] ≤ limit) :
    values.countP (limit < ·) + place < values.length := by
  have low : (values.take (place + 1)).countP (limit < ·) = 0 := by
    rw [List.countP_eq_zero]
    intro value listed above
    rcases List.mem_take_iff_getElem.1 listed with ⟨index, within, rfl⟩
    have below : values[index] ≤ values[place] :=
      ordered.rel_get_of_le (a := ⟨index, by omega⟩) (b := ⟨place, bound⟩)
        (show index ≤ place by omega)
    exact (below.trans reached).not_gt (of_decide_eq_true above)
  have high := (values.drop (place + 1)).countP_le_length (p := (limit < ·))
  have both := values.take_append_drop (place + 1)
  rw [← both, List.countP_append, low, List.length_append, List.length_take]
  omega

theorem countP_below_le
    (ordered : values.Pairwise (· ≤ ·)) (bound : place < values.length)
    (reached : limit ≤ values[place]) :
    values.countP (· < limit) ≤ place := by
  have high : (values.drop place).countP (· < limit) = 0 := by
    rw [List.countP_eq_zero]
    intro value listed below
    rcases List.mem_drop_iff_getElem.1 listed with ⟨index, within, rfl⟩
    have above : values[place] ≤ values[place + index] :=
      ordered.rel_get_of_le (a := ⟨place, bound⟩)
        (b := ⟨place + index, by omega⟩) (Nat.le_add_right place index)
    exact (reached.trans above).not_gt (of_decide_eq_true below)
  have low := (values.take place).countP_le_length (p := (· < limit))
  have both := values.take_append_drop place
  rw [← both, List.countP_append, high]
  exact low.trans (List.length_take_le _ _)

section Changed

variable {Value : Type}

/-- The places whose values satisfy a predicate. -/
def placesOf (values : List (Option Value)) (p : Value → Bool) : Finset ℕ :=
  (Finset.range values.length).filter fun place =>
    (values[place]?.join.any p) = true

theorem mem_placesOf
    {values : List (Option Value)} {p : Value → Bool} {place : ℕ} :
    place ∈ placesOf values p ↔
      ∃ value, values[place]? = some (some value) ∧ p value = true := by
  simp only [placesOf, Finset.mem_filter, Finset.mem_range, Option.any_eq_true,
    Option.join_eq_some_iff]
  constructor
  · exact fun member => member.2
  · rintro ⟨value, known, holds⟩
    exact ⟨(List.getElem?_eq_some_iff.1 known).1, value, known, holds⟩

theorem card_placesOf (values : List (Option Value)) (p : Value → Bool) :
    (placesOf values p).card = values.reduceOption.countP p := by
  induction values using List.reverseRecOn with
  | nil => rfl
  | append_singleton values last ih =>
      have kept : (Finset.range values.length).filter (fun place =>
              ((values ++ [last])[place]?.join.any p) = true) =
            placesOf values p := by
        refine Finset.filter_congr fun place within => ?_
        rw [List.getElem?_append_left (Finset.mem_range.1 within)]
      rw [placesOf, List.length_append, List.length_singleton,
        Finset.range_add_one, Finset.filter_insert, kept,
        List.getElem?_concat_length, List.reduceOption_append,
        List.countP_append, ← ih]
      cases last with
      | none => simp
      | some value =>
          have fresh : values.length ∉ placesOf values p := by
            simp [placesOf]
          by_cases holds : p value <;> simp [holds, fresh]

/-- Some value which is not changed is not among those of at most half. -/
theorem exists_unchanged
    {before after : List (Option Value)} {changed : Finset ℕ} {p : Value → Bool}
    (few : 2 * changed.card < before.reduceOption.length)
    (kept : ∀ place ∉ changed, after[place]? = before[place]?)
    (half : 2 * after.reduceOption.countP p ≤ after.reduceOption.length) :
    ∃ place ∉ changed, ∃ value, before[place]? = some (some value) ∧
      p value = false := by
  by_contra none
  have covered : ∀ values : List (Option Value),
      (∀ place ∉ changed, values[place]? = before[place]?) →
        values.reduceOption.length ≤
          after.reduceOption.countP p + changed.card := by
    intro values same
    rw [← List.countP_true, ← card_placesOf, ← card_placesOf]
    refine (Finset.card_le_card ?_).trans (Finset.card_union_le _ _)
    intro place member
    by_cases moved : place ∈ changed
    · exact Finset.mem_union_right _ moved
    · rcases mem_placesOf.1 member with ⟨value, known, _⟩
      rw [same place moved] at known
      refine Finset.mem_union_left _ (mem_placesOf.2 ⟨value, ?_, ?_⟩)
      · rw [kept place moved, known]
      · by_contra fails
        exact none
          ⟨place, moved, value, known, Bool.eq_false_of_not_eq_true fails⟩
  have old := covered before fun _ _ => rfl
  have new := covered after kept
  omega

end Changed

section Middle

variable {Number : Type} [Semifield Number] [LinearOrder Number]

def median (values : List Number) : Number :=
  let ordered := sorted values
  let mid := ordered.length / 2
  if ordered.length % 2 = 1 then ordered.getD mid 0
  else (ordered.getD (mid - 1) 0 + ordered.getD mid 0) / 2

variable {values others : List Number}

theorem median_eq_of_perm (same : values.Perm others) :
    median values = median others := by
  rw [median, sorted_eq_of_perm same, median]

theorem median_singleton {value : Number} : median [value] = value := by
  simp [median, sorted]

variable [IsStrictOrderedRing Number]

/-- The two values in the middle, which are one where their count is odd. -/
theorem median_between (filled : values ≠ []) :
    ∃ low high, ∃ (_ : low < (sorted values).length)
      (_ : high < (sorted values).length),
      values.length ≤ 2 * (low + 1) ∧ 2 * high ≤ values.length ∧
        (sorted values)[low] ≤ median values ∧
          median values ≤ (sorted values)[high] := by
  have count := (sorted_perm values).length_eq
  have some := List.length_pos_iff.2 filled
  unfold median
  dsimp only
  split
  · next odd =>
      have within : (sorted values).length / 2 < (sorted values).length := by
        omega
      rw [List.getD_eq_getElem _ _ within]
      exact ⟨_, _, within, within, by omega, by omega, le_rfl, le_rfl⟩
  · next even =>
      have within : (sorted values).length / 2 < (sorted values).length := by
        omega
      have before : (sorted values).length / 2 - 1 < (sorted values).length :=
        by omega
      have rising : (sorted values)[(sorted values).length / 2 - 1] ≤
            (sorted values)[(sorted values).length / 2] :=
        (sorted_pairwise values).rel_get_of_le (a := ⟨_, before⟩)
          (b := ⟨_, within⟩) (Nat.sub_le _ 1)
      rw [List.getD_eq_getElem _ _ before, List.getD_eq_getElem _ _ within]
      refine ⟨_, _, before, within, by omega, by omega, ?_, ?_⟩
      · rw [le_div_iff₀ two_pos, mul_two]
        exact add_le_add_right rising _
      · rw [div_le_iff₀ two_pos, mul_two]
        exact add_le_add_left rising _

theorem half_above (values : List Number) :
    2 * values.countP (median values < ·) ≤ values.length := by
  rcases eq_or_ne values [] with rfl | filled
  · rfl
  rcases median_between filled with ⟨low, _, bound, _, middle, _, reached, _⟩
  have above := countP_above_le (sorted_pairwise values) bound reached
  rw [(sorted_perm values).countP_eq, (sorted_perm values).length_eq] at above
  omega

theorem half_below (values : List Number) :
    2 * values.countP (· < median values) ≤ values.length := by
  rcases eq_or_ne values [] with rfl | filled
  · rfl
  rcases median_between filled with ⟨_, high, _, bound, _, middle, _, reached⟩
  have below := countP_below_le (sorted_pairwise values) bound reached
  rw [(sorted_perm values).countP_eq] at below
  omega

/-- A value lies between two which are not changed. -/
def Between
    (values : List (Option Number)) (changed : Finset ℕ) (value : Number) :
    Prop :=
  (∃ place ∉ changed, ∃ low, values[place]? = some (some low) ∧ low ≤ value) ∧
    ∃ place ∉ changed, ∃ high, values[place]? = some (some high) ∧ value ≤ high

theorem between_median
    {before after : List (Option Number)} {changed : Finset ℕ}
    (few : 2 * changed.card < before.reduceOption.length)
    (kept : ∀ place ∉ changed, after[place]? = before[place]?) :
    after.reduceOption ≠ [] ∧
      Between before changed (median after.reduceOption) := by
  refine ⟨?_, ?_, ?_⟩
  · intro silent
    rcases exists_unchanged (p := fun _ => true) few kept (by simp [silent])
      with ⟨_, _, _, _, impossible⟩
    cases impossible
  · rcases exists_unchanged few kept (half_above _) with
      ⟨place, unchanged, low, known, above⟩
    exact ⟨place, unchanged, low, known, not_lt.1 (of_decide_eq_false above)⟩
  · rcases exists_unchanged few kept (half_below _) with
      ⟨place, unchanged, high, known, below⟩
    exact ⟨place, unchanged, high, known, not_lt.1 (of_decide_eq_false below)⟩

end Middle

end Eris.Foundation.Median
