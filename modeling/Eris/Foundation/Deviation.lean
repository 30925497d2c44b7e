import Mathlib

/-!
# Deviations from the mean

The mean and the variance of a list of numbers in an ordered field.  The
deviations from the mean cancel out; the variance vanishes only where all
numbers are equal; and by the inequality between the square of a sum and the
sum of squares no deviation is larger than `sqrt (n - 1)` times the standard
deviation.
-/

namespace Eris.Foundation.Deviation

variable {Number : Type} [Field Number] [LinearOrder Number]
    [IsStrictOrderedRing Number]

/-- The sum of the values over their number. -/
def mean (values : List Number) : Number :=
  values.foldl (· + ·) 0 / values.length

/-- The mean of the squares of the deviations from a number. -/
def variance (values : List Number) (mu : Number) : Number :=
  values.foldl (fun sum value => sum + (value - mu) * (value - mu)) 0 /
    values.length

variable {values : List Number} {mu : Number}

omit [LinearOrder Number] [IsStrictOrderedRing Number] in
theorem mean_eq : mean values = values.sum / values.length := by
  rw [mean, List.sum_eq_foldl]

/-- The sum of the squares of the deviations from a number. -/
def squares (values : List Number) (mu : Number) : Number :=
  (values.map fun value => (value - mu) ^ 2).sum

omit [LinearOrder Number] [IsStrictOrderedRing Number] in
theorem variance_eq :
    variance values mu = squares values mu / values.length := by
  rw [variance, squares, List.sum_eq_foldl, List.foldl_map]
  simp only [pow_two]

theorem length_pos (filled : values ≠ []) :
    (0 : Number) < values.length := by
  rw [Nat.cast_pos]
  exact List.length_pos_iff.2 filled

theorem sum_eq_length_mul_mean (filled : values ≠ []) :
    values.sum = values.length * mean values := by
  rw [mean_eq, mul_div_cancel₀ _ (length_pos filled).ne']

omit [LinearOrder Number] [IsStrictOrderedRing Number] in
theorem sum_deviations (values : List Number) (mu : Number) :
    (values.map (· - mu)).sum = values.sum - values.length * mu := by
  induction values with
  | nil => simp
  | cons value rest ih =>
      rw [List.map_cons, List.sum_cons, ih, List.sum_cons,
        List.length_cons, Nat.cast_succ]
      ring

theorem sum_deviations_mean (filled : values ≠ []) :
    (values.map (· - mean values)).sum = 0 := by
  rw [sum_deviations, sum_eq_length_mul_mean filled, sub_self]

theorem squares_nonneg : 0 ≤ squares values mu := by
  apply List.sum_nonneg
  intro square listed
  rcases List.mem_map.1 listed with ⟨value, -, rfl⟩
  exact sq_nonneg _

theorem variance_nonneg : 0 ≤ variance values mu := by
  rw [variance_eq]
  exact div_nonneg squares_nonneg (Nat.cast_nonneg _)

theorem squares_eq_zero :
    squares values mu = 0 ↔ ∀ value ∈ values, value = mu := by
  induction values with
  | nil => simp [squares]
  | cons value rest ih =>
      have split : squares (value :: rest) mu =
          (value - mu) ^ 2 + squares rest mu := by
        rw [squares, List.map_cons, List.sum_cons]
        rfl
      rw [split, add_eq_zero_iff_of_nonneg (sq_nonneg _) squares_nonneg,
        ih, List.forall_mem_cons, sq_eq_zero_iff,
        sub_eq_zero]

theorem variance_eq_zero (filled : values ≠ []) :
    variance values (mean values) = 0 ↔
      ∀ first ∈ values, ∀ second ∈ values, first = second := by
  rw [variance_eq, div_eq_zero_iff, or_iff_left (length_pos filled).ne',
    squares_eq_zero]
  constructor
  · intro equal first firstListed second secondListed
    rw [equal first firstListed, equal second secondListed]
  · intro equal value listed
    have constant : ∀ other ∈ values, other = value := fun other member =>
      equal other member value listed
    have sum : values.sum = values.length * value := by
      rw [List.eq_replicate_of_mem constant, List.sum_replicate,
        List.length_replicate, nsmul_eq_mul]
    rw [mean_eq, sum, mul_div_cancel_left₀ _ (length_pos filled).ne']

theorem mean_affine (filled : values ≠ []) (scale shift : Number) :
    mean (values.map fun value => scale * value + shift) =
      scale * mean values + shift := by
  have sum : (values.map fun value => scale * value + shift).sum =
        scale * values.sum + values.length * shift := by
    induction values with
    | nil => simp
    | cons value rest ih =>
        rw [List.map_cons, List.sum_cons, List.sum_cons, List.length_cons,
          Nat.cast_succ]
        by_cases empty : rest = []
        · simp [empty]
        · rw [ih empty]
          ring
  rw [mean_eq, mean_eq, sum, List.length_map, add_div,
    mul_div_cancel_left₀ _ (length_pos filled).ne', mul_div_assoc]

omit [LinearOrder Number] [IsStrictOrderedRing Number] in
theorem variance_affine (scale shift : Number) :
    variance (values.map fun value => scale * value + shift)
        (scale * mu + shift) =
      scale ^ 2 * variance values mu := by
  have stretched : squares (values.map fun value => scale * value + shift)
          (scale * mu + shift) =
        scale ^ 2 * squares values mu := by
    rw [squares, squares, List.map_map, ← List.sum_map_mul_left]
    congr 1
    apply List.map_congr_left
    intro value _
    rw [Function.comp_apply]
    ring
  rw [variance_eq, variance_eq, stretched, List.length_map, mul_div_assoc]

theorem sq_sum_le (numbers : List Number) :
    numbers.sum ^ 2 ≤ numbers.length * (numbers.map (· ^ 2)).sum := by
  have bound := sq_sum_le_card_mul_sum_sq (s := Finset.univ)
      (f := fun place : Fin numbers.length => numbers[place.1])
  rwa [Finset.card_univ, Fintype.card_fin, Fin.sum_univ_getElem,
    Fin.sum_univ_fun_getElem numbers (· ^ 2)] at bound

omit [LinearOrder Number] [IsStrictOrderedRing Number] in
theorem squares_perm
    {others : List Number} (perm : values.Perm others) :
    squares values mu = squares others mu :=
  (perm.map _).sum_eq

/-- The square of a deviation from the mean is at most `n - 1` times the
variance. -/
theorem sq_deviation_le {value : Number} (listed : value ∈ values) :
    (value - mean values) ^ 2 ≤
      (values.length - 1) * variance values (mean values) := by
  have filled : values ≠ [] := List.ne_nil_of_mem listed
  have perm : values.Perm (value :: values.erase value) :=
    List.perm_cons_erase listed
  generalize rest_eq : values.erase value = rest at perm
  have count : (values.length : Number) = rest.length + 1 := by
    rw [perm.length_eq, List.length_cons, Nat.cast_succ]
  have total : squares values (mean values) =
        (value - mean values) ^ 2 + squares rest (mean values) :=
    squares_perm perm
  have cancelled :
      value - mean values + (rest.map (· - mean values)).sum = 0 := by
    rw [← sum_deviations_mean filled, (perm.map (· - mean values)).sum_eq,
      List.map_cons, List.sum_cons]
  have bound := sq_sum_le (rest.map (· - mean values))
  rw [List.length_map, List.map_map] at bound
  have others :
      (value - mean values) ^ 2 ≤ rest.length * squares rest (mean values) := by
    calc
      (value - mean values) ^ 2 =
          (rest.map (· - mean values)).sum ^ 2 := by
        rw [eq_neg_of_add_eq_zero_left cancelled, neg_sq]
      _ ≤ rest.length * squares rest (mean values) := bound
  rw [variance_eq, ← mul_div_assoc, le_div_iff₀ (length_pos filled), total,
    count]
  linarith

end Eris.Foundation.Deviation
