import Mathlib

/-!
# Proportional shares rounded down

An amount is split in proportion to weights, each share rounded down.  The
shares never make up more than the amount, and they fall short of it by fewer
units than there are weights above zero.
-/

namespace Eris.Foundation.Shares

theorem sum_div_add_mod (total : ℕ) (amounts : List ℕ) :
    total * (amounts.map (· / total)).sum + (amounts.map (· % total)).sum =
      amounts.sum := by
  induction amounts with
  | nil => simp
  | cons amount rest ih =>
      have division := Nat.div_add_mod amount total
      rw [List.map_cons, List.sum_cons, List.map_cons, List.sum_cons,
        List.sum_cons, ← ih]
      linarith

variable {weights : List ℕ} {total amount : ℕ}

def share (total amount weight : ℕ) : ℕ := weight * amount / total

theorem share_le {weight : ℕ} (within : amount ≤ total) :
    share total amount weight ≤ weight := by
  rcases Nat.eq_zero_or_pos total with rfl | positive
  · rw [share, Nat.div_zero]
    exact Nat.zero_le _
  · rw [share, Nat.div_le_iff_le_mul_add_pred positive, Nat.mul_comm]
    exact (Nat.mul_le_mul_right weight within).trans (Nat.le_add_right _ _)

theorem sum_shares (whole : weights.sum = total) :
    total * (weights.map (share total amount)).sum +
        (weights.map fun weight => weight * amount % total).sum =
      total * amount := by
  have division := sum_div_add_mod total (weights.map (· * amount))
  rw [List.map_map, List.map_map, List.sum_map_mul_right, List.map_id',
    whole] at division
  exact division

theorem sum_shares_le (whole : weights.sum = total) (positive : 0 < total) :
    (weights.map (share total amount)).sum ≤ amount := by
  have exactly := @sum_shares weights total amount whole
  apply Nat.le_of_mul_le_mul_left _ positive
  omega

theorem sum_remainders (positive : 0 < total) :
    (weights.map fun weight => weight * amount % total).sum +
        weights.countP (0 < ·) ≤
      total * weights.countP (0 < ·) := by
  induction weights with
  | nil => simp
  | cons weight rest ih =>
      rw [List.map_cons, List.sum_cons, List.countP_cons]
      split
      · have below := Nat.mod_lt (weight * amount) positive
        rw [Nat.mul_add]
        omega
      · next none =>
          have zero : weight = 0 := by simpa using none
          rw [zero, Nat.zero_mul, Nat.zero_mod, Nat.add_zero, Nat.zero_add]
          exact ih

theorem lt_sum_shares (whole : weights.sum = total) (positive : 0 < total) :
    amount <
      (weights.map (share total amount)).sum + weights.countP (0 < ·) := by
  have exactly := @sum_shares weights total amount whole
  have left := @sum_remainders weights total amount positive
  have weighed : 0 < weights.countP (0 < ·) := by
    rw [List.countP_pos_iff]
    by_contra absent
    have zero : weights.sum = 0 := by
      apply List.sum_eq_zero
      intro weight member
      by_contra nonzero
      exact absent ⟨weight, member, by simpa using Nat.pos_of_ne_zero nonzero⟩
    omega
  apply @Nat.lt_of_mul_lt_mul_left total
  rw [Nat.mul_add]
  omega

end Eris.Foundation.Shares
