import Mathlib

/-!
# Completion times of a rate-limited queue

Jobs of given sizes are served one after another at a fixed positive rate,
each taking its size divided by the rate, rounded up.  When every completion
lies at least one service time after the previous one, completions never
decrease, and any two of them are apart by at least the time the total size
between them needs: capacity is never booked twice.
-/

namespace Eris.Foundation.ServiceQueue

/-- Whole ticks needed to serve `size` at `rate` per tick. -/
def serviceTime (size rate : Nat) : Nat := (size + rate - 1) / rate

theorem serviceTime_le_iff
    {size rate bound : Nat} (positive : 0 < rate) :
    serviceTime size rate ≤ bound ↔ size ≤ bound * rate := by
  rw [serviceTime, Nat.div_le_iff_le_mul_add_pred positive,
    Nat.mul_comm rate bound]
  omega

theorem serviceTime_add_le
    (first second : Nat) {rate : Nat} (positive : 0 < rate) :
    serviceTime (first + second) rate ≤
      serviceTime first rate + serviceTime second rate := by
  rw [serviceTime_le_iff positive, Nat.add_mul]
  exact Nat.add_le_add ((serviceTime_le_iff positive).mp le_rfl)
    ((serviceTime_le_iff positive).mp le_rfl)

variable {completion size : Nat → Nat} {rate first last : Nat}

/-- Every completion follows the previous one by its own service time. -/
def Spaced
    (completion size : Nat → Nat) (rate first last : Nat) : Prop :=
  ∀ job, first ≤ job → job + 1 ≤ last →
    completion job + serviceTime (size (job + 1)) rate ≤ completion (job + 1)

theorem Spaced.completion_add_le
    (spaced : Spaced completion size rate first last) (positive : 0 < rate)
    {early late : Nat} (afterFirst : first ≤ early) (ordered : early ≤ late)
    (beforeLast : late ≤ last) :
    completion early +
        serviceTime (∑ job ∈ Finset.Ioc early late, size job) rate ≤
      completion late := by
  induction late, ordered using Nat.le_induction with
  | base =>
      have nothing : serviceTime 0 rate = 0 :=
        Nat.le_zero.mp ((serviceTime_le_iff positive).mpr (by simp))
      simp [nothing]
  | succ late ordered ih =>
      have soFar := ih (by omega)
      have next := spaced late (by omega) beforeLast
      have split := serviceTime_add_le
          (∑ job ∈ Finset.Ioc early late, size job) (size (late + 1))
          positive
      rw [Finset.sum_Ioc_succ_top ordered]
      omega

theorem Spaced.completion_mono
    (spaced : Spaced completion size rate first last) (positive : 0 < rate)
    {early late : Nat} (afterFirst : first ≤ early) (ordered : early ≤ late)
    (beforeLast : late ≤ last) :
    completion early ≤ completion late :=
  le_trans (Nat.le_add_right _ _)
    (spaced.completion_add_le positive afterFirst ordered beforeLast)

end Eris.Foundation.ServiceQueue
