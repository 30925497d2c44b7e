import Mathlib

/-!
# An allowance counted by key

A log is counted under keys, and an entry is refused where it would take its
key over the limit.  A key may be forgotten and start again from nothing, so
that what is held under the limit is each period of a key.  Anything picked
from one period is then under the limit as well.
-/

namespace Eris.Foundation.Allowance

variable {Key : Type} [DecidableEq Key]

/-- An amount, and the key and the period it was counted in. -/
structure Entry (Key : Type) where
  amount : Nat
  period : Option (Key × Nat)

def share (period : Key × Nat) (entry : Entry Key) : Nat :=
  if entry.period = some period then entry.amount else 0

def total (log : List (Entry Key)) (period : Key × Nat) : Nat :=
  (log.map (share period)).sum

@[simp]
theorem total_append_single
    (log : List (Entry Key)) (entry : Entry Key) (period : Key × Nat) :
    total (log ++ [entry]) period = total log period + share period entry := by
  simp [total]

@[simp]
theorem share_uncounted
    (amount : Nat) (period : Key × Nat) :
    share period ⟨amount, none⟩ = 0 := by
  simp [share]

/-- The books agree with the log, and no period is over the limit. -/
structure Kept
    (limit : Int) (spent : Key → Option Nat) (forgotten : Key → Nat)
    (log : List (Entry Key)) : Prop where
  current : ∀ key, total log (key, forgotten key) = (spent key).getD 0
  later : ∀ key count, forgotten key < count → total log (key, count) = 0
  within : ∀ period, (total log period : Int) ≤ limit

section Keeping

variable {limit : Int} {spent : Key → Option Nat} {forgotten : Key → Nat}
    {log : List (Entry Key)}

theorem kept_nil (positive : 0 ≤ limit) :
    Kept limit (fun _ : Key => none) forgotten [] where
  current _ := by simp [total]
  later _ _ _ := by simp [total]
  within _ := by simpa [total] using positive

theorem Kept.uncounted
    (kept : Kept limit spent forgotten log) (amount : Nat) :
    Kept limit spent forgotten (log ++ [⟨amount, none⟩]) where
  current key := by simpa using kept.current key
  later key count after := by simpa using kept.later key count after
  within period := by simpa using kept.within period

theorem Kept.counted
    (kept : Kept limit spent forgotten log) {key : Key} {amount : Nat}
    (room : (((spent key).getD 0 + amount : Nat) : Int) ≤ limit) :
    Kept limit (Function.update spent key (some ((spent key).getD 0 + amount)))
      forgotten (log ++ [⟨amount, some (key, forgotten key)⟩]) where
  current other := by
    have before := kept.current other
    rcases eq_or_ne other key with same | different
    · subst same
      simp [share, before]
    · have apart : key ≠ other := different.symm
      simp [share, before, Function.update_of_ne different, apart]
  later other count after := by
    have before := kept.later other count after
    have apart : (key, forgotten key) ≠ (other, count) := by
      intro same
      rw [Prod.mk.injEq] at same
      rw [← same.1, ← same.2] at after
      exact lt_irrefl _ after
    simp [share, before, apart]
  within period := by
    rw [total_append_single]
    by_cases same : some (key, forgotten key) = some period
    · have before := kept.current key
      rw [Option.some.inj same] at before
      have added : share period ⟨amount, some (key, forgotten key)⟩ = amount :=
        if_pos same
      rw [added, before]
      exact room
    · have added : share period ⟨amount, some (key, forgotten key)⟩ = 0 :=
        if_neg same
      rw [added, Nat.add_zero]
      exact kept.within period

theorem Kept.forget
    (kept : Kept limit spent forgotten log)
    (dropped : Key → Prop) [DecidablePred dropped] :
    Kept limit (fun key => if dropped key then none else spent key)
      (fun key => if dropped key then forgotten key + 1 else forgotten key)
      log where
  current key := by
    by_cases gone : dropped key
    · simpa [gone] using kept.later key _ (Nat.lt_succ_self _)
    · simpa [gone] using kept.current key
  later key count after := by
    apply kept.later key count
    split at after
    · exact Nat.lt_of_succ_lt after
    · exact after
  within := kept.within

end Keeping

theorem total_eq_sum_range
    (log : List (Entry Key)) (period : Key × Nat) :
    total log period = ∑ place ∈ Finset.range log.length,
        ((log[place]?).map (share period)).getD 0 := by
  induction log using List.reverseRecOn with
  | nil => simp [total]
  | append_singleton log entry ih =>
      rw [total_append_single, List.length_append, List.length_singleton,
        Finset.sum_range_succ, ih]
      congr 1
      · apply Finset.sum_congr rfl
        intro place inside
        rw [List.getElem?_append_left (Finset.mem_range.mp inside)]
      · simp

theorem sum_picks_le_total
    {log : List (Entry Key)} {period : Key × Nat} {picks : List (Nat × Nat)}
    (distinct : (picks.map Prod.fst).Nodup)
    (picked : ∀ pick ∈ picks,
        ∃ entry, log[pick.1]? = some entry ∧ pick.2 ≤ entry.amount ∧
          entry.period = some period) :
    (picks.map Prod.snd).sum ≤ total log period := by
  let shareAt : Nat → Nat := fun place =>
    ((log[place]?).map (share period)).getD 0
  have pointwise : ∀ pick ∈ picks, pick.2 ≤ shareAt pick.1 := by
    intro pick listed
    rcases picked pick listed with ⟨entry, found, fits, inPeriod⟩
    simpa [shareAt, found, share, inPeriod] using fits
  have inside : (picks.map Prod.fst).toFinset ⊆ Finset.range log.length := by
    intro place listed
    rcases List.mem_map.mp (List.mem_toFinset.mp listed) with
      ⟨pick, member, rfl⟩
    rcases picked pick member with ⟨entry, found, -⟩
    exact Finset.mem_range.mpr (List.getElem?_eq_some_iff.mp found).1
  calc
    (picks.map Prod.snd).sum ≤ (picks.map (shareAt ∘ Prod.fst)).sum :=
      List.sum_le_sum pointwise
    _ = ((picks.map Prod.fst).map shareAt).sum := by rw [List.map_map]
    _ = ∑ place ∈ (picks.map Prod.fst).toFinset, shareAt place :=
      (List.sum_toFinset shareAt distinct).symm
    _ ≤ ∑ place ∈ Finset.range log.length, shareAt place :=
      Finset.sum_le_sum_of_subset inside
    _ = total log period := (total_eq_sum_range log period).symm

end Eris.Foundation.Allowance
