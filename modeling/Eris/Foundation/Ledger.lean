import Mathlib

/-!
# Totals of finite ledgers

A ledger assigns an amount to every index of a finite type.  The lemmas below
describe how its total reacts when one entry, or a pair of entries, is
rewritten.  They are stated additively, without subtraction, so that they
apply to every commutative monoid of amounts and feed linear arithmetic
directly.
-/

namespace Eris.Foundation.Ledger

variable {Index Amount : Type} [Fintype Index]

theorem entry_le_total
    (ledger : Index → Nat) (index : Index) :
    ledger index ≤ ∑ index, ledger index :=
  Finset.single_le_sum (fun _ _ => Nat.zero_le _) (Finset.mem_univ index)

variable [DecidableEq Index] [AddCommMonoid Amount]

theorem total_of_eq_off
    (changed : Index) (before after : Index → Amount)
    (same : ∀ index, index ≠ changed → after index = before index) :
    ∑ index, after index + before changed =
      ∑ index, before index + after changed := by
  rw [← Finset.add_sum_erase Finset.univ after (Finset.mem_univ changed),
    ← Finset.add_sum_erase Finset.univ before (Finset.mem_univ changed)]
  have rest : ∑ index ∈ Finset.univ.erase changed, after index =
        ∑ index ∈ Finset.univ.erase changed, before index :=
    Finset.sum_congr rfl fun index member =>
      same index (Finset.ne_of_mem_erase member)
  rw [rest]
  abel

theorem two_entries_le_total
    (ledger : Index → Nat) {first second : Index} (different : first ≠ second) :
    ledger first + ledger second ≤ ∑ index, ledger index := by
  rw [← Finset.sum_pair different]
  exact Finset.sum_le_sum_of_subset (Finset.subset_univ _)

section Listed

variable {Entry : Type} (measure : Entry → Nat)

theorem listTotal_set
    {entries : List Entry} {position : Nat} {before : Entry} (after : Entry)
    (found : entries[position]? = some before) :
    ((entries.set position after).map measure).sum + measure before =
      (entries.map measure).sum + measure after := by
  induction entries generalizing position with
  | nil => cases found
  | cons head tail ih =>
      cases position with
      | zero =>
          cases found
          simp only [List.set_cons_zero, List.map_cons, List.sum_cons]
          ring
      | succ position =>
          have moved := ih found
          simp only [List.set_cons_succ, List.map_cons, List.sum_cons]
          linarith

theorem map_range_getElem?
    {Value : Type} (entries : List Entry) (read : Option Entry → Value) :
    (List.range entries.length).map (fun position =>
        read entries[position]?) =
      entries.map fun entry => read (some entry) := by
  apply List.ext_getElem
  · simp
  · intro position left right
    simp only [List.getElem_map, List.getElem_range]
    rw [List.getElem?_eq_getElem]

theorem total_filter_range
    (entries : List Entry) (passes : Entry → Bool) :
    (((List.range entries.length).filter fun position =>
        entries[position]?.any passes).map fun position =>
          entries[position]?.elim 0 measure).sum =
      (entries.map fun entry =>
        if passes entry then measure entry else 0).sum := by
  have read := map_range_getElem? entries fun found =>
      if found.any passes then found.elim 0 measure else 0
  simp only [Option.any_some, Option.elim_some] at read
  rw [← read]
  generalize List.range entries.length = positions
  induction positions with
  | nil => rfl
  | cons position rest ih =>
      rw [List.filter_cons, List.map_cons, List.sum_cons]
      split
      · rw [List.map_cons, List.sum_cons, ih]
      · rw [ih, Nat.zero_add]

end Listed

end Eris.Foundation.Ledger
