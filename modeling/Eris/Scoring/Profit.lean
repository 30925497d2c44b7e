import Eris.Foundation.Series

/-!
# The profit of an epoch

`core/src/scoring/epochPnl.ts`.  The profit of an agent is its value at the
last boundary which reported one less its value at the first boundary.
Without a first value, without a later one, or with fewer than two boundaries
there is no profit.

A value which is null, undefined or not finite is no value.
-/

namespace Eris.Scoring.Profit

open Foundation

variable {Number : Type} [AddCommGroup Number]

/-- The profit of an agent and the boundaries it was read at. -/
structure EpochPnl (Number : Type) where
  pnlUsdc : Number
  initialValueUsdc : Number
  finalValueUsdc : Number
  finalBoundaryIndex : ℕ
  lastBoundaryIndex : ℕ
  carriedFinal : Bool
  deriving DecidableEq

/-- The value at a boundary, if it reported one. -/
def valueAt (values : List (Option Number)) (index : ℕ) : Option Number :=
  values.getD index none

/-- The latest boundary up to an index which reported a value; zero when none
after the first did. -/
def lastReported (values : List (Option Number)) : ℕ → ℕ
  | 0 => 0
  | index + 1 =>
      if (valueAt values (index + 1)).isSome then
        index + 1
      else
        lastReported values index

/-- The profit read off the values at the boundaries of an epoch. -/
def epochPnlFromSeries (values : List (Option Number)) :
    Option (EpochPnl Number) :=
  if values.length < 2 then
    none
  else
    match valueAt values 0 with
    | none => none
    | some v0 =>
        let last := values.length - 1
        let i := lastReported values last
        if i = 0 then
          none
        else
          match valueAt values i with
          | none => none
          | some vK =>
              some
                { pnlUsdc := vK - v0
                  initialValueUsdc := v0
                  finalValueUsdc := vK
                  finalBoundaryIndex := i
                  lastBoundaryIndex := last
                  carriedFinal := i ≠ last }

/-- What an agent earned: its profit, and nothing without one. -/
def earned (values : List (Option Number)) : Number :=
  ((epochPnlFromSeries values).map EpochPnl.pnlUsdc).getD 0

omit [AddCommGroup Number] in
theorem lastReported_spec (values : List (Option Number)) (index : ℕ) :
    (lastReported values index ≠ 0 →
        (valueAt values (lastReported values index)).isSome) ∧
      (lastReported values index = 0 →
        ∀ later, 0 < later → later ≤ index → valueAt values later = none) := by
  induction index with
  | zero =>
      constructor
      · intro found
        exact absurd rfl found
      · intro _ later after within
        omega
  | succ index ih =>
      rw [lastReported]
      split
      · next reported =>
          exact ⟨fun _ => reported, fun none => by omega⟩
      · next unreported =>
          refine ⟨ih.1, ?_⟩
          intro none later after within
          rcases Nat.lt_succ_iff_lt_or_eq.1 (Nat.lt_succ_of_le within) with
            earlier | same
          · exact ih.2 none later after (by omega)
          · rw [same]
            exact Option.not_isSome_iff_eq_none.1 unreported

theorem isSome_epochPnlFromSeries (values : List (Option Number)) :
    (epochPnlFromSeries values).isSome ↔ (valueAt values 0).isSome ∧
        ∃ later, 0 < later ∧ (valueAt values later).isSome := by
  have outside :
      ∀ index, values.length ≤ index → valueAt values index = none := by
    intro index past
    simp [valueAt, past]
  have spec := lastReported_spec values (values.length - 1)
  unfold epochPnlFromSeries
  split
  · next short =>
      constructor
      · intro profit
        cases profit
      · rintro ⟨-, later, after, reported⟩
        rw [outside later (by omega)] at reported
        cases reported
  · next long =>
      cases first : valueAt values 0 with
      | none => simp
      | some v0 =>
          simp only
          split
          · next unreported =>
              constructor
              · intro profit
                cases profit
              · rintro ⟨-, later, after, reported⟩
                have within : later ≤ values.length - 1 := by
                  by_contra past
                  rw [outside later (by omega)] at reported
                  cases reported
                rw [spec.2 unreported later after within] at reported
                cases reported
          · next found =>
              have reported := spec.1 found
              rcases Option.isSome_iff_exists.1 reported with ⟨vK, last⟩
              rw [last]
              constructor
              · intro _
                exact ⟨rfl, _, Nat.pos_of_ne_zero found, reported⟩
              · intro _
                rfl

theorem exists_map_some
    {Value : Type} {values : List (Option Value)}
    (complete : ∀ value ∈ values, value ≠ none) :
    ∃ known : List Value, values = known.map some := by
  induction values with
  | nil => exact ⟨[], rfl⟩
  | cons value rest ih =>
      rw [List.forall_mem_cons] at complete
      rcases Option.ne_none_iff_exists'.1 complete.1 with ⟨first, rfl⟩
      rcases ih complete.2 with ⟨known, rfl⟩
      exact ⟨first :: known, rfl⟩

omit [AddCommGroup Number] in
theorem lastReported_of_complete
    (values : List Number) {index : ℕ} (inside : index < values.length) :
    lastReported (values.map some) index = index := by
  cases index with
  | zero => rfl
  | succ index =>
      have reported : (valueAt (values.map some) (index + 1)).isSome := by
        simp [valueAt, inside]
      rw [lastReported, if_pos reported]

theorem earned_of_complete (values : List Number) :
    earned (values.map some) =
      ((steps values).map fun step => step.2 - step.1).sum := by
  rcases values with _ | ⟨first, _ | ⟨second, rest⟩⟩
  · simp [earned, epochPnlFromSeries]
  · simp [earned, epochPnlFromSeries]
  · have last := lastReported_of_complete (first :: second :: rest)
        (Nat.lt_succ_self (rest.length + 1))
    have reported :
        valueAt ((first :: second :: rest).map some) (rest.length + 1) = some
            ((first :: second :: rest).getLast (List.cons_ne_nil _ _)) := by
      rw [valueAt, List.getD_eq_getElem?_getD, List.getElem?_map,
        List.getLast_eq_getElem]
      simp
    rw [sum_steps]
    simp only [earned, epochPnlFromSeries, List.length_map,
      List.length_cons, Nat.add_sub_cancel] at last ⊢
    rw [last, reported]
    simp [valueAt]

end Eris.Scoring.Profit
