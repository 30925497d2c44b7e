import Mathlib

/-!
# Series and their steps

The steps of a series are its pairs of consecutive elements.  A window of a
series is what lies between two places of it.  Windows which share their ends
join to one window, and the steps of windows which share their ends are, in
order, the steps of the whole.
-/

namespace Eris.Foundation

variable {Value : Type}

def steps (values : List Value) : List (Value × Value) := values.zip values.tail

/-- What lies from one place up to another. -/
def window (first last : ℕ) (values : List Value) : List Value :=
  (values.take last).drop first

variable {values : List Value} {first middle last : ℕ}

@[simp]
theorem steps_nil : steps ([] : List Value) = [] := rfl

@[simp]
theorem steps_singleton (value : Value) : steps [value] = [] := rfl

@[simp]
theorem steps_cons_cons (value next : Value) (rest : List Value) :
    steps (value :: next :: rest) = (value, next) :: steps (next :: rest) :=
  rfl

theorem steps_length : (steps values).length = values.length - 1 := by
  simp [steps]

theorem steps_take (count : ℕ) :
    steps (values.take count) = (steps values).take (count - 1) := by
  induction values generalizing count with
  | nil => simp
  | cons value rest ih =>
      cases rest with
      | nil => cases count <;> simp
      | cons next rest =>
          rcases count with _ | _ | count
          · rfl
          · simp
          · have shorter := ih (count + 1)
            simp only [List.take_succ_cons, steps_cons_cons,
              Nat.add_sub_cancel] at shorter ⊢
            rw [shorter]

theorem steps_drop (count : ℕ) :
    steps (values.drop count) = (steps values).drop count := by
  induction values generalizing count with
  | nil => simp
  | cons value rest ih =>
      cases count with
      | zero => rfl
      | succ count =>
          cases rest with
          | nil => simp
          | cons next rest =>
              rw [List.drop_succ_cons, ih, steps_cons_cons, List.drop_succ_cons]

theorem steps_window :
    steps (window first last values) =
      window first (last - 1) (steps values) := by
  rw [window, steps_drop, steps_take]
  rfl

theorem mem_steps {step : Value × Value} (listed : step ∈ steps values) :
    step.1 ∈ values ∧ step.2 ∈ values := by
  rcases List.of_mem_zip listed with ⟨before, after⟩
  exact ⟨before, List.mem_of_mem_tail after⟩

theorem window_append (early : first ≤ middle) (late : middle ≤ last) :
    window first middle values ++ window middle last values =
      window first last values := by
  unfold window
  induction values generalizing first middle last with
  | nil => simp
  | cons value rest ih =>
      cases last with
      | zero =>
          have none := Nat.le_zero.1 late
          subst none
          simp
      | succ last =>
          cases middle with
          | zero =>
              have none := Nat.le_zero.1 early
              subst none
              simp
          | succ middle =>
              have lateRest := Nat.le_of_succ_le_succ late
              cases first with
              | zero =>
                  have joined := ih (Nat.zero_le middle) lateRest
                  simpa using joined
              | succ first =>
                  have joined := ih (Nat.le_of_succ_le_succ early) lateRest
                  simpa using joined

theorem window_all (enough : values.length ≤ last) :
    window 0 last values = values := by
  rw [window, List.take_of_length_le enough, List.drop_zero]

theorem window_drop {cut : ℕ} (within : cut ≤ first) :
    window (first - cut) (last - cut) (values.drop cut) =
      window first last values := by
  rw [window, window, List.take_drop, List.drop_drop]
  by_cases whole : cut ≤ last
  · rw [Nat.add_sub_cancel' whole, Nat.add_sub_cancel' within]
  · have short : last ≤ cut := (not_le.mp whole).le
    rw [Nat.sub_eq_zero_of_le short, Nat.add_zero,
      Nat.add_sub_cancel' within, List.drop_eq_nil_of_le,
      List.drop_eq_nil_of_le]
    · exact (List.length_take_le _ _).trans (short.trans within)
    · exact (List.length_take_le _ _).trans within

theorem flatMap_window
    {place : ℕ} {places : List ℕ}
    (ordered : (place :: places).Pairwise (· ≤ ·)) :
    (steps (place :: places)).flatMap
        (fun ends => window ends.1 ends.2 values) =
      window place ((place :: places).getLast (List.cons_ne_nil _ _))
        values := by
  induction places generalizing place with
  | nil => simp [window]
  | cons next rest ih =>
      rcases List.pairwise_cons.1 ordered with ⟨before, orderedRest⟩
      rw [steps_cons_cons, List.flatMap_cons, ih orderedRest,
        List.getLast_cons (List.cons_ne_nil next rest)]
      apply window_append
      · exact before next List.mem_cons_self
      · rcases List.mem_cons.1
          (List.getLast_mem (List.cons_ne_nil next rest)) with
          same | later
        · exact same.ge
        · exact (List.pairwise_cons.1 orderedRest).1 _ later

theorem window_map {Other : Type} (change : Value → Other) :
    window first last (values.map change) =
      (window first last values).map change := by
  rw [window, window, List.map_drop, List.map_take]

theorem steps_map {Other : Type} (change : Value → Other) :
    steps (values.map change) =
      (steps values).map (Prod.map change change) := by
  rw [steps, steps, ← List.map_tail, List.zip_map]

theorem steps_pairwise
    {relation : Value → Value → Prop} (ordered : values.Pairwise relation) :
    (steps values).Pairwise
      (fun earlier later => relation earlier.1 later.1) := by
  induction values with
  | nil => exact List.Pairwise.nil
  | cons value rest ih =>
      rcases List.pairwise_cons.1 ordered with ⟨before, orderedRest⟩
      cases rest with
      | nil => exact List.Pairwise.nil
      | cons next rest =>
          rw [steps_cons_cons, List.pairwise_cons]
          exact
            ⟨fun step listed => before _ (mem_steps listed).1, ih orderedRest⟩

theorem related_of_mem_steps
    {relation : Value → Value → Prop} (ordered : values.Pairwise relation)
    {step : Value × Value} (listed : step ∈ steps values) :
    relation step.1 step.2 := by
  induction values with
  | nil => cases listed
  | cons value rest ih =>
      rcases List.pairwise_cons.1 ordered with ⟨before, orderedRest⟩
      cases rest with
      | nil => cases listed
      | cons next rest =>
          rcases List.mem_cons.1 listed with rfl | later
          · exact before next List.mem_cons_self
          · exact ih orderedRest later

theorem map_range'_getD
    {count : ℕ} (inside : first + count ≤ values.length) (absent : Value) :
    (List.range' first count).map (values.getD · absent) =
      window first (first + count) values := by
  apply List.ext_getElem
  · simp [window]
    omega
  · intro index before after
    rw [List.length_map, List.length_range'] at before
    have bounded : first + index < values.length := by omega
    simp [window, bounded]

theorem existsUnique_of_flatMap
    {Item : Type} {items : List Item} {parts : Item → List Value}
    (distinct : (items.flatMap parts).Nodup)
    {value : Value} (listed : value ∈ items.flatMap parts) :
    ∃! place : Fin items.length, value ∈ parts (items.get place) := by
  rcases List.mem_flatMap.1 listed with ⟨item, member, inside⟩
  rcases List.get_of_mem member with ⟨place, rfl⟩
  refine ⟨place, inside, ?_⟩
  intro other otherInside
  have apart := List.pairwise_iff_get.1 (List.nodup_flatMap.1 distinct).2
  rcases lt_trichotomy other place with less | same | greater
  · exact (apart other place less otherInside inside).elim
  · exact same
  · exact (apart place other greater inside otherInside).elim

section Sums

variable {Number : Type} [AddCommGroup Number]

theorem sum_steps (value : Number) (rest : List Number) :
    ((steps (value :: rest)).map fun step => step.2 - step.1).sum =
      (value :: rest).getLast (List.cons_ne_nil _ _) - value := by
  induction rest generalizing value with
  | nil => simp
  | cons next rest ih =>
      rw [steps_cons_cons, List.map_cons, List.sum_cons,
        ih, List.getLast_cons (List.cons_ne_nil _ _)]
      abel

end Sums

end Eris.Foundation
