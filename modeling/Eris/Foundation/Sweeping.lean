import Mathlib

/-!
# Passes over a changing set

A pass owes a visit to every name of a set.  Round after round some of those
still owed and still present are visited, at least one in each round; those who
have left are no longer owed.  So nobody is visited twice, everybody who stays
is visited or still owed, and a pass over `n` names takes at most `n` rounds.
-/

namespace Eris.Foundation.Sweeping

variable {Name : Type} [DecidableEq Name]

/-- Who is there in a round, and who is visited. -/
structure Round (Name : Type) where
  present : Finset Name
  visited : List Name

def owedAfter (owed : Finset Name) (round : Round Name) : Finset Name :=
  (owed ∩ round.present) \ round.visited.toFinset

/-- The visits of a round go to names which are owed one, once and to some. -/
structure Serves (owed : Finset Name) (round : Round Name) : Prop where
  owes : ∀ name ∈ round.visited, name ∈ owed ∩ round.present
  once : round.visited.Nodup
  serves : round.visited ≠ []

/-- Rounds of one pass, from the names owed before to those owed after. -/
inductive Sweeps :
    Finset Name → List (Round Name) → Finset Name → Prop where
  | nil (owed : Finset Name) : Sweeps owed [] owed
  | cons {owed left : Finset Name} {round : Round Name}
      {rounds : List (Round Name)}
      (served : Serves owed round)
      (rest : Sweeps (owedAfter owed round) rounds left) :
      Sweeps owed (round :: rounds) left

/-- Everybody visited in some rounds, in order. -/
def visits (rounds : List (Round Name)) : List Name :=
  rounds.flatMap Round.visited

variable
  {owed left : Finset Name} {round : Round Name}
  {rounds : List (Round Name)} {name : Name}

@[simp]
theorem mem_owedAfter :
    name ∈ owedAfter owed round ↔
      (name ∈ owed ∧ name ∈ round.present) ∧ name ∉ round.visited := by
  simp [owedAfter]

theorem Sweeps.visits_owed
    (sweeps : Sweeps owed rounds left) (visited : name ∈ visits rounds) :
    name ∈ owed := by
  induction sweeps with
  | nil owed => cases visited
  | cons served rest ih =>
      rcases List.mem_append.mp visited with now | later
      · exact Finset.mem_of_mem_inter_left (served.owes name now)
      · exact (mem_owedAfter.mp (ih later)).1.1

theorem Sweeps.visits_nodup (sweeps : Sweeps owed rounds left) :
    (visits rounds).Nodup := by
  induction sweeps with
  | nil owed => exact List.nodup_nil
  | cons served rest ih =>
      apply List.Nodup.append served.once ih
      intro name now later
      exact (mem_owedAfter.mp (rest.visits_owed later)).2 now

theorem Sweeps.left_unvisited
    (sweeps : Sweeps owed rounds left) (owes : name ∈ left) :
    name ∈ owed ∧ name ∉ visits rounds := by
  induction sweeps with
  | nil owed => exact ⟨owes, List.not_mem_nil⟩
  | cons served rest ih =>
      rcases ih owes with ⟨before, unvisited⟩
      rcases mem_owedAfter.mp before with ⟨⟨owed, -⟩, notNow⟩
      refine ⟨owed, fun visited => ?_⟩
      rcases List.mem_append.mp visited with now | later
      · exact notNow now
      · exact unvisited later

theorem Sweeps.stays
    (sweeps : Sweeps owed rounds left) (owes : name ∈ owed)
    (stays : ∀ round ∈ rounds, name ∈ round.present) :
    name ∈ left ∨ name ∈ visits rounds := by
  induction sweeps with
  | nil owed => exact Or.inl owes
  | @cons owed left round rounds served rest ih =>
      by_cases now : name ∈ round.visited
      · exact Or.inr (List.mem_append_left _ now)
      · have present : name ∈ round.present := stays round List.mem_cons_self
        have still : name ∈ owedAfter owed round :=
          mem_owedAfter.mpr ⟨⟨owes, present⟩, now⟩
        rcases ih still
            fun round later => stays round (List.mem_cons_of_mem _ later)
          with left | visited
        · exact Or.inl left
        · exact Or.inr (List.mem_append_right _ visited)

theorem Sweeps.card_add_length (sweeps : Sweeps owed rounds left) :
    left.card + rounds.length ≤ owed.card := by
  induction sweeps with
  | nil owed => exact le_rfl
  | @cons owed left round rounds served rest ih =>
      rcases List.exists_mem_of_ne_nil _ served.serves with ⟨name, visited⟩
      have fewer : owedAfter owed round ⊂ owed := by
        refine Finset.ssubset_iff_of_subset ?_ |>.mpr ⟨name, ?_, ?_⟩
        · intro other owes
          exact (mem_owedAfter.mp owes).1.1
        · exact Finset.mem_of_mem_inter_left (served.owes name visited)
        · intro owes
          exact (mem_owedAfter.mp owes).2 visited
      have less := Finset.card_lt_card fewer
      rw [List.length_cons]
      omega

theorem Sweeps.count_of_stays
    (sweeps : Sweeps owed rounds left) (owes : name ∈ owed)
    (stays : ∀ round ∈ rounds, name ∈ round.present) :
    (visits rounds).count name = if name ∈ left then 0 else 1 := by
  split
  · next still =>
      exact List.count_eq_zero_of_not_mem (sweeps.left_unvisited still).2
  · next gone =>
      apply List.count_eq_one_of_mem sweeps.visits_nodup
      exact (sweeps.stays owes stays).resolve_left gone

end Eris.Foundation.Sweeping
