import Mathlib

/-!
# Enumerations and the cursors which read them

A successor function enumerates positions from a first one until it has no
next.  A cursor visits them in instalments; its visits compose, a finished
enumeration is determined by where it starts, and what a cursor has visited
is a prefix of it.
-/

namespace Eris.Foundation.Cursor

variable {Position : Type}

/-- From one pending position to another, through the positions visited. -/
inductive Visits (next : Position → Option Position) :
    Option Position → List Position → Option Position → Prop where
  | rest {pending : Option Position} : Visits next pending [] pending
  | visit {position : Position} {visited : List Position}
      {pending : Option Position}
      (later : Visits next (next position) visited pending) :
      Visits next (some position) (position :: visited) pending

variable {next other : Position → Option Position}
    {start middle finish : Option Position}
    {visited later whole : List Position}

theorem Visits.append
    (before : Visits next start visited middle)
    (after : Visits next middle later finish) :
    Visits next start (visited ++ later) finish := by
  induction before with
  | rest => exact after
  | visit _ ih =>
      exact .visit (ih after)

theorem Visits.snoc
    {position : Position} (before : Visits next start visited (some position)) :
    Visits next start (visited ++ [position]) (next position) :=
  before.append (.visit .rest)

theorem Visits.exists_rest
    (before : Visits next start visited middle)
    (complete : Visits next start whole none) :
    ∃ rest, whole = visited ++ rest ∧ Visits next middle rest none := by
  induction before generalizing whole with
  | rest => exact ⟨whole, rfl, complete⟩
  | visit _ ih =>
      cases complete with
      | visit complete =>
          rcases ih complete with ⟨rest, split, remaining⟩
          exact ⟨rest, by rw [split, List.cons_append], remaining⟩

theorem Visits.unique
    (first : Visits next start visited none)
    (second : Visits next start later none) :
    visited = later := by
  rcases first.exists_rest second with ⟨rest, split, remaining⟩
  cases remaining
  rw [split, List.append_nil]

section Ordered

variable [Preorder Position]

end Ordered

end Eris.Foundation.Cursor
