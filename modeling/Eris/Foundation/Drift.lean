import Mathlib

/-!
# Two grammars compared

A value is compared under two grammars which share a shape.  One grammar
accepts the values of the shape without the traits it alone refuses, the other
those without the traits which it alone refuses.
-/

namespace Eris.Foundation

/-- How a value stands to two grammars.  It has the shape of both, it has a
trait refused by the first grammar alone, it has a trait refused by the second
alone. -/
structure Drift where
  loose : Bool
  untaught : Bool
  refused : Bool
deriving DecidableEq

namespace Drift

def taught (drift : Drift) : Bool := drift.loose && !drift.untaught

/-- The second grammar accepts the value. -/
def enforced (drift : Drift) : Bool := drift.loose && !drift.refused

/-- The value lacks the shape, or it has traits of both kinds or of none. -/
def agrees (drift : Drift) : Bool :=
  !drift.loose || drift.untaught == drift.refused

def shared (accepted : Bool) : Drift := ⟨accepted, false, false⟩

def never : Drift := shared false

def all (parts : List Drift) : Drift where
  loose := parts.all loose
  untaught := parts.any untaught
  refused := parts.any refused

theorem agrees_iff (drift : Drift) :
    drift.agrees = true ↔ (drift.taught = true ↔ drift.enforced = true) := by
  obtain ⟨loose, untaught, refused⟩ := drift
  revert loose untaught refused
  decide

@[simp]
theorem taught_shared (accepted : Bool) :
    (shared accepted).taught = accepted :=
  Bool.and_true accepted

@[simp]
theorem enforced_shared (accepted : Bool) :
    (shared accepted).enforced = accepted :=
  Bool.and_true accepted

@[simp]
theorem taught_never : never.taught = false := rfl

@[simp]
theorem enforced_never : never.enforced = false := rfl

theorem taught_all (parts : List Drift) :
    (all parts).taught = parts.all taught := by
  induction parts with
  | nil => rfl
  | cons part parts ih =>
      rw [List.all_cons, ← ih]
      simp only [taught, all, List.all_cons, List.any_cons, Bool.not_or]
      ac_rfl

theorem enforced_all (parts : List Drift) :
    (all parts).enforced = parts.all enforced := by
  induction parts with
  | nil => rfl
  | cons part parts ih =>
      rw [List.all_cons, ← ih]
      simp only [enforced, all, List.all_cons, List.any_cons, Bool.not_or]
      ac_rfl

end Drift

end Eris.Foundation
