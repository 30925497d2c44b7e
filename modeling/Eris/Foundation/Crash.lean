import Mathlib

/-!
# Programs which may die

A program performs actions on a state and reads the state between them.  It
may die before any action, in the midst of one which is not atomic, or after
the last.  A death is known by the point it happened at and the state it left.

Deaths of a sequence are deaths of its first part, or deaths of its second
part from where the first one ended; deaths of a loop are deaths in one pass.
-/

namespace Eris.Foundation.Crash

/-- What actions do, and what is left of one which is cut short. -/
structure Device (State Action : Type) where
  perform : Action → State → State
  Cut : Action → State → State → Prop

/-- A program which acts on a state and may read it in between. -/
inductive Program (State Action Result : Type) where
  | done (result : Result)
  | inspect (next : State → Program State Action Result)
  | act (action : Action) (rest : Program State Action Result)

/-- Where a program died, or that it ended before it did. -/
inductive Point (Action : Type) where
  | before (action : Action)
  | during (action : Action)
  | ended
  deriving DecidableEq

variable {State Action Result Next Item : Type}

namespace Program

/-- Continue with what a program resulted in. -/
def andThen (next : Result → Program State Action Next) :
    Program State Action Result → Program State Action Next
  | .done result => next result
  | .inspect read => .inspect fun state => (read state).andThen next
  | .act action rest => .act action (rest.andThen next)

def once (action : Action) : Program State Action Unit := .act action (.done ())

/-- Run a program for each item in order. -/
def forEach (body : Item → Program State Action Unit) :
    List Item → Program State Action Unit
  | [] => .done ()
  | item :: rest => (body item).andThen fun _ => forEach body rest

variable (device : Device State Action)

/-- The state and the result of a program which does not die. -/
def finish : Program State Action Result → State → State × Result
  | .done result, state => (state, result)
  | .inspect next, state => (next state).finish state
  | .act action rest, state => rest.finish (device.perform action state)

/-- A program started in a state can die at a point and leave a state. -/
inductive Dies :
    Program State Action Result → State → Point Action → State → Prop
  | ended {result : Result} {state : State} :
      Dies (.done result) state .ended state
  | inspect {next : State → Program State Action Result} {state left : State}
      {point : Point Action}
      (later : Dies (next state) state point left) :
      Dies (.inspect next) state point left
  | before
      {action : Action} {rest : Program State Action Result} {state : State} :
      Dies (.act action rest) state (.before action) state
  | during {action : Action} {rest : Program State Action Result}
      {state left : State}
      (cut : device.Cut action state left) :
      Dies (.act action rest) state (.during action) left
  | later {action : Action} {rest : Program State Action Result}
      {state left : State} {point : Point Action}
      (later : Dies rest (device.perform action state) point left) :
      Dies (.act action rest) state point left

variable {device} {next : Result → Program State Action Next}
    {program : Program State Action Result}
    {state left : State} {point : Point Action}

theorem finish_andThen :
    (program.andThen next).finish device state =
      (next (program.finish device state).2).finish device
        (program.finish device state).1 := by
  induction program generalizing state with
  | done result => rfl
  | inspect read ih => exact ih state
  | act action rest ih => exact ih

theorem andThen_andThen
    {Last : Type} {last : Next → Program State Action Last} :
    (program.andThen next).andThen last =
      program.andThen fun result => (next result).andThen last := by
  induction program with
  | done result => rfl
  | inspect read ih =>
      simp only [andThen, ih]
  | act action rest ih =>
      simp only [andThen, ih]

theorem Dies.of_andThen
    (dies : Dies device (program.andThen next) state point left) :
    (point ≠ .ended ∧ Dies device program state point left) ∨
      Dies device (next (program.finish device state).2)
        (program.finish device state).1 point left := by
  induction program generalizing state with
  | done result => exact Or.inr dies
  | inspect read ih =>
      cases dies with
      | inspect later =>
          rcases ih state later with ⟨early, first⟩ | second
          · exact Or.inl ⟨early, .inspect first⟩
          · exact Or.inr second
  | act action rest ih =>
      cases dies with
      | before => exact Or.inl ⟨by simp, .before⟩
      | during cut => exact Or.inl ⟨by simp, .during cut⟩
      | later later =>
          rcases ih later with ⟨early, first⟩ | second
          · exact Or.inl ⟨early, .later first⟩
          · exact Or.inr second

theorem dies_finish (state : State) :
    Dies device program state .ended (program.finish device state).1 := by
  induction program generalizing state with
  | done result => exact .ended
  | inspect read ih =>
      exact .inspect (ih state state)
  | act action rest ih =>
      exact .later (ih (device.perform action state))

/-- Every action which a program could perform is allowed. -/
def Only (allowed : Action → Prop) : Program State Action Result → Prop
  | .done _ => True
  | .inspect next => ∀ state, (next state).Only allowed
  | .act action rest => allowed action ∧ rest.Only allowed

theorem Only.mono
    {allowed weaker : Action → Prop} (only : program.Only allowed)
    (imply : ∀ action, allowed action → weaker action) :
    program.Only weaker := by
  induction program with
  | done result => trivial
  | inspect next ih =>
      exact fun state => ih state (only state)
  | act action rest ih =>
      exact ⟨imply action only.1, ih only.2⟩

theorem only_andThen
    {allowed : Action → Prop} (first : program.Only allowed)
    (second : ∀ result, (next result).Only allowed) :
    (program.andThen next).Only allowed := by
  induction program with
  | done result => exact second result
  | inspect read ih =>
      exact fun state => ih state (first state)
  | act action rest ih =>
      exact ⟨first.1, ih first.2⟩

theorem only_forEach
    {allowed : Action → Prop} {body : Item → Program State Action Unit}
    {items : List Item} (each : ∀ item ∈ items, (body item).Only allowed) :
    (forEach body items).Only allowed := by
  induction items with
  | nil => trivial
  | cons item rest ih =>
      apply only_andThen (each item List.mem_cons_self)
      intro _
      apply ih
      intro other member
      exact each other (List.mem_cons_of_mem _ member)

section Kept

variable {allowed : Action → Prop} {Invariant : State → Prop}

theorem Only.finish
    (only : program.Only allowed)
    (performs : ∀ action state, allowed action → Invariant state →
        Invariant (device.perform action state))
    (holds : Invariant state) :
    Invariant (program.finish device state).1 := by
  induction program generalizing state with
  | done result => exact holds
  | inspect next ih =>
      exact ih state (only state) holds
  | act action rest ih =>
      exact ih only.2 (performs action state only.1 holds)

theorem Only.dies
    (only : program.Only allowed)
    (performs : ∀ action state, allowed action → Invariant state →
        Invariant (device.perform action state))
    (cuts : ∀ action state left, allowed action → device.Cut action state left →
        Invariant state → Invariant left)
    (dies : Dies device program state point left) (holds : Invariant state) :
    Invariant left := by
  induction dies with
  | ended => exact holds
  | @inspect next state _ _ _ ih =>
      exact ih (only state) holds
  | before => exact holds
  | during cut => exact cuts _ _ _ only.1 cut holds
  | later _ ih =>
      exact ih only.2 (performs _ _ only.1 holds)

theorem Only.point_eq
    (only : program.Only allowed)
    (dies : Dies device program state point left) :
    point = .ended ∨ ∃ action, allowed action ∧
        (point = .before action ∨ point = .during action) := by
  induction dies with
  | ended => exact Or.inl rfl
  | @inspect next state _ _ _ ih =>
      exact ih (only state)
  | before => exact Or.inr ⟨_, only.1, Or.inl rfl⟩
  | during _ => exact Or.inr ⟨_, only.1, Or.inr rfl⟩
  | later _ ih => exact ih only.2

end Kept

theorem Dies.of_forEach
    {body : Item → Program State Action Unit} {items : List Item}
    (dies : Dies device (forEach body items) state point left) :
    (point = .ended ∧ left = ((forEach body items).finish device state).1) ∨
      ∃ earlier item later, items = earlier ++ item :: later ∧
        Dies device (body item)
          ((forEach body earlier).finish device state).1 point left := by
  induction items generalizing state with
  | nil =>
      cases dies
      exact Or.inl ⟨rfl, rfl⟩
  | cons item rest ih =>
      rcases dies.of_andThen with ⟨_, first⟩ | second
      · exact Or.inr ⟨[], item, rest, rfl, first⟩
      · rcases ih second with
          ⟨ended, whole⟩ | ⟨earlier, other, later, rfl, inside⟩
        · left
          rw [whole, forEach, finish_andThen]
          exact ⟨ended, rfl⟩
        · refine Or.inr ⟨item :: earlier, other, later, rfl, ?_⟩
          rw [forEach, finish_andThen]
          exact inside

end Program

end Eris.Foundation.Crash
