import Mathlib

/-!
# Computations which pull from a source

A computation which only takes items from a source, one after another, and
decides by each of them how to go on.  The source has a state and may fail.

Two states of a source which yield the same items yield the same result of
every computation; and what a position says about a state goes on to hold
after a computation, at the position moved by the number of its items.
-/

namespace Eris.Foundation.Pulling

inductive Pull (Item Value : Type) : Type
  | done (value : Value)
  | next (rest : Item → Pull Item Value)

variable {Item Value Next State Error : Type}

namespace Pull

/-- Go on with the result of a computation. -/
def bind (later : Value → Pull Item Next) :
    Pull Item Value → Pull Item Next
  | .done value => later value
  | .next rest => .next fun item => (rest item).bind later

instance : Monad (Pull Item) where
  pure := .done
  bind first later := first.bind later

def pull : Pull Item Item := .next .done

variable (source : State → Except Error (Item × State))

def run : Pull Item Value → State → Except Error (Value × State)
  | .done value, state => .ok (value, state)
  | .next rest, state =>
      match source state with
      | .ok (item, after) => (rest item).run after
      | .error error => .error error

/-- The result of a computation, without the state. -/
def result (computation : Pull Item Value) (state : State) :
    Except Error Value :=
  (computation.run source state).map Prod.fst

def taken : Pull Item Value → State → Nat
  | .done _, _ => 0
  | .next rest, state =>
      match source state with
      | .ok (item, after) => (rest item).taken after + 1
      | .error _ => 0

variable {source : State → Except Error (Item × State)}

theorem run_bind
    (first : Pull Item Value) (later : Value → Pull Item Next) (state : State) :
    (first >>= later).run source state =
      (first.run source state).bind fun after =>
        (later after.1).run source after.2 := by
  change (first.bind later).run source state = _
  induction first generalizing state with
  | done value => rfl
  | next rest ih =>
      rw [bind, run, run]
      cases source state with
      | error error => rfl
      | ok item => exact ih item.1 item.2

end Pull

open Pull

variable {source : State → Except Error (Item × State)}

/-- States at a position all fail alike, or all yield one item and go on to
the next position. -/
def Positioned
    (source : State → Except Error (Item × State))
    (located : Nat → State → Prop) : Prop :=
  ∀ position,
    (∃ error, ∀ state, located position state → source state = .error error) ∨
      ∃ item, ∀ state, located position state →
        ∃ after, source state = .ok (item, after) ∧ located (position + 1) after

variable {located : Nat → State → Prop} {position : Nat} {first second : State}

theorem result_eq_of_positioned
    (positioned : Positioned source located) (computation : Pull Item Value)
    (here : located position first) (there : located position second) :
    computation.result source first = computation.result source second := by
  induction computation generalizing position first second with
  | done value => rfl
  | next rest ih =>
      rcases positioned position with ⟨error, fails⟩ | ⟨item, yields⟩
      · rw [result, result, run, run, fails first here, fails second there]
      · rcases yields first here with ⟨firstAfter, firstYields, firstHere⟩
        rcases yields second there with
          ⟨secondAfter, secondYields, secondThere⟩
        rw [result, result, run, run, firstYields, secondYields]
        exact ih item firstHere secondThere

theorem positioned_after_run
    {state after : State} {value : Value}
    (positioned : Positioned source located) (computation : Pull Item Value)
    (here : located position state)
    (ran : computation.run source state = .ok (value, after)) :
    located (position + computation.taken source state) after := by
  induction computation generalizing position state with
  | done result =>
      cases ran
      exact here
  | next rest ih =>
      rw [run] at ran
      rw [taken]
      rcases positioned position with ⟨error, fails⟩ | ⟨item, yields⟩
      · rw [fails state here] at ran
        cases ran
      · rcases yields state here with ⟨next, stateYields, nextHere⟩
        rw [stateYields] at ran ⊢
        have moved := ih item nextHere ran
        rwa [Nat.add_right_comm, Nat.add_assoc] at moved

end Eris.Foundation.Pulling
