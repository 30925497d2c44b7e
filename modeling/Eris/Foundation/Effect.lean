import Mathlib

/-!
# Stateful computations whose throw keeps the state

An effect runs on a state and returns a value or throws; unlike a reverting
call, what it wrote before it threw stays written.  Triples state what an
effect guarantees from a precondition in both cases, one postcondition for a
value and one for a throw, and there is one rule for each construct.
-/

namespace Eris.Foundation.Effect

/-- A computation which may throw without undoing what it has written. -/
abbrev Throwing (Failure State Value : Type) :=
  ExceptT Failure (StateM State) Value

variable {Failure State Value Result Item : Type}

/-- Run an effect: its outcome and the state it leaves behind. -/
def exec
    (effect : Throwing Failure State Value) (state : State) :
    Except Failure Value × State :=
  Id.run (StateT.run (ExceptT.run effect) state)

/-- What an awaited call answered: a value, or the reason it threw. -/
def awaited (answer : Except Failure Value) : Throwing Failure State Value :=
  ExceptT.mk (pure answer)

@[simp]
theorem exec_pure (value : Value) (state : State) :
    exec (pure value : Throwing Failure State Value) state =
      (.ok value, state) :=
  rfl

@[simp]
theorem exec_throw (failure : Failure) (state : State) :
    exec (throw failure : Throwing Failure State Value) state =
      (.error failure, state) :=
  rfl

@[simp]
theorem exec_get (state : State) :
    exec (get : Throwing Failure State State) state = (.ok state, state) :=
  rfl

@[simp]
theorem exec_modify (change : State → State) (state : State) :
    exec (modify change : Throwing Failure State Unit) state =
      (.ok (), change state) :=
  rfl

@[simp]
theorem exec_awaited (answer : Except Failure Value) (state : State) :
    exec (awaited answer) state = (answer, state) :=
  rfl

theorem exec_bind
    (effect : Throwing Failure State Value)
    (next : Value → Throwing Failure State Result) (state : State) :
    exec (effect >>= next) state = match exec effect state with
      | (.ok value, after) => exec (next value) after
      | (.error failure, after) => (.error failure, after) := by
  have unfolded : exec (effect >>= next) state = Id.run (StateT.run
          (ExceptT.bindCont next (exec effect state).1)
          (exec effect state).2) :=
    rfl
  rw [unfolded]
  rcases exec effect state with ⟨failure | value, after⟩ <;> rfl

theorem exec_tryCatch
    (effect : Throwing Failure State Value)
    (handler : Failure → Throwing Failure State Value) (state : State) :
    exec (tryCatch effect handler) state = match exec effect state with
      | (.ok value, after) => (.ok value, after)
      | (.error failure, after) => exec (handler failure) after := by
  have unfolded : exec (tryCatch effect handler) state = Id.run (StateT.run
      (match (exec effect state).1 with
          | .ok value => pure (.ok value)
          | .error failure => ExceptT.run (handler failure))
          (exec effect state).2) :=
    rfl
  rw [unfolded]
  rcases exec effect state with ⟨failure | value, after⟩ <;> rfl

/-- From `pre`, the effect returns with `post` or throws with `thrown`. -/
def Triple
    (pre : State → Prop) (effect : Throwing Failure State Value)
    (post : Value → State → Prop) (thrown : State → Prop) : Prop :=
  ∀ state, pre state → match exec effect state with
    | (.ok value, after) => post value after
    | (.error _, after) => thrown after

variable {pre : State → Prop} {effect : Throwing Failure State Value}
    {post : Value → State → Prop} {thrown : State → Prop}

theorem triple_pure
    {value : Value} (holds : ∀ state, pre state → post value state) :
    Triple pre (pure value : Throwing Failure State Value) post thrown :=
  holds

theorem triple_get
    {post : State → State → Prop}
    (holds : ∀ state, pre state → post state state) :
    Triple pre (get : Throwing Failure State State) post thrown :=
  holds

theorem triple_modify
    {change : State → State} {post : Unit → State → Prop}
    (holds : ∀ state, pre state → post () (change state)) :
    Triple pre (modify change : Throwing Failure State Unit) post thrown :=
  holds

theorem triple_awaited
    {answer : Except Failure Value}
    (returned :
      ∀ value, answer = .ok value → ∀ state, pre state → post value state)
    (failed :
      ∀ failure, answer = .error failure → ∀ state, pre state → thrown state) :
    Triple pre (awaited answer) post thrown := by
  intro state holds
  cases answer with
  | ok value => exact returned value rfl state holds
  | error failure => exact failed failure rfl state holds

theorem triple_bind
    {next : Value → Throwing Failure State Result}
    {middle : Value → State → Prop} {last : Result → State → Prop}
    (first : Triple pre effect middle thrown)
    (second : ∀ value, Triple (middle value) (next value) last thrown) :
    Triple pre (effect >>= next) last thrown := by
  intro state holds
  have guaranteed := first state holds
  rw [exec_bind]
  rcases run : exec effect state with ⟨failure | value, after⟩
  · rw [run] at guaranteed
    exact guaranteed
  · rw [run] at guaranteed
    exact second value after guaranteed

theorem triple_through
    {next : Value → Throwing Failure State Result}
    {last : Result → State → Prop} (middle : Value → State → Prop)
    (first : Triple pre effect middle thrown)
    (second : ∀ value, Triple (middle value) (next value) last thrown) :
    Triple pre (effect >>= next) last thrown :=
  triple_bind first second

theorem triple_consequence
    {stronger : State → Prop} {weakerPost : Value → State → Prop}
    {weakerThrown : State → Prop} (triple : Triple pre effect post thrown)
    (strengthen : ∀ state, stronger state → pre state)
    (returned : ∀ value state, post value state → weakerPost value state)
    (failed : ∀ state, thrown state → weakerThrown state) :
    Triple stronger effect weakerPost weakerThrown := by
  intro state holds
  have guaranteed := triple state (strengthen state holds)
  rcases run : exec effect state with ⟨failure | value, after⟩
  · rw [run] at guaranteed
    exact failed after guaranteed
  · rw [run] at guaranteed
    exact returned value after guaranteed

theorem triple_thrown
    {weakerThrown : State → Prop} (triple : Triple pre effect post thrown)
    (failed : ∀ state, thrown state → weakerThrown state) :
    Triple pre effect post weakerThrown :=
  triple_consequence triple (fun _ holds => holds) (fun _ _ holds => holds)
    failed

theorem triple_given
    {fact : Prop} (triple : fact → Triple pre effect post thrown) :
    Triple (fun state => fact ∧ pre state) effect post thrown :=
  fun state holds => triple holds.1 state holds.2

theorem triple_foldlM
    {body : Value → Item → Throwing Failure State Value}
    (during : List Item → Value → State → Prop)
    (items : List Item) (initial : Value)
    (iterate : ∀ before item after, items = before ++ item :: after → ∀ value,
        Triple (during before value) (body value item)
          (during (before ++ [item])) thrown) :
    Triple (during [] initial) (items.foldlM body initial)
      (during items) thrown := by
  have loop : ∀ rest before value, items = before ++ rest →
      Triple (during before value) (rest.foldlM body value)
        (during items) thrown := by
    intro rest
    induction rest with
    | nil =>
        intro before value split
        rw [List.append_nil] at split
        subst split
        exact triple_pure fun _ holds => holds
    | cons item rest ih =>
        intro before value split
        rw [List.foldlM_cons]
        refine triple_bind (iterate before item rest split value) ?_
        intro next
        exact ih (before ++ [item]) next
          (by rw [split, List.append_assoc, List.singleton_append])
  exact loop items [] initial rfl

end Eris.Foundation.Effect
