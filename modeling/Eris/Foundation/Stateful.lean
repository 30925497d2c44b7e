import Eris.Foundation.Traversal

/-!
# Computations which read a stream

What always holds of the result of a computation, whatever the state it
starts in, is built up along the computation by one rule for each of its
steps.

The state may be a tape of draws together with a position.  A computation
which advances the position by the same number wherever it starts, on every
tape whose draws are taken from a set, costs that number there; costs add up
along the computation in the same way.
-/

namespace Eris.Foundation.Stateful

open Traversal

section Always

variable {State Value Next : Type} {action : StateM State Value}
    {next : Value → StateM State Next}
    {holds weaker : Value → Prop} {after : Next → Prop}

/-- What holds of the result, whatever the state at the start. -/
def Always (action : StateM State Value) (holds : Value → Prop) : Prop :=
  ∀ state, holds (action state).1

theorem Always.pure {value : Value} (here : holds value) :
    Always (pure value : StateM State Value) holds :=
  fun _ => here

theorem Always.bind
    (first : Always action holds)
    (later : ∀ value, holds value → Always (next value) after) :
    Always (action >>= next) after :=
  fun state => later _ (first state) _

theorem Always.map
    {change : Value → Next}
    (always : Always action fun value => after (change value)) :
    Always (change <$> action) after :=
  fun state => always state

theorem Always.mono
    (always : Always action holds)
    (imply : ∀ value, holds value → weaker value) :
    Always action weaker :=
  fun state => imply _ (always state)

theorem Always.trivial : Always action fun _ => True := fun _ => True.intro

theorem Always.choice
    {condition : Prop} [Decidable condition] {other : StateM State Value}
    (later : ∀ value, Always (next value) after) :
    Always (if condition then action >>= next else other >>= next) after := by
  split
  · exact .bind .trivial fun value _ => later value
  · exact .bind .trivial fun value _ => later value

theorem Always.mapM
    {Input : Type} {compute : Input → StateM State Value} {inputs : List Input}
    (each : ∀ input ∈ inputs, Always (compute input) holds) :
    Always (inputs.mapM compute) fun results =>
      results.length = inputs.length ∧ ∀ result ∈ results, holds result := by
  induction inputs with
  | nil => exact .pure ⟨rfl, fun _ member => absurd member List.not_mem_nil⟩
  | cons input rest ih =>
      rw [List.mapM_cons]
      refine .bind (each input List.mem_cons_self) fun first here => ?_
      refine .bind (ih fun other member =>
            each other (List.mem_cons_of_mem _ member))
          fun results others => .pure ⟨?_, ?_⟩
      · rw [List.length_cons, List.length_cons, others.1]
      · intro result member
        rcases List.mem_cons.mp member with rfl | later
        · exact here
        · exact others.2 result later

theorem Always.each
    {Input : Type} {compute : Nat → Input → StateM State Value}
    {Related : Input → Value → Prop} {inputs : List Input} {index : Nat}
    (always : ∀ index, ∀ input ∈ inputs,
      Always (compute index input) (Related input)) :
    Always (each compute index inputs) (List.Forall₂ Related inputs) := by
  induction inputs generalizing index with
  | nil => exact .pure .nil
  | cons input rest ih =>
      rw [Traversal.each]
      refine .bind (always index input List.mem_cons_self) fun first here => ?_
      refine .bind (ih fun index other member =>
            always index other (List.mem_cons_of_mem _ member))
          fun results others => .pure (.cons here others)

end Always

/-- Draws in the order in which they are made, and how many were made. -/
structure Tape (Number : Type) where
  draws : Nat → Number
  position : Nat

def Tape.next {Number : Type} : StateM (Tape Number) Number :=
  fun tape =>
    (tape.draws tape.position, { tape with position := tape.position + 1 })

section Costs

variable {Number Value Next : Type} {taken : Set Number}
    {action : StateM (Tape Number) Value}
    {next : Value → StateM (Tape Number) Next}
    {holds : Value → Prop} {after : Next → Prop} {count more : Nat}

/-- On tapes of such draws, a number of draws is made, and this holds. -/
def Costs
    (taken : Set Number) (action : StateM (Tape Number) Value)
    (count : Nat) (holds : Value → Prop) : Prop :=
  ∀ tape : Tape Number, (∀ place, tape.draws place ∈ taken) →
    holds (action tape).1 ∧
      (action tape).2 = { tape with position := tape.position + count }

theorem Costs.draw :
    Costs taken Tape.next 1 fun draw : Number => draw ∈ taken :=
  fun _ drawn => ⟨drawn _, rfl⟩

theorem Costs.pure {value : Value} (here : holds value) :
    Costs taken (pure value) 0 holds :=
  fun _ _ => ⟨here, rfl⟩

theorem Costs.bind
    (first : Costs taken action count holds)
    (later : ∀ value, holds value → Costs taken (next value) more after) :
    Costs taken (action >>= next) (count + more) after := by
  intro tape drawn
  have done := first tape drawn
  have rest :=
    later _ done.1 { tape with position := tape.position + count } drawn
  refine ⟨?_, ?_⟩
  · show after (next (action tape).1 (action tape).2).1
    rw [done.2]
    exact rest.1
  · show (next (action tape).1 (action tape).2).2 = _
    rw [done.2, rest.2, Nat.add_assoc]

theorem Costs.map
    {change : Value → Next}
    (costs : Costs taken action count fun value => after (change value)) :
    Costs taken (change <$> action) count after :=
  fun tape drawn => costs tape drawn

theorem Costs.choice
    {condition : Prop} [Decidable condition]
    {other : StateM (Tape Number) Value} {instead : Nat}
    (first : condition → Costs taken action count fun _ => True)
    (second : ¬ condition → Costs taken other instead fun _ => True)
    (later : ∀ value, Costs taken (next value) more after) :
    Costs taken (if condition then action >>= next else other >>= next)
      ((if condition then count else instead) + more) after := by
  split
  · next holds => exact .bind (first holds) fun value _ => later value
  · next fails => exact .bind (second fails) fun value _ => later value

theorem Costs.forget (costs : Costs taken action count holds) :
    Costs taken action count fun _ => True :=
  fun tape drawn => ⟨trivial, (costs tape drawn).2⟩

theorem Costs.mapM
    {Input : Type} {compute : Input → StateM (Tape Number) Value}
    {inputs : List Input}
    (each : ∀ input ∈ inputs, Costs taken (compute input) count fun _ => True) :
    Costs taken (inputs.mapM compute) (inputs.length * count)
      fun _ => True := by
  induction inputs with
  | nil =>
      rw [List.length_nil, Nat.zero_mul]
      exact .pure trivial
  | cons input rest ih =>
      have others := ih fun other member =>
          each other (List.mem_cons_of_mem _ member)
      have both := Costs.bind (each input List.mem_cons_self) fun first _ =>
          Costs.bind others fun results _ =>
            @Costs.pure _ _ taken (fun _ => True) (first :: results) trivial
      rw [List.mapM_cons, List.length_cons, Nat.add_one_mul, Nat.add_comm]
      exact both

theorem Costs.each
    {Input : Type} {compute : Nat → Input → StateM (Tape Number) Value}
    {cost : Input → Nat} {inputs : List Input} {index : Nat}
    (costs : ∀ index, ∀ input ∈ inputs,
      Costs taken (compute index input) (cost input) fun _ => True) :
    Costs taken (each compute index inputs) (inputs.map cost).sum
      fun _ => True := by
  induction inputs generalizing index with
  | nil => exact .pure trivial
  | cons input rest ih =>
      have others := @ih (index + 1) fun index other member =>
          costs index other (List.mem_cons_of_mem _ member)
      exact Costs.bind (costs index input List.mem_cons_self) fun first _ =>
          Costs.bind others fun results _ =>
            @Costs.pure _ _ taken (fun _ => True) (first :: results) trivial

end Costs

end Eris.Foundation.Stateful
