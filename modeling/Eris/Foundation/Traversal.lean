import Eris.Foundation.Checked

/-!
# Traversals which know the index

A traversal computes its results in order, each from an element and its
index.  The results for the elements which two lists begin with agree, when
the two computations agree on them; what a traversal of a longer list does
first is what it does to the shorter one.
-/

namespace Eris.Foundation.Traversal

open Checked

section Monadic

variable {First Second : Type} {Effect : Type → Type} [Monad Effect]

/-- Compute from each element and its index, in order. -/
def each
    (compute : Nat → First → Effect Second) :
    Nat → List First → Effect (List Second)
  | _, [] => return []
  | index, input :: rest => do
      let result ← compute index input
      let results ← each compute (index + 1) rest
      return result :: results

theorem each_append [LawfulMonad Effect]
    (compute : Nat → First → Effect Second)
    (index : Nat) (inputs more : List First) :
    each compute index (inputs ++ more) = (do
      let results ← each compute index inputs
      let others ← each compute (index + inputs.length) more
      return results ++ others) := by
  induction inputs generalizing index with
  | nil => simp [each]
  | cons input rest ih =>
      simp only [List.cons_append, each, ih, bind_assoc,
        pure_bind, List.length_cons]
      rw [show index + 1 + rest.length = index + (rest.length + 1) by omega]

end Monadic

section Stateful

variable {First Second State : Type}

theorem each_state_prefix
    (compute : Nat → First → StateM State Second)
    (index : Nat) (inputs more : List First) (state : State) :
    ∃ others, (each compute index (inputs ++ more) state).1 =
        (each compute index inputs state).1 ++ others := by
  rw [each_append]
  exact ⟨_, rfl⟩

theorem each_state_map
    {Kept : Type} {keep : Second → Kept} {kept : First → Kept}
    {compute : Nat → First → StateM State Second}
    (keeps :
      ∀ index input state, keep (compute index input state).1 = kept input)
    (index : Nat) (inputs : List First) (state : State) :
    (each compute index inputs state).1.map keep = inputs.map kept := by
  induction inputs generalizing index state with
  | nil => rfl
  | cons input rest ih =>
      have first := keeps index input state
      have later := ih (index + 1) (compute index input state).2
      rw [List.map_cons, ← first, ← later]
      rfl

end Stateful

section Checked

variable {Reason First Second : Type}
  {compute other : Nat → First → Outcome Reason Second}
  {index : Nat} {inputs more : List First}
  {results longer : List Second}

theorem each_length
    (computed : each compute index inputs = .ok results) :
    results.length = inputs.length := by
  induction inputs generalizing index results with
  | nil =>
      rw [each, pure_eq_ok] at computed
      rw [← computed]
      rfl
  | cons input rest ih =>
      simp only [each, bind_eq_ok, pure_eq_ok] at computed
      rcases computed with ⟨head, _, tail, tailOk, rfl⟩
      rw [List.length_cons, List.length_cons, ih tailOk]

theorem each_get
    (computed : each compute index inputs = .ok results)
    {place : Nat} {input : First} (listed : inputs[place]? = some input) :
    ∃ result, results[place]? = some result ∧
      compute (index + place) input = .ok result := by
  induction inputs generalizing index results place with
  | nil => cases listed
  | cons head rest ih =>
      simp only [each, bind_eq_ok, pure_eq_ok] at computed
      rcases computed with ⟨first, firstOk, tail, tailOk, rfl⟩
      cases place with
      | zero =>
          cases listed
          exact ⟨first, rfl, firstOk⟩
      | succ place =>
          rcases ih tailOk listed with
            ⟨result, found, resultOk⟩
          refine ⟨result, found, ?_⟩
          rw [← resultOk]
          congr 1
          omega

theorem each_eq_self
    {checks : Nat → First → Outcome Reason First} {inputs results : List First}
    (same :
      ∀ index input result, checks index input = .ok result → result = input)
    (computed : each checks index inputs = .ok results) :
    results = inputs := by
  induction inputs generalizing index results with
  | nil =>
      rw [each, pure_eq_ok] at computed
      exact computed.symm
  | cons input rest ih =>
      simp only [each, bind_eq_ok, pure_eq_ok] at computed
      rcases computed with ⟨head, headOk, tail, tailOk, rfl⟩
      rw [same index input head headOk, ih tailOk]

theorem each_prefix
    (agree : ∀ place input result, inputs[place]? = some input →
        compute (index + place) input = .ok result →
          ∀ changed, other (index + place) input = .ok changed →
            changed = result)
    (computed : each compute index inputs = .ok results)
    (extended : each other index (inputs ++ more) = .ok longer) :
    ∃ others, longer = results ++ others := by
  induction inputs generalizing index results longer with
  | nil =>
      rw [each, pure_eq_ok] at computed
      exact ⟨longer, by rw [← computed]; rfl⟩
  | cons head rest ih =>
      simp only [List.cons_append, each, bind_eq_ok, pure_eq_ok]
        at computed extended
      rcases computed with ⟨first, firstOk, tail, tailOk, rfl⟩
      rcases extended with ⟨changed, changedOk, later, laterOk, rfl⟩
      have same : changed = first :=
        agree 0 head first rfl firstOk changed changedOk
      have tailAgrees : ∀ place input result, rest[place]? = some input →
          compute (index + 1 + place) input = .ok result →
            ∀ changed, other (index + 1 + place) input = .ok changed →
              changed = result := by
        intro place input result listed
        have here := agree (place + 1) input result listed
        rw [show index + (place + 1) = index + 1 + place by omega] at here
        exact here
      rcases ih tailAgrees tailOk laterOk with
        ⟨others, rfl⟩
      exact ⟨others, by rw [same]; rfl⟩

end Checked

end Eris.Foundation.Traversal
