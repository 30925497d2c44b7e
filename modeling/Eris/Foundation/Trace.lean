import Eris.Foundation.Transition

/-!
# Traces

A trace lists what was observed, oldest first.  `Whenever` restricts each
event by the part of the trace before it, and `since` is the part after the
first event of some kind.  Both grow with the trace one event at a time,
which is how invariants use them.

`Traced` is a run of a system together with the labels of its steps.
-/

namespace Eris.Foundation.Trace

variable {Event : Type}

/-- Every event of the trace is allowed by what comes before it. -/
def Whenever
    (Allowed : List Event → Event → Prop) (trace : List Event) : Prop :=
  ∀ before event after, trace = before ++ event :: after → Allowed before event

/-- The part of a trace after the first event which `marks` selects. -/
def since (marks : Event → Bool) : List Event → List Event
  | [] => []
  | event :: rest => if marks event then rest else since marks rest

/-- How many events of a kind follow the first selected one. -/
def countSince (marks kind : Event → Bool) (trace : List Event) : Nat :=
  (since marks trace).countP kind

variable {Allowed Weaker : List Event → Event → Prop}
    {marks : Event → Bool} {trace : List Event}

@[simp]
theorem whenever_nil : Whenever Allowed [] := by
  intro before event after split
  cases before <;> cases split

@[simp]
theorem whenever_snoc (event : Event) :
    Whenever Allowed (trace ++ [event]) ↔
      Whenever Allowed trace ∧ Allowed trace event := by
  constructor
  · intro holds
    constructor
    · intro before other after split
      apply holds before other (after ++ [event])
      rw [split, List.append_assoc, List.cons_append]
    · exact holds trace event [] rfl
  · rintro ⟨holds, last⟩ before other after split
    rcases List.eq_nil_or_concat after with rfl | ⟨shorter, final, rfl⟩
    · rcases List.append_inj' split rfl with ⟨rfl, same⟩
      cases same
      exact last
    · have shape :
          trace ++ [event] = (before ++ other :: shorter) ++ [final] := by
        rw [split, List.concat_eq_append, List.append_assoc, List.cons_append]
      exact holds before other shorter (List.append_inj' shape rfl).1

theorem Whenever.append
    {events : List Event} (holds : Whenever Allowed trace)
    (always : ∀ event ∈ events, ∀ before, Allowed before event) :
    Whenever Allowed (trace ++ events) := by
  induction events using List.reverseRecOn with
  | nil =>
      rw [List.append_nil]
      exact holds
  | append_singleton events last ih =>
      rw [← List.append_assoc, whenever_snoc]
      constructor
      · apply ih
        intro event member
        exact always event (List.mem_append_left _ member)
      · exact always last (by simp) _

theorem since_append (events : List Event) :
    since marks (trace ++ events) =
      if trace.any marks then since marks trace ++ events
      else since marks events := by
  induction trace with
  | nil => rfl
  | cons first rest ih =>
      rw [List.cons_append, since, since, List.any_cons]
      by_cases marked : marks first
      · simp [marked]
      · simp [marked, ih]

theorem since_eq_nil (unmarked : trace.any marks = false) :
    since marks trace = [] := by
  induction trace with
  | nil => rfl
  | cons first rest ih =>
      rw [List.any_cons, Bool.or_eq_false_iff] at unmarked
      rw [since, if_neg (by simp [unmarked.1])]
      exact ih unmarked.2

variable {kind : Event → Bool}

theorem countSince_append (events : List Event) :
    countSince marks kind (trace ++ events) = if trace.any marks then
        countSince marks kind trace + events.countP kind
      else countSince marks kind events := by
  unfold countSince
  rw [since_append]
  split
  · exact List.countP_append
  · rfl

theorem countSince_eq_zero (unmarked : trace.any marks = false) :
    countSince marks kind trace = 0 := by
  unfold countSince
  rw [since_eq_nil unmarked]
  rfl

theorem countSince_le (events : List Event) :
    countSince marks kind events ≤ events.countP kind := by
  induction events with
  | nil => exact le_refl 0
  | cons first rest ih =>
      unfold countSince at ih ⊢
      rw [since, List.countP_cons]
      split <;> omega

open Transition

/-- A run of a system with the labels of its steps, oldest first. -/
inductive Traced
    {State : Type} (system : System State Event) (start : State) :
    List Event → State → Prop where
  | nil : Traced system start [] start
  | snoc {trace : List Event} {state next : State} {event : Event}
      (run : Traced system start trace state)
      (step : system.step state event next) :
      Traced system start (trace ++ [event]) next

theorem traced_of_foldlM
    {State : Type} {system : System State Event}
    {perform : State → Event → Option State}
    (sound : ∀ state event next,
      perform state event = some next → system.step state event next)
    {trace : List Event} {start state : State}
    (performed : trace.foldlM perform start = some state) :
    Traced system start trace state := by
  induction trace using List.reverseRecOn generalizing state with
  | nil =>
      cases performed
      exact .nil
  | append_singleton trace event ih =>
      rw [List.foldlM_append] at performed
      rcases Option.bind_eq_some_iff.1 performed with ⟨middle, before, last⟩
      rw [List.foldlM_cons] at last
      rcases Option.bind_eq_some_iff.1 last with ⟨next, step, done⟩
      cases done
      exact .snoc (ih before) (sound _ _ _ step)

end Eris.Foundation.Trace
