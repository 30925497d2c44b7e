import Mathlib

/-!
# Labelled transition systems and their invariants

A system has initial states and labelled steps.  Reachability is taken over
steps whose label is allowed in the state it starts from; restricting the
allowed labels is how a theorem about "every run in which …" is stated.  The
two invariant rules package the inductions over runs once.

A run may carry a cost, and a system may refine another one over the same
states: each of its steps is then a run of the other, at the same cost.
Scripts execute a given list of transactions; what a script reaches is the
end of a run.
-/

namespace Eris.Foundation.Transition

variable {State Label : Type}

/-- Initial states together with a labelled step relation. -/
structure System (State Label : Type) where
  initial : State → Prop
  step : State → Label → State → Prop

namespace System

variable (system : System State Label)

/-- One step whose label is allowed where it starts. -/
def Moves
    (allowed : State → Label → Prop) (source target : State) : Prop :=
  ∃ label, allowed source label ∧ system.step source label target

def Runs (allowed : State → Label → Prop) : State → State → Prop :=
  Relation.ReflTransGen (system.Moves allowed)

/-- The states at the end of some allowed run from an initial state. -/
def Reachable (allowed : State → Label → Prop) (state : State) : Prop :=
  ∃ start, system.initial start ∧ system.Runs allowed start state

def anything (_ : State) (_ : Label) : Prop := True

instance (state : State) (label : Label) : Decidable (anything state label) :=
  inferInstanceAs (Decidable True)

variable {system}
    {allowed weaker : State → Label → Prop} {Invariant : State → Prop}
    {source target : State}

theorem Runs.single
    {label : Label} (permitted : allowed source label)
    (step : system.step source label target) :
    system.Runs allowed source target :=
  Relation.ReflTransGen.single ⟨label, permitted, step⟩

theorem Runs.weaken
    (imply : ∀ state label, allowed state label → weaker state label)
    (run : system.Runs allowed source target) :
    system.Runs weaker source target :=
  Relation.ReflTransGen.mono (fun _ _ ⟨label, permitted, step⟩ =>
      ⟨label, imply _ _ permitted, step⟩)
    _ _ run

theorem Runs.invariant
    (preserved : ∀ state label next, Invariant state → allowed state label →
        system.step state label next → Invariant next)
    (run : system.Runs allowed source target) (holds : Invariant source) :
    Invariant target := by
  induction run with
  | refl => exact holds
  | tail _ move ih =>
      rcases move with ⟨label, permitted, step⟩
      exact preserved _ label _ ih permitted step

theorem Reachable.weaken
    (imply : ∀ state label, allowed state label → weaker state label)
    (reachable : system.Reachable allowed target) :
    system.Reachable weaker target := by
  rcases reachable with ⟨start, initial, run⟩
  exact ⟨start, initial, run.weaken imply⟩

theorem Reachable.extend
    (reachable : system.Reachable allowed source)
    (run : system.Runs allowed source target) :
    system.Reachable allowed target := by
  rcases reachable with ⟨start, initial, before⟩
  exact ⟨start, initial, before.trans run⟩

theorem Reachable.invariant
    (initially : ∀ state, system.initial state → Invariant state)
    (preserved : ∀ state label next, Invariant state → allowed state label →
        system.step state label next → Invariant next)
    (reachable : system.Reachable allowed target) :
    Invariant target := by
  rcases reachable with ⟨start, initial, run⟩
  exact run.invariant preserved (initially start initial)

/-- A finite run of allowed steps, together with what its labels cost. -/
inductive CostedRun
    (system : System State Label) (allowed : State → Label → Prop)
    (cost : Label → Nat) : State → Nat → State → Prop where
  | done {state : State} : CostedRun system allowed cost state 0 state
  | step {source middle target : State} {label : Label} {total : Nat}
      (permitted : allowed source label)
      (step : system.step source label middle)
      (rest : CostedRun system allowed cost middle total target) :
      CostedRun system allowed cost source (cost label + total) target

theorem CostedRun.runs
    {cost : Label → Nat} {total : Nat}
    (run : CostedRun system allowed cost source total target) :
    system.Runs allowed source target := by
  induction run with
  | done => exact Relation.ReflTransGen.refl
  | step permitted step _ ih =>
      exact Relation.ReflTransGen.head ⟨_, permitted, step⟩ ih

theorem CostedRun.weaken
    {cost : Label → Nat} {total : Nat}
    (imply : ∀ state label, allowed state label → weaker state label)
    (run : CostedRun system allowed cost source total target) :
    CostedRun system weaker cost source total target := by
  induction run with
  | done => exact .done
  | step permitted step _ ih =>
      exact .step (imply _ _ permitted) step ih

theorem CostedRun.single
    {cost : Label → Nat} {label : Label} (permitted : allowed source label)
    (step : system.step source label target) :
    CostedRun system allowed cost source (cost label) target :=
  .step permitted step .done

theorem CostedRun.append
    {cost : Label → Nat} {middle : State} {first second : Nat}
    (before : CostedRun system allowed cost source first middle)
    (after : CostedRun system allowed cost middle second target) :
    CostedRun system allowed cost source (first + second) target := by
  induction before with
  | done =>
      rw [Nat.zero_add]
      exact after
  | step permitted step _ ih =>
      rw [Nat.add_assoc]
      exact .step permitted step (ih after)

section Refinement

variable {SmallLabel : Type}

/-- Every allowed step of `upper` is a run of `lower` of the same cost. -/
def Refines
    (upper : System State Label) (allowed : State → Label → Prop)
    (cost : Label → Nat) (lower : System State SmallLabel)
    (permitted : State → SmallLabel → Prop) (price : SmallLabel → Nat) : Prop :=
  ∀ source label target, allowed source label → upper.step source label target →
      CostedRun lower permitted price source (cost label) target

variable
    {lower : System State SmallLabel} {permitted : State → SmallLabel → Prop}
    {cost : Label → Nat} {price : SmallLabel → Nat}

theorem Refines.costedRun
    {total : Nat} (refines : Refines system allowed cost lower permitted price)
    (run : CostedRun system allowed cost source total target) :
    CostedRun lower permitted price source total target := by
  induction run with
  | done => exact .done
  | step holds step _ ih =>
      exact (refines _ _ _ holds step).append ih

theorem Refines.runs
    (refines : Refines system allowed cost lower permitted price)
    (run : system.Runs allowed source target) :
    lower.Runs permitted source target := by
  induction run with
  | refl => exact Relation.ReflTransGen.refl
  | tail _ move ih =>
      rcases move with ⟨label, holds, step⟩
      exact ih.trans (refines _ _ _ holds step).runs

theorem Refines.reachable
    (refines : Refines system allowed cost lower permitted price)
    (initially : ∀ state, system.initial state → lower.initial state)
    (reachable : system.Reachable allowed target) :
    lower.Reachable permitted target := by
  rcases reachable with ⟨start, initial, run⟩
  exact ⟨start, initially start initial, refines.runs run⟩

end Refinement

end System

section Script

variable
    {Transaction : Type} (run : State → Transaction → Option (Label × State))
    (allowed : State → Label → Prop)
    [∀ state label, Decidable (allowed state label)]

/-- Execute transactions in order, as long as each succeeds and is allowed. -/
def script : List Transaction → State → Option State
  | [], state => some state
  | transaction :: rest, state =>
      match run state transaction with
      | none => none
      | some done =>
          if allowed state done.1 then script rest done.2 else none

variable {run allowed}
    {system : System State Label} {Admissible : Transaction → Prop}

theorem script_costed
    (sound : ∀ state transaction done, Admissible transaction →
        run state transaction = some done → system.step state done.1 done.2)
    (cost : Label → Nat)
    {transactions : List Transaction} {source target : State}
    (admissible : ∀ transaction ∈ transactions, Admissible transaction)
    (ran : script run allowed transactions source = some target) :
    ∃ total, system.CostedRun allowed cost source total target := by
  induction transactions generalizing source with
  | nil =>
      cases ran
      exact ⟨0, .done⟩
  | cons transaction rest ih =>
      simp only [script] at ran
      split at ran
      · cases ran
      · next done executed =>
          split at ran
          · next permitted =>
              have step : system.step source done.1 done.2 :=
                sound _ _ _ (admissible _ List.mem_cons_self) executed
              rcases ih (fun other member =>
                    admissible other (List.mem_cons_of_mem _ member))
                  ran with
                ⟨total, later⟩
              exact ⟨cost done.1 + total, .step permitted step later⟩
          · cases ran

/-- Labels performed one after another are a run. -/
theorem performed_runs
    {perform : State → Label → Option State}
    (sound : ∀ state label next, perform state label = some next →
        system.step state label next)
    {labels : List Label} {source target : State}
    (ran :
      script (fun state label => (perform state label).map (label, ·)) allowed
        labels source = some target) :
    system.Runs allowed source target := by
  have each : ∀ state label done, True →
      (perform state label).map (label, ·) = some done →
        system.step state done.1 done.2 := by
    intro state label done _ performed
    rcases Option.map_eq_some_iff.1 performed with ⟨next, performs, rfl⟩
    exact sound state label next performs
  rcases script_costed each (fun _ => 0) (fun _ _ => trivial) ran with
    ⟨total, costed⟩
  exact costed.runs

theorem script_runs
    {permitted : State → Label → Prop}
    (sound : ∀ state transaction done, Admissible transaction →
        run state transaction = some done →
          system.step state done.1 done.2 ∧ permitted state done.1)
    {transactions : List Transaction} {source target : State}
    (admissible : ∀ transaction ∈ transactions, Admissible transaction)
    (ran : script run allowed transactions source = some target) :
    system.Runs permitted source target := by
  let checked : System State Label :=
    { initial := system.initial
      step := fun state label next =>
        system.step state label next ∧ permitted state label }
  have costed :
      ∃ total, checked.CostedRun allowed (fun _ => 0) source total target :=
    script_costed sound (fun _ => 0) admissible ran
  rcases costed with ⟨total, run⟩
  refine Relation.ReflTransGen.mono ?_ _ _ run.runs
  rintro before after ⟨label, _, step, holds⟩
  exact ⟨label, holds, step⟩

end Script

/-- Labels in order, where one which cannot be performed is passed over. -/
def played
    (perform : State → Label → Option State) (labels : List Label)
    (state : State) : State :=
  labels.foldl (fun state label => (perform state label).getD state) state

theorem played_runs
    {system : System State Label} {perform : State → Label → Option State}
    (sound : ∀ state label next, perform state label = some next →
        system.step state label next)
    (labels : List Label) (source : State) :
    system.Runs System.anything source (played perform labels source) := by
  induction labels generalizing source with
  | nil => exact .refl
  | cons label rest ih =>
      rw [played, List.foldl_cons]
      cases performed : perform source label with
      | none => exact ih source
      | some next =>
          have step := sound source label next performed
          exact (System.Runs.single trivial step).trans (ih next)

end Eris.Foundation.Transition
