import Mathlib

/-!
# Computations which ask in stages

A staged computation returns, fails, or asks a list of questions and goes on
with their answers.  Driven alone, each of its stages is answered as it is
asked.  Several computations may share their rounds: the questions of one
stage of each are put in one batch, and everyone is handed the slice of the
answers which is its own.

When every question is answered by itself, a slice of the answers of a batch
is the answers of that slice of the questions, and sharing rounds changes
nothing.
-/

namespace Eris.Foundation.Staged

/-- A computation with finitely many stages along every answer. -/
inductive Process (Question Answer Value Failure : Type) where
  | returned (value : Value)
  | threw (failure : Failure)
  | asking (questions : List Question)
      (resume : List Answer → Process Question Answer Value Failure)

variable {Question Answer Value Failure : Type}

/-- The batch is answered question by question. -/
def AnswersEach
    (answer : Question → Answer) (call : List Question → List Answer) :
    Prop :=
  ∀ questions, call questions = questions.map answer

namespace Process

/-- Answer stage after stage, until the computation ends. -/
def drive (call : List Question → List Answer) :
    Process Question Answer Value Failure → Except Failure Value
  | returned value => .ok value
  | threw failure => .error failure
  | asking questions resume => drive call (resume (call questions))

/-- What is left of a computation after some stages. -/
def advance (call : List Question → List Answer) :
    Nat → Process Question Answer Value Failure →
      Process Question Answer Value Failure
  | 0, process => process
  | _ + 1, returned value => returned value
  | _ + 1, threw failure => threw failure
  | stage + 1, asking questions resume =>
      advance call stage (resume (call questions))

/-- What is asked in a stage, unless the computation ended before. -/
def asked (call : List Question → List Answer) (stage : Nat)
    (process : Process Question Answer Value Failure) :
    Option (List Question) :=
  match advance call stage process with
  | asking questions _ => some questions
  | _ => none

def stages (call : List Question → List Answer) :
    Process Question Answer Value Failure → Nat
  | returned _ => 0
  | threw _ => 0
  | asking questions resume => stages call (resume (call questions)) + 1

variable {call : List Question → List Answer}
    {process : Process Question Answer Value Failure}

theorem advance_succ (stage : Nat) :
    advance call (stage + 1) process =
      advance call 1 (advance call stage process) := by
  induction stage generalizing process with
  | zero => rfl
  | succ stage ih =>
      cases process with
      | returned value => rfl
      | threw failure => rfl
      | asking questions resume => exact ih

@[simp]
theorem drive_advance (stage : Nat) :
    drive call (advance call stage process) = drive call process := by
  induction stage generalizing process with
  | zero => rfl
  | succ stage ih =>
      cases process with
      | returned value => rfl
      | threw failure => rfl
      | asking questions resume => exact ih

theorem asked_stages : asked call (stages call process) process = none := by
  induction process with
  | returned value => rfl
  | threw failure => rfl
  | asking questions resume ih =>
      exact ih _

theorem asked_of_le
    {stage later : Nat} (ended : asked call stage process = none)
    (follows : stage ≤ later) :
    asked call later process = none := by
  induction later, follows using Nat.le_induction with
  | base => exact ended
  | succ later _ ih =>
      rw [asked, advance_succ]
      rw [asked] at ih
      cases here : advance call later process with
      | returned value => rfl
      | threw failure => rfl
      | asking questions resume =>
          rw [here] at ih
          cases ih

end Process

/-- `results.slice(start, start + length)` -/
def slice (results : List Answer) (start length : Nat) : List Answer :=
  (results.drop start).take length

theorem slice_of_isPrefix
    {answer : Question → Answer} {before own : List Question}
    {results : List Answer}
    (answered : (before ++ own).map answer <+: results) :
    slice results before.length own.length = own.map answer := by
  rcases answered with ⟨rest, rfl⟩
  rw [slice, List.map_append, List.append_assoc,
    List.drop_left' (List.length_map _), List.take_left' (List.length_map _)]

end Eris.Foundation.Staged
