import Mathlib

/-!
# Computations which draw from a stream

A loop which draws until a draw suits may need any number of rounds.  Such a
computation is run with a bound on its rounds and fails in a way of its own
when the bound is reached.  A larger bound changes no other outcome; a
computation finishes when some bound is large enough.

Shuffling a list by drawing exchanges each place, from the last one down,
with a drawn place no later.  The result is a permutation of the list.
-/

namespace Eris.Foundation

variable {Failure Result Next Stream Item : Type}

/-- What becomes of an outcome when the bound on rounds is raised. -/
def Extends
    (unfinished : Failure) (early late : Except Failure Result) : Prop :=
  early = .error unfinished ∨ early = late

/-- Some bound on rounds is large enough. -/
def Finishes
    (unfinished : Failure) (run : ℕ → Except Failure Result) : Prop :=
  ∃ rounds, ∀ more, rounds ≤ more → run more ≠ .error unfinished

variable {unfinished : Failure}
    {early outcome : Except Failure Result} {place : ℕ}
    {items shuffled : List Item} {stream rest : Stream}

theorem Extends.refl (outcome : Except Failure Result) :
    Extends unfinished outcome outcome :=
  Or.inr rfl

theorem Extends.of_ne
    {late : Except Failure Result} (extension : Extends unfinished early late)
    (finished : early ≠ .error unfinished) :
    late = early := by
  rcases extension with cut | same
  · exact (finished cut).elim
  · exact same.symm

theorem Extends.of_ok
    {late : Except Failure Result} {result : Result}
    (extension : Extends unfinished early late)
    (finished : early = .ok result) :
    late = .ok result := by
  rw [← finished]
  apply extension.of_ne
  rw [finished]
  exact fun equal => nomatch equal

theorem Extends.bind
    {late : Except Failure Result}
    {next nextLate : Result → Except Failure Next}
    (extension : Extends unfinished early late)
    (extensionNext :
      ∀ result, Extends unfinished (next result) (nextLate result)) :
    Extends unfinished (early >>= next) (late >>= nextLate) := by
  rcases extension with rfl | rfl
  · exact Or.inl rfl
  · cases early with
    | error failure => exact Or.inr rfl
    | ok result => exact extensionNext result

theorem ok_of_bind
    {next : Result → Except Failure Next}
    {value : Next} (done : outcome >>= next = .ok value) :
    ∃ result, outcome = .ok result ∧ next result = .ok value := by
  cases outcome with
  | error failure => cases done
  | ok result => exact ⟨result, rfl, done⟩

theorem Finishes.bind
    {run : ℕ → Except Failure Result} {next : ℕ → Result → Except Failure Next}
    (finishes : Finishes unfinished run)
    (grows :
      ∀ rounds more, rounds ≤ more → Extends unfinished (run rounds) (run more))
    (finishesNext : ∀ result, (∃ rounds, run rounds = .ok result) →
        Finishes unfinished (next · result)) :
    Finishes unfinished (fun rounds => run rounds >>= next rounds) := by
  rcases finishes with ⟨rounds, finished⟩
  have settled : ∀ more, rounds ≤ more → run more = run rounds :=
    fun more later =>
      (grows rounds more later).of_ne (finished rounds le_rfl)
  cases outcome : run rounds with
  | error failure =>
      refine ⟨rounds, ?_⟩
      intro more later cut
      change (run more >>= next more) = _ at cut
      rw [settled more later, outcome] at cut
      cases cut
      exact finished rounds le_rfl outcome
  | ok result =>
      rcases finishesNext result ⟨rounds, outcome⟩ with
        ⟨roundsNext, finishedNext⟩
      refine ⟨max rounds roundsNext, ?_⟩
      intro more later
      have enough := finishedNext more ((le_max_right _ _).trans later)
      change (run more >>= next more) ≠ _
      rw [settled more ((le_max_left _ _).trans later), outcome]
      exact enough

/-- A computation fails in no other way than by reaching its bound. -/
def CutOnly
    (unfinished : Failure) (outcome : Except Failure Result) : Prop :=
  ∀ failure, outcome = .error failure → failure = unfinished

theorem CutOnly.of_ok (result : Result) :
    CutOnly unfinished (.ok result : Except Failure Result) :=
  fun _ equal => nomatch equal

theorem CutOnly.bind
    {next : Result → Except Failure Next} (cutOnly : CutOnly unfinished outcome)
    (cutOnlyNext : ∀ result, CutOnly unfinished (next result)) :
    CutOnly unfinished (outcome >>= next) := by
  intro failure failed
  cases outcome with
  | error first =>
      cases failed
      exact cutOnly _ rfl
  | ok result => exact cutOnlyNext result failure failed

/-- A computation which finishes and fails in no other way has a result, the
same one for every larger bound. -/
theorem Finishes.result
    {run : ℕ → Except Failure Result} (finishes : Finishes unfinished run)
    (grows :
      ∀ rounds more, rounds ≤ more → Extends unfinished (run rounds) (run more))
    (cutOnly : ∀ rounds, CutOnly unfinished (run rounds)) :
    ∃ rounds result, ∀ more, rounds ≤ more → run more = .ok result := by
  rcases finishes with ⟨rounds, finished⟩
  cases outcome : run rounds with
  | error failure =>
      have cut := cutOnly rounds failure outcome
      rw [cut] at outcome
      exact (finished rounds le_rfl outcome).elim
  | ok result =>
      exact ⟨rounds, result,
        fun more later => (grows rounds more later).of_ok outcome⟩

theorem Finishes.of_const
    (finished : outcome ≠ .error unfinished) :
    Finishes unfinished (fun _ => outcome) :=
  ⟨0, fun _ _ => finished⟩

/-- A draw of a number below a bound, and the stream after it. -/
abbrev Draw (Failure Stream : Type) :=
  (bound : ℕ) → Stream → Except Failure (Fin bound × Stream)

def exchange (items : List Item) (first second : ℕ) : List Item :=
  match items[first]?, items[second]? with
  | some item, some other => (items.set first other).set second item
  | _, _ => items

/-- Exchange each place from one down to the second with a drawn place. -/
def shuffleDown (draw : Draw Failure Stream) :
    ℕ → List Item → Stream → Except Failure (List Item × Stream)
  | 0, items, stream => .ok (items, stream)
  | place + 1, items, stream => do
      let (other, rest) ← draw (place + 2) stream
      shuffleDown draw place (exchange items (place + 1) other) rest

/-- Exchange each place from the last one down with a drawn place. -/
def shuffle
    (draw : Draw Failure Stream) (items : List Item) (stream : Stream) :
    Except Failure (List Item × Stream) :=
  shuffleDown draw (items.length - 1) items stream

theorem exchange_perm (items : List Item) (first second : ℕ) :
    (exchange items first second).Perm items := by
  unfold exchange
  split
  · rename_i item other isFirst isSecond
    rw [List.getElem?_eq_some_iff] at isFirst isSecond
    rcases isFirst with ⟨firstBound, rfl⟩
    rcases isSecond with ⟨secondBound, rfl⟩
    exact List.set_set_perm firstBound secondBound
  · exact List.Perm.refl items

variable {draw : Draw Failure Stream}

theorem shuffleDown_perm
    (done : shuffleDown draw place items stream = .ok (shuffled, rest)) :
    shuffled.Perm items := by
  induction place generalizing items stream with
  | zero =>
      cases done
      exact List.Perm.refl _
  | succ place ih =>
      rcases ok_of_bind done with ⟨result, -, doneRest⟩
      exact (ih doneRest).trans (exchange_perm _ (place + 1) result.1)

theorem shuffle_perm
    (done : shuffle draw items stream = .ok (shuffled, rest)) :
    shuffled.Perm items :=
  shuffleDown_perm done

theorem shuffleDown_keeps
    {property : Stream → Prop}
    (keeps : ∀ bound stream drawn rest,
        property stream → draw bound stream = .ok (drawn, rest) → property rest)
    (holds : property stream)
    (done : shuffleDown draw place items stream = .ok (shuffled, rest)) :
    property rest := by
  induction place generalizing items stream with
  | zero =>
      cases done
      exact holds
  | succ place ih =>
      rcases ok_of_bind done with ⟨result, drawn, doneRest⟩
      exact ih (keeps _ _ result.1 result.2 holds drawn) doneRest

theorem shuffleDown_extends
    {late : Draw Failure Stream}
    (extension : ∀ bound stream,
        Extends unfinished (draw bound stream) (late bound stream))
    (place : ℕ) (items : List Item) (stream : Stream) :
    Extends unfinished (shuffleDown draw place items stream)
      (shuffleDown late place items stream) := by
  induction place generalizing items stream with
  | zero => exact Extends.refl _
  | succ place ih =>
      apply Extends.bind
      · exact extension (place + 2) stream
      · intro result
        exact ih _ result.2

theorem shuffleDown_cutOnly
    (cutOnly :
      ∀ bound stream, 0 < bound → CutOnly unfinished (draw bound stream))
    (place : ℕ) (items : List Item) (stream : Stream) :
    CutOnly unfinished (shuffleDown draw place items stream) := by
  induction place generalizing items stream with
  | zero => exact CutOnly.of_ok _
  | succ place ih =>
      apply CutOnly.bind
      · exact cutOnly (place + 2) stream (Nat.succ_pos _)
      · exact fun result => ih _ result.2

theorem shuffleDown_finishes
    {draws : ℕ → Draw Failure Stream} {property : Stream → Prop} {largest : ℕ}
    (grows : ∀ rounds more, rounds ≤ more → ∀ bound stream,
        Extends unfinished (draws rounds bound stream)
          (draws more bound stream))
    (finishes : ∀ bound stream, 0 < bound → bound ≤ largest → property stream →
        Finishes unfinished (draws · bound stream))
    (keeps : ∀ rounds bound stream drawn rest, property stream →
        draws rounds bound stream = .ok (drawn, rest) → property rest)
    (small : place + 1 ≤ largest)
    (items : List Item) (holds : property stream) :
    Finishes unfinished
      (fun rounds => shuffleDown (draws rounds) place items stream) := by
  induction place generalizing items stream with
  | zero =>
      apply Finishes.of_const
      exact fun equal => nomatch equal
  | succ place ih =>
      apply Finishes.bind
      · exact finishes (place + 2) stream (Nat.succ_pos _) small holds
      · exact fun rounds more later => grows rounds more later _ _
      · rintro result ⟨rounds, drawn⟩
        exact ih ((Nat.le_succ _).trans small) _
          (keeps rounds _ stream result.1 result.2 holds drawn)

end Eris.Foundation
