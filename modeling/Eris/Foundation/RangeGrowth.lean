import Eris.Foundation.Transition

/-!
# Growth within a range

A global amount grows while a marker moves over an ordered line.  Some places
of the line carry an amount: what has grown on the other side of them.  It is
set when the place starts to carry one, and replaced by the global amount less
itself whenever the marker crosses the place.  From two carried amounts and
the global one, what has grown while the marker was between the places can be
told, up to a constant; and as the amounts may be of any commutative group,
this is so however they wrap.
-/

namespace Eris.Foundation.RangeGrowth

open Transition

variable
    {Place : Type} [LinearOrder Place] {Growth : Type} [AddCommMonoid Growth]
    {Amount : Type} [AddCommGroup Amount]

/-- A marker, what has grown, and what some places carry. -/
structure Line (Place Amount : Type) where
  marker : Place
  total : Amount
  outside : Place → Option Amount

/-- What has grown below a place, by the amount it carries. -/
def Line.below (line : Line Place Amount) (place : Place) (carried : Amount) :
    Amount :=
  if place ≤ line.marker then carried else line.total - carried

/-- What has grown at or above a place, by the amount it carries. -/
def Line.above (line : Line Place Amount) (place : Place) (carried : Amount) :
    Amount :=
  if line.marker < place then carried else line.total - carried

/-- What has grown between two places which carry amounts. -/
def Line.inside (line : Line Place Amount) (lower upper : Place) :
    Option Amount := do
  let first ← line.outside lower
  let second ← line.outside upper
  some (line.total - line.below lower first - line.above upper second)

def Line.Within (line : Line Place Amount) (lower upper : Place) : Prop :=
  lower ≤ line.marker ∧ line.marker < upper

instance (line : Line Place Amount) (lower upper : Place) :
    Decidable (line.Within lower upper) :=
  inferInstanceAs (Decidable (_ ∧ _))

/-- A line, and what really grew while the marker was between two places. -/
structure History (Place Growth Amount : Type) where
  line : Line Place Amount
  grown : Place → Place → Growth

inductive Event (Place Growth : Type) where
  | accrue (growth : Growth)
  | initialise (place : Place)
  | clear (place : Place)
  | move (marker : Place)
  | cross (place marker : Place)

/-- The amount a place carries when it starts to. -/
def Line.opening (line : Line Place Amount) (place : Place) : Amount :=
  if place ≤ line.marker then line.total else 0

/-- A marker which moves passes no place that carries an amount. -/
def Line.Clears (line : Line Place Amount) (marker place : Place) : Prop :=
  line.outside place ≠ none → (place ≤ line.marker ↔ place ≤ marker)

variable (wrap : Growth →+ Amount)

inductive Step :
    History Place Growth Amount → Event Place Growth →
      History Place Growth Amount → Prop where
  | accrue (history : History Place Growth Amount) (growth : Growth) :
      Step history (.accrue growth)
        { line :=
            { history.line with total := history.line.total + wrap growth }
          grown := fun lower upper =>
            history.grown lower upper +
              if history.line.Within lower upper then growth else 0 }
  | initialise (history : History Place Growth Amount) {place : Place}
      (absent : history.line.outside place = none) :
      Step history (.initialise place) { history with
          line := { history.line with
              outside := Function.update history.line.outside place
                  (some (history.line.opening place)) } }
  | clear (history : History Place Growth Amount) (place : Place) :
      Step history (.clear place) { history with
          line := { history.line with
              outside := Function.update history.line.outside place none } }
  | move (history : History Place Growth Amount) {marker : Place}
      (clears : ∀ place, history.line.Clears marker place) :
      Step history (.move marker)
        { history with line := { history.line with marker := marker } }
  | cross (history : History Place Growth Amount) {place marker : Place}
      {carried : Amount}
      (found : history.line.outside place = some carried)
      (passed : place ≤ history.line.marker ↔ ¬place ≤ marker)
      (clears : ∀ other, other ≠ place → history.line.Clears marker other) :
      Step history (.cross place marker) { history with
          line := { history.line with
              marker := marker
              outside := Function.update history.line.outside place
                  (some (history.line.total - carried)) } }

/-- The histories of a line on which no place carries an amount yet. -/
def histories :
    System (History Place Growth Amount) (Event Place Growth) where
  initial history := (∀ place, history.line.outside place = none) ∧
      ∀ lower upper, history.grown lower upper = 0
  step := Step wrap

/-- Two places keep the amounts they carry. -/
def Keeps (lower upper : Place) (_ : History Place Growth Amount) :
    Event Place Growth → Prop
  | .clear place => place ≠ lower ∧ place ≠ upper
  | _ => True

variable {wrap} {history next : History Place Growth Amount}
    {event : Event Place Growth} {lower upper : Place} {told : Amount}
    {line other : Line Place Amount} {place : Place}

theorem inside_eq_some :
    line.inside lower upper = some told ↔ ∃ first second,
        line.outside lower = some first ∧ line.outside upper = some second ∧
          line.total - line.below lower first - line.above upper second =
            told := by
  unfold Line.inside
  cases line.outside lower with
  | none => simp
  | some first =>
      cases line.outside upper with
      | none => simp
      | some second => simp

theorem side_congr
    {carried : Amount} (total : other.total = line.total)
    (same : place ≤ line.marker ↔ place ≤ other.marker) :
    other.below place carried = line.below place carried ∧
      other.above place carried = line.above place carried := by
  unfold Line.below Line.above
  rw [total]
  simp only [← not_le, same, and_self]

theorem side_crossed
    {carried : Amount} (total : other.total = line.total)
    (passed : place ≤ line.marker ↔ ¬place ≤ other.marker) :
    other.below place (line.total - carried) = line.below place carried ∧
      other.above place (line.total - carried) = line.above place carried := by
  unfold Line.below Line.above
  rw [total]
  by_cases side : place ≤ other.marker
  · simp [← not_le, passed, side]
  · simp [← not_le, passed, side]

/-- What has grown on the two sides of a place is told the same. -/
def SameSides (line other : Line Place Amount) (place : Place) : Prop :=
  ∀ carried, line.outside place = some carried → ∃ changed,
      other.outside place = some changed ∧
        other.below place changed = line.below place carried ∧
          other.above place changed = line.above place carried

theorem inside_of_sameSides
    (total : other.total = line.total) (atLower : SameSides line other lower)
    (atUpper : SameSides line other upper)
    (known : line.inside lower upper = some told) :
    other.inside lower upper = some told := by
  rcases inside_eq_some.mp known with ⟨first, second, low, high, same⟩
  rcases atLower first low with ⟨low', changedLow, below, _⟩
  rcases atUpper second high with ⟨high', changedHigh, _, above⟩
  rw [inside_eq_some]
  refine ⟨low', high', changedLow, changedHigh, ?_⟩
  rw [total, below, above]
  exact same

theorem sameSides_of_clears
    (total : other.total = line.total)
    (kept : other.outside place = line.outside place)
    (clears : line.Clears other.marker place) :
    SameSides line other place := by
  intro carried found
  have present : line.outside place ≠ none := by
    rw [found]
    exact Option.some_ne_none carried
  exact ⟨carried, kept.trans found, side_congr total (clears present)⟩

theorem inside_accrue
    (ordered : lower < upper) (added : Amount)
    (known : line.inside lower upper = some told) :
    ({ line with total := line.total + added } :
        Line Place Amount).inside lower upper =
      some (told + if line.Within lower upper then added else 0) := by
  rcases inside_eq_some.mp known with ⟨first, second, low, high, rfl⟩
  rw [inside_eq_some]
  refine ⟨first, second, low, high, ?_⟩
  unfold Line.below Line.above
  dsimp only
  by_cases reached : lower ≤ line.marker
  · by_cases before : line.marker < upper
    · have within : line.Within lower upper := ⟨reached, before⟩
      simp only [if_pos reached, if_pos before, if_pos within]
      abel
    · have outside : ¬line.Within lower upper := fun within =>
        before within.2
      simp only [if_pos reached, if_neg before, if_neg outside]
      abel
  · have before : line.marker < upper := (not_le.mp reached).trans ordered
    have outside : ¬line.Within lower upper := fun within =>
      reached within.1
    simp only [if_neg reached, if_pos before, if_neg outside]
    abel

theorem inside_step
    (ordered : lower < upper) (keeps : Keeps lower upper history event)
    (step : Step wrap history event next)
    (known : history.line.inside lower upper = some told) :
    ∃ growth, next.grown lower upper = history.grown lower upper + growth ∧
        next.line.inside lower upper = some (told + wrap growth) := by
  have unchanged : next.grown lower upper = history.grown lower upper →
      next.line.inside lower upper = some told → ∃ growth,
          next.grown lower upper = history.grown lower upper + growth ∧
            next.line.inside lower upper = some (told + wrap growth) := by
    intro grown same
    exact ⟨0, by rw [grown, add_zero], by rw [same, map_zero, add_zero]⟩
  have carry : ∀ place, history.line.outside place = none →
      place ≠ lower ∧ place ≠ upper := by
    rcases inside_eq_some.mp known with ⟨first, second, low, high, _⟩
    intro place absent
    constructor
    · rintro rfl
      rw [low] at absent
      cases absent
    · rintro rfl
      rw [high] at absent
      cases absent
  have stays : ∀ (other : Line Place Amount) (place : Place),
      other.total = history.line.total → other.marker = history.line.marker →
          other.outside place = history.line.outside place →
            SameSides history.line other place := by
    intro other place total marker kept
    apply sameSides_of_clears total kept
    intro _
    rw [marker]
  cases step with
  | accrue growth =>
      refine ⟨if history.line.Within lower upper then growth else 0, rfl, ?_⟩
      rw [inside_accrue ordered (wrap growth) known]
      split
      · rfl
      · rw [map_zero]
  | initialise absent =>
      rcases carry _ absent with ⟨notLower, notUpper⟩
      apply unchanged rfl
      refine inside_of_sameSides ?_ ?_ ?_ known
      · rfl
      · exact stays _ _ rfl rfl (Function.update_of_ne notLower.symm _ _)
      · exact stays _ _ rfl rfl (Function.update_of_ne notUpper.symm _ _)
  | clear place =>
      apply unchanged rfl
      refine inside_of_sameSides ?_ ?_ ?_ known
      · rfl
      · exact stays _ _ rfl rfl (Function.update_of_ne keeps.1.symm _ _)
      · exact stays _ _ rfl rfl (Function.update_of_ne keeps.2.symm _ _)
  | move clears =>
      apply unchanged rfl
      refine inside_of_sameSides ?_ ?_ ?_ known
      · rfl
      · exact sameSides_of_clears rfl rfl (clears lower)
      · exact sameSides_of_clears rfl rfl (clears upper)
  | @cross place marker carried found passed clears =>
      apply unchanged rfl
      have sides : ∀ other, SameSides history.line { history.line with
                marker := marker
                outside := Function.update history.line.outside place
                    (some (history.line.total - carried)) } other := by
        intro other
        by_cases here : other = place
        · subst here
          intro held same
          rw [found] at same
          cases same
          exact ⟨_, Function.update_self _ _ _, side_crossed rfl passed⟩
        · exact sameSides_of_clears rfl (Function.update_of_ne here _ _)
            (clears other here)
      refine inside_of_sameSides ?_ (sides lower) (sides upper) known
      rfl

theorem inside_runs
    (ordered : lower < upper)
    (run : (histories wrap).Runs (Keeps lower upper) history next)
    (known : history.line.inside lower upper = some told) :
    ∃ growth, next.grown lower upper = history.grown lower upper + growth ∧
        next.line.inside lower upper = some (told + wrap growth) := by
  induction run with
  | refl => exact ⟨0, (add_zero _).symm, by rw [map_zero, add_zero, known]⟩
  | tail _ move ih =>
      rcases move with ⟨event, keeps, step⟩
      rcases ih with ⟨before, grown, inside⟩
      rcases inside_step ordered keeps step inside with
        ⟨added, grownNext, insideNext⟩
      refine ⟨before + added, ?_, ?_⟩
      · rw [grownNext, grown, add_assoc]
      · rw [insideNext, map_add, add_assoc]

end Eris.Foundation.RangeGrowth
