import Mathlib

/-!
# Plain objects of numbers

An object which maps names to numbers inherits some names from the prototype
of every object.  To read such a name before it is written yields something
which is not a number, and what is computed from it is not one either.  The
name of the prototype itself takes no number.

Factors which are multiplied into an object under their names leave the
product of the factors of each name.
-/

namespace Eris.Foundation.PlainObject

section Signs

variable {Number : Type} [Field Number] [LinearOrder Number]
    [IsStrictOrderedRing Number]

/-- A product of factors other than zero is positive exactly if an even
number of them is negative. -/
theorem prod_pos_of_ne_zero
    {factors : List Number} (nonzero : ∀ factor ∈ factors, factor ≠ 0) :
    0 < factors.prod ↔ Even (factors.countP fun factor => factor < 0) := by
  induction factors with
  | nil => simp
  | cons factor rest ih =>
      have here := nonzero factor List.mem_cons_self
      have later : ∀ other ∈ rest, other ≠ 0 := fun other member =>
        nonzero other (List.mem_cons_of_mem _ member)
      have product : rest.prod ≠ 0 :=
        List.prod_ne_zero fun impossible => later 0 impossible rfl
      rw [List.prod_cons, List.countP_cons]
      rcases lt_or_gt_of_ne here with negative | positive
      · rw [if_pos (decide_eq_true negative), Nat.even_add_one,
          ← ih later, not_lt]
        constructor
        · intro whole
          exact le_of_lt (neg_of_mul_pos_right whole (le_of_lt negative))
        · intro below
          exact mul_pos_of_neg_of_neg negative (lt_of_le_of_ne below product)
      · rw [if_neg (by simpa using le_of_lt positive), Nat.add_zero,
          ← ih later]
        exact mul_pos_iff_of_pos_left positive

theorem prod_pos_iff {factors : List Number} :
    0 < factors.prod ↔ (∀ factor ∈ factors, factor ≠ 0) ∧
        Even (factors.countP fun factor => factor < 0) := by
  constructor
  · intro positive
    have nonzero : ∀ factor ∈ factors, factor ≠ 0 := by
      rintro factor member rfl
      rw [List.prod_eq_zero member] at positive
      exact lt_irrefl 0 positive
    exact ⟨nonzero, (prod_pos_of_ne_zero nonzero).mp positive⟩
  · rintro ⟨nonzero, even⟩
    exact (prod_pos_of_ne_zero nonzero).mpr even

end Signs

/-- The own entries of an object; `none` in an entry is not a number. -/
abbrev Entries (Number : Type) := String → Option (Option Number)

/-- The name under which an object has its prototype. -/
def prototype : String := "__proto__"

/-- The other names which every object inherits. -/
def inherited : List String :=
  ["constructor", "hasOwnProperty", "isPrototypeOf", "propertyIsEnumerable",
    "toLocaleString", "toString", "valueOf", "__defineGetter__",
    "__defineSetter__", "__lookupGetter__", "__lookupSetter__"]

section Objects

variable {Number : Type}

def noEntries : Entries Number := fun _ => none

/-- `object[name] ?? 1` -/
def readOrOne [One Number] (object : Entries Number) (name : String) :
    Option Number :=
  match object name with
  | some own => own
  | none =>
      if name ∈ inherited ∨ name = prototype then none else some 1

/-- `object[name] = value` -/
def write
    (object : Entries Number) (name : String) (value : Option Number) :
    Entries Number :=
  if name = prototype then object
  else Function.update object name (some value)

/-- Multiply a factor into the entry of a name. -/
def scale
    [One Number] [Mul Number]
    (object : Entries Number) (name : String) (factor : Number) :
    Entries Number :=
  write object name ((readOrOne object name).map (· * factor))

/-- Every own entry is a number above zero. -/
def Positive
    [Zero Number] [LT Number] (object : Entries Number) : Prop :=
  ∀ name value, object name = some value →
    ∃ number, value = some number ∧ 0 < number

/-- Multiply factors into an object, one after the other. -/
def scaleAll
    [One Number] [Mul Number]
    (steps : List (String × Number)) (object : Entries Number) :
    Entries Number :=
  steps.foldl (fun object step => scale object step.1 step.2) object

/-- The factors which are multiplied into the entry of a name. -/
def factorsOf (steps : List (String × Number)) (name : String) :
    List Number :=
  (steps.filter (·.1 = name)).map (·.2)

theorem factorsOf_cons_self
    {rest : List (String × Number)} {name : String} {factor : Number} :
    factorsOf ((name, factor) :: rest) name =
      factor :: factorsOf rest name := by
  simp [factorsOf]

theorem factorsOf_cons_other
    {rest : List (String × Number)} {name other : String} {factor : Number}
    (different : other ≠ name) :
    factorsOf ((other, factor) :: rest) name = factorsOf rest name := by
  simp [factorsOf, different]

end Objects

section Products

variable {Number : Type} [Monoid Number]
    {steps : List (String × Number)} {object : Entries Number}
    {name other : String} {factor : Number}

theorem scale_other (different : name ≠ other) :
    scale object other factor name = object name := by
  rw [scale, write]
  split
  · rfl
  · exact Function.update_of_ne different _ _

theorem scale_self (ordinary : name ≠ prototype) :
    scale object name factor name =
      some ((readOrOne object name).map (· * factor)) := by
  rw [scale, write, if_neg ordinary, Function.update_self]

theorem scale_prototype :
    scale object prototype factor prototype = object prototype := by
  rw [scale, write, if_pos rfl]

theorem scaleAll_prototype :
    scaleAll steps object prototype = object prototype := by
  induction steps generalizing object with
  | nil => rfl
  | cons step rest ih =>
      show scaleAll rest (scale object step.1 step.2) prototype = _
      rw [ih]
      by_cases same : step.1 = prototype
      · rw [same, scale_prototype]
      · exact scale_other (Ne.symm same)

theorem scaleAll_own
    {own : Option Number} (ordinary : name ≠ prototype)
    (found : object name = some own) :
    scaleAll steps object name =
      some (own.map (· * (factorsOf steps name).prod)) := by
  induction steps generalizing object own with
  | nil =>
      show object name = _
      rw [found]
      cases own with
      | none => rfl
      | some number => simp [factorsOf]
  | cons step rest ih =>
      rcases step with ⟨other, factor⟩
      show scaleAll rest (scale object other factor) name = _
      by_cases same : other = name
      · subst same
        have read : readOrOne object other = own := by
          rw [readOrOne, found]
        have entered := @scale_self Number _ object other factor ordinary
        rw [read] at entered
        rw [ih entered, factorsOf_cons_self, List.prod_cons, Option.map_map]
        congr 2
        funext number
        exact mul_assoc number factor _
      · rw [ih ((scale_other (Ne.symm same)).trans found),
          factorsOf_cons_other same]

theorem scaleAll_untouched (untouched : factorsOf steps name = []) :
    scaleAll steps object name = object name := by
  induction steps generalizing object with
  | nil => rfl
  | cons step rest ih =>
      rcases step with ⟨other, factor⟩
      show scaleAll rest (scale object other factor) name = _
      have different : other ≠ name := by
        rintro rfl
        rw [factorsOf_cons_self] at untouched
        cases untouched
      rw [factorsOf_cons_other different] at untouched
      rw [ih untouched, scale_other (Ne.symm different)]

theorem scaleAll_touched
    (ordinary : name ≠ prototype) (absent : object name = none)
    (touched : factorsOf steps name ≠ []) :
    scaleAll steps object name = some (if name ∈ inherited then none
        else some (factorsOf steps name).prod) := by
  induction steps generalizing object with
  | nil => exact absurd rfl touched
  | cons step rest ih =>
      rcases step with ⟨other, factor⟩
      show scaleAll rest (scale object other factor) name = _
      by_cases same : other = name
      · subst same
        rw [scaleAll_own ordinary (scale_self ordinary), readOrOne, absent,
          factorsOf_cons_self, List.prod_cons]
        by_cases special : other ∈ inherited
        · simp [special]
        · simp [special, ordinary]
      · rw [factorsOf_cons_other same] at touched ⊢
        exact ih ((scale_other (Ne.symm same)).trans absent) touched

end Products

section Positive

variable {Number : Type} [Field Number] [LinearOrder Number]
    [IsStrictOrderedRing Number] {steps : List (String × Number)}

theorem positive_scaleAll :
    Positive (scaleAll steps noEntries) ↔ ∀ name, name ≠ prototype →
        (factorsOf steps name ≠ [] → name ∉ inherited) ∧
          0 < (factorsOf steps name).prod := by
  constructor
  · intro positive name ordinary
    by_cases touched : factorsOf steps name = []
    · rw [touched]
      exact ⟨fun impossible => absurd rfl impossible, one_pos⟩
    · have entry :=
        @scaleAll_touched Number _ steps noEntries name ordinary rfl touched
      rcases positive name _ entry with ⟨number, same, above⟩
      split at same
      · cases same
      · next plain =>
          cases same
          exact ⟨fun _ => plain, above⟩
  · intro each name value found
    by_cases ordinary : name = prototype
    · rw [ordinary, scaleAll_prototype] at found
      cases found
    · by_cases touched : factorsOf steps name = []
      · rw [scaleAll_untouched touched] at found
        cases found
      · have here := each name ordinary
        rw [scaleAll_touched ordinary rfl touched,
          if_neg (here.1 touched)] at found
        cases found
        exact ⟨_, rfl, here.2⟩

end Positive

end Eris.Foundation.PlainObject
