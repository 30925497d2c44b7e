import Mathlib

/-!
# Checked machine arithmetic in an undoing error monad

A computation either returns a value or reverts, and a revert discards every
effect of the call it happens in.  This module fixes that monad, the checked
operations on fixed-width words which revert on overflow, underflow and
division by zero, and one inversion lemma for each of them.

Every inversion lemma speaks about natural numbers only: a checked operation
returns `result` exactly when the exact operation on the underlying numbers
equals `result.toNat`.  Peeling a computation apart therefore leaves plain
arithmetic facts.
-/

namespace Eris.Foundation.Checked

/-- Why a call was undone: a machine check failed, or the code gave a reason. -/
inductive Revert (Reason : Type) where
  | panic
  | reason (given : Reason)
deriving DecidableEq, Repr

/-- A computation which may undo the call it happens in. -/
abbrev Outcome (Reason : Type) (Value : Type) := Except (Revert Reason) Value

variable {Reason First Second : Type}

theorem bind_eq_ok
    {first : Outcome Reason First} {next : First → Outcome Reason Second}
    {result : Second} :
    first >>= next = .ok result ↔
      ∃ value, first = .ok value ∧ next value = .ok result := by
  cases first with
  | error failure =>
      simp [bind, Except.bind]
  | ok value =>
      simp [bind, Except.bind]

theorem ok_bind
    (value : First) (next : First → Outcome Reason Second) :
    ((.ok value : Outcome Reason First) >>= next) = next value :=
  rfl

theorem pure_eq_ok {value result : First} :
    (pure value : Outcome Reason First) = .ok result ↔ value = result := by
  simp [pure, Except.pure]

theorem map_eq_ok
    {change : First → Second} {outcome : Outcome Reason First}
    {result : Second} :
    change <$> outcome = .ok result ↔
      ∃ value, outcome = .ok value ∧ change value = result := by
  cases outcome with
  | error failure => simp [Functor.map, Except.map]
  | ok value => simp [Functor.map, Except.map]

theorem mapM_eq_ok
    {compute : First → Outcome Reason Second}
    {inputs : List First} {results : List Second} :
    inputs.mapM compute = .ok results ↔
      List.Forall₂ (fun input result => compute input = .ok result)
        inputs results := by
  induction inputs generalizing results with
  | nil =>
      rw [List.mapM_nil, pure_eq_ok, List.forall₂_nil_left_iff]
      exact eq_comm
  | cons input rest ih =>
      simp only [List.mapM_cons, bind_eq_ok, pure_eq_ok,
        ih, List.forall₂_cons_left_iff]
      constructor
      · rintro ⟨head, headOk, tail, tailOk, rfl⟩
        exact ⟨head, tail, headOk, tailOk, rfl⟩
      · rintro ⟨head, tail, headOk, tailOk, rfl⟩
        exact ⟨head, headOk, tail, tailOk, rfl⟩

theorem exists_mapM_eq_ok
    {compute : First → Outcome Reason Second} {inputs : List First}
    (each : ∀ input ∈ inputs, ∃ result, compute input = .ok result) :
    ∃ results, inputs.mapM compute = .ok results := by
  induction inputs with
  | nil => exact ⟨[], rfl⟩
  | cons input rest ih =>
      rcases each input List.mem_cons_self with ⟨head, headOk⟩
      rcases ih fun other member =>
        each other (List.mem_cons_of_mem _ member) with ⟨tail, tailOk⟩
      refine ⟨head :: tail, ?_⟩
      rw [List.mapM_cons, headOk, ok_bind, tailOk]
      rfl

section Folds

variable {Item : Type} {step : First → Item → Outcome Reason First}

theorem foldlM_measured
    {Measure : Type} [AddCommMonoid Measure]
    (measure : First → Measure) (weight : Item → Measure)
    (each : ∀ state item next, step state item = .ok next →
      measure next = measure state + weight item)
    {items : List Item} {start final : First}
    (ran : items.foldlM step start = .ok final) :
    measure final = measure start + (items.map weight).sum := by
  induction items generalizing start with
  | nil =>
      rw [List.foldlM_nil, pure_eq_ok] at ran
      rw [ran, List.map_nil, List.sum_nil, add_zero]
  | cons item rest ih =>
      rw [List.foldlM_cons, bind_eq_ok] at ran
      rcases ran with ⟨next, first, others⟩
      rw [ih others, each _ _ _ first, List.map_cons, List.sum_cons, add_assoc]

theorem foldlM_followed
    {follower : Second → Item → Outcome Reason Second}
    {Related : First → Second → Prop}
    (each : ∀ state other item next, Related state other →
      step state item = .ok next →
        ∃ next', follower other item = .ok next' ∧ Related next next')
    {items : List Item} {start final : First} {other : Second}
    (related : Related start other)
    (ran : items.foldlM step start = .ok final) :
    ∃ final', items.foldlM follower other = .ok final' ∧
      Related final final' := by
  induction items generalizing start other with
  | nil =>
      rw [List.foldlM_nil, pure_eq_ok] at ran
      exact ⟨other, rfl, ran ▸ related⟩
  | cons item rest ih =>
      rw [List.foldlM_cons, bind_eq_ok] at ran
      rcases ran with ⟨next, first, others⟩
      rcases each _ _ _ _ related first with ⟨next', first', related'⟩
      rcases ih related' others with
        ⟨final', others', relatedFinal⟩
      refine ⟨final', ?_, relatedFinal⟩
      rw [List.foldlM_cons, first', ok_bind]
      exact others'

end Folds

def require
    (condition : Prop) [Decidable condition] (given : Reason) :
    Outcome Reason Unit :=
  if condition then .ok () else .error (.reason given)

@[simp]
theorem require_eq_ok
    {condition : Prop} [Decidable condition] {given : Reason} {result : Unit} :
    require condition given = .ok result ↔ condition := by
  by_cases holds : condition <;> simp [require, holds]

/-- What holds of the value a computation returns, if it returns one. -/
instance decidableOfOk
    (outcome : Outcome Reason First) (holds : First → Prop)
    [DecidablePred holds] :
    Decidable (∀ value, outcome = .ok value → holds value) :=
  match outcome with
  | .error _ => .isTrue fun _ equal => by cases equal
  | .ok value =>
      decidable_of_iff (holds value)
        ⟨fun here other equal => Except.ok.inj equal ▸ here,
          fun always => always value rfl⟩

theorem toOption_eq_some {outcome : Outcome Reason First} {value : First} :
    outcome.toOption = some value ↔ outcome = .ok value := by
  cases outcome with
  | error failure => simp [Except.toOption]
  | ok other => simp [Except.toOption]

section Words

variable {width : Nat}

def checkedAdd (left right : BitVec width) :
    Outcome Reason (BitVec width) :=
  if left.toNat + right.toNat < 2 ^ width then .ok (left + right)
  else .error .panic

/-- Subtraction which panics on underflow. -/
def checkedSub (left right : BitVec width) :
    Outcome Reason (BitVec width) :=
  if right.toNat ≤ left.toNat then .ok (left - right)
  else .error .panic

/-- Multiplication which panics on overflow. -/
def checkedMul (left right : BitVec width) :
    Outcome Reason (BitVec width) :=
  if left.toNat * right.toNat < 2 ^ width then .ok (left * right)
  else .error .panic

/-- Division which panics on a zero divisor. -/
def checkedDiv (left right : BitVec width) :
    Outcome Reason (BitVec width) :=
  if right.toNat = 0 then .error .panic
  else .ok (left / right)

@[simp]
theorem checkedAdd_eq_ok {left right result : BitVec width} :
    (checkedAdd left right : Outcome Reason _) = .ok result ↔
      left.toNat + right.toNat = result.toNat := by
  unfold checkedAdd
  split
  · next fits =>
      rw [Except.ok.injEq, ← BitVec.toNat_inj, BitVec.toNat_add_of_lt fits]
  · next overflows =>
      have bound := result.isLt
      simp only [reduceCtorEq, false_iff]
      omega

@[simp]
theorem checkedSub_eq_ok {left right result : BitVec width} :
    (checkedSub left right : Outcome Reason _) = .ok result ↔
      result.toNat + right.toNat = left.toNat := by
  unfold checkedSub
  split
  · next fits =>
      rw [Except.ok.injEq, ← BitVec.toNat_inj,
        BitVec.toNat_sub_of_le (BitVec.le_def.mpr fits)]
      omega
  · next underflows =>
      simp only [reduceCtorEq, false_iff]
      omega

@[simp]
theorem checkedMul_eq_ok {left right result : BitVec width} :
    (checkedMul left right : Outcome Reason _) = .ok result ↔
      left.toNat * right.toNat = result.toNat := by
  unfold checkedMul
  split
  · next fits =>
      rw [Except.ok.injEq, ← BitVec.toNat_inj, BitVec.toNat_mul_of_lt fits]
  · next overflows =>
      have bound := result.isLt
      simp only [reduceCtorEq, false_iff]
      omega

@[simp]
theorem checkedDiv_eq_ok {left right result : BitVec width} :
    (checkedDiv left right : Outcome Reason _) = .ok result ↔
      0 < right.toNat ∧ left.toNat / right.toNat = result.toNat := by
  unfold checkedDiv
  split
  · next zero =>
      simp [zero]
  · next nonzero =>
      rw [Except.ok.injEq, ← BitVec.toNat_inj, BitVec.toNat_udiv]
      simp [Nat.pos_of_ne_zero nonzero]

end Words

end Eris.Foundation.Checked
