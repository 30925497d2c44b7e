import Mathlib

/-!
# Token buckets

A bucket fills at a rate up to its capacity, lazily: when something is asked
of it.  What it gives within a span of time is bounded by the capacity and
what flows in meanwhile, whatever its clock reads in between.
-/

namespace Eris.Foundation.TokenBucket

variable {Number : Type} [Field Number] [LinearOrder Number]

structure Bucket (Number : Type) where
  tokens : Number
  last : Number

variable (burst rate : Number)

def Bucket.refill (bucket : Bucket Number) (now : Number) :
    Bucket Number where
  tokens := min burst (bucket.tokens + (now - bucket.last) * rate)
  last := now

/-- The bucket gives `cost` if it holds as much. -/
def Bucket.take (bucket : Bucket Number) (cost : Number) :
    Bool × Bucket Number :=
  if bucket.tokens < cost then (false, bucket)
  else (true, { bucket with tokens := bucket.tokens - cost })

/-- A bucket is full when it is first asked. -/
def serve (bucket : Option (Bucket Number)) (asked : Number × Number) :
    Bool × Bucket Number :=
  ((bucket.getD ⟨burst, asked.1⟩).refill burst rate asked.1).take asked.2

/-- What is given at times from `first` to `final`, where each asks for a cost
at a time. -/
def given (first final : Number) :
    Option (Bucket Number) → List (Number × Number) → Number
  | _, [] => 0
  | bucket, asked :: rest =>
      (if (serve burst rate bucket asked).1 ∧ first ≤ asked.1 ∧
          asked.1 ≤ final then
        asked.2
      else 0) + given first final (some (serve burst rate bucket asked).2) rest

variable [IsStrictOrderedRing Number] {burst rate}
    {first final : Number} {start : Option (Bucket Number)}
    {asks : List (Number × Number)}

/-- One request, where what flows in bounds what the later ones are given. -/
theorem given_cons_le
    {asked : Number × Number} (flows : 0 ≤ rate) (positive : 0 ≤ asked.2)
    (later : ∀ bucket, given burst rate first final (some bucket) asks ≤
        max 0 (bucket.tokens + (final - bucket.last) * rate)) :
    given burst rate first final start (asked :: asks) ≤ max 0
        (((start.getD ⟨burst, asked.1⟩).refill burst rate asked.1).tokens +
          (final - asked.1) * rate) := by
  have rest := later (serve burst rate start asked).2
  rw [given]
  generalize full : (start.getD ⟨burst, asked.1⟩).refill burst rate asked.1 =
    filled
  rcases filled with ⟨tokens, last⟩
  cases congrArg Bucket.last full
  simp only [serve, full, Bucket.take] at rest ⊢
  split at rest
  · next short => simpa [short] using rest
  · next enough =>
      simp only [enough, if_false, true_and]
      dsimp only [Bucket.refill] at rest ⊢
      split
      · next within =>
          have inflow := mul_nonneg (sub_nonneg.2 within.2) flows
          apply le_max_of_le_right
          rcases le_max_iff.1 rest with none | some <;> linarith
      · rw [zero_add]
        refine rest.trans (max_le_max_left 0 ?_)
        linarith

theorem given_some_le
    (flows : 0 ≤ rate) (positive : ∀ asked ∈ asks, 0 ≤ asked.2)
    (bucket : Bucket Number) :
    given burst rate first final (some bucket) asks ≤
      max 0 (bucket.tokens + (final - bucket.last) * rate) := by
  induction asks generalizing bucket with
  | nil => exact le_max_left _ _
  | cons asked rest ih =>
      have later := ih fun other listed =>
          positive other (List.mem_cons_of_mem _ listed)
      refine
        (given_cons_le flows (positive asked List.mem_cons_self) later).trans
          (max_le_max_left 0 ?_)
      have filled : (bucket.refill burst rate asked.1).tokens ≤
            bucket.tokens + (asked.1 - bucket.last) * rate :=
        min_le_right _ _
      rw [Option.getD_some]
      linarith

/-- A span of time has at most a full bucket and what flows in. -/
theorem given_le
    (flows : 0 ≤ rate) (positive : ∀ asked ∈ asks, 0 ≤ asked.2) :
    given burst rate first final start asks ≤
      max 0 (burst + (final - first) * rate) := by
  induction asks generalizing start with
  | nil => exact le_max_left _ _
  | cons asked rest ih =>
      have positiveRest : ∀ other ∈ rest, 0 ≤ other.2 := fun other listed =>
        positive other (List.mem_cons_of_mem _ listed)
      by_cases within : first ≤ asked.1
      · refine (given_cons_le flows (positive asked List.mem_cons_self)
          (given_some_le flows positiveRest)).trans (max_le_max_left 0 ?_)
        have filled : ((start.getD ⟨burst, asked.1⟩).refill burst rate
              asked.1).tokens ≤ burst :=
          min_le_left _ _
        have sooner :=
          mul_le_mul_of_nonneg_right (sub_le_sub_left within final) flows
        exact add_le_add filled sooner
      · rw [given, if_neg fun served => within served.2.1, zero_add]
        exact ih positiveRest

end Eris.Foundation.TokenBucket
