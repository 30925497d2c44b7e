import Eris.Competition.LotteryStream
import Eris.Foundation.Shuffling

/-!
# The lottery is unbiased

`core/src/competition/schedule.ts`, `HashStream.uniformInt` and
`HashStream.shuffle`.  Of the words of 32 bits a draw accepts equally many for
each of its results, and more than half of all words.  A shuffle makes its
draws wherever earlier shuffles have left the stream, and what it makes of
them stands for each permutation once.
-/

namespace Eris.Competition.Unbiased

open Foundation LotteryStream

variable {Name : Type}

/-- What the rejection rule makes of one word. -/
def accept (bound : ℕ) [NeZero bound] (word : ℕ) : Option (Fin bound) :=
  if word < limit bound then some (Fin.ofNat bound word) else none

theorem uniformInt_succ
    (sha256 : Digest) (seed : String) (bound : ℕ) [NeZero bound]
    (rounds : ℕ) (stream : HashStream) :
    (uniformInt sha256 seed (rounds + 1) bound stream :
        Except (Failure Name) (Fin bound × HashStream)) =
      match accept bound (nextUint32 sha256 seed stream).1 with
      | some drawn => .ok (drawn, (nextUint32 sha256 seed stream).2)
      | none =>
          uniformInt sha256 seed rounds bound
            (nextUint32 sha256 seed stream).2 := by
  cases bound with
  | zero => exact absurd rfl (NeZero.ne 0)
  | succ bound =>
      rw [accept]
      simp only [uniformInt, reject]
      split_ifs <;> rfl

/-- The words of 32 bits with a property. -/
def wordsWith (property : ℕ → Prop) [DecidablePred property] : ℕ :=
  ((Finset.range (2 ^ 32)).filter property).card

variable {bound : ℕ} [NeZero bound]

theorem limit_le (bound : ℕ) : limit bound ≤ 2 ^ 32 := Nat.div_mul_le_self _ _

theorem accept_eq_some (word : ℕ) (result : Fin bound) :
    accept bound word = some result ↔
      word < limit bound ∧ word % bound = result := by
  rw [accept]
  split_ifs with small
  · rw [Option.some.injEq, Fin.ext_iff]
    simp [Fin.ofNat, small]
  · simp [small]

theorem wordsWith_result (result : Fin bound) :
    wordsWith (accept bound · = some result) = 2 ^ 32 / bound := by
  have positive : 0 < bound := Nat.pos_of_neZero bound
  have multiples :
      (Finset.range (2 ^ 32)).filter (accept bound · = some result) =
        (Finset.range (2 ^ 32 / bound)).image
          fun times => times * bound + result := by
    ext word
    rw [Finset.mem_filter, Finset.mem_range, accept_eq_some, Finset.mem_image]
    constructor
    · rintro ⟨-, small, rest⟩
      refine ⟨word / bound, ?_, ?_⟩
      · rw [Finset.mem_range, Nat.div_lt_iff_lt_mul positive]
        exact small
      · rw [← rest, Nat.div_add_mod']
    · rintro ⟨times, within, rfl⟩
      rw [Finset.mem_range] at within
      have small : times * bound + result < limit bound := by
        calc
          times * bound + result < times * bound + bound :=
            Nat.add_lt_add_left result.isLt _
          _ = (times + 1) * bound := (Nat.succ_mul _ _).symm
          _ ≤ limit bound := Nat.mul_le_mul_right _ within
      refine ⟨small.trans_le (limit_le bound), small, ?_⟩
      rw [Nat.mul_add_mod', Nat.mod_eq_of_lt result.isLt]
  have injective :
      Function.Injective fun times : ℕ => times * bound + result := by
    intro one other same
    exact Nat.eq_of_mul_eq_mul_right positive (Nat.add_right_cancel same)
  rw [wordsWith, multiples, Finset.card_image_of_injective _ injective,
    Finset.card_range]

theorem wordsWith_accepted :
    wordsWith (fun word => (accept bound word).isSome) = limit bound := by
  have below : (Finset.range (2 ^ 32)).filter
        (fun word => (accept bound word).isSome) =
      Finset.range (limit bound) := by
    ext word
    rw [Finset.mem_filter, Finset.mem_range, Finset.mem_range, accept]
    constructor
    · rintro ⟨-, accepted⟩
      by_contra large
      rw [if_neg large] at accepted
      cases accepted
    · intro small
      refine ⟨small.trans_le (limit_le bound), ?_⟩
      rw [if_pos small]
      rfl
  rw [wordsWith, below, Finset.card_range]

/-- For every bound a round of a draw accepts equally many words for each
result, and more than half of all; and every shuffle of different items, from
wherever the stream stands, makes draws which stand for each permutation
once. -/
theorem lottery_unbiased :
    (∀ (bound : ℕ) [NeZero bound], bound ≤ 2 ^ 32 → (∀ result : Fin bound,
        wordsWith (accept bound · = some result) = 2 ^ 32 / bound) ∧
      2 ^ 31 < wordsWith (fun word => (accept bound word).isSome) ∧
      ∀ (sha256 : Digest) (seed : String) (rounds : ℕ) (stream : HashStream),
        (uniformInt sha256 seed (rounds + 1) bound stream :
            Except (Failure Name) (Fin bound × HashStream)) =
          match accept bound (nextUint32 sha256 seed stream).1 with
          | some drawn => .ok (drawn, (nextUint32 sha256 seed stream).2)
          | none =>
              uniformInt sha256 seed rounds bound
                (nextUint32 sha256 seed stream).2) ∧
    ∀ {Item : Type} (items : List Item), items.Nodup →
      Function.Bijective (permutationOf items) ∧
      ∀ (sha256 : Digest) (seed : String) (rounds : ℕ) (stream : HashStream),
        (shuffle (uniformInt sha256 seed rounds) items stream :
            Except (Failure Name) (List Item × HashStream)) =
          (drawNumbers (uniformInt sha256 seed rounds) (items.length - 1)
            stream).map fun drawn =>
              ((permutationOf items drawn.1).1, drawn.2) := by
  constructor
  · intro bound _ small
    refine ⟨wordsWith_result, ?_, fun sha256 seed rounds stream =>
        uniformInt_succ sha256 seed bound rounds stream⟩
    rw [wordsWith_accepted]
    exact half_lt_limit (Nat.pos_of_neZero bound) small
  · intro Item items distinct
    refine ⟨permutationOf_bijective distinct, ?_⟩
    intro sha256 seed rounds stream
    exact shuffleDown_eq _ _ items stream

theorem lottery_unbiased_example :
    wordsWith (accept 6 · = some 5) = 715827882 ∧
      Function.Bijective (permutationOf [2, 3, 5]) := by
  constructor
  · exact ((@lottery_unbiased Unit).1 6 (by decide)).1 5
  · exact ((@lottery_unbiased Unit).2 [2, 3, 5] (by decide)).1

end Eris.Competition.Unbiased
