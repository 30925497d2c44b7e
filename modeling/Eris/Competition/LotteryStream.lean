import Eris.Foundation.Drawing

/-!
# The hash stream of a lottery

`core/src/competition/schedule.ts`, `HashStream`: SHA-256 in counter mode over
the lottery seed, read four bytes at a time.  Block `i` is the digest of the
seed, a colon and `i`.  A uniform integer below `n` is drawn by rejection:
words in the top partial range are skipped.

The stream is lively when small words, those below half the range, keep
coming.  On a lively stream every draw ends.
-/

namespace Eris.Competition.LotteryStream

open Foundation

variable {Name : Type}

inductive Failure (Name : Type) where
  | unfinished
  | uniformInt (bound : ℕ)
  | noRegimes
  | badCount (k : ℚ)
  | emptySeed
  | notIntegers (regime : Name)
  | repeated (regime : Name)
  | tooFew (regime : Name) (given : ℕ) (k : ℚ)
  deriving DecidableEq

/-- The text of a failure; a loop which does not end has none. -/
def Failure.message (name : Name → String) (number : ℚ → String) :
    Failure Name → Option String
  | .unfinished => none
  | .uniformInt bound => some ("uniformInt(" ++ toString bound ++ ")")
  | .noRegimes => some "the hidden set names no regimes"
  | .badCount k =>
      some ("k must be a positive integer (got " ++ number k ++ ")")
  | .emptySeed => some "the lottery seed is empty"
  | .notIntegers regime =>
      some ("hidden seeds for " ++ name regime ++ " must be integers")
  | .repeated regime =>
      some ("hidden seeds for " ++ name regime ++ " repeat")
  | .tooFew regime given k =>
      some ("regime " ++ name regime ++ " has " ++ toString given ++
          " hidden seed(s) but needs " ++ number k ++ " for k = " ++
          number k ++ ": each epoch draws its regime independently, " ++
          "so any regime can be drawn every time")

abbrev Digest := String → Vector UInt8 32

/-- The block being read, the place in it, and the next counter. -/
structure HashStream where
  block : List UInt8
  offset : ℕ
  counter : ℕ
  deriving DecidableEq

def HashStream.start : HashStream where
  block := []
  offset := 0
  counter := 0

/-- Four bytes of a block as a big-endian number. -/
def readUInt32BE (block : List UInt8) (offset : ℕ) : ℕ :=
  ((block.drop offset).take 4).foldl
    (fun value byte => value * 256 + byte.toNat) 0

variable (sha256 : Digest) (seed : String)

def digestOf (counter : ℕ) : List UInt8 :=
  (sha256 (seed ++ ":" ++ toString counter)).toList

/-- The stream with a block which holds the next word. -/
def refill (stream : HashStream) : HashStream :=
  if stream.block.length < stream.offset + 4 then
    ⟨digestOf sha256 seed stream.counter, 0, stream.counter + 1⟩
  else
    stream

def nextUint32 (stream : HashStream) : ℕ × HashStream :=
  let filled := refill sha256 seed stream
  (readUInt32BE filled.block filled.offset,
    { filled with offset := filled.offset + 4 })

/-- The largest multiple of a bound in the range of a word. -/
def limit (bound : ℕ) : ℕ := 2 ^ 32 / bound * bound

/-- Skip words until one is below the limit. -/
def reject (bound : ℕ) [NeZero bound] :
    ℕ → HashStream → Except (Failure Name) (Fin bound × HashStream)
  | 0, _ => .error .unfinished
  | rounds + 1, stream =>
      let (word, rest) := nextUint32 sha256 seed stream
      if word < limit bound then
        .ok (Fin.ofNat bound word, rest)
      else
        reject bound rounds rest

/-- A uniform integer below a bound, in at most so many rounds. -/
def uniformInt (rounds : ℕ) : Draw (Failure Name) HashStream
  | 0, _ => .error (.uniformInt 0)
  | bound + 1, stream => reject sha256 seed (bound + 1) rounds stream

variable {sha256 seed} {bound rounds position : ℕ} {stream : HashStream}

theorem reject_extends
    [NeZero bound] {more : ℕ} (later : rounds ≤ more) (stream : HashStream) :
    Extends (Failure.unfinished : Failure Name)
      (reject sha256 seed bound rounds stream)
      (reject sha256 seed bound more stream) := by
  induction rounds generalizing more stream with
  | zero => exact Or.inl rfl
  | succ rounds ih =>
      cases more with
      | zero => cases later
      | succ more =>
          simp only [reject]
          split
          · exact Extends.refl _
          · exact ih (Nat.le_of_succ_le_succ later) _

theorem uniformInt_extends
    {more : ℕ} (later : rounds ≤ more) (bound : ℕ) (stream : HashStream) :
    Extends (Failure.unfinished : Failure Name)
      (uniformInt sha256 seed rounds bound stream)
      (uniformInt sha256 seed more bound stream) := by
  cases bound with
  | zero => exact Extends.refl _
  | succ bound => exact reject_extends later stream

theorem reject_cutOnly
    [NeZero bound] (rounds : ℕ) (stream : HashStream) :
    CutOnly (Failure.unfinished : Failure Name)
      (reject sha256 seed bound rounds stream) := by
  induction rounds generalizing stream with
  | zero =>
      intro failure failed
      cases failed
      rfl
  | succ rounds ih =>
      simp only [reject]
      split
      · exact CutOnly.of_ok _
      · exact ih _

theorem uniformInt_cutOnly
    (rounds bound : ℕ) (stream : HashStream) (positive : 0 < bound) :
    CutOnly (Failure.unfinished : Failure Name)
      (uniformInt sha256 seed rounds bound stream) := by
  cases bound with
  | zero => cases positive
  | succ bound => exact reject_cutOnly rounds stream

/-- The word of a digest in counter mode at a position. -/
def wordAt (sha256 : Digest) (seed : String) (position : ℕ) : ℕ :=
  readUInt32BE (digestOf sha256 seed (position / 8)) (4 * (position % 8))

def Lively (sha256 : Digest) (seed : String) : Prop :=
  ∀ position, ∃ later, position ≤ later ∧ wordAt sha256 seed later < 2 ^ 31

/-- A stream stands before the word at a position. -/
inductive Stands (sha256 : Digest) (seed : String) :
    ℕ → HashStream → Prop
  | between (stream : HashStream)
      (spent : stream.block.length < stream.offset + 4) :
      Stands sha256 seed (8 * stream.counter) stream
  | inside (index word : ℕ) (bounded : word < 8) :
      Stands sha256 seed (8 * index + word)
        ⟨digestOf sha256 seed index, 4 * word, index + 1⟩

theorem stands_start : Stands sha256 seed 0 HashStream.start :=
  Stands.between HashStream.start (by simp [HashStream.start])

theorem digestOf_length (counter : ℕ) :
    (digestOf sha256 seed counter).length = 32 := by
  simp [digestOf]

theorem stands_after {index word : ℕ} (bounded : word < 8) :
    Stands sha256 seed (8 * index + word + 1)
      ⟨digestOf sha256 seed index, 4 * word + 4, index + 1⟩ := by
  by_cases last : word = 7
  · subst last
    have spent : (digestOf sha256 seed index).length < 4 * 7 + 4 + 4 := by
      rw [digestOf_length]
      decide
    exact Stands.between
      ⟨digestOf sha256 seed index, 4 * 7 + 4, index + 1⟩ spent
  · exact Stands.inside index (word + 1) (by omega)

theorem wordAt_inside {index word : ℕ} (bounded : word < 8) :
    wordAt sha256 seed (8 * index + word) =
      readUInt32BE (digestOf sha256 seed index) (4 * word) := by
  have block : (8 * index + word) / 8 = index := by omega
  have place : (8 * index + word) % 8 = word := by omega
  rw [wordAt, block, place]

theorem nextUint32_stands
    (stands : Stands sha256 seed position stream) :
    (nextUint32 sha256 seed stream).1 = wordAt sha256 seed position ∧
      Stands sha256 seed (position + 1) (nextUint32 sha256 seed stream).2 := by
  cases stands with
  | between stream spent =>
      have first :=
        @wordAt_inside sha256 seed stream.counter 0 (Nat.zero_lt_succ _)
      have after :=
        @stands_after sha256 seed stream.counter 0 (Nat.zero_lt_succ _)
      rw [nextUint32, refill, if_pos spent]
      exact ⟨first.symm, after⟩
  | inside index word bounded =>
      have kept : ¬ (digestOf sha256 seed index).length < 4 * word + 4 := by
        rw [digestOf_length]
        omega
      rw [nextUint32, refill, if_neg kept]
      exact ⟨(wordAt_inside bounded).symm, stands_after bounded⟩

theorem reject_stands
    [NeZero bound] {rest : HashStream} {drawn : Fin bound}
    (stands : Stands sha256 seed position stream)
    (done : reject sha256 seed bound rounds stream =
        (.ok (drawn, rest) : Except (Failure Name) _)) :
    ∃ later, Stands sha256 seed later rest := by
  induction rounds generalizing position stream with
  | zero => cases done
  | succ rounds ih =>
      have next := (nextUint32_stands stands).2
      simp only [reject] at done
      split at done
      · cases done
        exact ⟨position + 1, next⟩
      · exact ih next done

theorem uniformInt_stands
    (rounds bound : ℕ) (stream : HashStream) (drawn : Fin bound)
    (rest : HashStream)
    (stands : ∃ position, Stands sha256 seed position stream)
    (done : uniformInt sha256 seed rounds bound stream =
        (.ok (drawn, rest) : Except (Failure Name) _)) :
    ∃ position, Stands sha256 seed position rest := by
  rcases stands with ⟨position, stands⟩
  cases bound with
  | zero => cases done
  | succ bound => exact reject_stands stands done

theorem half_lt_limit
    (positive : 0 < bound) (small : bound ≤ 2 ^ 32) :
    2 ^ 31 < limit bound := by
  have fits : 1 ≤ 2 ^ 32 / bound := (Nat.one_le_div_iff positive).2 small
  have covered := Nat.div_add_mod (2 ^ 32) bound
  have rest := Nat.mod_lt (2 ^ 32) positive
  have one : bound ≤ limit bound := Nat.le_mul_of_pos_left bound fits
  have whole : limit bound + 2 ^ 32 % bound = 2 ^ 32 := by
    rw [limit, Nat.mul_comm]
    exact covered
  omega

theorem reject_ends
    [NeZero bound] {distance : ℕ} (stands : Stands sha256 seed position stream)
    (small : wordAt sha256 seed (position + distance) < limit bound)
    (enough : distance < rounds) :
    reject sha256 seed bound rounds stream ≠
      (.error .unfinished : Except (Failure Name) _) := by
  induction distance generalizing position rounds stream with
  | zero =>
      cases rounds with
      | zero => cases enough
      | succ rounds =>
          rw [Nat.add_zero, ← (nextUint32_stands stands).1] at small
          simp only [reject, if_pos small]
          exact fun equal => nomatch equal
  | succ distance ih =>
      cases rounds with
      | zero => cases enough
      | succ rounds =>
          simp only [reject]
          split
          · exact fun equal => nomatch equal
          · apply ih (nextUint32_stands stands).2
            · rw [Nat.add_right_comm]
              exact small
            · exact Nat.lt_of_succ_lt_succ enough

theorem uniformInt_finishes
    (lively : Lively sha256 seed) (bound : ℕ) (stream : HashStream)
    (positive : 0 < bound) (small : bound ≤ 2 ^ 32)
    (stands : ∃ position, Stands sha256 seed position stream) :
    Finishes (Failure.unfinished : Failure Name)
      (uniformInt sha256 seed · bound stream) := by
  rcases stands with ⟨position, stands⟩
  rcases lively position with ⟨later, ahead, low⟩
  rcases Nat.exists_eq_add_of_le ahead with ⟨distance, rfl⟩
  cases bound with
  | zero => cases positive
  | succ bound =>
      refine ⟨distance + 1, ?_⟩
      intro more enough
      exact reject_ends stands (low.trans (half_lt_limit positive small)) enough

end Eris.Competition.LotteryStream
