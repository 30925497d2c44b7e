import Eris.Foundation.ArraySort

/-!
# Feeding logs in chain order

A reader of a chain's logs sorts what each call hands to it by position, and
folds its step over the result.  Parts of a sequence which is in chain order
are read like the whole, and reading a sequence up to a block is reading the
first part of it.

Positions are block numbers with log indexes, in lexicographic order; logs
of one position keep the order in which they were given.
-/

namespace Eris.Foundation.LogFeed

variable {Log State : Type}

abbrev Position := ℕ ×ₗ ℕ

variable (position : Log → Position)

/-- One log stands no later than another one. -/
def NoLater (first second : Log) : Prop := position first ≤ position second

instance : DecidableRel (NoLater position) :=
  fun first second =>
    inferInstanceAs (Decidable (position first ≤ position second))

instance : Std.Total (NoLater position) :=
  ⟨fun first second => le_total (position first) (position second)⟩

instance : IsTrans Log (NoLater position) :=
  ⟨fun _ _ _ before after => le_trans before after⟩

def ordered (logs : List Log) : List Log :=
  logs.insertionSort (NoLater position)

def blockOf (log : Log) : Nat := (ofLex (position log)).1

/-- The logs of a sequence up to a block. -/
def through (block : Nat) (logs : List Log) : List Log :=
  logs.filter (blockOf position · ≤ block)

/-- The logs of a sequence after a block. -/
def beyond (block : Nat) (logs : List Log) : List Log :=
  logs.filter (block < blockOf position ·)

/-- Every part of a sequence stands before the parts after it. -/
def InOrder (parts : List (List Log)) : Prop :=
  parts.Pairwise fun earlier later =>
    ∀ first ∈ earlier, ∀ second ∈ later, NoLater position first second

instance (parts : List (List Log)) : Decidable (InOrder position parts) :=
  inferInstanceAs (Decidable (List.Pairwise _ parts))

variable {position} {logs first second : List Log} {log other : Log}

@[simp]
theorem mem_ordered : log ∈ ordered position logs ↔ log ∈ logs :=
  List.mem_insertionSort (NoLater position)

theorem ordered_pairwise :
    (ordered position logs).Pairwise (NoLater position) :=
  List.pairwise_insertionSort (NoLater position) logs

theorem ordered_append
    (before :
      ∀ earlier ∈ first, ∀ later ∈ second, NoLater position earlier later) :
    ordered position (first ++ second) =
      ordered position first ++ ordered position second :=
  StableSort.insertionSort_append before

theorem ordered_flatten
    {parts : List (List Log)} (inOrder : InOrder position parts) :
    ordered position parts.flatten =
      (parts.map (ordered position)).flatten := by
  induction parts with
  | nil => rfl
  | cons part rest ih =>
      rcases List.pairwise_cons.1 inOrder with ⟨before, later⟩
      rw [List.flatten_cons, List.map_cons, List.flatten_cons, ← ih later]
      apply ordered_append
      intro earlier here other member
      rcases List.mem_flatten.1 member with ⟨part, listed, inside⟩
      exact before part listed earlier here other inside

/-- Sorting is stable: what is kept of a sorted sequence is the sorted kept
part. -/
theorem ordered_filter (keep : Log → Bool) :
    ordered position (logs.filter keep) = (ordered position logs).filter keep :=
  StableSort.filter_insertionSort keep

theorem blockOf_le (before : NoLater position log other) :
    blockOf position log ≤ blockOf position other := by
  rcases Prod.Lex.le_iff.1 before with less | ⟨same, -⟩
  · exact less.le
  · exact same.le

theorem pairwise_split
    (block : Nat) (sorted : logs.Pairwise (NoLater position)) :
    logs = through position block logs ++ beyond position block logs := by
  unfold through beyond
  induction logs with
  | nil => rfl
  | cons log rest ih =>
      rcases List.pairwise_cons.1 sorted with ⟨first, later⟩
      by_cases early : blockOf position log ≤ block
      · rw [List.filter_cons_of_pos (by simpa using early),
          List.filter_cons_of_neg (by simpa using early),
          List.cons_append, ← ih later]
      · have late :
            ∀ candidate ∈ log :: rest, block < blockOf position candidate := by
          intro candidate member
          rcases List.mem_cons.1 member with rfl | inside
          · exact not_le.1 early
          · exact lt_of_lt_of_le (not_le.1 early)
              (blockOf_le (first candidate inside))
        rw [List.filter_eq_nil_iff.2
          (fun candidate member => by
              simpa using late candidate member),
          List.filter_eq_self.2
            (fun candidate member => by
              simpa using late candidate member),
          List.nil_append]

theorem ordered_split (block : Nat) :
    ordered position logs = ordered position (through position block logs) ++
        ordered position (beyond position block logs) := by
  rw [through, beyond, ordered_filter, ordered_filter]
  exact pairwise_split block ordered_pairwise

/-- Fold a step over the logs of a call, in chain order. -/
def feed
    (position : Log → Position) (step : State → Log → State)
    (state : State) (logs : List Log) : State :=
  (ordered position logs).foldl step state

variable {step : State → Log → State} {state : State}

theorem feed_parts
    {parts : List (List Log)} (inOrder : InOrder position parts) :
    parts.foldl (feed position step) state =
      feed position step state parts.flatten := by
  unfold feed
  rw [ordered_flatten inOrder, List.foldl_flatten, List.foldl_map]

theorem mem_beyond {block : Nat} :
    log ∈ beyond position block logs ↔
      log ∈ logs ∧ block < blockOf position log := by
  simp [beyond]

theorem mem_through {block : Nat} :
    log ∈ through position block logs ↔
      log ∈ logs ∧ blockOf position log ≤ block := by
  simp [through]

end Eris.Foundation.LogFeed
