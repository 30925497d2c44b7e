import Eris.Scoring.Profit

/-!
# The segments of a run

`core/src/segments.ts`.  A run is one chain; its output is cut into segments.
Rolling closes the segment at a block and opens the next one at that same
block.  A segment is scored on the slice of the interval series which belongs
to it: the boundaries it covers and, unless it starts on a boundary, the one
immediately before it.

The names, directories and times of segments are left out.
-/

namespace Eris.Period.Segments

open Foundation Scoring.Profit

/-! ## Rolling -/

/-- A segment in the index of a competition. -/
structure SegmentIndexEntry where
  seed : ℕ
  fromBlock : ℕ
  toBlock : ℕ
  deriving DecidableEq

/-- The current segment, its first block and the index of all segments. -/
structure SegmentedRun where
  segment : ℕ
  segmentStartBlock : ℕ
  index : List SegmentIndexEntry
  deriving DecidableEq

namespace SegmentedRun

def writeIndex (run : SegmentedRun) : SegmentedRun :=
  if run.index.any (·.seed = run.segment) then
    run
  else
    { run with
      index := run.index ++
          [⟨run.segment, run.segmentStartBlock, run.segmentStartBlock⟩] }

/-- A run before its first block is known. -/
def created : SegmentedRun := writeIndex ⟨0, 0, []⟩

/-- The first segment starts when the first block is known. -/
def noteFirstBlock (run : SegmentedRun) (blockNumber : ℕ) : SegmentedRun :=
  if run.segmentStartBlock ≠ 0 then
    run
  else
    writeIndex { run with segmentStartBlock := blockNumber }

/-- The index entry of the current segment, closed at a block. -/
def closed (run : SegmentedRun) (atBlock : ℕ) : SegmentIndexEntry :=
  ⟨run.segment, run.segmentStartBlock, atBlock⟩

/-- The current segment ends at a block, in place of its open entry. -/
def closeIndexEntry (run : SegmentedRun) (atBlock : ℕ) : SegmentedRun :=
  let entry := run.closed atBlock
  if run.index.any (·.seed = run.segment) then
    writeIndex { run with
        index := run.index.map fun existing =>
            if existing.seed = run.segment then entry else existing }
  else
    writeIndex { run with index := run.index ++ [entry] }

/-- Close the current segment and open the next. -/
def roll (run : SegmentedRun) (atBlock : ℕ) : SegmentedRun :=
  let closed := run.closeIndexEntry atBlock
  writeIndex { closed with
      segment := closed.segment + 1
      segmentStartBlock := atBlock }

def finish (run : SegmentedRun) (atBlock : ℕ) : SegmentedRun :=
  run.closeIndexEntry atBlock

end SegmentedRun

/-- The segments of a run which starts, rolls and finishes at these blocks. -/
def segmentsOf (start : ℕ) (rolls : List ℕ) (final : ℕ) :
    List SegmentIndexEntry :=
  ((rolls.foldl SegmentedRun.roll
    (SegmentedRun.created.noteFirstBlock start)).finish final).index

variable {Number : Type}

/-- The boundaries of a run and the values of every agent at them. -/
structure IntervalSeries (Number : Type) where
  boundaryBlocks : List ℕ
  valuesByAgent : List (String × List (Option Number))

/-- The latest index before a segment and the indices within it. -/
structure Scan where
  carried : Option ℕ
  indices : List ℕ

def Scan.look (fromBlock toBlock : ℕ) (scan : Scan) (boundary : ℕ × ℕ) :
    Scan :=
  if boundary.1 < fromBlock then
    { scan with carried := some boundary.2 }
  else if boundary.1 ≤ toBlock then
    { scan with indices := scan.indices ++ [boundary.2] }
  else
    scan

/-- The indices of the boundaries of a segment. -/
def sliceIndices (boundaryBlocks : List ℕ) (fromBlock toBlock : ℕ) :
    List ℕ :=
  let scan :=
    boundaryBlocks.zipIdx.foldl (Scan.look fromBlock toBlock) ⟨none, []⟩
  let startsOnBoundary :=
    scan.indices.head?.bind (boundaryBlocks[·]?) = some fromBlock
  match scan.carried with
  | some carried =>
      if startsOnBoundary then scan.indices else carried :: scan.indices
  | none => scan.indices

/-- The boundaries of one segment, taken out of the series of the run. -/
def sliceIntervalSeries
    (series : IntervalSeries Number) (fromBlock toBlock : ℕ) :
    IntervalSeries Number :=
  let indices := sliceIndices series.boundaryBlocks fromBlock toBlock
  { boundaryBlocks := indices.map (series.boundaryBlocks.getD · 0)
    valuesByAgent := series.valuesByAgent.map fun agent =>
        (agent.1, indices.map (agent.2.getD · none)) }

/-- The values of an agent; none when it is not in the series. -/
def IntervalSeries.valuesOf
    (series : IntervalSeries Number) (id : String) :
    List (Option Number) :=
  ((series.valuesByAgent.find? (·.1 = id)).map Prod.snd).getD []

/-- A run whose index ends with the current segment. -/
structure Listed (run : SegmentedRun) (before : List SegmentIndexEntry) :
    Prop where
  index : ∃ fromBlock toBlock,
      run.index = before ++ [⟨run.segment, fromBlock, toBlock⟩]
  earlier : ∀ entry ∈ before, entry.seed < run.segment

variable {run : SegmentedRun} {before : List SegmentIndexEntry}
    {blocks : List ℕ}

theorem Listed.any (listed : Listed run before) :
    run.index.any (·.seed = run.segment) = true := by
  rcases listed.index with ⟨fromBlock, toBlock, index⟩
  simp [index]

theorem closeIndexEntry_of_listed
    (listed : Listed run before) (atBlock : ℕ) :
    run.closeIndexEntry atBlock =
      { run with index := before ++ [run.closed atBlock] } := by
  have known := listed.any
  rcases listed.index with ⟨fromBlock, toBlock, index⟩
  have kept : before.map (fun existing =>
          if existing.seed = run.segment then
            run.closed atBlock
          else existing) =
        before := by
    apply (List.map_congr_left _).trans before.map_id
    intro entry member
    rw [if_neg (listed.earlier entry member).ne]
    rfl
  have replaced : run.index.map (fun existing =>
          if existing.seed = run.segment then
            run.closed atBlock
          else existing) =
        before ++ [run.closed atBlock] := by
    rw [index, List.map_append, kept]
    simp
  rw [SegmentedRun.closeIndexEntry, if_pos known]
  change SegmentedRun.writeIndex { run with index := run.index.map _ } = _
  rw [replaced, SegmentedRun.writeIndex, if_pos]
  simp [SegmentedRun.closed]

theorem roll_of_listed
    (listed : Listed run before) (atBlock : ℕ) :
    Listed (run.roll atBlock) (before ++ [run.closed atBlock]) ∧
      (run.roll atBlock).segmentStartBlock = atBlock ∧
        (run.roll atBlock).segment = run.segment + 1 := by
  have earlier : ∀ entry ∈ before ++ [run.closed atBlock],
      entry.seed < run.segment + 1 := by
    intro entry member
    rcases List.mem_append.1 member with inside | same
    · exact (listed.earlier entry inside).trans (Nat.lt_succ_self _)
    · rw [List.mem_singleton.1 same]
      exact Nat.lt_succ_self _
  have absent : ¬ (before ++ [run.closed atBlock]).any
      (·.seed = run.segment + 1) = true := by
    rw [List.any_eq_true]
    rintro ⟨entry, member, same⟩
    exact (earlier entry member).ne (by simpa using same)
  have rolled : run.roll atBlock = ⟨run.segment + 1, atBlock,
      before ++ [run.closed atBlock] ++
        [⟨run.segment + 1, atBlock, atBlock⟩]⟩ := by
    rw [SegmentedRun.roll, closeIndexEntry_of_listed listed]
    exact if_neg absent
  rw [rolled]
  exact ⟨⟨⟨atBlock, atBlock, rfl⟩, earlier⟩, rfl, rfl⟩

/-- The index entries of segments between cuts, numbered from one. -/
def entriesBetween (seed : ℕ) (cuts : List ℕ) : List SegmentIndexEntry :=
  ((steps cuts).zipIdx seed).map fun ends =>
    ⟨ends.2, ends.1.1, ends.1.2⟩

theorem finish_rolls
    (listed : Listed run before) (rolls : List ℕ) (final : ℕ) :
    ((rolls.foldl SegmentedRun.roll run).finish final).index = before ++
        entriesBetween run.segment
          (run.segmentStartBlock :: (rolls ++ [final])) := by
  induction rolls generalizing run before with
  | nil =>
      rw [List.foldl_nil, SegmentedRun.finish, closeIndexEntry_of_listed listed]
      rfl
  | cons atBlock rolls ih =>
      rcases roll_of_listed listed atBlock with
        ⟨listedNext, startBlock, segment⟩
      rw [List.foldl_cons, ih listedNext, startBlock,
        segment, List.append_assoc]
      rfl

/-- The segments of a run lie between its start, its rolls and its end, in
order, and share their ends. -/
theorem segmentsOf_eq (start : ℕ) (rolls : List ℕ) (final : ℕ) :
    segmentsOf start rolls final =
      entriesBetween 0 (start :: (rolls ++ [final])) := by
  have noted :
      SegmentedRun.created.noteFirstBlock start = ⟨0, start, [⟨0, 0, 0⟩]⟩ :=
    rfl
  have listed : Listed (SegmentedRun.created.noteFirstBlock start) [] := by
    rw [noted]
    exact ⟨⟨0, 0, rfl⟩, List.forall_mem_nil _⟩
  rw [segmentsOf, finish_rolls listed, List.nil_append, noted]

/-! ## A slice is a window of the series -/

section Slice

variable {fromBlock toBlock : ℕ}

theorem look_below
    (below : ∀ block ∈ blocks, block < fromBlock) (index : ℕ) (scan : Scan) :
    (blocks.zipIdx index).foldl (Scan.look fromBlock toBlock) scan =
      if blocks = [] then scan
      else { scan with carried := some (index + blocks.length - 1) } := by
  induction blocks generalizing index scan with
  | nil => rfl
  | cons block rest ih =>
      rw [List.forall_mem_cons] at below
      rw [List.zipIdx_cons, List.foldl_cons, ih below.2,
        Scan.look, if_pos below.1, if_neg (List.cons_ne_nil _ _)]
      split
      · rename_i last
        simp [last]
      · simp only [List.length_cons]
        congr 2
        omega

theorem look_within
    (within : ∀ block ∈ blocks, fromBlock ≤ block ∧ block ≤ toBlock)
    (index : ℕ) (scan : Scan) :
    (blocks.zipIdx index).foldl (Scan.look fromBlock toBlock) scan = { scan with
        indices := scan.indices ++ List.range' index blocks.length } := by
  induction blocks generalizing index scan with
  | nil => simp
  | cons block rest ih =>
      rw [List.forall_mem_cons] at within
      rw [List.zipIdx_cons, List.foldl_cons, ih within.2, Scan.look,
        if_neg (not_lt.2 within.1.1), if_pos within.1.2, List.length_cons,
        List.range'_succ, List.append_assoc]
      rfl

theorem look_above
    (above : ∀ block ∈ blocks, toBlock < block)
    (ordered : fromBlock ≤ toBlock) (index : ℕ) (scan : Scan) :
    (blocks.zipIdx index).foldl (Scan.look fromBlock toBlock) scan = scan := by
  induction blocks generalizing index scan with
  | nil => rfl
  | cons block rest ih =>
      rw [List.forall_mem_cons] at above
      rw [List.zipIdx_cons, List.foldl_cons, Scan.look,
        if_neg (not_lt.2 (ordered.trans above.1.le)),
        if_neg (not_le.2 above.1), ih above.2]

theorem split_below
    (increasing : blocks.Pairwise (· < ·)) (bound : ℕ) :
    ∃ lower upper, blocks = lower ++ upper ∧ (∀ block ∈ lower, block < bound) ∧
        ∀ block ∈ upper, bound ≤ block := by
  induction blocks with
  | nil => exact ⟨[], [], rfl, by simp, by simp⟩
  | cons block rest ih =>
      rcases List.pairwise_cons.1 increasing with ⟨first, increasingRest⟩
      by_cases small : block < bound
      · rcases ih increasingRest with
          ⟨lower, upper, rfl, below, above⟩
        exact ⟨block :: lower, upper, rfl,
          List.forall_mem_cons.2 ⟨small, below⟩, above⟩
      · refine ⟨[], block :: rest, rfl, by simp, ?_⟩
        intro other listed
        rcases List.mem_cons.1 listed with rfl | later
        · exact not_lt.1 small
        · exact (not_lt.1 small).trans (first other later).le

/-- How many boundaries lie at or before a block. -/
def reached (blocks : List ℕ) (block : ℕ) : ℕ := blocks.countP (· ≤ block)

theorem reached_append (first second : List ℕ) (block : ℕ) :
    reached (first ++ second) block =
      reached first block + reached second block :=
  List.countP_append

theorem reached_of_le
    {block : ℕ} (all : ∀ other ∈ blocks, other ≤ block) :
    reached blocks block = blocks.length :=
  List.countP_eq_length.2 (by simpa using all)

theorem reached_of_lt
    {block : ℕ} (none : ∀ other ∈ blocks, block < other) :
    reached blocks block = 0 :=
  List.countP_eq_zero.2 (by simpa using none)

/-- The indices of a segment run from the last boundary at or before its
start to the last boundary at or before its end. -/
theorem sliceIndices_eq
    (increasing : blocks.Pairwise (· < ·)) (ordered : fromBlock ≤ toBlock) :
    sliceIndices blocks fromBlock toBlock =
      List.range' (reached blocks fromBlock - 1)
        (reached blocks toBlock - (reached blocks fromBlock - 1)) := by
  rcases split_below increasing fromBlock with
    ⟨lower, rest, rfl, below, noLower⟩
  have increasingRest := (List.pairwise_append.1 increasing).2.1
  rcases split_below increasingRest (toBlock + 1) with
    ⟨middle, upper, rfl, inside, above⟩
  have within : ∀ block ∈ middle, fromBlock ≤ block ∧ block ≤ toBlock :=
    fun block listed =>
      ⟨noLower block (List.mem_append_left _ listed),
        Nat.le_of_lt_succ (inside block listed)⟩
  have scanned : (lower ++ (middle ++ upper)).zipIdx.foldl
        (Scan.look fromBlock toBlock) ⟨none, []⟩ =
      ⟨if lower = [] then none else some (lower.length - 1),
        List.range' lower.length middle.length⟩ := by
    rw [List.zipIdx_append, List.zipIdx_append, List.foldl_append,
      List.foldl_append, look_below below, look_within within,
      look_above above ordered]
    split
    · simp
    · simp
  have lowerFrom : reached lower fromBlock = lower.length :=
    reached_of_le fun block listed => (below block listed).le
  have lowerTo : reached lower toBlock = lower.length :=
    reached_of_le fun block listed =>
      (below block listed).le.trans ordered
  have middleTo : reached middle toBlock = middle.length :=
    reached_of_le fun block listed => (within block listed).2
  have upperTo : reached upper toBlock = 0 := reached_of_lt above
  have upperFrom : reached upper fromBlock = 0 :=
    reached_of_lt fun block listed => ordered.trans_lt (above block listed)
  unfold sliceIndices
  simp only [scanned, reached_append, lowerFrom, lowerTo, middleTo,
    upperTo, upperFrom, Nat.add_zero]
  cases middle with
  | nil =>
      rw [reached_of_lt (List.forall_mem_nil _)]
      cases lower with
      | nil => rfl
      | cons block lower => simp
  | cons block middle =>
      have laterFrom : ∀ other ∈ middle, fromBlock < other := by
        intro other listed
        have increasingMiddle := (List.pairwise_append.1 increasingRest).1
        exact (within block List.mem_cons_self).1.trans_lt
          ((List.pairwise_cons.1 increasingMiddle).1 other listed)
      have opening : (lower ++ (block :: middle ++ upper))[lower.length]? =
          some block := by
        simp
      simp only [List.length_cons, List.range'_succ, List.head?_cons,
        Option.bind_some, opening, Option.some.injEq]
      by_cases starts : block = fromBlock
      · have first : reached (block :: middle) fromBlock = 1 := by
          have later : reached middle fromBlock = 0 := reached_of_lt laterFrom
          rw [reached, List.countP_cons_of_pos (by simp [starts])]
          rw [← reached, later]
        simp only [first, if_pos starts, Nat.add_sub_cancel,
          Nat.add_sub_cancel_left, List.range'_succ]
        split <;> rfl
      · have first : reached (block :: middle) fromBlock = 0 := by
          apply reached_of_lt
          intro other listed
          rcases List.mem_cons.1 listed with rfl | inside
          · exact lt_of_le_of_ne (within other List.mem_cons_self).1
              (Ne.symm starts)
          · exact laterFrom other inside
        simp only [first, if_neg starts, Nat.add_zero]
        cases lower with
        | nil => simp [List.range'_succ]
        | cons other lower =>
            have size : lower.length + 1 + (middle.length + 1) - lower.length =
                middle.length + 2 := by
              omega
            simp [size, List.range'_succ]

theorem reached_mono
    (blocks : List ℕ) {earlier later : ℕ} (ordered : earlier ≤ later) :
    reached blocks earlier ≤ reached blocks later := by
  apply List.countP_mono_left
  intro block _ small
  rw [decide_eq_true_eq] at small ⊢
  exact small.trans ordered

theorem reached_le (blocks : List ℕ) (block : ℕ) :
    reached blocks block ≤ blocks.length :=
  List.countP_le_length

theorem slice_eq_window
    {Value : Type} (increasing : blocks.Pairwise (· < ·))
    (ordered : fromBlock ≤ toBlock)
    {values : List Value} (sameLength : values.length = blocks.length)
    (absent : Value) :
    (sliceIndices blocks fromBlock toBlock).map (values.getD · absent) =
      window (reached blocks fromBlock - 1) (reached blocks toBlock)
        values := by
  have monotone := reached_mono blocks ordered
  have bounded := reached_le blocks toBlock
  rw [sliceIndices_eq increasing ordered, map_range'_getD (by omega)]
  congr 1
  omega

end Slice

/-! ## Accounting -/

section Accounting

variable
  {series : IntervalSeries Number} {start final : ℕ} {rolls : List ℕ}

theorem segmentsOf_ends :
    (segmentsOf start rolls final).map
        (fun entry => (entry.fromBlock, entry.toBlock)) =
      steps (start :: (rolls ++ [final])) := by
  rw [segmentsOf_eq, entriesBetween, List.map_map]
  apply List.zipIdx_map_fst 0

theorem segment_ordered
    (ordered : (start :: (rolls ++ [final])).Pairwise (· ≤ ·))
    {segment : SegmentIndexEntry}
    (listed : segment ∈ segmentsOf start rolls final) :
    segment.fromBlock ≤ segment.toBlock := by
  have ends : (segment.fromBlock, segment.toBlock) ∈
      steps (start :: (rolls ++ [final])) := by
    rw [← segmentsOf_ends]
    exact List.mem_map_of_mem listed
  exact related_of_mem_steps ordered ends

/-- The slices of what is listed by boundary have, in order, the steps of
the whole. -/
theorem flatMap_slices
    {Value : Type} (increasing : blocks.Pairwise (· < ·))
    (ordered : (start :: (rolls ++ [final])).Pairwise (· ≤ ·))
    (within : ∀ block ∈ blocks, start ≤ block ∧ block ≤ final)
    {values : List Value} (sameLength : values.length = blocks.length)
    (absent : Value) :
    (segmentsOf start rolls final).flatMap (fun segment =>
          steps ((sliceIndices blocks segment.fromBlock segment.toBlock).map
              (values.getD · absent))) =
      steps values := by
  have consecutive :
      ∀ ends ∈ steps (start :: (rolls ++ [final])), ends.1 ≤ ends.2 := by
    exact fun ends listed => related_of_mem_steps ordered listed
  have atStart : reached blocks start - 1 = 0 := by
    cases blocks with
    | nil => rfl
    | cons block rest =>
        have none : reached rest start = 0 := by
          apply reached_of_lt
          intro other listed
          exact (within block List.mem_cons_self).1.trans_lt
            ((List.pairwise_cons.1 increasing).1 other listed)
        have few := reached_append [block] rest start
        have one := reached_le [block] start
        rw [List.singleton_append, none] at few
        rw [List.length_singleton] at one
        omega
  have atEnd : reached blocks final = blocks.length :=
    reached_of_le fun block listed => (within block listed).2
  calc
    (segmentsOf start rolls final).flatMap
        (fun segment =>
          steps
            ((sliceIndices blocks segment.fromBlock segment.toBlock).map
              (values.getD · absent))) =
        (steps (start :: (rolls ++ [final]))).flatMap
          (fun ends =>
            steps
              ((sliceIndices blocks ends.1 ends.2).map
                (values.getD · absent))) := by
      rw [← segmentsOf_ends, List.flatMap_map]
    _ = (steps (start :: (rolls ++ [final]))).flatMap
        (fun ends =>
            window (reached blocks ends.1 - 1) (reached blocks ends.2 - 1)
              (steps values)) := by
      apply List.flatMap_congr
      intro ends listed
      rw [slice_eq_window increasing (consecutive ends listed) sameLength,
        steps_window]
    _ = (steps
        ((start :: (rolls ++ [final])).map
          (reached blocks · - 1))).flatMap
        (fun ends => window ends.1 ends.2 (steps values)) := by
      rw [steps_map, List.flatMap_map]
      rfl
    _ = steps values := by
      have places :
          ((start :: (rolls ++ [final])).map
            (reached blocks · - 1)).Pairwise (· ≤ ·) := by
        apply ordered.map
        intro earlier later before
        exact Nat.sub_le_sub_right (reached_mono blocks before) 1
      rw [List.map_cons] at places ⊢
      rw [flatMap_window places, atStart]
      apply window_all
      rw [steps_length, sameLength]
      simp [atEnd]

/-- The segments of a run account for its series: each interval is in
exactly one segment, in order, and what an agent with a value at every
boundary earned in the segments adds up to what it earned in the run. -/
structure Accounted [AddCommGroup Number]
    (series : IntervalSeries Number) (segments : List SegmentIndexEntry) :
    Prop where
  intervals : segments.flatMap (fun segment =>
          steps (sliceIntervalSeries series segment.fromBlock
              segment.toBlock).boundaryBlocks) =
      steps series.boundaryBlocks
  once : ∀ interval ∈ steps series.boundaryBlocks,
      ∃! place : Fin segments.length, interval ∈ steps
          (sliceIntervalSeries series (segments.get place).fromBlock
            (segments.get place).toBlock).boundaryBlocks
  values : ∀ id, (series.valuesOf id).length = series.boundaryBlocks.length →
      segments.flatMap (fun segment =>
              steps ((sliceIntervalSeries series segment.fromBlock
                  segment.toBlock).valuesOf id)) =
          steps (series.valuesOf id)
  profit : ∀ id, (series.valuesOf id).length = series.boundaryBlocks.length →
      (∀ value ∈ series.valuesOf id, value ≠ none) → (segments.map
          (fun segment =>
                earned ((sliceIntervalSeries series segment.fromBlock
                    segment.toBlock).valuesOf id))).sum =
            earned (series.valuesOf id)

theorem valuesOf_slice
    {id : String} {fromBlock toBlock : ℕ}
    (sameLength : (series.valuesOf id).length = series.boundaryBlocks.length) :
    (sliceIntervalSeries series fromBlock toBlock).valuesOf id =
      (sliceIndices series.boundaryBlocks fromBlock toBlock).map
        ((series.valuesOf id).getD · none) := by
  cases found : series.valuesByAgent.find? (·.1 = id) with
  | none =>
      have absent : series.valuesOf id = [] := by
        rw [IntervalSeries.valuesOf, found]
        rfl
      rw [absent] at sameLength
      have empty := List.length_eq_zero_iff.1 sameLength.symm
      simp only [IntervalSeries.valuesOf, sliceIntervalSeries,
        List.find?_map, empty]
      simp [sliceIndices, found]
  | some agent =>
      have present : series.valuesOf id = agent.2 := by
        rw [IntervalSeries.valuesOf, found]
        rfl
      rw [present]
      simp only [IntervalSeries.valuesOf, sliceIntervalSeries,
        List.find?_map, Function.comp_def, found]
      rfl

theorem sum_flatMap_changes
    [AddCommGroup Number] {Item : Type} (items : List Item)
    (parts : Item → List (Number × Number)) :
    (items.map fun item =>
        ((parts item).map fun step => step.2 - step.1).sum).sum =
      ((items.flatMap parts).map fun step => step.2 - step.1).sum := by
  induction items with
  | nil => rfl
  | cons item items ih =>
      rw [List.map_cons, List.sum_cons, ih,
        List.flatMap_cons, List.map_append, List.sum_append]

end Accounting

end Eris.Period.Segments
