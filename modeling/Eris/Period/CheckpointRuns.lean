import Eris.Foundation.Transition
import Eris.Period.Checkpoints

/-!
# Checkpoints over the runs of a period

A period is run by one process after another.  A process starts afresh or
resumes from the checkpoint which the chain holds; a resume cuts the history
when the chain went back, before the writer opens its directory.  Each pass
ends with a write.  The process may die at any time, in the midst of a write
or of a cut as well, and between two processes the chain may go anywhere.

A pass comes after the blocks which the process has processed, save for its
first one: the opening report of the head may be of an old block.
-/

namespace Eris.Period.CheckpointRuns

open Foundation.Transition Checkpoints

/-- A process which runs the period: the checkpoint it resumed from, the loop
and the writer. -/
structure Process (Rest : Type) where
  resumed : Option (PeriodCheckpoint Rest)
  lastProcessedBlock : Nat
  passStarted : Bool
  lastHistoryBlock : Option Nat
  deriving DecidableEq

structure World (Rest : Type) where
  dir : ResumeDir Rest
  process : Option (Process Rest)
  deriving DecidableEq

inductive Label (Rest : Type) where
  | resume (chain : ChainView)
  | dieCutting (chain : ChainView) (removed : Nat)
  | pass (block : Nat) (hash : String) (rest : Rest) (progress : Progress)
  | die

variable {Rest : Type} (competitionId : String)

/-- A process which starts the period on a chain. -/
def started (head : Nat) : World Rest where
  dir := ⟨none, []⟩
  process := some ⟨none, head, false, none⟩

def chosen (world : World Rest) (chain : ChainView) :
    Option (PeriodCheckpoint Rest × Bool) :=
  match world.process, world.dir.state with
  | none, some state =>
      match chooseCheckpoint competitionId world.dir state chain with
      | .matched cp rewound => some (cp, rewound)
      | .refused _ => none
  | _, _ => none

/-- A process resumes from a checkpoint, after the cut. -/
def resumeFrom
    (dir : ResumeDir Rest) (cp : PeriodCheckpoint Rest) (rewound : Bool) :
    World Rest :=
  let cut := cutHistory dir cp rewound
  { dir := cut
    process := some ⟨some cp, cp.lastProcessedBlock, false, openWriter cut⟩ }

/-- A process dies when it has removed some of the files. -/
def dieCutting
    (dir : ResumeDir Rest) (cp : PeriodCheckpoint Rest) (rewound : Bool)
    (removed : Nat) : World Rest where
  dir := if rewound then
      { dir with
        history := removeFiles dir.history ((past dir cp).take removed) }
    else dir
  process := none

def pass
    (dir : ResumeDir Rest) (process : Process Rest)
    (cp : PeriodCheckpoint Rest) (progress : Progress) : World Rest :=
  let written := write process.lastHistoryBlock dir cp progress
  { dir := written.2
    process := some { process with
          lastProcessedBlock :=
            max process.lastProcessedBlock cp.lastProcessedBlock
          passStarted := true
          lastHistoryBlock := written.1 } }

/-- The loop drops a block which it has processed, once a pass has
started. -/
def dropped (process : Process Rest) (block : Nat) : Bool :=
  process.passStarted && decide (block ≤ process.lastProcessedBlock)

def perform (world : World Rest) : Label Rest → Option (World Rest)
  | .resume chain =>
      (chosen competitionId world chain).map fun choice =>
        resumeFrom world.dir choice.1 choice.2
  | .dieCutting chain removed =>
      (chosen competitionId world chain).map fun choice =>
        dieCutting world.dir choice.1 choice.2 removed
  | .pass block hash rest progress =>
      match world.process with
      | none => none
      | some process =>
          if dropped process block then none
          else some (pass world.dir process ⟨block, hash, rest⟩ progress)
  | .die => some { world with process := none }

def protocol : System (World Rest) (Label Rest) where
  initial world := ∃ head, world = started head
  step world label next := perform competitionId world label = some next

/-- The first pass of a process which resumed is not before the checkpoint it
resumed from, and on its block it sees its hash. -/
def Steady (world : World Rest) : Label Rest → Prop
  | .pass block hash _ _ =>
      ∀ process cp, world.process = some process →
        process.resumed = some cp → process.passStarted = false →
          cp.lastProcessedBlock ≤ block ∧ (block = cp.lastProcessedBlock →
              hash.toLower = cp.lastProcessedHash.toLower)
  | _ => True

variable {competitionId}
    {world : World Rest} {cp : PeriodCheckpoint Rest} {dir : ResumeDir Rest}

theorem step_cases
    {next : World Rest} {label : Label Rest}
    (step : (protocol competitionId).step world label next) :
    (∃ chain cp rewound, label = .resume chain ∧
      chosen competitionId world chain = some (cp, rewound) ∧
      next = resumeFrom world.dir cp rewound) ∨
    (∃ chain removed cp rewound, label = .dieCutting chain removed ∧
      chosen competitionId world chain = some (cp, rewound) ∧
      next = dieCutting world.dir cp rewound removed) ∨
    (∃ process block hash rest progress,
      label = .pass block hash rest progress ∧
      world.process = some process ∧ dropped process block = false ∧
      next = pass world.dir process ⟨block, hash, rest⟩ progress) ∨
    (label = .die ∧ next = { world with process := none }) := by
  cases label with
  | resume chain =>
      rcases Option.map_eq_some_iff.1 step with ⟨⟨cp, rewound⟩, chose, rfl⟩
      exact Or.inl ⟨chain, cp, rewound, rfl, chose, rfl⟩
  | dieCutting chain removed =>
      rcases Option.map_eq_some_iff.1 step with ⟨⟨cp, rewound⟩, chose, rfl⟩
      exact Or.inr (Or.inl ⟨chain, removed, cp, rewound, rfl, chose, rfl⟩)
  | pass block hash rest progress =>
      right
      right
      left
      simp only [protocol, perform] at step
      split at step
      · cases step
      · next process running =>
          split at step
          · cases step
          · next taken =>
              cases step
              exact ⟨process, block, hash, rest, progress, rfl, running,
                Bool.eq_false_of_not_eq_true taken, rfl⟩
  | die =>
      cases step
      exact Or.inr (Or.inr (Or.inr ⟨rfl, rfl⟩))

/-! ## Directories of every run -/

theorem named_step
    {next : World Rest} {label : Label Rest} (named : Named world.dir)
    (step : (protocol competitionId).step world label next) :
    Named next.dir := by
  rcases step_cases step with
    ⟨chain, cp, rewound, -, -, rfl⟩ | ⟨chain, removed, cp, rewound, -, -, rfl⟩ |
      ⟨process, block, hash, rest, progress, -, -, -, rfl⟩ | ⟨-, rfl⟩
  · exact named.cut cp rewound
  · cases rewound with
    | true => exact named.remove _
    | false => exact named
  · exact named.write _ _ _
  · exact named

theorem named_of_reachable
    {allowed : World Rest → Label Rest → Prop}
    (reachable : (protocol competitionId).Reachable allowed world) :
    Named world.dir := by
  refine @System.Reachable.invariant _ _ _ _
    (fun world => Named world.dir) _ ?_ ?_ reachable
  · rintro world ⟨head, rfl⟩
    exact ⟨fun _ listed => absurd listed List.not_mem_nil, .nil⟩
  · intro world label next named _ step
    exact named_step named step

/-- A resume starts from the newest checkpoint which the chain holds, of the
state and of the history below it. -/
theorem chosen_newest
    {chain : ChainView} {rewound : Bool} (named : Named world.dir)
    (chose : chosen competitionId world chain = some (cp, rewound)) :
    world.process = none ∧ ∃ state, world.dir.state = some state ∧ Newest
        (fun other =>
          SavedBelow world.dir state other ∧ Qualifies chain other) cp ∧
      rewound = decide (cp.lastProcessedBlock < state.lastProcessedBlock) := by
  unfold chosen at chose
  split at chose
  · next state idle saved =>
      split at chose
      · next other rewoundOther matched =>
          cases chose
          exact ⟨idle, state, saved,
            (chooseCheckpoint_matched_iff named competitionId chain).1 matched⟩
      · cases chose
  · cases chose

/-- A file of the history is no newer than a block, and on the block it
recorded its hash. -/
def Within (block : Nat) (hash : String) (file : HistoryFile Rest) : Prop :=
  file.block ≤ block ∧ (file.block = block → ∀ cp, file.content = some cp →
      cp.lastProcessedHash.toLower = hash.toLower)

def HistoryWithin
    (history : List (HistoryFile Rest)) (cp : PeriodCheckpoint Rest) :
    Prop :=
  ∀ file ∈ history, Within cp.lastProcessedBlock cp.lastProcessedHash file

def LoopAhead
    (history : List (HistoryFile Rest)) (process : Process Rest) : Prop :=
  if process.passStarted then
    ∀ file ∈ history, file.block ≤ process.lastProcessedBlock
  else
    match process.resumed with
    | none => history = []
    | some cp =>
        process.lastProcessedBlock = cp.lastProcessedBlock ∧
          HistoryWithin history cp

/-- The history of a steady run is within its state, and behind its loop. -/
structure Ahead (world : World Rest) : Prop where
  state : ∀ state, world.dir.state = some state →
    HistoryWithin world.dir.history state
  loop : ∀ process, world.process = some process →
    LoopAhead world.dir.history process

theorem HistoryWithin.subset
    {history fewer : List (HistoryFile Rest)}
    (within : HistoryWithin history cp)
    (subset : ∀ file ∈ fewer, file ∈ history) :
    HistoryWithin fewer cp :=
  fun file listed => within file (subset file listed)

theorem LoopAhead.within
    {process : Process Rest} {progress : Progress}
    (ahead : LoopAhead world.dir.history process)
    (running : world.process = some process)
    (taken : dropped process cp.lastProcessedBlock = false)
    (steady : Steady world
      (.pass cp.lastProcessedBlock cp.lastProcessedHash cp.rest progress)) :
    HistoryWithin world.dir.history cp := by
  unfold LoopAhead at ahead
  cases begun : process.passStarted with
  | true =>
      rw [if_pos begun] at ahead
      have later : process.lastProcessedBlock < cp.lastProcessedBlock := by
        unfold dropped at taken
        rw [begun, Bool.true_and] at taken
        exact not_le.1 (of_decide_eq_false taken)
      intro file listed
      have before := (ahead file listed).trans_lt later
      exact ⟨before.le, fun same => absurd same before.ne⟩
  | false =>
      rw [if_neg (by simp [begun])] at ahead
      cases from' : process.resumed with
      | none =>
          rw [from'] at ahead
          intro file listed
          rw [ahead] at listed
          exact absurd listed List.not_mem_nil
      | some resumed =>
          rw [from'] at ahead
          rcases steady process resumed running from' begun with
            ⟨notBefore, sameHash⟩
          intro file listed
          rcases ahead.2 file listed with ⟨bound, hashes⟩
          refine ⟨bound.trans notBefore, ?_⟩
          intro onBlock held content
          have atResumed :
              cp.lastProcessedBlock = resumed.lastProcessedBlock := by
            omega
          rw [sameHash atResumed]
          exact hashes (onBlock.trans atResumed) held content

/-- What a write leaves is the old state and history, or a state which the
history is within. -/
theorem write_within
    (within : HistoryWithin dir.history cp)
    (lastHistoryBlock : Option Nat) (progress : Progress) :
    HistoryWithin (write lastHistoryBlock dir cp progress).2.history cp ∧
      ((write lastHistoryBlock dir cp progress).2 = dir ∨
        (write lastHistoryBlock dir cp progress).2.state = some cp) := by
  rcases write_cases lastHistoryBlock dir cp progress with
    same | same | ⟨-, evicted, same⟩
  · rw [same]
    exact ⟨within, Or.inl rfl⟩
  · rw [same]
    exact ⟨within, Or.inr rfl⟩
  · rw [same]
    refine ⟨?_, Or.inr rfl⟩
    intro file listed
    rcases mem_copyFile listed with old | rfl
    · exact within file old
    · refine ⟨le_refl _, fun _ held content => ?_⟩
      cases content
      rfl

theorem Ahead.pass
    {world : World Rest} {process : Process Rest}
    {cp : PeriodCheckpoint Rest} {progress : Progress} (ahead : Ahead world)
    (running : world.process = some process)
    (taken : dropped process cp.lastProcessedBlock = false)
    (steady : Steady world
      (.pass cp.lastProcessedBlock cp.lastProcessedHash cp.rest progress)) :
    Ahead (CheckpointRuns.pass world.dir process cp progress) := by
  have within := (ahead.loop process running).within running taken steady
  rcases write_within within process.lastHistoryBlock progress with
    ⟨writtenWithin, written⟩
  constructor
  · intro state saved
    rcases written with same | same
    · have unchanged :
          (CheckpointRuns.pass world.dir process cp progress).dir = world.dir :=
        same
      rw [unchanged] at saved ⊢
      exact ahead.state state saved
    · have saves :
          (CheckpointRuns.pass world.dir process cp progress).dir.state =
            some cp :=
        same
      rw [saves] at saved
      cases saved
      exact writtenWithin
  · intro next begun
    cases begun
    intro file listed
    exact (writtenWithin file listed).1.trans (le_max_right _ _)

theorem resume_within
    {state : PeriodCheckpoint Rest}
    (named : Named dir) (within : HistoryWithin dir.history state)
    (saved : SavedBelow dir state cp) :
    HistoryWithin (cutHistory dir cp (decide
          (cp.lastProcessedBlock < state.lastProcessedBlock))).history
      cp := by
  rcases saved with rfl | ⟨source, listed, content, below⟩
  · rw [decide_eq_false (lt_irrefl _)]
    exact within
  · have block := named.named source listed cp content
    rw [decide_eq_true (block ▸ below)]
    intro file kept
    rcases mem_cutHistory kept with ⟨member, notPast⟩
    refine ⟨notPast, ?_⟩
    intro onBlock held heldContent
    have same : file = source :=
      List.inj_on_of_nodup_map named.distinct member listed
        (onBlock.trans block)
    rw [same, content] at heldContent
    cases heldContent
    rfl

theorem Ahead.step
    {world next : World Rest} {label : Label Rest}
    (named : Named world.dir) (ahead : Ahead world)
    (steady : Steady world label)
    (step : (protocol competitionId).step world label next) :
    Ahead next := by
  rcases step_cases step with
    ⟨chain, cp, rewound, -, chose, rfl⟩ |
      ⟨chain, removed, cp, rewound, -, chose, rfl⟩ |
      ⟨process, block, hash, rest, progress, rfl, running, taken, rfl⟩ |
      ⟨-, rfl⟩
  · rcases chosen_newest named chose with
      ⟨-, state, saved, newest, rfl⟩
    have cut := resume_within named (ahead.state state saved) newest.1.1
    constructor
    · intro other savedOther
      apply (ahead.state other _).subset
      · exact fun file kept => mem_of_mem_cutHistory kept
      · rw [← savedOther]
        exact (state_cutHistory world.dir cp _).symm
    · intro process begun
      cases begun
      exact ⟨rfl, cut⟩
  · constructor
    · intro state saved
      cases rewound with
      | true =>
          exact (ahead.state state saved).subset fun file kept =>
              mem_removeFiles kept
      | false => exact ahead.state state saved
    · intro process begun
      cases begun
  · have passed : Ahead
          (CheckpointRuns.pass world.dir process ⟨block, hash, rest⟩
            progress) :=
      ahead.pass running taken steady
    exact passed
  · constructor
    · exact ahead.state
    · intro process begun
      cases begun

theorem ahead_of_reachable
    (reachable : (protocol competitionId).Reachable Steady world) :
    Ahead world := by
  have both : Named world.dir ∧ Ahead world := by
    refine @System.Reachable.invariant _ _ _ _
      (fun world => Named world.dir ∧ Ahead world) _ ?_ ?_ reachable
    · rintro world ⟨head, rfl⟩
      refine ⟨⟨fun _ listed => absurd listed List.not_mem_nil, .nil⟩, ?_, ?_⟩
      · intro state saved
        cases saved
      · intro process begun
        cases begun
        rfl
    · rintro world label next ⟨named, ahead⟩ steady step
      exact ⟨named_step named step, ahead.step named steady step⟩
  exact both.2

/-! ## How far apart the copies are -/

/-- The copies are apart, and none is newer than the writer knows. -/
structure Spaced (world : World Rest) : Prop where
  apart : ∀ file ∈ world.dir.history, ∀ other ∈ world.dir.history,
    file.block < other.block →
      file.block + checkpointHistoryEveryBlocks ≤ other.block
  known : ∀ process, world.process = some process →
    ∀ file ∈ world.dir.history, ∃ last,
      process.lastHistoryBlock = some last ∧ file.block ≤ last

theorem openWriter_known
    {file : HistoryFile Rest} (listed : file ∈ dir.history) :
    ∃ last, openWriter dir = some last ∧ file.block ≤ last := by
  have member := mem_historyFiles.2 listed
  have sorted := List.pairwise_insertionSort
    (fun first second : HistoryFile Rest => first.block ≤ second.block)
    dir.history
  rcases List.eq_nil_or_concat (historyFiles dir) with none | split
  · rw [none] at member
    exact absurd member List.not_mem_nil
  · rcases split with ⟨earlier, newest, split⟩
    refine ⟨newest.block, ?_, ?_⟩
    · unfold openWriter
      rw [split, List.concat_eq_append, List.getLast?_append]
      rfl
    · change (historyFiles dir).Pairwise _ at sorted
      rw [split, List.concat_eq_append] at sorted member
      rcases List.mem_append.1 member with before | last
      · exact (List.pairwise_append.1 sorted).2.2 file before newest
          (List.mem_singleton_self newest)
      · rw [List.mem_singleton.1 last]

theorem Spaced.pass
    {world : World Rest} {process : Process Rest}
    {cp : PeriodCheckpoint Rest} {progress : Progress}
    (spaced : Spaced world) (running : world.process = some process) :
    Spaced (CheckpointRuns.pass world.dir process cp progress) := by
  unfold CheckpointRuns.pass
  have known := spaced.known process running
  rcases write_cases process.lastHistoryBlock world.dir cp progress with
    same | same | ⟨isDue, evicted, same⟩
  · rw [same]
    refine ⟨spaced.apart, ?_⟩
    intro next begun
    cases begun
    exact known
  · rw [same]
    refine ⟨spaced.apart, ?_⟩
    intro next begun
    cases begun
    exact known
  · rw [same]
    have earlier : ∀ file ∈ world.dir.history,
        file.block + checkpointHistoryEveryBlocks ≤ cp.lastProcessedBlock := by
      intro file listed
      rcases known file listed with ⟨last, newest, before⟩
      rw [newest] at isDue
      have due := of_decide_eq_true isDue
      omega
    constructor
    · intro file listed other otherListed before
      rcases mem_copyFile listed with old | rfl
      · rcases mem_copyFile otherListed with otherOld | rfl
        · exact spaced.apart file old other otherOld before
        · exact earlier file old
      · rcases mem_copyFile otherListed with otherOld | rfl
        · have bound := earlier other otherOld
          have later : cp.lastProcessedBlock < other.block := before
          omega
        · exact absurd before (lt_irrefl _)
    · intro next begun
      cases begun
      intro file listed
      refine ⟨cp.lastProcessedBlock, rfl, ?_⟩
      rcases mem_copyFile listed with old | rfl
      · exact (Nat.le_add_right _ _).trans (earlier file old)
      · exact le_refl _

theorem Spaced.step
    {world next : World Rest} {label : Label Rest} (spaced : Spaced world)
    (step : (protocol competitionId).step world label next) :
    Spaced next := by
  rcases step_cases step with
    ⟨chain, cp, rewound, -, -, rfl⟩ | ⟨chain, removed, cp, rewound, -, -, rfl⟩ |
      ⟨process, block, hash, rest, progress, -, running, -, rfl⟩ | ⟨-, rfl⟩
  · constructor
    · intro file listed other otherListed
      exact spaced.apart file (mem_of_mem_cutHistory listed) other
        (mem_of_mem_cutHistory otherListed)
    · intro process begun
      cases begun
      exact fun file listed => openWriter_known listed
  · constructor
    · cases rewound with
      | true =>
          intro file listed other otherListed
          exact spaced.apart file (mem_removeFiles listed) other
            (mem_removeFiles otherListed)
      | false => exact spaced.apart
    · intro process begun
      cases begun
  · exact spaced.pass running
  · constructor
    · exact spaced.apart
    · intro process begun
      cases begun

theorem history_spaced
    {allowed : World Rest → Label Rest → Prop}
    (reachable : (protocol competitionId).Reachable allowed world) :
    Spaced world := by
  refine @System.Reachable.invariant _ _ _ _ Spaced _ ?_ ?_ reachable
  · rintro world ⟨head, rfl⟩
    constructor
    · exact fun _ listed => absurd listed List.not_mem_nil
    · exact fun _ _ _ listed => absurd listed List.not_mem_nil
  · intro world label next spaced _ step
    exact spaced.step step

/-- A write which copies does not stop before it has evicted a file. -/
def Evicts (_ : World Rest) : Label Rest → Prop
  | .pass _ _ _ (.copied evicted) => 1 ≤ evicted
  | _ => True

theorem length_copyFile_le
    (cp : PeriodCheckpoint Rest) {evicted : Nat} (evicts : 1 ≤ evicted)
    (short : dir.history.length ≤ checkpointHistoryKeep) :
    (copyFile dir cp evicted).history.length ≤ checkpointHistoryKeep := by
  have put : (putFile dir.history cp).length ≤ checkpointHistoryKeep + 1 := by
    unfold putFile
    rw [List.length_append]
    exact Nat.add_le_add_right ((List.length_filter_le _ _).trans short) 1
  rcases put.lt_or_eq with room | full
  · exact (List.length_filter_le _ _).trans (Nat.lt_succ_iff.1 room)
  · have sorted : (historyFiles
          { dir with history := putFile dir.history cp }).length =
          checkpointHistoryKeep + 1 :=
      (List.length_insertionSort _ _).trans full
    cases files : historyFiles { dir with history := putFile dir.history cp }
      with
    | nil =>
        rw [files] at sorted
        cases sorted
    | cons oldest later =>
        have evictedOldest : oldest ∈
            (surplus { dir with history := putFile dir.history cp }).take
              evicted := by
          unfold surplus
          rw [sorted, files, Nat.add_sub_cancel_left, List.take_take,
            min_eq_right evicts]
          exact List.mem_cons_self
        have listed : oldest ∈ putFile dir.history cp := by
          have member := List.mem_cons_self (a := oldest) (l := later)
          rw [← files] at member
          exact mem_historyFiles.1 member
        have fewer : (copyFile dir cp evicted).history.length <
            (putFile dir.history cp).length := by
          refine List.length_filter_lt_length_iff_exists.2 ⟨oldest, listed, ?_⟩
          simp only [decide_eq_true_eq, not_not]
          exact List.mem_map.2 ⟨oldest, evictedOldest, rfl⟩
        rw [full] at fewer
        exact Nat.lt_succ_iff.1 fewer

theorem history_bounded
    (reachable : (protocol competitionId).Reachable Evicts world) :
    world.dir.history.length ≤ checkpointHistoryKeep := by
  refine @System.Reachable.invariant _ _ _ _
    (fun world => world.dir.history.length ≤ checkpointHistoryKeep) _ ?_ ?_
    reachable
  · rintro world ⟨head, rfl⟩
    exact Nat.zero_le _
  · intro world label next short evicts step
    rcases step_cases step with
      ⟨chain, cp, rewound, -, -, rfl⟩ |
        ⟨chain, removed, cp, rewound, -, -, rfl⟩ |
        ⟨process, block, hash, rest, progress, rfl, -, -, rfl⟩ | ⟨-, rfl⟩
    · cases rewound with
      | true => exact (List.length_filter_le _ _).trans short
      | false => exact short
    · cases rewound with
      | true => exact (List.length_filter_le _ _).trans short
      | false => exact short
    · cases progress with
      | nothing => exact short
      | state => exact short
      | copied evicted =>
          unfold pass write
          dsimp only
          split
          · exact length_copyFile_le _ evicts short
          · exact short
    · exact short

/-- In a steady run, a saved checkpoint which the chain holds is no newer
than one of the state and of the history below it which the chain holds. -/
theorem Ahead.below
    {state : PeriodCheckpoint Rest} {chain : ChainView}
    (named : Named world.dir) (ahead : Ahead world)
    (current : world.dir.state = some state)
    (saved : Saved world.dir state cp) (qualifies : Qualifies chain cp) :
    ∃ other, SavedBelow world.dir state other ∧ Qualifies chain other ∧
      other.lastProcessedBlock = cp.lastProcessedBlock := by
  rcases saved with rfl | ⟨file, listed, content⟩
  · exact ⟨cp, Or.inl rfl, qualifies, rfl⟩
  · have block := named.named file listed cp content
    rcases ahead.state state current file listed with ⟨bound, hashes⟩
    rcases bound.lt_or_eq with below | onBlock
    · exact ⟨cp, Or.inr ⟨file, listed, content, below⟩, qualifies, rfl⟩
    · have sameHash := hashes onBlock cp content
      have sameBlock := block.trans onBlock
      refine ⟨state, Or.inl rfl, ?_, sameBlock.symm⟩
      unfold Qualifies at qualifies ⊢
      rw [← sameBlock, ← sameHash]
      exact qualifies

/--
Over every run, the checkpoint which is chosen is the newest one which the
chain holds, of the current state and of the history below the block of the
state, and the choice is refused exactly when the chain holds none of these.
When the first pass of a process never goes behind the checkpoint it resumed
from, it is the newest one of the state and of the whole history, and the
choice is refused exactly when the chain holds none of all.
-/
theorem chooseCheckpoint_runs
    {world : World Rest} {state : PeriodCheckpoint Rest}
    (reachable : (protocol competitionId).Reachable System.anything world)
    (current : world.dir.state = some state) (chain : ChainView) :
    ((∀ cp rewound, chooseCheckpoint competitionId world.dir state chain =
          .matched cp rewound ↔
        Newest (fun other =>
                SavedBelow world.dir state other ∧ Qualifies chain other)
              cp ∧
            rewound =
              decide (cp.lastProcessedBlock < state.lastProcessedBlock)) ∧
      ((∃ reason, chooseCheckpoint competitionId world.dir state chain =
            .refused reason) ↔
        ∀ cp, SavedBelow world.dir state cp → ¬ Qualifies chain cp)) ∧
    ((protocol competitionId).Reachable Steady world → (∀ cp rewound,
        chooseCheckpoint competitionId world.dir state chain =
            .matched cp rewound →
          Newest (fun other =>
              Saved world.dir state other ∧ Qualifies chain other) cp) ∧
      ((∃ reason, chooseCheckpoint competitionId world.dir state chain =
            .refused reason) ↔
        ∀ cp, Saved world.dir state cp → ¬ Qualifies chain cp)) := by
  have named := named_of_reachable reachable
  refine ⟨⟨fun cp rewound =>
        chooseCheckpoint_matched_iff named competitionId chain,
      chooseCheckpoint_refused_iff competitionId chain⟩, ?_⟩
  intro steady
  have ahead := ahead_of_reachable steady
  constructor
  · intro cp rewound matched
    rcases
      (chooseCheckpoint_matched_iff named competitionId chain).1 matched with
      ⟨⟨⟨saved, qualifies⟩, newest⟩, -⟩
    refine ⟨⟨saved.saved, qualifies⟩, ?_⟩
    rintro other ⟨otherSaved, otherQualifies⟩
    rcases ahead.below named current otherSaved otherQualifies with
      ⟨below, belowSaved, belowQualifies, same⟩
    rw [← same]
    exact newest below ⟨belowSaved, belowQualifies⟩
  · rw [chooseCheckpoint_refused_iff]
    constructor
    · intro none cp saved qualifies
      rcases ahead.below named current saved qualifies with
        ⟨below, belowSaved, belowQualifies, -⟩
      exact none below belowSaved belowQualifies
    · intro none cp saved
      exact none cp saved.saved

/-! ## A chain which goes back and forth -/

def hashOf (block : Nat) : String := "0x" ++ toString block

def chainTo (head : Nat) : ChainView where
  head := head
  hashAt block := if block ≤ head then some (hashOf block) else none

/-- A pass on the chain whose write is complete. -/
def passAt (block : Nat) : Label Unit :=
  .pass block (hashOf block) () (.copied 1)

/-- The checkpoint of a pass on the chain. -/
def checkpointAt (block : Nat) : PeriodCheckpoint Unit :=
  ⟨block, hashOf block, ()⟩

/-- A process takes two passes, and both are copied. -/
def twoPasses : World Unit where
  dir :=
    { state := some (checkpointAt 31)
      history := [⟨1, some (checkpointAt 1)⟩, ⟨31, some (checkpointAt 31)⟩] }
  process := some ⟨none, 31, true, some 31⟩

theorem twoPasses_reachable :
    (protocol "p").Reachable Steady twoPasses := by
  have first : perform "p" (started 0) (passAt 1) =
      some
        { dir :=
            { state := some (checkpointAt 1)
              history := [⟨1, some (checkpointAt 1)⟩] }
          process := some ⟨none, 1, true, some 1⟩ } := by
    decide
  have second : perform "p"
        { dir :=
            { state := some (checkpointAt 1)
              history := [⟨1, some (checkpointAt 1)⟩] }
          process := some ⟨none, 1, true, some 1⟩ }
        (passAt 31) =
      some twoPasses := by
    decide
  refine ⟨started 0, ⟨0, rfl⟩,
    (System.Runs.single ?_ first).trans (System.Runs.single ?_ second)⟩
  · intro process cp running resumed
    cases running
    cases resumed
  · intro process cp running resumed
    cases running
    cases resumed

theorem history_spaced_twoPasses : Spaced twoPasses :=
  history_spaced twoPasses_reachable

theorem history_bounded_onePass :
    (pass (started 0).dir ⟨none, 0, false, none⟩ (checkpointAt 1)
        (.copied 1)).dir.history.length ≤ checkpointHistoryKeep := by
  have evicts : Evicts (started 0) (passAt 1) := le_refl 1
  have step : (protocol "p").step (started 0) (passAt 1) _ := rfl
  exact history_bounded ⟨_, ⟨0, rfl⟩, System.Runs.single evicts step⟩

/-- The chain goes back to block 10: the copy of block 1 is chosen. -/
theorem chooseCheckpoint_runs_twoPasses :
    chooseCheckpoint "p" twoPasses.dir (checkpointAt 31) (chainTo 10) =
        .matched (checkpointAt 1) true ∧
      Newest (fun other =>
          Saved twoPasses.dir (checkpointAt 31) other ∧
            Qualifies (chainTo 10) other)
        (checkpointAt 1) := by
  have matched :
      chooseCheckpoint "p" twoPasses.dir (checkpointAt 31) (chainTo 10) =
        .matched (checkpointAt 1) true := by
    decide +kernel
  have anyRun : (protocol "p").Reachable System.anything twoPasses :=
    twoPasses_reachable.weaken fun _ _ _ => trivial
  have current : twoPasses.dir.state = some (checkpointAt 31) := rfl
  have chosen := chooseCheckpoint_runs anyRun current (chainTo 10)
  exact ⟨matched, (chosen.2 twoPasses_reachable).1 _ _ matched⟩

/-- A process resumes after the second pass, and takes its first pass on the
chain when that has gone back. -/
def wentBack : World Unit where
  dir := { twoPasses.dir with state := some (checkpointAt 20) }
  process := none

theorem wentBack_reachable :
    (protocol "p").Reachable System.anything wentBack := by
  have run : (protocol "p").Reachable System.anything
      { dir := twoPasses.dir
        process := some ⟨some (checkpointAt 31), 31, false, some 31⟩ } := by
    have died :
        perform "p" twoPasses .die = some { twoPasses with process := none } :=
      rfl
    have resumed : perform "p" { twoPasses with process := none }
          (.resume (chainTo 31)) =
        some
          { dir := twoPasses.dir
            process := some ⟨some (checkpointAt 31), 31, false, some 31⟩ } := by
      decide +kernel
    have started := twoPasses_reachable.weaken fun _ _ _ => trivial
    exact started.extend ((System.Runs.single trivial died).trans
      (System.Runs.single trivial resumed))
  have passed : perform "p"
        { dir := twoPasses.dir
          process := some ⟨some (checkpointAt 31), 31, false, some 31⟩ }
        (passAt 20) =
      some
        { dir := wentBack.dir
          process := some ⟨some (checkpointAt 31), 31, true, some 31⟩ } := by
    decide
  have died : perform "p"
          { dir := wentBack.dir
            process := some ⟨some (checkpointAt 31), 31, true, some 31⟩ }
          .die =
        some wentBack :=
    rfl
  exact run.extend ((System.Runs.single trivial passed).trans
    (System.Runs.single trivial died))

/-- When the chain is where it was again, the copy of block 31 is passed
over. -/
theorem chooseCheckpoint_passes_over :
    ¬ ∀ (world : World Unit) (state cp : PeriodCheckpoint Unit)
        (rewound : Bool) (chain : ChainView),
      (protocol "p").Reachable System.anything world →
        world.dir.state = some state →
          chooseCheckpoint "p" world.dir state chain =
              .matched cp rewound →
            Newest (fun other =>
                Saved world.dir state other ∧ Qualifies chain other)
              cp := by
  intro claimed
  have matched :
      chooseCheckpoint "p" wentBack.dir (checkpointAt 20) (chainTo 31) =
        .matched (checkpointAt 20) false := by
    decide +kernel
  have newest :=
    claimed wentBack (checkpointAt 20) (checkpointAt 20) false (chainTo 31)
      wentBack_reachable rfl matched
  have saved : Saved wentBack.dir (checkpointAt 20) (checkpointAt 31) :=
    Or.inr ⟨⟨31, some (checkpointAt 31)⟩, by decide, rfl⟩
  have held : Qualifies (chainTo 31) (checkpointAt 31) :=
    ⟨le_refl 31, hashOf 31, rfl, rfl⟩
  exact absurd (newest.2 _ ⟨saved, held⟩) (by decide)

end Eris.Period.CheckpointRuns
