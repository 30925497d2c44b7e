import Mathlib

/-!
# Checkpoints of a period

`core/src/realtime/periodResume.ts`: `CheckpointWriter`, which writes
`state.json` every pass and keeps some copies in a history,
`chooseCheckpoint`, which picks the one a chain still holds, and the part of
`cutArtifactsToCheckpoint` which drops the history of a chain that went back.

A checkpoint is its block, the hash of the block, and the rest.  A file of
the history is named by its block; what it holds may not parse.
-/

namespace Eris.Period.Checkpoints

/-- `PeriodCheckpoint`: the block and the hash of a pass, and the rest. -/
structure PeriodCheckpoint (Rest : Type) where
  lastProcessedBlock : Nat
  lastProcessedHash : String
  rest : Rest
  deriving DecidableEq, Repr

/-- A file of the history: the block of its name, and what it parses to. -/
structure HistoryFile (Rest : Type) where
  block : Nat
  content : Option (PeriodCheckpoint Rest)
  deriving DecidableEq, Repr

/-- The `resume` directory of a period. -/
structure ResumeDir (Rest : Type) where
  state : Option (PeriodCheckpoint Rest)
  history : List (HistoryFile Rest)
  deriving DecidableEq, Repr

/-- How often, in blocks, a copy is kept. -/
def checkpointHistoryEveryBlocks : Nat := 30

def checkpointHistoryKeep : Nat := 40

variable {Rest : Type}

/-- `historyFiles`: the files of the history, by their blocks. -/
def historyFiles (dir : ResumeDir Rest) : List (HistoryFile Rest) :=
  dir.history.insertionSort fun first second => first.block ≤ second.block

/-- `rmSync` of some files of the history. -/
def removeFiles
    (history removed : List (HistoryFile Rest)) : List (HistoryFile Rest) :=
  history.filter fun file => file.block ∉ removed.map (·.block)

/-! ## Writing -/

/-- The block of the newest copy, which a new writer reads from its
directory. -/
def openWriter (dir : ResumeDir Rest) : Option Nat :=
  (historyFiles dir).getLast?.map (·.block)

/-- How far a write came: an exception or the end of the process stops it. -/
inductive Progress where
  | nothing
  | state
  | copied (evicted : Nat)
  deriving DecidableEq, Repr

def due (lastHistoryBlock : Option Nat) (block : Nat) : Bool :=
  match lastHistoryBlock with
  | none => true
  | some last => decide (last + checkpointHistoryEveryBlocks ≤ block)

/-- The file of a checkpoint is put into the history, in place of one of its
name. -/
def putFile
    (history : List (HistoryFile Rest)) (cp : PeriodCheckpoint Rest) :
    List (HistoryFile Rest) :=
  history.filter (fun file => file.block ≠ cp.lastProcessedBlock) ++
    [⟨cp.lastProcessedBlock, some cp⟩]

/-- The oldest files past the number which is kept. -/
def surplus (dir : ResumeDir Rest) : List (HistoryFile Rest) :=
  (historyFiles dir).take ((historyFiles dir).length - checkpointHistoryKeep)

/-- A copy is put into the history and some of the oldest files go. -/
def copyFile
    (dir : ResumeDir Rest) (cp : PeriodCheckpoint Rest) (evicted : Nat) :
    ResumeDir Rest :=
  let copied := { dir with history := putFile dir.history cp }
  { copied with
    history := removeFiles copied.history ((surplus copied).take evicted) }

/-- `CheckpointWriter.write`: the newest copy's block, and the directory. -/
def write
    (lastHistoryBlock : Option Nat) (dir : ResumeDir Rest)
    (cp : PeriodCheckpoint Rest) :
    Progress → Option Nat × ResumeDir Rest
  | .nothing => (lastHistoryBlock, dir)
  | .state => (lastHistoryBlock, { dir with state := some cp })
  | .copied evicted =>
      if due lastHistoryBlock cp.lastProcessedBlock then
        (some cp.lastProcessedBlock,
          copyFile { dir with state := some cp } cp evicted)
      else (lastHistoryBlock, { dir with state := some cp })

structure ChainView where
  head : Nat
  hashAt : Nat → Option String

inductive Tried where
  | pastHead (block : Nat)
  | otherHash (block : Nat) (hash : Option String) (recorded : String)
  deriving DecidableEq, Repr

def Tried.text : Tried → String
  | .pastHead block => toString block ++ " (past the head)"
  | .otherHash block hash recorded =>
      toString block ++ " (hash " ++ hash.getD "none" ++ " != " ++ recorded ++
        ")"

inductive CheckpointChoice (Rest : Type) where
  | matched (checkpoint : PeriodCheckpoint Rest) (rewound : Bool)
  | refused (reason : String)
  deriving DecidableEq, Repr

/-- The checkpoints which are tried: the state, and the readable files of the
history below its block, from the newest. -/
def candidates
    (dir : ResumeDir Rest) (state : PeriodCheckpoint Rest) :
    List (PeriodCheckpoint Rest) :=
  state :: (historyFiles dir).reverse.filterMap fun file =>
      if state.lastProcessedBlock ≤ file.block then none else file.content

def attempt (chain : ChainView) (cp : PeriodCheckpoint Rest) :
    Option Tried :=
  if chain.head < cp.lastProcessedBlock then
    some (.pastHead cp.lastProcessedBlock)
  else
    match chain.hashAt cp.lastProcessedBlock with
    | none =>
        some (.otherHash cp.lastProcessedBlock none cp.lastProcessedHash)
    | some hash =>
        if hash.toLower = cp.lastProcessedHash.toLower then none
        else
          some (.otherHash cp.lastProcessedBlock (some hash)
              cp.lastProcessedHash)

def refusal (competitionId : String) (head : Nat) (tried : List Tried) :
    String :=
  "the chain (head " ++ toString head ++ ") holds none of period " ++
    competitionId ++ "'s checkpoints: " ++
    ", ".intercalate (tried.map Tried.text) ++
    ". The chain was reset, redeployed or replaced since the period last ran"

def tryInTurn
    (competitionId : String) (chain : ChainView)
    (state : PeriodCheckpoint Rest) :
    List Tried → List (PeriodCheckpoint Rest) → CheckpointChoice Rest
  | tried, [] => .refused (refusal competitionId chain.head tried)
  | tried, cp :: rest =>
      match attempt chain cp with
      | none =>
          .matched cp
            (decide (cp.lastProcessedBlock < state.lastProcessedBlock))
      | some reason =>
          tryInTurn competitionId chain state (tried ++ [reason]) rest

def chooseCheckpoint
    (competitionId : String) (dir : ResumeDir Rest)
    (state : PeriodCheckpoint Rest) (chain : ChainView) :
    CheckpointChoice Rest :=
  tryInTurn competitionId chain state [] (candidates dir state)

/-- The files of the history past the checkpoint a resume starts from. -/
def past (dir : ResumeDir Rest) (cp : PeriodCheckpoint Rest) :
    List (HistoryFile Rest) :=
  (historyFiles dir).filter fun file => cp.lastProcessedBlock < file.block

/-- `cutArtifactsToCheckpoint`, of the history: the files past the checkpoint
are dropped when the chain went back. -/
def cutHistory
    (dir : ResumeDir Rest) (cp : PeriodCheckpoint Rest) (rewound : Bool) :
    ResumeDir Rest :=
  if rewound then { dir with history := removeFiles dir.history (past dir cp) }
  else dir

/-- The chain holds a checkpoint: its block is no later than the head, and
its hash is the hash of the chain at this block. -/
def Qualifies (chain : ChainView) (cp : PeriodCheckpoint Rest) : Prop :=
  cp.lastProcessedBlock ≤ chain.head ∧
    ∃ hash, chain.hashAt cp.lastProcessedBlock = some hash ∧
      hash.toLower = cp.lastProcessedHash.toLower

variable {chain : ChainView} {cp : PeriodCheckpoint Rest} {rewound : Bool}
    {tries : List (PeriodCheckpoint Rest)} {file : HistoryFile Rest}

theorem attempt_eq_none_iff :
    attempt chain cp = none ↔ Qualifies chain cp := by
  unfold attempt Qualifies
  by_cases beyond : chain.head < cp.lastProcessedBlock
  · rw [if_pos beyond]
    constructor
    · intro none
      cases none
    · rintro ⟨within, -⟩
      exact absurd beyond (not_lt.2 within)
  · rw [if_neg beyond]
    cases found : chain.hashAt cp.lastProcessedBlock with
    | none =>
        constructor
        · intro none
          cases none
        · rintro ⟨-, hash, held, -⟩
          cases held
    | some hash =>
        by_cases same : hash.toLower = cp.lastProcessedHash.toLower
        · simp [same, not_lt.1 beyond]
        · simp [same]

theorem tryInTurn_matched_iff
    {competitionId : String} {state : PeriodCheckpoint Rest}
    {tried : List Tried} :
    tryInTurn competitionId chain state tried tries = .matched cp rewound ↔
      (∃ before after, tries = before ++ cp :: after ∧
        Qualifies chain cp ∧ ∀ other ∈ before, ¬ Qualifies chain other) ∧
      rewound = decide (cp.lastProcessedBlock < state.lastProcessedBlock) := by
  induction tries generalizing tried with
  | nil =>
      constructor
      · intro matched
        cases matched
      · rintro ⟨⟨before, after, empty, -⟩, -⟩
        cases before <;> cases empty
  | cons first tries ih =>
      rw [tryInTurn]
      cases held : attempt chain first with
      | none =>
          have qualifies := attempt_eq_none_iff.1 held
          constructor
          · intro matched
            cases matched
            exact ⟨⟨[], tries, rfl, qualifies, by simp⟩, rfl⟩
          · rintro ⟨⟨before, after, split, -, unheld⟩, rfl⟩
            cases before with
            | nil =>
                cases split
                rfl
            | cons other before =>
                cases split
                exact absurd qualifies (unheld _ List.mem_cons_self)
      | some reason =>
          have unheld : ¬ Qualifies chain first := by
            rw [← attempt_eq_none_iff, held]
            exact Option.some_ne_none reason
          refine ih.trans (and_congr_left' ?_)
          constructor
          · rintro ⟨before, after, rfl, qualifies, others⟩
            refine ⟨first :: before, after, rfl, qualifies, ?_⟩
            exact List.forall_mem_cons.2 ⟨unheld, others⟩
          · rintro ⟨before, after, split, qualifies, others⟩
            cases before with
            | nil =>
                cases split
                exact absurd qualifies unheld
            | cons other before =>
                cases split
                exact ⟨before, after, rfl, qualifies,
                  (List.forall_mem_cons.1 others).2⟩

theorem tryInTurn_refused_iff
    {competitionId : String} {state : PeriodCheckpoint Rest}
    {tried : List Tried} :
    (∃ reason,
      tryInTurn competitionId chain state tried tries = .refused reason) ↔
      ∀ cp ∈ tries, ¬ Qualifies chain cp := by
  induction tries generalizing tried with
  | nil => exact ⟨fun _ => by simp, fun _ => ⟨_, rfl⟩⟩
  | cons first tries ih =>
      rw [tryInTurn, List.forall_mem_cons]
      cases held : attempt chain first with
      | none =>
          constructor
          · rintro ⟨reason, refused⟩
            cases refused
          · rintro ⟨unheld, -⟩
            exact absurd (attempt_eq_none_iff.1 held) unheld
      | some reason =>
          have unheld : ¬ Qualifies chain first := by
            rw [← attempt_eq_none_iff, held]
            exact Option.some_ne_none reason
          exact ih.trans (and_iff_right unheld).symm

/-! ## Directories of a writer -/

/-- Every readable file of the history holds the checkpoint of its block, and
there is one for each block. -/
structure Named (dir : ResumeDir Rest) : Prop where
  named : ∀ file ∈ dir.history, ∀ cp,
    file.content = some cp → cp.lastProcessedBlock = file.block
  distinct : (dir.history.map (·.block)).Nodup

/-- A checkpoint is the state or is held by a file of the history. -/
def Saved
    (dir : ResumeDir Rest) (state cp : PeriodCheckpoint Rest) : Prop :=
  cp = state ∨ ∃ file ∈ dir.history, file.content = some cp

/-- A checkpoint is the state or is held by a file of the history below the
block of the state. -/
def SavedBelow
    (dir : ResumeDir Rest) (state cp : PeriodCheckpoint Rest) : Prop :=
  cp = state ∨ ∃ file ∈ dir.history, file.content = some cp ∧
      file.block < state.lastProcessedBlock

theorem SavedBelow.saved
    {dir : ResumeDir Rest} {state : PeriodCheckpoint Rest}
    (below : SavedBelow dir state cp) :
    Saved dir state cp := by
  rcases below with same | ⟨file, listed, content, -⟩
  · exact Or.inl same
  · exact Or.inr ⟨file, listed, content⟩

def Newest
    (Some : PeriodCheckpoint Rest → Prop) (cp : PeriodCheckpoint Rest) :
    Prop :=
  Some cp ∧
    ∀ other, Some other → other.lastProcessedBlock ≤ cp.lastProcessedBlock

theorem mem_historyFiles {dir : ResumeDir Rest} :
    file ∈ historyFiles dir ↔ file ∈ dir.history :=
  (List.perm_insertionSort _ dir.history).mem_iff

theorem mem_candidates
    {dir : ResumeDir Rest} {state : PeriodCheckpoint Rest} :
    cp ∈ candidates dir state ↔ SavedBelow dir state cp := by
  unfold candidates SavedBelow
  rw [List.mem_cons, List.mem_filterMap]
  refine or_congr_right (exists_congr fun file => ?_)
  rw [List.mem_reverse, mem_historyFiles]
  refine and_congr_right fun _ => ?_
  by_cases past : state.lastProcessedBlock ≤ file.block
  · simp [past]
  · simp [past, not_le.1 past]

instance : Std.Total fun first second : HistoryFile Rest =>
    first.block ≤ second.block :=
  ⟨fun first second => le_total first.block second.block⟩

instance : IsTrans (HistoryFile Rest) fun first second =>
    first.block ≤ second.block :=
  ⟨fun _ _ _ before after => before.trans after⟩

theorem historyFiles_strict
    {dir : ResumeDir Rest} (named : Named dir) :
    (historyFiles dir).Pairwise fun first second =>
      first.block < second.block := by
  have sorted := List.pairwise_insertionSort
    (fun first second : HistoryFile Rest => first.block ≤ second.block)
    dir.history
  have distinct : ((historyFiles dir).map (·.block)).Nodup :=
    ((List.perm_insertionSort _ dir.history).map _).nodup_iff.2 named.distinct
  rw [List.Nodup, List.pairwise_map] at distinct
  exact (sorted.and distinct).imp fun both => lt_of_le_of_ne both.1 both.2

theorem candidates_strict
    {dir : ResumeDir Rest} (named : Named dir) (state : PeriodCheckpoint Rest) :
    (candidates dir state).Pairwise fun first second =>
      second.lastProcessedBlock < first.lastProcessedBlock := by
  unfold candidates
  rw [List.pairwise_cons, List.pairwise_filterMap, List.pairwise_reverse]
  constructor
  · intro cp listed
    rcases List.mem_filterMap.1 listed with ⟨file, member, kept⟩
    rw [List.mem_reverse, mem_historyFiles] at member
    rcases Option.ite_none_left_eq_some.1 kept with ⟨below, content⟩
    rw [named.named file member cp content]
    exact not_le.1 below
  · refine (historyFiles_strict named).imp_of_mem ?_
    intro first second firstMember secondMember before later laterKept
      earlier earlierKept
    rw [mem_historyFiles] at firstMember secondMember
    rw [Option.ite_none_left_eq_some] at laterKept earlierKept
    rw [named.named first firstMember earlier earlierKept.2,
      named.named second secondMember later laterKept.2]
    exact before

theorem first_iff_newest
    {Kind : PeriodCheckpoint Rest → Prop}
    (strict : tries.Pairwise fun first second =>
      second.lastProcessedBlock < first.lastProcessedBlock) :
    (∃ before after, tries = before ++ cp :: after ∧
      Kind cp ∧ ∀ other ∈ before, ¬ Kind other) ↔
      Newest (fun other => other ∈ tries ∧ Kind other) cp := by
  constructor
  · rintro ⟨before, after, rfl, kind, others⟩
    refine ⟨⟨by simp, kind⟩, ?_⟩
    rintro other ⟨listed, otherKind⟩
    rcases List.mem_append.1 listed with earlier | later
    · exact absurd otherKind (others other earlier)
    · rcases List.mem_cons.1 later with rfl | later
      · exact le_refl _
      · rw [List.pairwise_append, List.pairwise_cons] at strict
        exact (strict.2.1.1 other later).le
  · rintro ⟨⟨listed, kind⟩, newest⟩
    rcases List.append_of_mem listed with ⟨before, after, rfl⟩
    refine ⟨before, after, rfl, kind, ?_⟩
    intro other earlier otherKind
    have later := newest other ⟨List.mem_append_left _ earlier, otherKind⟩
    rw [List.pairwise_append] at strict
    exact absurd (strict.2.2 other earlier cp List.mem_cons_self)
      (not_lt.2 later)

variable {dir : ResumeDir Rest} {state : PeriodCheckpoint Rest}

/-- The checkpoint which is chosen is the newest one which the chain holds,
of the state and of the history below it. -/
theorem chooseCheckpoint_matched_iff
    (named : Named dir) (competitionId : String) (chain : ChainView) :
    chooseCheckpoint competitionId dir state chain = .matched cp rewound ↔
      Newest (fun other => SavedBelow dir state other ∧ Qualifies chain other)
          cp ∧
        rewound =
          decide (cp.lastProcessedBlock < state.lastProcessedBlock) := by
  unfold chooseCheckpoint
  rw [tryInTurn_matched_iff, first_iff_newest (candidates_strict named state)]
  simp only [mem_candidates]

theorem chooseCheckpoint_refused_iff
    (competitionId : String) (chain : ChainView) :
    (∃ reason,
      chooseCheckpoint competitionId dir state chain = .refused reason) ↔
      ∀ cp, SavedBelow dir state cp → ¬ Qualifies chain cp := by
  unfold chooseCheckpoint
  rw [tryInTurn_refused_iff]
  simp only [mem_candidates]

theorem mem_removeFiles
    {history removed : List (HistoryFile Rest)}
    (kept : file ∈ removeFiles history removed) :
    file ∈ history :=
  (List.mem_filter.1 kept).1

theorem mem_putFile
    {history : List (HistoryFile Rest)} (listed : file ∈ putFile history cp) :
    file ∈ history ∨ file = ⟨cp.lastProcessedBlock, some cp⟩ := by
  rcases List.mem_append.1 listed with old | new
  · exact Or.inl (List.mem_filter.1 old).1
  · exact Or.inr (List.mem_singleton.1 new)

/-- What a write does: nothing, or it writes the state, or it writes the
state and a copy which is due. -/
theorem write_cases
    (lastHistoryBlock : Option Nat) (dir : ResumeDir Rest)
    (cp : PeriodCheckpoint Rest) (progress : Progress) :
    write lastHistoryBlock dir cp progress = (lastHistoryBlock, dir) ∨
    write lastHistoryBlock dir cp progress =
      (lastHistoryBlock, { dir with state := some cp }) ∨
    due lastHistoryBlock cp.lastProcessedBlock = true ∧ ∃ evicted,
        write lastHistoryBlock dir cp progress = (some cp.lastProcessedBlock,
            copyFile { dir with state := some cp } cp evicted) := by
  cases progress with
  | nothing => exact Or.inl rfl
  | state => exact Or.inr (Or.inl rfl)
  | copied evicted =>
      by_cases isDue : due lastHistoryBlock cp.lastProcessedBlock = true
      · exact Or.inr (Or.inr ⟨isDue, evicted, if_pos isDue⟩)
      · exact Or.inr (Or.inl (if_neg isDue))

theorem mem_copyFile
    {evicted : Nat} (listed : file ∈ (copyFile dir cp evicted).history) :
    file ∈ dir.history ∨ file = ⟨cp.lastProcessedBlock, some cp⟩ :=
  mem_putFile (mem_removeFiles listed)

theorem Named.remove
    (named : Named dir) (removed : List (HistoryFile Rest)) :
    Named { dir with history := removeFiles dir.history removed } where
  named file listed := named.named file (mem_removeFiles listed)
  distinct := named.distinct.sublist ((List.filter_sublist).map _)

theorem Named.put (named : Named dir) (cp : PeriodCheckpoint Rest) :
    Named { dir with history := putFile dir.history cp } where
  named file listed := by
    rcases mem_putFile listed with old | rfl
    · exact named.named file old
    · intro held content
      cases content
      rfl
  distinct := by
    unfold putFile
    rw [List.map_append, List.map_singleton]
    apply List.Nodup.append
    · exact named.distinct.sublist ((List.filter_sublist).map _)
    · exact List.nodup_singleton _
    · intro block old new
      rw [List.mem_singleton] at new
      rcases List.mem_map.1 old with ⟨file, listed, same⟩
      have other := of_decide_eq_true (List.mem_filter.1 listed).2
      exact other (same.trans new)

theorem Named.write
    (named : Named dir) (lastHistoryBlock : Option Nat)
    (cp : PeriodCheckpoint Rest) (progress : Progress) :
    Named (write lastHistoryBlock dir cp progress).2 := by
  rcases write_cases lastHistoryBlock dir cp progress with
    same | same | ⟨-, evicted, same⟩
  · rw [same]
    exact named
  · rw [same]
    exact ⟨named.named, named.distinct⟩
  · rw [same]
    have withState : Named { dir with state := some cp } :=
      ⟨named.named, named.distinct⟩
    exact (withState.put cp).remove _

theorem Named.cut
    (named : Named dir) (cp : PeriodCheckpoint Rest) (rewound : Bool) :
    Named (cutHistory dir cp rewound) := by
  cases rewound with
  | true => exact named.remove _
  | false => exact named

theorem mem_of_mem_cutHistory
    (kept : file ∈ (cutHistory dir cp rewound).history) :
    file ∈ dir.history := by
  cases rewound with
  | true => exact mem_removeFiles kept
  | false => exact kept

theorem state_cutHistory
    (dir : ResumeDir Rest) (cp : PeriodCheckpoint Rest) (rewound : Bool) :
    (cutHistory dir cp rewound).state = dir.state := by
  cases rewound <;> rfl

/-- A cut directory keeps files of the history which are not past the
checkpoint. -/
theorem mem_cutHistory
    (kept : file ∈ (cutHistory dir cp true).history) :
    file ∈ dir.history ∧ file.block ≤ cp.lastProcessedBlock := by
  have both := List.mem_filter.1 kept
  refine ⟨both.1, not_lt.1 fun beyond => ?_⟩
  have gone : file.block ∈ (past dir cp).map (·.block) := List.mem_map.2 ⟨file,
      List.mem_filter.2 ⟨mem_historyFiles.2 both.1, decide_eq_true beyond⟩,
      rfl⟩
  exact of_decide_eq_true both.2 gone

end Eris.Period.Checkpoints
