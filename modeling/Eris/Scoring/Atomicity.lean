import Eris.Scoring.Protocol

/-!
# A boundary is recorded or counted

An attempt should leave a complete record of its boundary or the series as
they were, with the failure counted.  It does so exactly when nothing throws
after the cross-section has been read; in sessions where only reads fail, the
series stay aligned and every attempt is accounted for once.
-/

namespace Eris.Scoring.Atomicity

open Foundation.Transition LiveScoring Attempts Protocol

/-- Once everything is read, every write that is made succeeds. -/
def Uninterrupted
    (options : Options) (scorer : LiveScorer) (blockNumber : Int)
    (answers : Answers) : Prop :=
  ∀ snapshot, readOutcome answers = .ok snapshot →
    WritesSucceed options answers scorer blockNumber snapshot

/-- The series are exactly as they were, and the failure is counted. -/
structure Skipped (before after : LiveScorer) : Prop where
  boundaries : after.boundaries = before.boundaries
  values : after.valuesByAgent = before.valuesByAgent
  failures : after.failures = before.failures + 1

/-- Completely recorded once, or counted with the series as before. -/
def Atomic (attempt : Attempted) : Prop :=
  Recorded attempt.before attempt.blockNumber attempt.after ∨
    Skipped attempt.before attempt.after

def countedFailed (attempt : Attempted) : Bool :=
  attempt.after.failures ≠ attempt.before.failures

/-- Every series has one value for each boundary. -/
def Aligned (scorer : LiveScorer) : Prop :=
  ∀ id series, scorer.valuesByAgent id = some series →
    series.length = scorer.boundaries.length

variable {options : Options} {answers : Answers} {scorer : LiveScorer}
    {blockNumber : Int} {attempt : Attempted} {session : Session}

theorem countedFailed_of_recorded
    (recorded : Recorded attempt.before attempt.blockNumber attempt.after) :
    countedFailed attempt = false := by
  simp [countedFailed, recorded.pushed.failures]

theorem countedFailed_of_skipped
    (skipped : Skipped attempt.before attempt.after) :
    countedFailed attempt = true := by
  simp [countedFailed, skipped.failures]

theorem atomic_iff (distinct : Distinct scorer.agents) :
    Atomic ⟨blockNumber, scorer, attempted options answers scorer blockNumber⟩ ↔
      Uninterrupted options scorer blockNumber answers := by
  cases read : readOutcome answers with
  | error failure =>
      have counted := attempted_of_unread options scorer blockNumber read
      constructor
      · intro _ snapshot reads
        rw [read] at reads
        cases reads
      · intro _
        exact Or.inr ⟨counted.boundaries, counted.values, counted.failures⟩
  | ok snapshot =>
      rcases attempted_of_read options blockNumber distinct read with
        ⟨writes, recorded⟩ | ⟨interrupted, middle, pushed, counted⟩
      · constructor
        · intro _ other reads
          rw [read] at reads
          cases reads
          exact writes
        · intro _
          exact Or.inl recorded
      · constructor
        · rintro (recorded | skipped)
          · have same := countedFailed_of_recorded recorded
            have more :
                (attempted options answers scorer blockNumber).failures =
                  scorer.failures + 1 := by
              rw [counted.failures, pushed.failures]
            simp [countedFailed, more] at same
          · have boundaries := skipped.boundaries
            simp only [counted.boundaries, pushed.boundaries] at boundaries
            simp at boundaries
        · intro uninterrupted
          exact absurd (uninterrupted snapshot read) interrupted

/-- Whatever is attempted, nothing throws after its reads. -/
def OnlyReadsFail (options : Options) (session : Session) : Label → Prop
  | .attempt answers =>
      ∀ blockNumber, pendingBoundary options session.scorer = some blockNumber →
          Uninterrupted options (started session.scorer blockNumber)
            blockNumber answers
  | _ => True

/-- What a session keeps when only reads fail. -/
structure Accounted (session : Session) : Prop where
  aligned : Aligned session.scorer
  atomic : ∀ attempt ∈ session.history, Atomic attempt
  recorded : session.scorer.boundaries =
      (session.history.filter fun attempt => !countedFailed attempt).map
        (·.blockNumber)
  counted : session.scorer.failures = session.history.countP countedFailed
  written : writtenBlocks session.scorer = session.scorer.boundaries

theorem Aligned.addAgent
    (aligned : Aligned scorer) (agent : ReconstructionAgent) :
    Aligned (addAgent scorer agent) := by
  unfold LiveScoring.addAgent
  split
  · exact aligned
  · intro id series found
    dsimp only at found ⊢
    by_cases same : id = agent.id
    · subst same
      rw [Function.update_self] at found
      cases found
      exact List.length_map _
    · rw [Function.update_of_ne same] at found
      exact aligned id series found

theorem Aligned.recorded
    {after : LiveScorer} (aligned : Aligned scorer) (rostered : Rostered scorer)
    (recorded : Recorded scorer blockNumber after) :
    Aligned after := by
  intro id series found
  have listed : id ∈ scorer.agents.map (·.id) := by
    rw [← rostered.listed, ← recorded.pushed.tracked, found]
    rfl
  rcases recorded.extended.grown id listed with ⟨value, grown⟩
  rw [found] at grown
  cases earlier : scorer.valuesByAgent id with
  | none =>
      rw [earlier] at grown
      cases grown
  | some previous =>
      rw [earlier] at grown
      cases grown
      rw [List.length_append, aligned id previous earlier,
        recorded.pushed.boundaries, List.length_append]
      rfl

theorem accounted_of_initial
    (initial : Initial options session) :
    Accounted session := by
  rcases initial with ⟨agents, distinct, rfl⟩
  refine ⟨?_, ?_, rfl, rfl, rfl⟩
  · intro id series found
    simp only [create] at found ⊢
    split at found
    · cases found
      rfl
    · cases found
  · intro attempt member
    cases member

theorem Accounted.record
    {reading : Option Reading}
    (accounted : Accounted session) (orderly : Orderly options session)
    (before : attempt.before = started session.scorer attempt.blockNumber)
    (recorded : Recorded attempt.before attempt.blockNumber attempt.after) :
    Accounted { session with
        scorer := attempt.after
        reading := reading
        history := session.history ++ [attempt] } := by
  have passed := countedFailed_of_recorded recorded
  have rostered : Rostered attempt.before := by
    rw [before]
    exact ⟨orderly.rostered.distinct, orderly.rostered.listed⟩
  have aligned : Aligned attempt.before := by
    rw [before]
    exact accounted.aligned
  have boundaries : attempt.before.boundaries = session.scorer.boundaries := by
    rw [before]
    rfl
  refine ⟨aligned.recorded rostered recorded, ?_, ?_, ?_, ?_⟩
  · intro other member
    rcases List.mem_append.1 member with member | member
    · exact accounted.atomic other member
    · cases List.mem_singleton.1 member
      exact Or.inl recorded
  · rw [recorded.pushed.boundaries, boundaries, accounted.recorded]
    simp [passed]
  · rw [recorded.pushed.failures, before]
    simp [passed, started, accounted.counted]
  · rcases recorded.line with ⟨line, placed, appended⟩
    unfold writtenBlocks
    rw [appended, recorded.pushed.boundaries, List.map_append,
      List.map_singleton, placed, boundaries, ← accounted.written, before]
    rfl

theorem Accounted.skip
    {reading : Option Reading} (accounted : Accounted session)
    (before : attempt.before = started session.scorer attempt.blockNumber)
    (counted : Counted attempt.before attempt.after) :
    Accounted { session with
        scorer := attempt.after
        reading := reading
        history := session.history ++ [attempt] } := by
  have skipped : Skipped attempt.before attempt.after :=
    ⟨counted.boundaries, counted.values, counted.failures⟩
  have failed := countedFailed_of_skipped skipped
  have boundaries : attempt.after.boundaries = session.scorer.boundaries := by
    rw [counted.boundaries, before]
    rfl
  refine ⟨?_, ?_, ?_, ?_, ?_⟩
  · intro id series found
    rw [boundaries]
    rw [counted.values, before] at found
    exact accounted.aligned id series found
  · intro other member
    rcases List.mem_append.1 member with member | member
    · exact accounted.atomic other member
    · cases List.mem_singleton.1 member
      exact Or.inr skipped
  · rw [boundaries, accounted.recorded]
    simp [failed]
  · rw [counted.failures, before]
    simp [failed, started, accounted.counted]
  · unfold writtenBlocks
    rw [counted.intervals, boundaries, ← accounted.written, before]
    rfl

theorem Accounted.step
    {session next : Session} {label : Label}
    (accounted : Accounted session) (orderly : Orderly options session)
    (allowed : OnlyReadsFail options session label)
    (step : Step options session label next) :
    Accounted next := by
  cases step with
  | addAgent agent =>
      have kept : (addAgent session.scorer agent).boundaries =
            session.scorer.boundaries ∧
          (addAgent session.scorer agent).failures = session.scorer.failures ∧
            (addAgent session.scorer agent).logger = session.scorer.logger := by
        unfold LiveScoring.addAgent
        split <;> exact ⟨rfl, rfl, rfl⟩
      refine ⟨accounted.aligned.addAgent agent, accounted.atomic, ?_, ?_, ?_⟩
      · rw [kept.1]
        exact accounted.recorded
      · rw [kept.2.1]
        exact accounted.counted
      · unfold writtenBlocks
        rw [kept.1, kept.2.2]
        exact accounted.written
  | onBlock head scores idle =>
      exact ⟨accounted.aligned, accounted.atomic, accounted.recorded,
        accounted.counted, accounted.written⟩
  | onBlockDisabled head disabled => exact accounted
  | close finalBlock scores idle =>
      exact ⟨accounted.aligned, accounted.atomic, accounted.recorded,
        accounted.counted, accounted.written⟩
  | closeDisabled finalBlock disabled =>
      exact ⟨accounted.aligned, accounted.atomic, accounted.recorded,
        accounted.counted, accounted.written⟩
  | @attempt answers reading blockNumber serving pending due =>
      have uninterrupted := allowed blockNumber pending
      have distinct : Distinct (started session.scorer blockNumber).agents :=
        orderly.rostered.distinct
      let made : Attempted := ⟨blockNumber, started session.scorer blockNumber,
          attempted options answers (started session.scorer blockNumber)
            blockNumber⟩
      cases read : readOutcome answers with
      | error failure =>
          have counted : Counted made.before made.after :=
            attempted_of_unread options _ blockNumber read
          exact accounted.skip rfl counted
      | ok snapshot =>
          rcases attempted_of_read options blockNumber distinct read with
            ⟨-, recorded⟩ | ⟨interrupted, -⟩
          · have complete : Recorded made.before made.blockNumber made.after :=
              recorded
            exact accounted.record orderly rfl complete
          · exact absurd (uninterrupted snapshot read) interrupted
  | settle serving through =>
      exact ⟨accounted.aligned, accounted.atomic, accounted.recorded,
        accounted.counted, accounted.written⟩
  | @resume agents scorer distinct restored =>
      have restoredAs := restore_eq_ok restored
      subst restoredAs
      refine ⟨?_, accounted.atomic, ?_, accounted.counted, ?_⟩
      · intro id series found
        simp only [resuming, restoredFrom] at found ⊢
        rcases Option.map_eq_some_iff.1 found with ⟨_, _, rfl⟩
        simp only [List.length_map]
      · simp only [resuming, restoredFrom]
        rw [restored_lines, accounted.written]
        exact accounted.recorded
      · exact (restored_lines session.scorer).symm

/-- An orderly session whose attempts are accounted for. -/
def Kept (options : Options) (session : Session) : Prop :=
  Accounted session ∧ Orderly options session

theorem accounted_of_attempts
    (reachable : (protocol options).Reachable (OnlyReadsFail options) session) :
    Accounted session := by
  have kept : Kept options session := by
    refine reachable.invariant (fun _ initial =>
          ⟨accounted_of_initial initial, orderly_of_initial initial⟩) ?_
    rintro before label after ⟨accounted, orderly⟩ allowed step
    exact ⟨accounted.step orderly allowed step, orderly.step step⟩
  exact kept.1

/--
When only reads fail, the series are aligned in every session, each attempt
is recorded or counted, and the boundaries and failures are exactly those of
the attempts, no boundary attempted twice.  From any state, an attempt is
atomic if and only if nothing throws after its reads.
-/
theorem seriesAtomicity_laws (session : Session)
    (reachable : (protocol options).Reachable (OnlyReadsFail options) session) :
    Aligned session.scorer ∧ (∀ attempt ∈ session.history, Atomic attempt) ∧
      session.scorer.boundaries =
        (session.history.filter fun attempt => !countedFailed attempt).map
          (·.blockNumber) ∧
      session.scorer.failures = session.history.countP countedFailed ∧
      (attemptedBlocks session).Nodup ∧
      ∀ scorer answers blockNumber, Distinct scorer.agents → (Atomic
            ⟨blockNumber, scorer,
              attempted options answers scorer blockNumber⟩ ↔
          Uninterrupted options scorer blockNumber answers) := by
  have accounted := accounted_of_attempts reachable
  have orderly := orderly_of_reachable reachable
  refine ⟨accounted.aligned, accounted.atomic, accounted.recorded,
    accounted.counted, ?_, ?_⟩
  · exact orderly.increasing.imp fun before => before.ne
  · intro scorer answers blockNumber distinct
    exact atomic_iff distinct

/-- One agent, which the environment has not funded. -/
def lone : List ReconstructionAgent :=
  [⟨"a", "0x1111111111111111111111111111111111111111", none⟩]

def unread : Answers :=
  { quiet with readValueSnapshot := fun _ => .error "no state" }

/-- Every read succeeds, and nothing can be written any more. -/
def diskFull : Answers :=
  { quiet with
    floorSkippedEvent := .error "ENOSPC"
    gapEvent := .error "ENOSPC"
    intervalsAppend := .error "ENOSPC"
    boundaryEvent := .error "ENOSPC"
    marketAppend := .error "ENOSPC" }

theorem uninterrupted_quiet
    (options : Options) (scorer : LiveScorer) (blockNumber : Int) :
    Uninterrupted options scorer blockNumber quiet := by
  intro snapshot _
  refine
    ⟨fun _ _ => rfl, ?_, fun _ _ => rfl, ⟨rfl, rfl⟩, fun _ => ⟨none, rfl, ?_⟩⟩
  · intro _ agent _
    unfold endowmentOf
    cases agent.endowment with
    | none => exact ⟨none, rfl⟩
    | some endowment => exact ⟨some 0, rfl⟩
  · intro row
    exact absurd rfl row

/-- The first boundary cannot be read; the second one is recorded. -/
def recovered : List Label := [.onBlock 12, .attempt unread, .attempt quiet]

theorem recovered_always
    (label : Label) (member : label ∈ recovered) (session : Session) :
    OnlyReadsFail tens session label := by
  simp only [recovered, List.mem_cons, List.not_mem_nil, or_false] at member
  rcases member with rfl | rfl | rfl
  · exact trivial
  · intro blockNumber _ snapshot read
    cases read
  · intro blockNumber _
    exact uninterrupted_quiet tens _ blockNumber

theorem seriesAtomicity_of_recovered :
    ∃ session, scripted tens System.anything recovered lone = some session ∧
        session.scorer.boundaries = [10] ∧
        session.scorer.failures = 1 ∧
        Aligned session.scorer ∧
        ∀ attempt ∈ session.history, Atomic attempt := by
  have ran : (scripted tens System.anything recovered lone).map (fun session =>
            (session.scorer.boundaries, session.scorer.failures)) =
        some ([10], 1) := by
    decide
  rcases Option.map_eq_some_iff.1 ran with ⟨session, reached, results⟩
  have laws := seriesAtomicity_laws session
      (reachable_of_labels (by decide) recovered_always reached)
  exact ⟨session, reached, congrArg Prod.fst results,
    congrArg Prod.snd results, laws.1, laws.2.1⟩

/-- A full disk after the reads: half a record, counted as failed. -/
theorem atomicity_fails_on_full_disk :
    ¬ ∀ session, (protocol tens).Reachable System.anything session →
        Aligned session.scorer ∧
          ∀ attempt ∈ session.history, Atomic attempt := by
  intro atomic
  have ran : (scripted tens System.anything
      [.onBlock 12, .attempt unread, .attempt diskFull] lone).map
      (fun session =>
            (session.scorer.boundaries, session.scorer.valuesByAgent "a")) =
        some ([10], some []) := by
    decide
  rcases Option.map_eq_some_iff.1 ran with ⟨session, reached, results⟩
  have reachable := reachable_of_scripted (by decide) reached
  have boundaries : session.scorer.boundaries = [10] :=
    congrArg Prod.fst results
  have series : session.scorer.valuesByAgent "a" = some [] :=
    congrArg Prod.snd results
  have aligned := (atomic session reachable).1 "a" [] series
  rw [boundaries] at aligned
  cases aligned

end Eris.Scoring.Atomicity
