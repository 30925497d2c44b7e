import Eris.Scoring.Protocol

/-!
# The boundaries a closed session has attempted

Heads arrive with skips, repeats and a read lag, the process may restart in
between, and the end of the run may only become known when it is closed.  The
session's cursor nevertheless attempts the boundaries of the epoch one by
one: at any time those attempted are a prefix of the enumeration, and once
`close` has returned they are all of it.
-/

namespace Eris.Scoring.Coverage

open Foundation.Cursor Foundation.Transition Extent LiveScoring Attempts
  Protocol

variable (options : Options) (final : Int)

/-- The epoch's last block: the budget's end, or the final block if earlier. -/
def lastBlock : Int :=
  match options.endBlock with
  | none => final
  | some last => min last final

/-- What is read when `head` is notified lies at or before the final block. -/
def Readable (through : Int) : Prop :=
  through ≤ final ∨ ∃ last, options.endBlock = some last ∧ last ≤ final

/-- Every head is notified before the end, and the run is closed there. -/
def ClosedAt (_ : Session) : Label → Prop
  | .onBlock head => Readable options final (head - options.readLagBlocks)
  | .close finalBlock => finalBlock = final
  | _ => True

/-- The boundaries of the epoch; a start which is also the end is one. -/
def epochBoundaries : List Int :=
  if enabled options ∧ lastBlock options final = options.runStartBlock then
    [options.runStartBlock]
  else
    intervalBoundaryBlocks options.runStartBlock (lastBlock options final)
      options.intervalBlocks

/-- The boundary after another one, in the epoch as it ends. -/
def follower (boundary : Int) : Option Int :=
  nextIntervalBoundary boundary options.intervalBlocks
    (some (lastBlock options final))

def firstBoundary : Option Int :=
  if options.runStartBlock > lastBlock options final then none
  else some options.runStartBlock

/-- What is pending, in the epoch as it ends. -/
def pendingAtEnd (scorer : LiveScorer) : Option Int :=
  match scorer.lastAttempted with
  | none => firstBoundary options final
  | some attempted => follower options final attempted

variable {options final}
    {blockNumber : Int} {scorer : LiveScorer} {session : Session}

theorem epochBoundaries_visits (scores : enabled options) :
    Visits (follower options final) (firstBoundary options final)
      (epochBoundaries options final) none := by
  unfold epochBoundaries firstBoundary
  rcases lt_trichotomy options.runStartBlock (lastBlock options final) with
    before | same | past
  · rw [if_neg before.not_gt, if_neg fun same => before.ne same.2.symm]
    exact intervalBoundaryBlocks_visits scores before
  · rw [if_neg same.le.not_gt, if_pos ⟨scores, same.symm⟩]
    have ended : follower options final options.runStartBlock = none := by
      unfold follower nextIntervalBoundary
      exact if_pos (le_of_eq same.symm)
    refine .visit ?_
    rw [ended]
    exact .rest
  · rw [if_pos past, if_neg fun same => past.ne same.2]
    unfold intervalBoundaryBlocks
    rw [dif_pos (show 1 ≤ options.intervalBlocks from scores),
      if_neg past.not_gt]
    exact .rest

/-! ## What is due is what is pending as the run ends -/

/-- Where the end stands: as it was given, or as closing has set it. -/
def EndKnown (options : Options) (final : Int) (scorer : LiveScorer) :
    Prop :=
  scorer.endBlock = options.endBlock ∨
    scorer.endBlock = some (lastBlock options final)

theorem nextIntervalBoundary_of_due
    {last : Int} {endBlock : Option Int}
    (next : nextIntervalBoundary last options.intervalBlocks endBlock =
        some blockNumber)
    (reached : blockNumber ≤ lastBlock options final)
    (later : ∀ block, endBlock = some block → lastBlock options final ≤ block)
    (advances : last < blockNumber) :
    follower options final last = some blockNumber := by
  unfold follower
  cases endBlock with
  | none =>
      cases next
      simp only [nextIntervalBoundary]
      rw [if_neg (by omega), min_eq_left reached]
  | some block =>
      have bound := later block rfl
      simp only [nextIntervalBoundary] at next ⊢
      split at next
      · cases next
      · rw [if_neg (by omega)]
        cases next
        congr 1
        omega

theorem lastBlock_le_end
    (known : EndKnown options final scorer)
    (block : Int) (ends : scorer.endBlock = some block) :
    lastBlock options final ≤ block := by
  rcases known with given | set
  · rw [given] at ends
    unfold lastBlock
    rw [ends]
    exact min_le_left _ _
  · rw [set] at ends
    cases ends
    exact le_rfl

theorem pending_le_end
    {block : Int} (pending : pendingBoundary options scorer = some blockNumber)
    (ends : scorer.endBlock = some block) :
    blockNumber ≤ block := by
  unfold pendingBoundary at pending
  rw [ends] at pending
  cases attempted : scorer.lastAttempted with
  | none =>
      rw [attempted] at pending
      simp only at pending
      split at pending
      · cases pending
      · cases pending
        omega
  | some last =>
      rw [attempted] at pending
      simp only [nextIntervalBoundary] at pending
      split at pending
      · cases pending
      · cases pending
        exact min_le_right _ _

theorem due_le_lastBlock
    {through : Int} (known : EndKnown options final scorer)
    (readable : Readable options final through)
    (pending : pendingBoundary options scorer = some blockNumber)
    (due : blockNumber ≤ through) :
    blockNumber ≤ lastBlock options final := by
  rcases known with given | set
  · unfold lastBlock
    cases ends : options.endBlock with
    | none =>
        rcases readable with readable | ⟨last, some, _⟩
        · exact due.trans readable
        · rw [ends] at some
          cases some
    | some last =>
        have before := pending_le_end pending (given.trans ends)
        rcases readable with readable | ⟨other, some, earlier⟩
        · exact le_min before (due.trans readable)
        · rw [ends] at some
          cases some
          exact le_min before (before.trans earlier)
  · exact pending_le_end pending set

theorem pendingAtEnd_of_due
    {through : Int} (scores : enabled options)
    (known : EndKnown options final scorer)
    (readable : Readable options final through)
    (pending : pendingBoundary options scorer = some blockNumber)
    (due : blockNumber ≤ through) :
    pendingAtEnd options final scorer = some blockNumber := by
  have reached := due_le_lastBlock known readable pending due
  unfold pendingAtEnd
  cases attempted : scorer.lastAttempted with
  | none =>
      have start : blockNumber = options.runStartBlock := by
        unfold pendingBoundary at pending
        rw [attempted] at pending
        simp only at pending
        split at pending
        · split at pending
          · cases pending
          · cases pending
            rfl
        · cases pending
          rfl
      subst start
      exact if_neg reached.not_gt
  | some last =>
      have advances := pendingBoundary_gt scores attempted pending
      unfold pendingBoundary at pending
      rw [attempted] at pending
      exact nextIntervalBoundary_of_due pending reached
        (lastBlock_le_end known) advances

theorem pendingAtEnd_of_set
    (set : scorer.endBlock = some (lastBlock options final)) :
    pendingBoundary options scorer = pendingAtEnd options final scorer := by
  unfold pendingBoundary pendingAtEnd firstBoundary follower
  cases scorer.lastAttempted with
  | none => simp only [set]
  | some attempted => simp only [set]

theorem closeAt_endBlock
    (known : EndKnown options final scorer) :
    (closeAt final scorer).endBlock = some (lastBlock options final) := by
  unfold closeAt lastBlock
  rcases known with given | set
  · rw [given]
    cases options.endBlock with
    | none => rfl
    | some last =>
        simp only
        split
        · next earlier => rw [min_eq_right earlier.le]
        · next later => rw [min_eq_left (not_lt.1 later)]
  · rw [set]
    unfold lastBlock
    cases options.endBlock with
    | none => exact if_neg (lt_irrefl final)
    | some last => exact if_neg (not_lt.2 (min_le_right last final))

theorem endKnown_restored
    (known : EndKnown options final scorer) :
    laterEnd scorer.endBlock options.endBlock = options.endBlock ∨
      laterEnd scorer.endBlock options.endBlock =
        some (lastBlock options final) := by
  rcases known with given | set
  · rw [given]
    cases options.endBlock with
    | none => exact Or.inl rfl
    | some last => exact Or.inl (by simp [laterEnd])
  · rw [set]
    unfold lastBlock
    cases options.endBlock with
    | none => exact Or.inr rfl
    | some last =>
        refine Or.inl ?_
        simp only [laterEnd]
        rw [max_eq_right (min_le_left last final)]

/-! ## The cursor of a session -/

/-- What a session has attempted, as a cursor into the final enumeration. -/
structure Covering
    (options : Options) (final : Int) (session : Session) : Prop where
  visits : Visits (follower options final) (firstBoundary options final)
      (attemptedBlocks session) (pendingAtEnd options final session.scorer)
  known : EndKnown options final session.scorer
  readable : ∀ reading, session.reading = some reading →
      Readable options final reading.through
  closing : ∀ reading, session.reading = some reading → reading.closing = true →
      reading.through = final ∧
        session.scorer.endBlock = some (lastBlock options final)
  closed :
    session.closed = true → pendingAtEnd options final session.scorer = none

theorem covering_of_initial
    (initial : Initial options session) :
    Covering options final session := by
  rcases initial with ⟨agents, distinct, rfl⟩
  refine ⟨.rest, Or.inl rfl, ?_, ?_, ?_⟩
  · intro reading serving
    cases serving
  · intro reading serving
    cases serving
  · intro closed
    cases closed

theorem lastBlock_le_final : lastBlock options final ≤ final := by
  unfold lastBlock
  cases options.endBlock with
  | none => exact le_rfl
  | some last => exact min_le_right _ _

theorem Covering.step
    {session next : Session} {label : Label}
    (covering : Covering options final session)
    (orderly : Orderly options session) (scores : enabled options)
    (allowed : ClosedAt options final session label)
    (step : Step options session label next) :
    Covering options final next := by
  cases step with
  | addAgent agent =>
      have kept : (addAgent session.scorer agent).lastAttempted =
            session.scorer.lastAttempted ∧
          (addAgent session.scorer agent).endBlock =
            session.scorer.endBlock := by
        unfold LiveScoring.addAgent
        split <;> exact ⟨rfl, rfl⟩
      have pending :
          pendingAtEnd options final (addAgent session.scorer agent) =
            pendingAtEnd options final session.scorer := by
        unfold pendingAtEnd
        rw [kept.1]
      refine ⟨?_, ?_, covering.readable, ?_, ?_⟩
      · rw [pending]
        exact covering.visits
      · unfold EndKnown
        rw [kept.2]
        exact covering.known
      · rw [kept.2]
        exact covering.closing
      · rw [pending]
        exact covering.closed
  | onBlock head _ idle =>
      refine ⟨covering.visits, covering.known, ?_, ?_, covering.closed⟩
      · rintro reading ⟨⟩
        exact allowed
      · rintro reading ⟨⟩ closing
        cases closing
  | onBlockDisabled head disabled => exact covering
  | close finalBlock _ idle =>
      have same : finalBlock = final := allowed
      subst same
      have ends := closeAt_endBlock covering.known
      refine ⟨covering.visits, Or.inr ends, ?_, ?_, covering.closed⟩
      · rintro reading ⟨⟩
        exact Or.inl le_rfl
      · rintro reading ⟨⟩ _
        exact ⟨rfl, ends⟩
  | closeDisabled finalBlock disabled => exact absurd scores disabled
  | @attempt answers reading blockNumber serving pending due =>
      have tried := attempted_tried options answers blockNumber
          (show Distinct (started session.scorer blockNumber).agents from
            orderly.rostered.distinct)
      have pendingNow := pendingAtEnd_of_due scores covering.known
          (covering.readable reading serving) pending due
      have pendingNext : pendingAtEnd options final
            (attempting options session reading answers blockNumber).scorer =
          follower options final blockNumber := by
        unfold pendingAtEnd attempting
        rw [tried.lastAttempted]
        rfl
      have endBlock : (attempting options session reading answers
              blockNumber).scorer.endBlock =
            session.scorer.endBlock :=
        tried.endBlock
      have still : ∀ other, (attempting options session reading answers
            blockNumber).reading = some other →
          other = reading := by
        intro other serves
        simp only [attempting] at serves
        split at serves
        · cases serves
          rfl
        · cases serves
      refine ⟨?_, ?_, ?_, ?_, ?_⟩
      · rw [attemptedBlocks_attempting, pendingNext]
        refine Visits.snoc ?_
        rw [← pendingNow]
        exact covering.visits
      · unfold EndKnown
        rw [endBlock]
        exact covering.known
      · intro other serves
        rw [still other serves]
        exact covering.readable reading serving
      · intro other serves closing
        rw [still other serves] at closing ⊢
        rw [endBlock]
        exact covering.closing reading serving closing
      · intro closed
        rw [covering.closed closed] at pendingNow
        cases pendingNow
  | @settle reading serving through =>
      refine ⟨covering.visits, covering.known, ?_, ?_, ?_⟩
      · rintro other ⟨⟩
      · rintro other ⟨⟩
      · intro closed
        simp only [settled, Bool.or_eq_true] at closed
        rcases closed with closed | closing
        · exact covering.closed closed
        · rcases covering.closing reading serving closing with
            ⟨full, ends⟩
          have pending := pendingAtEnd_of_set ends
          cases due : pendingBoundary options session.scorer with
          | none =>
              exact pending.symm.trans due
          | some blockNumber =>
              have past := through blockNumber due
              have reached := pending_le_end due ends
              have bounded : lastBlock options final ≤ final :=
                lastBlock_le_final
              omega
  | @resume agents scorer distinct restored =>
      have restoredAs := restore_eq_ok restored
      subst restoredAs
      refine ⟨covering.visits, endKnown_restored covering.known, ?_, ?_, ?_⟩
      · rintro reading ⟨⟩
      · rintro reading ⟨⟩
      · rintro ⟨⟩

/-- A session which covers its epoch, and is orderly. -/
def Tracked (options : Options) (final : Int) (session : Session) : Prop :=
  Covering options final session ∧ Orderly options session

theorem covering_of_reachable
    (scores : enabled options)
    (reachable :
      (protocol options).Reachable (ClosedAt options final) session) :
    Covering options final session := by
  have tracked : Tracked options final session := by
    refine reachable.invariant (fun _ initial =>
          ⟨covering_of_initial initial, orderly_of_initial initial⟩) ?_
    rintro before label after ⟨covering, orderly⟩ allowed step
    exact ⟨covering.step orderly scores allowed step, orderly.step step⟩
  exact tracked.1

/-- No call is in progress, and nothing has been attempted. -/
def Idle (session : Session) : Prop :=
  session.reading = none ∧ attemptedBlocks session = []

theorem attempted_of_disabled
    {allowed : Session → Label → Prop} (disabled : ¬ enabled options)
    (reachable : (protocol options).Reachable allowed session) :
    attemptedBlocks session = [] := by
  have idle : Idle session := by
    refine reachable.invariant ?_ ?_
    · rintro start ⟨agents, distinct, rfl⟩
      exact ⟨rfl, rfl⟩
    · rintro before label after ⟨idle, unread⟩ _ step
      cases step with
      | addAgent agent => exact ⟨idle, unread⟩
      | onBlock head scores _ => exact absurd scores disabled
      | onBlockDisabled head _ => exact ⟨idle, unread⟩
      | close finalBlock scores _ => exact absurd scores disabled
      | closeDisabled finalBlock _ => exact ⟨idle, unread⟩
      | attempt answers serving _ _ =>
          rw [idle] at serving
          cases serving
      | settle serving _ =>
          rw [idle] at serving
          cases serving
      | resume agents _ _ => exact ⟨rfl, unread⟩
  exact idle.2

/--
Once `close` has returned, the attempted boundaries are those of the epoch,
each once and in increasing order; until then they are a first part of them.
A call in progress can always go on, and a restart is never refused.
-/
theorem boundaryCoverage_laws (session : Session)
    (reachable :
      (protocol options).Reachable (ClosedAt options final) session) :
    attemptedBlocks session <+: epochBoundaries options final ∧
      (session.closed = true →
        attemptedBlocks session = epochBoundaries options final) ∧
      (attemptedBlocks session).Pairwise (· < ·) ∧
      (∀ reading, session.reading = some reading → ∀ answers,
        (perform options session (.attempt answers)).isSome ∨
          (perform options session .settle).isSome) ∧
      ∀ agents, Distinct agents →
        (perform options session (.resume agents)).isSome := by
  have orderly := orderly_of_reachable reachable
  refine ⟨?_, ?_, orderly.increasing, ?_, ?_⟩
  · by_cases scores : enabled options
    · have covering := covering_of_reachable scores reachable
      rcases covering.visits.exists_rest (epochBoundaries_visits scores)
        with ⟨rest, split, -⟩
      exact ⟨rest, split.symm⟩
    · rw [attempted_of_disabled scores reachable]
      exact List.nil_prefix
  · intro closed
    by_cases scores : enabled options
    · have covering := covering_of_reachable scores reachable
      have visits := covering.visits
      rw [covering.closed closed] at visits
      exact visits.unique (epochBoundaries_visits scores)
    · rw [attempted_of_disabled scores reachable]
      unfold epochBoundaries intervalBoundaryBlocks
      rw [if_neg fun both => scores both.1,
        dif_neg (show ¬ 1 ≤ options.intervalBlocks from scores)]
  · intro reading serving answers
    exact exists_perform serving answers
  · intro agents distinct
    simp only [perform]
    rw [if_pos distinct, orderly.resumes agents]
    rfl

instance (session : Session) (label : Label) :
    Decidable (ClosedAt options final session label) :=
  match label with
  | .onBlock head =>
      inferInstanceAs (Decidable (head - options.readLagBlocks ≤ final ∨
          ∃ last ∈ options.endBlock, last ≤ final))
  | .close finalBlock => inferInstanceAs (Decidable (finalBlock = final))
  | .addAgent _ | .attempt _ | .settle | .resume _ =>
      inferInstanceAs (Decidable True)

/-- A skipped head, a restart, and a close off the interval grid. -/
def skipped : List Label :=
  [.onBlock 1, .attempt quiet, .settle, .resume [], .onBlock 14,
    .attempt quiet, .settle, .close 17, .attempt quiet, .settle]

theorem boundaryCoverage_of_skipped :
    ∃ session, scripted tens (ClosedAt tens 17) skipped [] = some session ∧
        attemptedBlocks session = epochBoundaries tens 17 ∧
        attemptedBlocks session = [0, 10, 17] := by
  have ran : (scripted tens (ClosedAt tens 17) skipped []).map
        (fun session => (session.closed, attemptedBlocks session)) =
      some (true, [0, 10, 17]) := by
    decide
  rcases Option.map_eq_some_iff.1 ran with ⟨session, reached, results⟩
  have reachable := reachable_of_scripted distinct_nil reached
  have closed : session.closed = true := congrArg Prod.fst results
  exact ⟨session, reached, (boundaryCoverage_laws session reachable).2.1 closed,
    congrArg Prod.snd results⟩

/-- A run which ends on its first block attempts it; the list is empty. -/
theorem coverage_fails_when_closed_at_start :
    ¬ ∀ session, (protocol tens).Reachable (ClosedAt tens 0) session →
        session.closed = true → attemptedBlocks session =
            intervalBoundaryBlocks tens.runStartBlock 0
              tens.intervalBlocks := by
  intro covers
  have ran : (scripted tens (ClosedAt tens 0)
        [.close 0, .attempt quiet, .settle] []).map
        (fun session => (session.closed, attemptedBlocks session)) =
      some (true, [0]) := by
    decide
  rcases Option.map_eq_some_iff.1 ran with ⟨session, reached, results⟩
  have reachable := reachable_of_scripted distinct_nil reached
  have attempted := covers session reachable (congrArg Prod.fst results)
  have listed : attemptedBlocks session = [0] := congrArg Prod.snd results
  rw [listed] at attempted
  have empty :
      intervalBoundaryBlocks tens.runStartBlock 0 tens.intervalBlocks = [] := by
    unfold intervalBoundaryBlocks
    simp [tens]
  rw [empty] at attempted
  cases attempted

end Eris.Scoring.Coverage
