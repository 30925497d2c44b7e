import Eris.Whale.Resolution

/-!
# Whale prints resolve once

Between two passes of the coordinator no poll runs and nothing is handed out.
A pass polls and sends again what it is handed.  A poll at a late block leaves
no attempt waiting, and a resubmission has a higher number than the attempt it
follows; so as many late passes as there are attempts report every print.
-/

namespace Eris.Whale.Settled

open Foundation.Transition Resubmits Resolution

variable {Event Hash : Type} [DecidableEq Event]

/-! ## Passes -/

def scan (status : Hash → Option WhaleReceiptStatus) :
    Nat → Session Event Hash → Option (Session Event Hash)
  | 0, session => some session
  | left + 1, session => do
      let next ← session.perform (.judge status)
      scan status left next

/-- A poll without other calls between its attempts. -/
def pollAll
    (blockNumber : Nat) (status : Hash → Option WhaleReceiptStatus)
    (session : Session Event Hash) : Option (Session Event Hash) := do
  let opened ← session.perform (.poll blockNumber)
  let scanned ← scan status session.tracker.pending.length opened
  scanned.perform .returned

local instance lawfulSubmission : LawfulBEq (Event × ℕ) := inferInstance

/-- Send one resubmission, and tell the tracker. -/
def resend
    (blockNumber : Nat) (hashes : Resubmit Event Hash → List Hash)
    (session : Session Event Hash) (item : Resubmit Event Hash) :
    Option (Session Event Hash) :=
  (if (item.event, item.attempt) ∈ session.submissions then some session
    else session.perform (.submit item.event item.attempt)).bind
    fun submitted =>
      submitted.perform
        (.sent item.event (hashes item) item.attempt blockNumber)

/-- One pass of the coordinator at a block. -/
def pass
    (blockNumber : Nat) (status : Hash → Option WhaleReceiptStatus)
    (hashes : Resubmit Event Hash → List Hash)
    (session : Session Event Hash) : Option (Session Event Hash) := do
  let polled ← pollAll blockNumber status session
  polled.handedOut.foldlM (resend blockNumber hashes) polled

/-- No poll runs and nothing is handed out. -/
structure Between (session : Session Event Hash) : Prop where
  idle : session.polling = none
  sent : session.handedOut = []

/-- Every pending attempt has waited long enough at a block. -/
def Late (session : Session Event Hash) (blockNumber : Nat) : Prop :=
  ∀ a ∈ session.tracker.pending,
    a.sentBlock + WHALE_RECEIPT_WAIT_BLOCKS ≤ blockNumber

section Polls

variable {session : Session Event Hash} {poll : Polling Event Hash}
    {status : Hash → Option WhaleReceiptStatus} {blockNumber : Nat}

/-- What a scan of overdue attempts leaves. -/
structure Scanned
    (session next : Session Event Hash) (poll done : Polling Event Hash) :
    Prop where
  running : next.polling = some done
  index : done.index = session.tracker.pending.length
  waiting : done.waiting = poll.waiting
  pending : next.tracker.pending = session.tracker.pending
  handedOut : next.handedOut = session.handedOut
  started : next.started = session.started
  later : ∀ item ∈ done.out.resubmit, item ∈ poll.out.resubmit ∨
      ∃ a ∈ session.tracker.pending, item.attempt = a.attempt + 1

omit [DecidableEq Event] in
theorem judged_overdue
    {counts : Counts} {a : WhaleAttempt Event Hash}
    {judged : Counts × Polling Event Hash}
    (overdue : a.sentBlock + WHALE_RECEIPT_WAIT_BLOCKS ≤ poll.blockNumber)
    (judgement : Judgement counts poll a judged) :
    judged.2.index = poll.index + 1 ∧ judged.2.blockNumber = poll.blockNumber ∧
      judged.2.waiting = poll.waiting ∧
      ∀ item ∈ judged.2.out.resubmit, item ∈ poll.out.resubmit ∨
        item.attempt = a.attempt + 1 := by
  cases judgement with
  | resubmitted hashes below =>
      refine ⟨rfl, rfl, rfl, ?_⟩
      intro item member
      rcases List.mem_append.mp member with earlier | latest
      · exact .inl earlier
      · rw [List.mem_singleton.mp latest]
        exact .inr rfl
  | waits early => omega
  | _ => exact ⟨rfl, rfl, rfl, fun item member => .inl member⟩

theorem scan_overdue
    (left : Nat) (running : session.polling = some poll)
    (remaining : poll.index + left = session.tracker.pending.length)
    (late : Late session poll.blockNumber) :
    ∃ next done, scan status left session = some next ∧
        Scanned session next poll done := by
  induction left generalizing session poll with
  | zero =>
      exact ⟨session, poll, rfl,
        { running
          index := remaining
          waiting := rfl
          pending := rfl
          handedOut := rfl
          started := rfl
          later := fun item member => .inl member }⟩
  | succ left ih =>
      have bound : poll.index < session.tracker.pending.length := by omega
      have current := List.getElem?_eq_getElem bound
      generalize session.tracker.pending[poll.index] = a at current
      have listed : a ∈ session.tracker.pending := List.mem_of_getElem? current
      rcases judged_overdue (late a listed)
        (judge_judgement session.tracker.counts poll a status) with
        ⟨index, block, waiting, later⟩
      have step : session.perform (.judge status) = some (afterJudged session
          (judge session.tracker.counts poll a status)) := by
        simp only [Session.perform, running, current, afterJudged]
      rcases @ih
        (afterJudged session (judge session.tracker.counts poll a status))
        (judge session.tracker.counts poll a status).2 rfl
        (by
            rw [index]
            exact (Nat.add_right_comm _ _ _).trans remaining)
          (by
            rw [block]
            exact late) with
        ⟨next, done, scanned, facts⟩
      refine ⟨next, done, ?_, ?_⟩
      · simp only [scan, step]
        exact scanned
      · exact
          { running := facts.running
            index := facts.index
            waiting := facts.waiting.trans waiting
            pending := facts.pending
            handedOut := facts.handedOut
            started := facts.started
            later := by
              intro item member
              rcases facts.later item member with earlier | after
              · rcases later item earlier with before | own
                · exact .inl before
                · exact .inr ⟨a, listed, own⟩
              · exact .inr after }

theorem scan_sound
    {left : Nat} {next : Session Event Hash}
    (sound : Sound session) (scans : scan status left session = some next) :
    Sound next := by
  induction left generalizing session with
  | zero =>
      cases scans
      exact sound
  | succ left ih =>
      rcases Option.bind_eq_some_iff.mp scans with ⟨middle, step, rest⟩
      exact ih (sound_step sound step) rest

theorem pollAll_late
    (sound : Sound session) (between : Between session)
    (late : Late session blockNumber) :
    ∃ next, pollAll blockNumber status session = some next ∧
        Sound next ∧ next.polling = none ∧ next.tracker.pending = [] ∧
        next.started = session.started ∧
        ∀ item ∈ next.handedOut,
          ∃ a ∈ session.tracker.pending, item.attempt = a.attempt + 1 := by
  let opened : Session Event Hash :=
    { session with polling := some (.opened blockNumber) }
  have first : session.perform (.poll blockNumber) = some opened := by
    simp only [Session.perform, between.idle]
    rfl
  have soundOpened : Sound opened := sound_step sound first
  rcases @scan_overdue _ _ _ opened (.opened blockNumber) status
    session.tracker.pending.length rfl (Nat.zero_add _) late with
    ⟨scanned, done, scans, facts⟩
  have soundScanned := scan_sound soundOpened scans
  have returned :
      scanned.perform .returned = some (afterReturned scanned done) := by
    have through : scanned.tracker.pending.length ≤ done.index := by
      rw [facts.pending, facts.index]
    simp only [Session.perform, facts.running, through, if_true, afterReturned]
  refine ⟨afterReturned scanned done, ?_, sound_step soundScanned returned, rfl,
    facts.waiting, facts.started, ?_⟩
  · simp only [pollAll, first]
    change (scan status _ opened).bind _ = _
    rw [scans]
    exact returned
  · intro item member
    simp only [afterReturned, facts.handedOut] at member
    rw [show opened.handedOut = [] from between.sent, List.nil_append] at member
    rcases facts.later item member with none_before | after
    · cases none_before
    · exact after

end Polls

/-! ## What is handed out is sent -/

section Resent

variable {session : Session Event Hash} {item : Resubmit Event Hash}
    {rest : List (Resubmit Event Hash)}
    {blockNumber : Nat} {hashes : Resubmit Event Hash → List Hash}

theorem afterSent_handedOut
    (sound : Sound session) (queue : session.handedOut = item :: rest) :
    (afterSent session item.event (hashes item) item.attempt
      blockNumber).handedOut = rest := by
  have holds : session.Holds item.event item.attempt :=
    ⟨item, by simp [queue], rfl, rfl⟩
  have single := (sound.accounted.of_holds holds).2.2
  have listed :
      (session.handedOut.map Resubmit.event).count item.event ≤ 1 := by
    unfold Session.resubmissions at single
    cases running : session.polling with
    | none =>
        rw [running] at single
        exact single.le
    | some poll =>
        rw [running] at single
        simp only [List.map_append, List.count_append] at single
        omega
  rw [queue, List.map_cons, List.count_cons_self] at listed
  have absent : item.event ∉ rest.map Resubmit.event := by
    rw [← List.count_eq_zero]
    omega
  simp only [afterSent, queue, List.filter_cons, and_self, decide_true,
    Bool.not_true, Bool.false_eq_true, if_false]
  apply List.filter_eq_self.mpr
  intro other member
  have differ : other.event ≠ item.event := fun same =>
    absent (same ▸ List.mem_map_of_mem member)
  simp [differ]

/-- The attempt which sending a resubmission adds. -/
def again
    (blockNumber : Nat) (hashes : Resubmit Event Hash → List Hash)
    (item : Resubmit Event Hash) : WhaleAttempt Event Hash :=
  ⟨item.event, hashes item, item.attempt, blockNumber⟩

theorem resend_first
    (sound : Sound session) (queue : session.handedOut = item :: rest) :
    ∃ next, resend blockNumber hashes session item = some next ∧
        Sound next ∧ next.polling = session.polling ∧
        next.handedOut = rest ∧ next.started = session.started ∧
        next.tracker.pending =
          session.tracker.pending ++ [again blockNumber hashes item] := by
  have holds : session.Holds item.event item.attempt :=
    ⟨item, by simp [queue], rfl, rfl⟩
  rcases holds_mem_resubmissions holds with ⟨other, member, _, same⟩
  have notFirst : ¬item.attempt = 1 := by
    have bounds := sound.numbered.handed other member
    omega
  let submitted : Session Event Hash := { session with
      submissions := if (item.event, item.attempt) ∈ session.submissions then
          session.submissions
        else session.submissions ++ [(item.event, item.attempt)] }
  have first :
      (if (item.event, item.attempt) ∈ session.submissions then some session
        else session.perform (.submit item.event item.attempt)) =
        some submitted := by
    by_cases made : (item.event, item.attempt) ∈ session.submissions
    · simp only [submitted, made, if_true]
    · simp only [Session.perform, submitted, made, if_false,
        not_false_eq_true, and_true, holds, or_true, if_true]
  have soundSubmitted : Sound submitted := by
    by_cases made : (item.event, item.attempt) ∈ session.submissions
    · rw [if_pos made] at first
      exact Option.some.inj first ▸ sound
    · rw [if_neg made] at first
      exact sound_step sound first
  have listed : (item.event, item.attempt) ∈ submitted.submissions := by
    by_cases made : (item.event, item.attempt) ∈ session.submissions
    · simp only [submitted, made, if_true]
    · simp [submitted, made]
  have sent : submitted.perform
        (.sent item.event (hashes item) item.attempt blockNumber) =
      some (afterSent submitted item.event (hashes item) item.attempt
          blockNumber) := by
    have permitted : submitted.Holds item.event item.attempt := holds
    simp only [Session.perform, listed, permitted, or_true, and_true,
      if_true, afterSent]
  refine ⟨afterSent submitted item.event (hashes item) item.attempt blockNumber,
    ?_, sound_step soundSubmitted sent, rfl,
    afterSent_handedOut soundSubmitted queue, ?_, rfl⟩
  · unfold resend
    rw [first]
    exact sent
  · simp only [afterSent, notFirst, if_false]
    rfl

theorem resend_all
    {items : List (Resubmit Event Hash)}
    (sound : Sound session) (queue : session.handedOut = items) :
    ∃ next, items.foldlM (resend blockNumber hashes) session = some next ∧
        Sound next ∧ next.polling = session.polling ∧
        next.handedOut = [] ∧ next.started = session.started ∧
        next.tracker.pending =
          session.tracker.pending ++ items.map (again blockNumber hashes) := by
  induction items generalizing session with
  | nil => exact ⟨session, rfl, sound, rfl, queue, rfl, by simp⟩
  | cons item rest ih =>
      rcases
        @resend_first _ _ _ session item rest blockNumber hashes sound queue
        with ⟨middle, step, soundMiddle, polling, left, started, pending⟩
      rcases ih soundMiddle left with
        ⟨next, steps, soundNext, pollingNext, none_left, startedNext,
          pendingNext⟩
      refine ⟨next, ?_, soundNext, pollingNext.trans polling, none_left,
        startedNext.trans started, ?_⟩
      · rw [List.foldlM_cons, step]
        exact steps
      · rw [pendingNext, pending, List.append_assoc]
        rfl

end Resent

section Passes

variable
    {session : Session Event Hash} {status : Hash → Option WhaleReceiptStatus}
    {hashes : Resubmit Event Hash → List Hash} {blockNumber : Nat}

theorem pass_late
    {attempts : Nat} (sound : Sound session) (between : Between session)
    (late : Late session blockNumber)
    (numbered : ∀ a ∈ session.tracker.pending, attempts ≤ a.attempt) :
    ∃ next, pass blockNumber status hashes session = some next ∧
        Sound next ∧ Between next ∧ next.started = session.started ∧
        ∀ a ∈ next.tracker.pending,
          a.sentBlock = blockNumber ∧ attempts + 1 ≤ a.attempt := by
  rcases @pollAll_late _ _ _ session status blockNumber sound between late with
    ⟨polled, polls, soundPolled, idle, emptied, started, later⟩
  rcases
    @resend_all _ _ _ polled blockNumber hashes polled.handedOut soundPolled
      rfl with
    ⟨next, resends, soundNext, polling, none_left, startedNext, pending⟩
  refine ⟨next, ?_, soundNext, ⟨polling.trans idle, none_left⟩,
    startedNext.trans started, ?_⟩
  · unfold pass
    rw [polls]
    exact resends
  · intro a member
    rw [pending, emptied, List.nil_append] at member
    rcases List.mem_map.mp member with ⟨item, listed, rfl⟩
    rcases later item listed with ⟨before, earlier, number⟩
    have bound := numbered before earlier
    constructor
    · rfl
    · change attempts + 1 ≤ item.attempt
      omega

theorem reported_of_settled
    (sound : Sound session) (settled : session.attemptsPending = [])
    (sent : session.resubmissions = [])
    {event : Event} (member : event ∈ session.started) :
    session.reported.count event = 1 := by
  have placed := sound.accounted.placed event
  unfold places at placed
  rw [settled, sent, List.count_eq_one_of_mem sound.accounted.distinct member]
    at placed
  simpa using placed

/-- One pass for each attempt a print may have. -/
def passes
    (first : Nat) (gap : Nat → Nat)
    (status : Nat → Hash → Option WhaleReceiptStatus)
    (hashes : Nat → Resubmit Event Hash → List Hash) :
    Nat → Session Event Hash → Option (Session Event Hash)
  | 0, session => some session
  | left + 1, session => do
      let next ← pass first (status left) (hashes left) session
      passes (first + WHALE_RECEIPT_WAIT_BLOCKS + gap left) gap status hashes
        left next

theorem passes_late
    {first attempts : Nat} {gap : Nat → Nat}
    {status : Nat → Hash → Option WhaleReceiptStatus}
    {hashes : Nat → Resubmit Event Hash → List Hash} (left : Nat)
    (sound : Sound session) (between : Between session)
    (late : Late session first)
    (numbered : ∀ a ∈ session.tracker.pending, attempts ≤ a.attempt) :
    ∃ next, passes first gap status hashes left session = some next ∧
        Sound next ∧ Between next ∧ next.started = session.started ∧
        ∀ a ∈ next.tracker.pending, attempts + left ≤ a.attempt := by
  induction left generalizing session first attempts with
  | zero => exact ⟨session, rfl, sound, between, rfl, numbered⟩
  | succ left ih =>
      rcases @pass_late _ _ _ session (status left) (hashes left) first attempts
        sound between late numbered with
        ⟨middle, step, soundMiddle, betweenMiddle, started, sentThen⟩
      rcases @ih middle
        (first + WHALE_RECEIPT_WAIT_BLOCKS + gap left) (attempts + 1)
        soundMiddle betweenMiddle
        (fun a member => by
            have block := (sentThen a member).1
            omega)
          (fun a member => (sentThen a member).2) with
        ⟨next, steps, soundNext, betweenNext, startedNext, numberedNext⟩
      refine ⟨next, ?_, soundNext, betweenNext, startedNext.trans started, ?_⟩
      · simp only [passes, step]
        exact steps
      · intro a member
        have bound := numberedNext a member
        omega

end Passes

/-! ## The resolution of prints -/

/-- What the tracker promises of every print at every moment. -/
structure Resolves (session : Session Event Hash) : Prop where
  onePlace : ∀ event ∈ session.started, session.reported.count event +
      (session.attemptsPending.map WhaleAttempt.event).count event +
      (session.resubmissions.map Resubmit.event).count event = 1
  startedOnly : ∀ event, event ∉ session.started → event ∉ session.reported
  attempts : ∀ event,
      session.submissions.countP (fun made => decide (made.1 = event)) ≤
        WHALE_MAX_ATTEMPTS
  notWhilePending : ∀ event attempt next,
      session.perform (.submit event attempt) = some next →
        ∀ a ∈ session.attemptsPending, a.event ≠ event
  counts : session.tracker.counts.prints =
      session.tracker.counts.filledFirstAttempt +
          session.tracker.counts.filledAfterResubmit +
          session.tracker.counts.abandoned +
          session.tracker.counts.unconfirmed +
        session.attemptsPending.length + session.resubmissions.length
  unresolved : session.polling = none →
      session.tracker.unresolved = session.attemptsPending.length

theorem submissions_le
    {session : Session Event Hash}
    (numbered : Numbered session) (event : Event) :
    session.submissions.countP (fun made => decide (made.1 = event)) ≤
      WHALE_MAX_ATTEMPTS := by
  let own := session.submissions.filter fun made => decide (made.1 = event)
  have distinct : (own.map Prod.snd).Nodup := by
    apply List.Nodup.map_on
    · intro first firstOwn second secondOwn same
      have firstEvent := of_decide_eq_true (List.mem_filter.mp firstOwn).2
      have secondEvent := of_decide_eq_true (List.mem_filter.mp secondOwn).2
      exact Prod.ext (firstEvent.trans secondEvent.symm) same
    · exact numbered.once.filter _
  have within : own.map Prod.snd ⊆ List.range' 1 WHALE_MAX_ATTEMPTS := by
    intro attempt member
    rcases List.mem_map.mp member with ⟨made, listed, rfl⟩
    have bounds := numbered.submitted made (List.mem_filter.mp listed).1
    rw [List.mem_range'_1]
    omega
  have bound := (List.subperm_of_subset distinct within).length_le
  rw [List.length_map, List.length_range'] at bound
  rw [List.countP_eq_length_filter]
  exact bound

theorem resolves_of_sound
    {session : Session Event Hash} (sound : Sound session) :
    Resolves session where
  onePlace event member := (sound.accounted.placed event).trans
      (List.count_eq_one_of_mem sound.accounted.distinct member)
  startedOnly event absent := by
    have placed := sound.accounted.placed event
    rw [List.count_eq_zero.mpr absent] at placed
    unfold places at placed
    rw [← List.count_eq_zero]
    omega
  attempts := submissions_le sound.numbered
  notWhilePending event attempt next submitted a member same := by
    have listed : event ∈ session.attemptsPending.map WhaleAttempt.event :=
      same ▸ List.mem_map_of_mem member
    simp only [Session.perform, Option.ite_none_right_eq_some] at submitted
    rcases submitted.1 with ⟨_, fresh⟩ | ⟨holds, _⟩
    · have placed := sound.accounted.placed event
      have here := List.count_pos_iff.mpr listed
      unfold places at placed
      have started : event ∈ session.started := by
        apply List.count_pos_iff.mp
        omega
      exact fresh _ (sound.numbered.first event started) rfl
    · exact (sound.accounted.of_holds holds).2.1 listed
  counts := by
    have permuted : (session.reported ++
          session.attemptsPending.map WhaleAttempt.event ++
          session.resubmissions.map Resubmit.event).Perm
        session.started := by
      apply List.perm_iff_count.mpr
      intro event
      rw [List.count_append, List.count_append]
      exact sound.accounted.placed event
    have lengths := permuted.length_eq
    have filled := List.length_eq_countP_add_countP
        (fun item : Filled Event Hash => decide (item.attempt = 1))
        (l := session.outcomes.filled)
    simp only [Session.reported, List.length_append, List.length_map]
      at lengths
    have prints := sound.accounted.prints
    have filledFirst := sound.accounted.filledFirst
    have filledAfter := sound.accounted.filledAfter
    have abandoned := sound.accounted.abandoned
    have unconfirmed := sound.accounted.unconfirmed
    simp only [decide_not, decide_eq_true_eq] at filled
    omega
  unresolved idle := by
    rw [attemptsPending_of_idle idle]
    rfl

/--
At every moment of every session each started print is at one place, no print
is submitted more often than it may or while an attempt of it is pending, and
the counts add up; between two passes, late passes report every print once,
whatever the receipts and the submissions say.
-/
theorem prints_resolve_once
    {session : Session Event Hash}
    (reachable : (sessions Event Hash).Reachable System.anything session) :
    Resolves session ∧
      (session.attemptsPending = [] → session.resubmissions = [] →
        ∀ event ∈ session.started, session.reported.count event = 1) ∧
      (Between session → ∀ first gap status hashes, Late session first → ∃ next,
          passes first gap status hashes WHALE_MAX_ATTEMPTS session =
              some next ∧
            next.started = session.started ∧
            ∀ event ∈ session.started, next.reported.count event = 1) := by
  have sound := sound_of_reachable reachable
  refine ⟨resolves_of_sound sound, ?_, ?_⟩
  · intro settled sent event member
    exact reported_of_settled sound settled sent member
  · intro between first gap status hashes late
    have numbered : ∀ a ∈ session.tracker.pending, 1 ≤ a.attempt := by
      intro a member
      rw [← attemptsPending_of_idle between.idle] at member
      exact (sound.numbered.pending a member).1
    rcases @passes_late _ _ _ session first 1 gap status hashes
      WHALE_MAX_ATTEMPTS sound between late numbered with
      ⟨next, steps, soundNext, betweenNext, started, numberedNext⟩
    have settled : next.attemptsPending = [] := by
      rw [attemptsPending_of_idle betweenNext.idle]
      apply List.eq_nil_iff_forall_not_mem.mpr
      intro a member
      have least := numberedNext a member
      rw [← attemptsPending_of_idle betweenNext.idle] at member
      have most := (soundNext.numbered.pending a member).2
      omega
    have sent : next.resubmissions = [] := by
      unfold Session.resubmissions
      rw [betweenNext.idle]
      exact betweenNext.sent
    refine ⟨next, steps, started, ?_⟩
    intro event member
    exact reported_of_settled soundNext settled sent (started.symm ▸ member)

/-- A print which reverts once: its second attempt is in flight. -/
def revertedOnce : List (Call Nat Nat) :=
  [.submit 7 1, .sent 7 [71, 72] 1 100, .poll 101,
    .judge fun _ => some .reverted, .returned, .submit 7 2,
    .sent 7 [73] 2 101]

theorem prints_resolve_once_reverted :
    ∃ session : Session Nat Nat, session.tracker.counts.prints = 1 ∧
        session.attemptsPending = [⟨7, [73], 2, 101⟩] ∧
        Resolves session := by
  let run := fun (session : Session Nat Nat) (call : Call Nat Nat) =>
    (session.perform call).map fun next => (call, next)
  have evaluated : (script run System.anything revertedOnce .opened).map
      (fun session =>
            (session.tracker.counts.prints, session.attemptsPending)) =
        some (1, [⟨7, [73], 2, 101⟩]) := by
    decide
  rcases Option.map_eq_some_iff.mp evaluated with ⟨session, ran, facts⟩
  have runs : (sessions Nat Nat).Runs System.anything .opened session :=
    performed_runs (fun _ _ _ performs => performs) ran
  refine ⟨session, congrArg Prod.fst facts, congrArg Prod.snd facts, ?_⟩
  exact (prints_resolve_once ⟨.opened, rfl, runs⟩).1

end Eris.Whale.Settled
