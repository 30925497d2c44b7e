import Eris.Whale.Resubmits

/-!
# What becomes of the whale prints

Each print whose first attempt was sent is at one place: an attempt of it is
pending, a resubmission of it is handed out and not sent, or it has been
reported, once.  The counts of the tracker follow these places through every
call, those between two attempts of a poll included.
-/

namespace Eris.Whale.Resolution

open Foundation.Transition Resubmits

variable
    {Event Hash : Type} [DecidableEq Event] {session next : Session Event Hash}

/-! ## Places -/

/-- How often a print is reported, pending and handed out. -/
def places (session : Session Event Hash) (event : Event) : Nat :=
  session.reported.count event +
    (session.attemptsPending.map WhaleAttempt.event).count event +
    (session.resubmissions.map Resubmit.event).count event

/-- Each started print is at one place, and the counts follow. -/
structure Accounted (session : Session Event Hash) : Prop where
  placed : ∀ event, places session event = session.started.count event
  distinct : session.started.Nodup
  prints : session.tracker.counts.prints = session.started.length
  filledFirst : session.tracker.counts.filledFirstAttempt =
      session.outcomes.filled.countP fun item => decide (item.attempt = 1)
  filledAfter : session.tracker.counts.filledAfterResubmit =
      session.outcomes.filled.countP fun item => !decide (item.attempt = 1)
  abandoned :
    session.tracker.counts.abandoned = session.outcomes.abandoned.length
  unconfirmed :
    session.tracker.counts.unconfirmed = session.outcomes.unconfirmed.length

/-- The attempts are numbered from one on, and none is made twice. -/
structure Numbered (session : Session Event Hash) : Prop where
  pending : ∀ a ∈ session.attemptsPending,
      1 ≤ a.attempt ∧ a.attempt ≤ WHALE_MAX_ATTEMPTS
  handed : ∀ item ∈ session.resubmissions,
      2 ≤ item.attempt ∧ item.attempt ≤ WHALE_MAX_ATTEMPTS
  submitted :
    ∀ made ∈ session.submissions, 1 ≤ made.2 ∧ made.2 ≤ WHALE_MAX_ATTEMPTS
  once : session.submissions.Nodup
  first : ∀ event ∈ session.started, (event, 1) ∈ session.submissions

/-- A poll is within the array, and leaves waiting what may still wait. -/
structure Scanning (session : Session Event Hash) : Prop where
  within : ∀ poll, session.polling = some poll →
      poll.index ≤ session.tracker.pending.length
  waiting : ∀ poll, session.polling = some poll → ∀ a ∈ poll.waiting,
      poll.blockNumber < a.sentBlock + WHALE_RECEIPT_WAIT_BLOCKS

omit [DecidableEq Event] in
theorem holds_mem_resubmissions
    {event : Event} {attempt : Nat} (holds : session.Holds event attempt) :
    ∃ item ∈ session.resubmissions,
      item.event = event ∧ item.attempt = attempt := by
  rcases holds with ⟨item, member, facts⟩
  refine ⟨item, ?_, facts⟩
  unfold Session.resubmissions
  cases session.polling with
  | none => exact member
  | some poll => exact List.mem_append_left _ member

theorem Accounted.places_le_one
    (accounted : Accounted session) (event : Event) :
    places session event ≤ 1 := by
  rw [accounted.placed event]
  exact List.nodup_iff_count_le_one.mp accounted.distinct event

theorem Accounted.of_holds
    {event : Event} {attempt : Nat} (accounted : Accounted session)
    (holds : session.Holds event attempt) :
    event ∉ session.reported ∧
      event ∉ session.attemptsPending.map WhaleAttempt.event ∧
      (session.resubmissions.map Resubmit.event).count event = 1 := by
  have atMost := accounted.places_le_one event
  have here : 0 < (session.resubmissions.map Resubmit.event).count event := by
    rcases holds_mem_resubmissions holds with ⟨item, member, same, _⟩
    apply List.count_pos_iff.mpr
    exact same ▸ List.mem_map_of_mem member
  unfold places at atMost
  refine ⟨?_, ?_, by omega⟩
  · rw [← List.count_eq_zero]
    omega
  · rw [← List.count_eq_zero]
    omega

omit [DecidableEq Event] in
theorem attemptsPending_of_idle (idle : session.polling = none) :
    session.attemptsPending = session.tracker.pending := by
  unfold Session.attemptsPending
  rw [idle]

theorem accounted_submit
    {event : Event} {attempt : Nat} (accounted : Accounted session) :
    Accounted { session with
        submissions := session.submissions ++ [(event, attempt)] } where
  placed := accounted.placed
  distinct := accounted.distinct
  prints := accounted.prints
  filledFirst := accounted.filledFirst
  filledAfter := accounted.filledAfter
  abandoned := accounted.abandoned
  unconfirmed := accounted.unconfirmed

omit [DecidableEq Event] in
theorem numbered_submit
    {event : Event} {attempt : Nat} (numbered : Numbered session)
    (permitted : (attempt = 1 ∧ ∀ made ∈ session.submissions, made.1 ≠ event) ∨
        (session.Holds event attempt ∧
          (event, attempt) ∉ session.submissions)) :
    Numbered { session with
        submissions := session.submissions ++ [(event, attempt)] } where
  pending := numbered.pending
  handed := numbered.handed
  submitted made member := by
    rcases List.mem_append.mp member with earlier | latest
    · exact numbered.submitted made earlier
    · rw [List.mem_singleton.mp latest]
      rcases permitted with ⟨first, _⟩ | ⟨holds, _⟩
      · subst first
        exact ⟨le_refl 1, by simp [WHALE_MAX_ATTEMPTS]⟩
      · rcases holds_mem_resubmissions holds with ⟨item, listed, _, same⟩
        have bounds := numbered.handed item listed
        rw [same] at bounds
        exact ⟨by omega, bounds.2⟩
  once := by
    have absent : (event, attempt) ∉ session.submissions := by
      rcases permitted with ⟨_, fresh⟩ | ⟨_, absent⟩
      · intro member
        exact fresh _ member rfl
      · exact absent
    rw [List.nodup_append_comm]
    exact List.nodup_cons.mpr ⟨absent, numbered.once⟩
  first other member := List.mem_append_left _ (numbered.first other member)

section Sent

variable {event : Event} {hashes : List Hash} {attempt blockNumber : Nat}

/-- The session after the tracker was told of an attempt. -/
def afterSent
    (session : Session Event Hash) (event : Event) (hashes : List Hash)
    (attempt blockNumber : Nat) : Session Event Hash :=
  { session with
    tracker := session.tracker.sent event hashes attempt blockNumber
    handedOut := session.handedOut.filter fun item =>
        !(decide (item.event = event ∧ item.attempt = attempt))
    started :=
      if attempt = 1 then session.started ++ [event] else session.started }

@[simp]
theorem afterSent_outcomes :
    (afterSent session event hashes attempt blockNumber).outcomes =
      session.outcomes :=
  rfl

theorem afterSent_attemptsPending (scanning : Scanning session) :
    (afterSent session event hashes attempt blockNumber).attemptsPending =
      session.attemptsPending ++ [⟨event, hashes, attempt, blockNumber⟩] := by
  cases polling : session.polling with
  | none =>
      simp [afterSent, Session.attemptsPending, WhaleResubmits.sent, polling]
  | some poll =>
      have within := scanning.within poll polling
      simp [afterSent, Session.attemptsPending, WhaleResubmits.sent, polling,
        List.drop_append_of_le_length within]

theorem mem_afterSent_resubmissions
    {item : Resubmit Event Hash}
    (member : item ∈
        (afterSent session event hashes attempt blockNumber).resubmissions) :
    item ∈ session.resubmissions := by
  revert member
  cases polling : session.polling with
  | none =>
      simp only [afterSent, Session.resubmissions, polling, List.mem_filter]
      exact fun member => member.1
  | some poll =>
      simp only [afterSent, Session.resubmissions, polling, List.mem_append,
        List.mem_filter]
      rintro (⟨member, _⟩ | member)
      · exact .inl member
      · exact .inr member

theorem count_event_filter
    (items : List (Resubmit Event Hash)) (other : Event) :
    ((items.filter fun item =>
        !(decide (item.event = event ∧ item.attempt = attempt))).map
          Resubmit.event).count other +
        (if other = event then
          items.countP fun item =>
            decide (item.event = event ∧ item.attempt = attempt)
        else 0) =
      (items.map Resubmit.event).count other := by
  induction items with
  | nil => simp
  | cons item rest ih =>
      by_cases selected : item.event = event ∧ item.attempt = attempt
      · rcases selected with ⟨sameEvent, sameAttempt⟩
        by_cases same : other = event
        · subst same
          simp [sameEvent, sameAttempt] at ih ⊢
          omega
        · have differ : ¬event = other := fun equal => same equal.symm
          simp [sameEvent, sameAttempt, same, differ] at ih ⊢
          exact ih
      · simp only [List.filter_cons, selected, decide_false, Bool.not_false,
          if_true, List.map_cons, List.countP_cons, List.count_cons,
          Bool.false_eq_true, if_false, Nat.add_zero]
        omega

theorem count_afterSent_resubmissions
    (accounted : Accounted session)
    (holds : session.Holds event attempt) (other : Event) :
    ((afterSent session event hashes attempt
        blockNumber).resubmissions.map Resubmit.event).count other +
        (if other = event then 1 else 0) =
      (session.resubmissions.map Resubmit.event).count other := by
  have single := (accounted.of_holds holds).2.2
  have some_item : 0 < session.handedOut.countP fun item =>
        decide (item.event = event ∧ item.attempt = attempt) := by
    rcases holds with ⟨item, member, facts⟩
    exact List.countP_pos_iff.mpr ⟨item, member, decide_eq_true facts⟩
  have split := @count_event_filter _ _ _ event attempt session.handedOut
  have here := split event
  simp only [if_true] at here
  cases polling : session.polling with
  | none =>
      simp only [afterSent, Session.resubmissions, polling] at single ⊢
      by_cases same : other = event
      · subst same
        simp only [if_true]
        omega
      · have there := split other
        simp only [same, if_false] at there ⊢
        exact there
  | some poll =>
      simp only [afterSent, Session.resubmissions, polling, List.map_append,
        List.count_append] at single ⊢
      by_cases same : other = event
      · subst same
        simp only [if_true]
        omega
      · have there := split other
        simp only [same, if_false] at there ⊢
        omega

theorem afterSent_resubmissions_first
    (numbered : Numbered session) :
    (afterSent session event hashes 1 blockNumber).resubmissions =
      session.resubmissions := by
  have keeps : ∀ item ∈ session.handedOut,
      (!(decide (item.event = event ∧ item.attempt = 1))) = true := by
    intro item member
    have listed : item ∈ session.resubmissions := by
      unfold Session.resubmissions
      cases session.polling with
      | none => exact member
      | some poll => exact List.mem_append_left _ member
    have bounds := numbered.handed item listed
    simp only [Bool.not_eq_true', decide_eq_false_iff_not]
    omega
  have same := List.filter_eq_self.mpr keeps
  cases polling : session.polling with
  | none =>
      simp only [afterSent, Session.resubmissions, polling]
      exact same
  | some poll =>
      simp only [afterSent, Session.resubmissions, polling]
      rw [same]

theorem places_sent_first
    (numbered : Numbered session) (scanning : Scanning session)
    (other : Event) :
    places (afterSent session event hashes 1 blockNumber) other =
      places session other + [event].count other := by
  unfold places
  rw [afterSent_attemptsPending scanning,
    afterSent_resubmissions_first numbered]
  simp only [Session.reported, afterSent_outcomes, List.map_append,
    List.count_append, List.map_cons, List.map_nil]
  omega

theorem places_sent_again
    (accounted : Accounted session) (scanning : Scanning session)
    (holds : session.Holds event attempt) (other : Event) :
    places (afterSent session event hashes attempt blockNumber) other =
      places session other := by
  have resubmissions :=
    @count_afterSent_resubmissions _ _ _ session event hashes attempt
      blockNumber accounted holds other
  unfold places
  rw [afterSent_attemptsPending scanning]
  simp only [Session.reported, afterSent_outcomes, List.map_append,
    List.count_append, List.map_cons, List.map_nil, List.count_singleton]
  by_cases same : other = event
  · subst same
    simp only [if_true, beq_self_eq_true] at resubmissions ⊢
    omega
  · have differ : (event == other) = false :=
      beq_false_of_ne fun equal => same equal.symm
    rw [if_neg same] at resubmissions
    rw [differ]
    simp only [Bool.false_eq_true, if_false]
    omega

theorem accounted_sent
    (accounted : Accounted session) (numbered : Numbered session)
    (scanning : Scanning session)
    (permitted :
      attempt = 1 ∧ event ∉ session.started ∨ session.Holds event attempt) :
    Accounted (afterSent session event hashes attempt blockNumber) := by
  have later : ¬attempt = 1 → session.Holds event attempt := by
    intro notFirst
    rcases permitted with ⟨first, _⟩ | holds
    · exact absurd first notFirst
    · exact holds
  have fresh : attempt = 1 → event ∉ session.started := by
    intro first
    rcases permitted with ⟨_, fresh⟩ | holds
    · exact fresh
    · rcases holds_mem_resubmissions holds with ⟨item, member, _, same⟩
      have bounds := numbered.handed item member
      omega
  constructor
  · intro other
    by_cases first : attempt = 1
    · subst first
      rw [places_sent_first numbered scanning, accounted.placed other]
      simp only [afterSent, if_true, List.count_append]
    · rw [places_sent_again accounted scanning (later first),
        accounted.placed other]
      simp only [afterSent, first, if_false]
  · by_cases first : attempt = 1
    · simp only [afterSent, first, if_true]
      rw [List.nodup_append_comm]
      exact List.nodup_cons.mpr ⟨fresh first, accounted.distinct⟩
    · simp only [afterSent, first, if_false]
      exact accounted.distinct
  · by_cases first : attempt = 1
    · simp [afterSent, WhaleResubmits.sent, first, accounted.prints]
    · simp only [afterSent, WhaleResubmits.sent, first, if_false]
      exact accounted.prints
  · exact (sent_filledFirstAttempt _).trans accounted.filledFirst
  · exact (sent_filledAfterResubmit _).trans accounted.filledAfter
  · exact (sent_abandoned _).trans accounted.abandoned
  · exact (sent_unconfirmed _).trans accounted.unconfirmed

theorem numbered_sent
    (numbered : Numbered session) (scanning : Scanning session)
    (submitted : (event, attempt) ∈ session.submissions) :
    Numbered (afterSent session event hashes attempt blockNumber) where
  pending a member := by
    rw [afterSent_attemptsPending scanning] at member
    rcases List.mem_append.mp member with earlier | latest
    · exact numbered.pending a earlier
    · rw [List.mem_singleton.mp latest]
      exact numbered.submitted _ submitted
  handed item member :=
    numbered.handed item (mem_afterSent_resubmissions member)
  submitted := numbered.submitted
  once := numbered.once
  first other member := by
    by_cases first : attempt = 1
    · subst first
      simp only [afterSent, if_true] at member
      rcases List.mem_append.mp member with earlier | latest
      · exact numbered.first other earlier
      · rw [List.mem_singleton.mp latest]
        exact submitted
    · simp only [afterSent, first, if_false] at member
      exact numbered.first other member

theorem scanning_sent (scanning : Scanning session) :
    Scanning (afterSent session event hashes attempt blockNumber) where
  within poll running := by
    have within := scanning.within poll running
    simp only [afterSent, WhaleResubmits.sent, List.length_append]
    omega
  waiting poll running := scanning.waiting poll running

end Sent

/-! ## Attempts a poll judges -/

section Judged

variable {poll : Polling Event Hash} {a : WhaleAttempt Event Hash}
    {status : Hash → Option WhaleReceiptStatus}

/-- The session after a poll judged one attempt. -/
def afterJudged
    (session : Session Event Hash) (judged : Counts × Polling Event Hash) :
    Session Event Hash :=
  { session with
    tracker := { session.tracker with counts := judged.1 }
    polling := some judged.2 }

omit [DecidableEq Event] in
theorem drop_eq_of_current
    (current : session.tracker.pending[poll.index]? = some a) :
    session.tracker.pending.drop poll.index =
      a :: session.tracker.pending.drop (poll.index + 1) := by
  rcases List.getElem?_eq_some_iff.mp current with ⟨bound, here⟩
  rw [List.drop_eq_getElem_cons bound, here]

omit [DecidableEq Event] in
@[simp]
theorem afterJudged_outcomes (judged : Counts × Polling Event Hash) :
    (afterJudged session judged).outcomes =
      session.results.append judged.2.out :=
  rfl

omit [DecidableEq Event] in
@[simp]
theorem afterJudged_attemptsPending
    (judged : Counts × Polling Event Hash) :
    (afterJudged session judged).attemptsPending =
      judged.2.waiting ++ session.tracker.pending.drop judged.2.index :=
  rfl

omit [DecidableEq Event] in
@[simp]
theorem afterJudged_resubmissions (judged : Counts × Polling Event Hash) :
    (afterJudged session judged).resubmissions =
      session.handedOut ++ judged.2.out.resubmit :=
  rfl

theorem places_judged
    (running : session.polling = some poll)
    (current : session.tracker.pending[poll.index]? = some a) (event : Event) :
    places (afterJudged session (judge session.tracker.counts poll a status))
        event =
      places session event := by
  have rest := drop_eq_of_current current
  have before : places session event =
      ((session.results.append poll.out).filled.map Filled.event).count event +
        ((session.results.append poll.out).abandoned.map
          Abandoned.event).count event +
        ((session.results.append poll.out).unconfirmed.map
          Unconfirmed.event).count event +
        ((poll.waiting.map WhaleAttempt.event).count event +
          ([a.event].count event +
            ((session.tracker.pending.drop (poll.index + 1)).map
              WhaleAttempt.event).count event)) +
        ((session.handedOut ++ poll.out.resubmit).map
          Resubmit.event).count event := by
    simp only [places, Session.reported, Session.outcomes,
      Session.attemptsPending, Session.resubmissions, running, rest,
      List.map_append, List.map_cons, List.count_append, List.count_cons,
      List.count_nil]
    omega
  rw [before]
  have judgement := judge_judgement session.tracker.counts poll a status
  generalize judge session.tracker.counts poll a status = judged at judgement
  cases judgement <;>
    simp only [places, Session.reported, afterJudged_outcomes,
      afterJudged_attemptsPending, afterJudged_resubmissions,
      append_filled, append_abandoned, append_unconfirmed, List.map_append,
      List.map_cons, List.map_nil, List.count_append] <;>
    omega

theorem accounted_judged
    (accounted : Accounted session) (running : session.polling = some poll)
    (current : session.tracker.pending[poll.index]? = some a) :
    Accounted (afterJudged session
        (judge session.tracker.counts poll a status)) := by
  have filledFirst := accounted.filledFirst
  have filledAfter := accounted.filledAfter
  have abandoned := accounted.abandoned
  have unconfirmed := accounted.unconfirmed
  have found : session.outcomes = session.results.append poll.out := by
    unfold Session.outcomes
    rw [running]
  rw [found] at filledFirst filledAfter abandoned unconfirmed
  have placed : ∀ event, places (afterJudged session
              (judge session.tracker.counts poll a status)) event =
          session.started.count event :=
    fun event =>
      (places_judged running current event).trans (accounted.placed event)
  have judgement := judge_judgement session.tracker.counts poll a status
  generalize judge session.tracker.counts poll a status = judged at *
  cases judgement with
  | filled hash =>
      constructor
      · exact placed
      · exact accounted.distinct
      · by_cases first : a.attempt = 1 <;>
          simp [afterJudged, first, accounted.prints]
      · by_cases first : a.attempt = 1 <;>
          simp [afterJudged, Session.outcomes, first] at filledFirst ⊢ <;>
          omega
      · by_cases first : a.attempt = 1 <;>
          simp [afterJudged, Session.outcomes, first] at filledAfter ⊢ <;>
          omega
      · by_cases first : a.attempt = 1 <;>
          simp [afterJudged, Session.outcomes, first] at abandoned ⊢ <;>
          omega
      · by_cases first : a.attempt = 1 <;>
          simp [afterJudged, Session.outcomes, first] at unconfirmed ⊢ <;>
          omega
  | resubmitted hashes below =>
      exact
        { placed
          distinct := accounted.distinct
          prints := accounted.prints
          filledFirst
          filledAfter
          abandoned
          unconfirmed }
  | abandoned hashes last =>
      constructor
      · exact placed
      · exact accounted.distinct
      · exact accounted.prints
      · exact filledFirst
      · exact filledAfter
      · simp [afterJudged, Session.outcomes] at abandoned ⊢
        omega
      · exact unconfirmed
  | unconfirmed late =>
      constructor
      · exact placed
      · exact accounted.distinct
      · exact accounted.prints
      · exact filledFirst
      · exact filledAfter
      · exact abandoned
      · simp [afterJudged, Session.outcomes] at unconfirmed ⊢
        omega
  | waits early =>
      exact
        { placed
          distinct := accounted.distinct
          prints := accounted.prints
          filledFirst
          filledAfter
          abandoned
          unconfirmed }

omit [DecidableEq Event] in
theorem numbered_judged
    (numbered : Numbered session) (running : session.polling = some poll)
    (current : session.tracker.pending[poll.index]? = some a) :
    Numbered (afterJudged session
        (judge session.tracker.counts poll a status)) := by
  have pending := numbered.pending
  have handed := numbered.handed
  unfold Session.attemptsPending at pending
  unfold Session.resubmissions at handed
  rw [running] at pending handed
  simp only [drop_eq_of_current current] at pending
  have own : 1 ≤ a.attempt ∧ a.attempt ≤ WHALE_MAX_ATTEMPTS :=
    pending a (by simp)
  have others :
      ∀ other ∈ poll.waiting ++ session.tracker.pending.drop (poll.index + 1),
        1 ≤ other.attempt ∧ other.attempt ≤ WHALE_MAX_ATTEMPTS := by
    intro other member
    apply pending other
    rcases List.mem_append.mp member with waits | later
    · exact List.mem_append_left _ waits
    · exact List.mem_append_right _ (List.mem_cons_of_mem _ later)
  have judgement := judge_judgement session.tracker.counts poll a status
  generalize judge session.tracker.counts poll a status = judged at judgement
  constructor
  · intro other member
    cases judgement with
    | waits early =>
        simp only [afterJudged_attemptsPending, List.append_assoc] at member
        rcases List.mem_append.mp member with waits | later
        · exact others other (List.mem_append_left _ waits)
        · rcases List.mem_cons.mp later with same | later
          · exact same ▸ own
          · exact others other (List.mem_append_right _ later)
    | _ => exact others other member
  · intro item member
    cases judgement with
    | resubmitted hashes below =>
        simp only [afterJudged_resubmissions] at member
        rw [← List.append_assoc] at member
        rcases List.mem_append.mp member with earlier | latest
        · exact handed item earlier
        · rw [List.mem_singleton.mp latest]
          exact ⟨Nat.succ_le_succ own.1, below⟩
    | _ => exact handed item member
  · exact numbered.submitted
  · exact numbered.once
  · exact numbered.first

omit [DecidableEq Event] in
theorem scanning_judged
    (scanning : Scanning session) (running : session.polling = some poll)
    (current : session.tracker.pending[poll.index]? = some a) :
    Scanning (afterJudged session
        (judge session.tracker.counts poll a status)) := by
  have bound := (List.getElem?_eq_some_iff.mp current).1
  have waiting := scanning.waiting poll running
  have judgement := judge_judgement session.tracker.counts poll a status
  generalize judge session.tracker.counts poll a status = judged at judgement
  constructor
  · rintro other ⟨⟩
    cases judgement <;> exact bound
  · rintro other ⟨⟩ attempt member
    cases judgement with
    | waits early =>
        rcases List.mem_append.mp member with earlier | latest
        · exact waiting attempt earlier
        · rw [List.mem_singleton.mp latest]
          exact early
    | _ => exact waiting attempt member

end Judged

/-! ## Polls -/

section Polls

variable {poll : Polling Event Hash} {blockNumber : Nat}

theorem places_polled (idle : session.polling = none) (event : Event) :
    places { session with polling := some (.opened blockNumber) } event =
      places session event := by
  simp [places, Session.reported, Session.outcomes, Session.attemptsPending,
    Session.resubmissions, idle, Polling.opened, WhalePoll.empty]

theorem accounted_polled
    (accounted : Accounted session) (idle : session.polling = none) :
    Accounted { session with polling := some (.opened blockNumber) } := by
  have same : ({ session with polling := some (.opened blockNumber) } :
      Session Event Hash).outcomes = session.outcomes := by
    simp [Session.outcomes, idle, Polling.opened, WhalePoll.empty,
      WhalePoll.append]
  constructor
  · intro event
    rw [places_polled idle]
    exact accounted.placed event
  · exact accounted.distinct
  · exact accounted.prints
  · rw [same]
    exact accounted.filledFirst
  · rw [same]
    exact accounted.filledAfter
  · rw [same]
    exact accounted.abandoned
  · rw [same]
    exact accounted.unconfirmed

omit [DecidableEq Event] in
theorem numbered_polled
    (numbered : Numbered session) (idle : session.polling = none) :
    Numbered { session with polling := some (.opened blockNumber) } where
  pending a member := by
    apply numbered.pending a
    rw [attemptsPending_of_idle idle]
    exact member
  handed item member := by
    apply numbered.handed item
    simp only [Session.resubmissions, idle]
    simpa [Session.resubmissions, Polling.opened, WhalePoll.empty] using member
  submitted := numbered.submitted
  once := numbered.once
  first := numbered.first

omit [DecidableEq Event] in
theorem scanning_polled :
    Scanning { session with polling := some (.opened blockNumber) } where
  within := by
    rintro poll ⟨⟩
    exact Nat.zero_le _
  waiting := by
    rintro poll ⟨⟩ a member
    cases member

def afterReturned
    (session : Session Event Hash) (poll : Polling Event Hash) :
    Session Event Hash :=
  { session with
    tracker := { session.tracker with pending := poll.waiting }
    polling := none
    results := session.results.append poll.out
    handedOut := session.handedOut ++ poll.out.resubmit }

section Returned

variable (running : session.polling = some poll)
    (through : session.tracker.pending.length ≤ poll.index)

include running

omit [DecidableEq Event] in
theorem afterReturned_outcomes :
    (afterReturned session poll).outcomes = session.outcomes := by
  simp only [afterReturned, Session.outcomes, running]

omit [DecidableEq Event] in
theorem afterReturned_resubmissions :
    (afterReturned session poll).resubmissions = session.resubmissions := by
  simp only [afterReturned, Session.resubmissions, running]

include through

omit [DecidableEq Event] in
theorem afterReturned_attemptsPending :
    (afterReturned session poll).attemptsPending = session.attemptsPending := by
  simp only [afterReturned, Session.attemptsPending, running,
    List.drop_of_length_le through, List.append_nil]

theorem accounted_returned (accounted : Accounted session) :
    Accounted (afterReturned session poll) := by
  have outcomes := afterReturned_outcomes running
  constructor
  · intro event
    unfold places Session.reported
    rw [outcomes, afterReturned_attemptsPending running through,
      afterReturned_resubmissions running]
    exact accounted.placed event
  · exact accounted.distinct
  · exact accounted.prints
  · rw [outcomes]
    exact accounted.filledFirst
  · rw [outcomes]
    exact accounted.filledAfter
  · rw [outcomes]
    exact accounted.abandoned
  · rw [outcomes]
    exact accounted.unconfirmed

omit [DecidableEq Event] in
theorem numbered_returned (numbered : Numbered session) :
    Numbered (afterReturned session poll) where
  pending a member := by
    rw [afterReturned_attemptsPending running through] at member
    exact numbered.pending a member
  handed item member := by
    rw [afterReturned_resubmissions running] at member
    exact numbered.handed item member
  submitted := numbered.submitted
  once := numbered.once
  first := numbered.first

end Returned

omit [DecidableEq Event] in
theorem scanning_of_idle (idle : session.polling = none) :
    Scanning session where
  within poll running := by
    rw [idle] at running
    cases running
  waiting poll running := by
    rw [idle] at running
    cases running

end Polls

/-- What holds at every moment of a session. -/
structure Sound (session : Session Event Hash) : Prop where
  accounted : Accounted session
  numbered : Numbered session
  scanning : Scanning session

omit [DecidableEq Event] in
theorem numbered_opened : Numbered (.opened : Session Event Hash) where
  pending _ member := nomatch member
  handed _ member := nomatch member
  submitted _ member := nomatch member
  once := List.nodup_nil
  first _ member := nomatch member

theorem sound_opened : Sound (.opened : Session Event Hash) where
  accounted :=
    { placed := fun _ => rfl
      distinct := List.nodup_nil
      prints := rfl
      filledFirst := rfl
      filledAfter := rfl
      abandoned := rfl
      unconfirmed := rfl }
  numbered := numbered_opened
  scanning := scanning_of_idle rfl

theorem sound_step
    {call : Call Event Hash}
    (sound : Sound session) (performed : session.perform call = some next) :
    Sound next := by
  cases call with
  | submit event attempt =>
      simp only [Session.perform, Option.ite_none_right_eq_some,
        Option.some.injEq] at performed
      rcases performed with ⟨permitted, rfl⟩
      exact
        { accounted := accounted_submit sound.accounted
          numbered := numbered_submit sound.numbered permitted
          scanning :=
            { within := sound.scanning.within
              waiting := sound.scanning.waiting } }
  | sent event hashes attempt blockNumber =>
      simp only [Session.perform, Option.ite_none_right_eq_some,
        Option.some.injEq] at performed
      rcases performed with ⟨⟨submitted, permitted⟩, rfl⟩
      exact
        { accounted :=
            accounted_sent sound.accounted sound.numbered sound.scanning
              permitted
          numbered := numbered_sent sound.numbered sound.scanning submitted
          scanning := scanning_sent sound.scanning }
  | poll blockNumber =>
      cases idle : session.polling with
      | none =>
          simp only [Session.perform, idle, Option.some.injEq] at performed
          subst performed
          exact
            { accounted := accounted_polled sound.accounted idle
              numbered := numbered_polled sound.numbered idle
              scanning := scanning_polled }
      | some poll =>
          simp only [Session.perform, idle, reduceCtorEq] at performed
  | judge status =>
      cases running : session.polling with
      | none => simp only [Session.perform, running, reduceCtorEq] at performed
      | some poll =>
          cases current : session.tracker.pending[poll.index]? with
          | none =>
              simp only [Session.perform, running, current,
                reduceCtorEq] at performed
          | some a =>
              simp only [Session.perform, running, current,
                Option.some.injEq] at performed
              subst performed
              exact
                { accounted := accounted_judged sound.accounted running current
                  numbered := numbered_judged sound.numbered running current
                  scanning := scanning_judged sound.scanning running current }
  | returned =>
      cases running : session.polling with
      | none => simp only [Session.perform, running, reduceCtorEq] at performed
      | some poll =>
          simp only [Session.perform, running, Option.ite_none_right_eq_some,
            Option.some.injEq] at performed
          rcases performed with ⟨through, rfl⟩
          exact
            { accounted := accounted_returned running through sound.accounted
              numbered := numbered_returned running through sound.numbered
              scanning := scanning_of_idle rfl }

theorem sound_of_reachable
    (reachable : (sessions Event Hash).Reachable System.anything session) :
    Sound session := by
  apply @System.Reachable.invariant _ _ _ _ Sound _ _ _ reachable
  · rintro state rfl
    exact sound_opened
  · rintro state call after sound _ performed
    exact sound_step sound performed

end Eris.Whale.Resolution
