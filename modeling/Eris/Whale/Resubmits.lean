import Eris.Foundation.Transition

/-!
# Whale prints which are sent again

A whale print is one event of the schedule.  The coordinator submits it, and
tells the tracker the hashes it got.  A poll asks for the receipt of every
attempt in flight, one after the other; an attempt which reverted, or which
has no hash, is handed back to be sent again, up to a number of attempts in
all, and one without a receipt is given up after some blocks.

The status of a receipt is awaited, so other calls may come between two
attempts of a poll.  A poll goes through the array as it stands, new attempts
included, and puts what waits in its place at the end.
-/

namespace Eris.Whale.Resubmits

open Foundation.Transition

def WHALE_MAX_ATTEMPTS : Nat := 3

def WHALE_RECEIPT_WAIT_BLOCKS : Nat := 10

/-- The status of a receipt; a missing receipt is `none` of these. -/
inductive WhaleReceiptStatus where
  | success
  | reverted
deriving DecidableEq

structure WhaleAttempt (Event Hash : Type) where
  event : Event
  hashes : List Hash
  attempt : Nat
  sentBlock : Nat
deriving DecidableEq

structure Resubmit (Event Hash : Type) where
  event : Event
  attempt : Nat
  revertedHashes : List Hash
deriving DecidableEq

structure Filled (Event Hash : Type) where
  event : Event
  attempt : Nat
  hash : Option Hash
deriving DecidableEq

structure Abandoned (Event Hash : Type) where
  event : Event
  attempts : Nat
  revertedHashes : List Hash
deriving DecidableEq

structure Unconfirmed (Event Hash : Type) where
  event : Event
  attempt : Nat
  hashes : List Hash
deriving DecidableEq

structure WhalePoll (Event Hash : Type) where
  resubmit : List (Resubmit Event Hash)
  filled : List (Filled Event Hash)
  abandoned : List (Abandoned Event Hash)
  unconfirmed : List (Unconfirmed Event Hash)
deriving DecidableEq

structure Counts where
  prints : Nat
  filledFirstAttempt : Nat
  filledAfterResubmit : Nat
  abandoned : Nat
  unconfirmed : Nat
deriving DecidableEq

/-- The prints in flight and what became of them. -/
structure WhaleResubmits (Event Hash : Type) where
  pending : List (WhaleAttempt Event Hash)
  counts : Counts
deriving DecidableEq

/-- A poll under way: the array it has got through, and what it found. -/
structure Polling (Event Hash : Type) where
  blockNumber : Nat
  index : Nat
  waiting : List (WhaleAttempt Event Hash)
  out : WhalePoll Event Hash
deriving DecidableEq

section Tracker

variable {Event Hash : Type}

def WhalePoll.empty : WhalePoll Event Hash where
  resubmit := []
  filled := []
  abandoned := []
  unconfirmed := []

def WhaleResubmits.opened : WhaleResubmits Event Hash where
  pending := []
  counts := ⟨0, 0, 0, 0, 0⟩

def WhaleResubmits.sent
    (tracker : WhaleResubmits Event Hash) (event : Event)
    (hashes : List Hash) (attempt blockNumber : Nat) :
    WhaleResubmits Event Hash where
  pending := tracker.pending ++ [⟨event, hashes, attempt, blockNumber⟩]
  counts := if attempt = 1 then
      { tracker.counts with prints := tracker.counts.prints + 1 }
    else tracker.counts

section Sent

variable (tracker : WhaleResubmits Event Hash)
    {event : Event} {hashes : List Hash} {attempt blockNumber : Nat}

@[simp]
theorem sent_filledFirstAttempt :
    (tracker.sent event hashes attempt blockNumber).counts.filledFirstAttempt =
      tracker.counts.filledFirstAttempt := by
  unfold WhaleResubmits.sent
  split <;> rfl

@[simp]
theorem sent_filledAfterResubmit :
    (tracker.sent event hashes attempt blockNumber).counts.filledAfterResubmit =
      tracker.counts.filledAfterResubmit := by
  unfold WhaleResubmits.sent
  split <;> rfl

@[simp]
theorem sent_abandoned :
    (tracker.sent event hashes attempt blockNumber).counts.abandoned =
      tracker.counts.abandoned := by
  unfold WhaleResubmits.sent
  split <;> rfl

@[simp]
theorem sent_unconfirmed :
    (tracker.sent event hashes attempt blockNumber).counts.unconfirmed =
      tracker.counts.unconfirmed := by
  unfold WhaleResubmits.sent
  split <;> rfl

end Sent

def WhaleResubmits.unresolved (tracker : WhaleResubmits Event Hash) : Nat :=
  tracker.pending.length

/-- The status an attempt is judged by: that of its last hash. -/
def WhaleAttempt.verdict
    (a : WhaleAttempt Event Hash) (status : Hash → Option WhaleReceiptStatus) :
    Option WhaleReceiptStatus :=
  match a.hashes.getLast? with
  | none => some .reverted
  | some last => status last

/-- One attempt of a poll, and the counts after it. -/
def judge
    (counts : Counts) (poll : Polling Event Hash)
    (a : WhaleAttempt Event Hash) (status : Hash → Option WhaleReceiptStatus) :
    Counts × Polling Event Hash :=
  let next := { poll with index := poll.index + 1 }
  match a.verdict status with
  | some .success =>
      (if a.attempt = 1 then
        { counts with filledFirstAttempt := counts.filledFirstAttempt + 1 }
      else
        { counts with filledAfterResubmit := counts.filledAfterResubmit + 1 },
        { next with
          out := { poll.out with
              filled := poll.out.filled ++
                  [⟨a.event, a.attempt, a.hashes.getLast?⟩] } })
  | some .reverted =>
      if a.attempt < WHALE_MAX_ATTEMPTS then
        (counts, { next with
            out := { poll.out with
                resubmit := poll.out.resubmit ++
                    [⟨a.event, a.attempt + 1, a.hashes.getLast?.toList⟩] } })
      else
        ({ counts with abandoned := counts.abandoned + 1 }, { next with
            out := { poll.out with
                abandoned := poll.out.abandoned ++
                    [⟨a.event, a.attempt, a.hashes.getLast?.toList⟩] } })
  | none =>
      if a.sentBlock + WHALE_RECEIPT_WAIT_BLOCKS ≤ poll.blockNumber then
        ({ counts with unconfirmed := counts.unconfirmed + 1 }, { next with
            out := { poll.out with
                unconfirmed :=
                  poll.out.unconfirmed ++ [⟨a.event, a.attempt, a.hashes⟩] } })
      else (counts, { next with waiting := poll.waiting ++ [a] })

inductive Judgement
    (counts : Counts) (poll : Polling Event Hash)
    (a : WhaleAttempt Event Hash) : Counts × Polling Event Hash → Prop where
  | filled (hash : Option Hash) : Judgement counts poll a (if a.attempt = 1 then
          { counts with filledFirstAttempt := counts.filledFirstAttempt + 1 }
        else
          { counts with
            filledAfterResubmit := counts.filledAfterResubmit + 1 },
          { poll with
            index := poll.index + 1
            out := { poll.out with
                filled := poll.out.filled ++ [⟨a.event, a.attempt, hash⟩] } })
  | resubmitted (hashes : List Hash) (below : a.attempt < WHALE_MAX_ATTEMPTS) :
      Judgement counts poll a (counts, { poll with
            index := poll.index + 1
            out := { poll.out with
                resubmit :=
                  poll.out.resubmit ++ [⟨a.event, a.attempt + 1, hashes⟩] } })
  | abandoned (hashes : List Hash) (last : WHALE_MAX_ATTEMPTS ≤ a.attempt) :
      Judgement counts poll a
        ({ counts with abandoned := counts.abandoned + 1 }, { poll with
            index := poll.index + 1
            out := { poll.out with
                abandoned :=
                  poll.out.abandoned ++ [⟨a.event, a.attempt, hashes⟩] } })
  | unconfirmed (late :
        a.sentBlock + WHALE_RECEIPT_WAIT_BLOCKS ≤ poll.blockNumber) :
      Judgement counts poll a
        ({ counts with unconfirmed := counts.unconfirmed + 1 }, { poll with
            index := poll.index + 1
            out := { poll.out with
                unconfirmed :=
                  poll.out.unconfirmed ++ [⟨a.event, a.attempt, a.hashes⟩] } })
  | waits (early : poll.blockNumber < a.sentBlock + WHALE_RECEIPT_WAIT_BLOCKS) :
      Judgement counts poll a (counts, { poll with
            index := poll.index + 1
            waiting := poll.waiting ++ [a] })

theorem judge_judgement
    (counts : Counts) (poll : Polling Event Hash) (a : WhaleAttempt Event Hash)
    (status : Hash → Option WhaleReceiptStatus) :
    Judgement counts poll a (judge counts poll a status) := by
  unfold judge
  cases a.verdict status with
  | none =>
      by_cases late : a.sentBlock + WHALE_RECEIPT_WAIT_BLOCKS ≤ poll.blockNumber
      · simp only [late, if_true]
        exact .unconfirmed late
      · simp only [late, if_false]
        exact .waits (Nat.lt_of_not_le late)
  | some verdict =>
      cases verdict with
      | success => exact .filled _
      | reverted =>
          by_cases below : a.attempt < WHALE_MAX_ATTEMPTS
          · simp only [below, if_true]
            exact .resubmitted _ below
          · simp only [below, if_false]
            exact .abandoned _ (Nat.le_of_not_lt below)

def Polling.opened (blockNumber : Nat) : Polling Event Hash where
  blockNumber := blockNumber
  index := 0
  waiting := []
  out := .empty

end Tracker

/--
A tracker in use: the poll under way, what the polls have returned, the
resubmissions returned and not yet sent, every submission made, and the
prints whose first attempt the tracker was told of.
-/
structure Session (Event Hash : Type) where
  tracker : WhaleResubmits Event Hash
  polling : Option (Polling Event Hash)
  results : WhalePoll Event Hash
  handedOut : List (Resubmit Event Hash)
  submissions : List (Event × Nat)
  started : List Event
deriving DecidableEq

/--
What happens in a session.  A submission is one attempt on the chain; `sent`
tells the tracker of it, without hashes when the submission failed.
-/
inductive Call (Event Hash : Type) where
  | submit (event : Event) (attempt : Nat)
  | sent (event : Event) (hashes : List Hash) (attempt blockNumber : Nat)
  | poll (blockNumber : Nat)
  | judge (status : Hash → Option WhaleReceiptStatus)
  | returned

section Session

variable {Event Hash : Type}

def WhalePoll.append (first second : WhalePoll Event Hash) :
    WhalePoll Event Hash where
  resubmit := first.resubmit ++ second.resubmit
  filled := first.filled ++ second.filled
  abandoned := first.abandoned ++ second.abandoned
  unconfirmed := first.unconfirmed ++ second.unconfirmed

@[simp]
theorem append_filled (first second : WhalePoll Event Hash) :
    (first.append second).filled = first.filled ++ second.filled :=
  rfl

@[simp]
theorem append_abandoned (first second : WhalePoll Event Hash) :
    (first.append second).abandoned = first.abandoned ++ second.abandoned :=
  rfl

@[simp]
theorem append_unconfirmed (first second : WhalePoll Event Hash) :
    (first.append second).unconfirmed =
      first.unconfirmed ++ second.unconfirmed :=
  rfl

namespace Session

/-- What the polls have found, that under way included. -/
def outcomes (session : Session Event Hash) : WhalePoll Event Hash :=
  match session.polling with
  | none => session.results
  | some poll => session.results.append poll.out

/-- The attempts no poll has judged, or which the last one left waiting. -/
def attemptsPending (session : Session Event Hash) :
    List (WhaleAttempt Event Hash) :=
  match session.polling with
  | none => session.tracker.pending
  | some poll => poll.waiting ++ session.tracker.pending.drop poll.index

/-- The resubmissions decided and not yet sent. -/
def resubmissions (session : Session Event Hash) :
    List (Resubmit Event Hash) :=
  match session.polling with
  | none => session.handedOut
  | some poll => session.handedOut ++ poll.out.resubmit

/-- The prints reported, each time they are. -/
def reported (session : Session Event Hash) : List Event :=
  session.outcomes.filled.map Filled.event ++
    session.outcomes.abandoned.map Abandoned.event ++
    session.outcomes.unconfirmed.map Unconfirmed.event

/-- The resubmission was handed out and not yet sent. -/
def Holds (session : Session Event Hash) (event : Event) (attempt : Nat) :
    Prop :=
  ∃ item ∈ session.handedOut, item.event = event ∧ item.attempt = attempt

variable [DecidableEq Event]

instance (session : Session Event Hash) (event : Event) (attempt : Nat) :
    Decidable (session.Holds event attempt) :=
  inferInstanceAs (Decidable
      (∃ item ∈ session.handedOut, item.event = event ∧ item.attempt = attempt))

local instance lawfulSubmission : LawfulBEq (Event × ℕ) := inferInstance

/--
What the caller does: it submits a print of the schedule once, and each
resubmission it is handed once, and tells the tracker of each submission.
One poll runs at a time.
-/
def perform (session : Session Event Hash) :
    Call Event Hash → Option (Session Event Hash)
  | .submit event attempt =>
      if (attempt = 1 ∧ ∀ made ∈ session.submissions, made.1 ≠ event) ∨
          (session.Holds event attempt ∧
            (event, attempt) ∉ session.submissions) then
        some { session with
            submissions := session.submissions ++ [(event, attempt)] }
      else none
  | .sent event hashes attempt blockNumber =>
      if (event, attempt) ∈ session.submissions ∧
          (attempt = 1 ∧ event ∉ session.started ∨
            session.Holds event attempt) then
        some { session with
            tracker := session.tracker.sent event hashes attempt blockNumber
            handedOut := session.handedOut.filter fun item =>
                !(decide (item.event = event ∧ item.attempt = attempt))
            started := if attempt = 1 then session.started ++ [event]
              else session.started }
      else none
  | .poll blockNumber =>
      match session.polling with
      | none => some { session with polling := some (.opened blockNumber) }
      | some _ => none
  | .judge status =>
      match session.polling with
      | none => none
      | some poll =>
          match session.tracker.pending[poll.index]? with
          | none => none
          | some a =>
              let judged := judge session.tracker.counts poll a status
              some { session with
                  tracker := { session.tracker with counts := judged.1 }
                  polling := some judged.2 }
  | .returned =>
      match session.polling with
      | none => none
      | some poll =>
          if session.tracker.pending.length ≤ poll.index then
            some { session with
                tracker := { session.tracker with pending := poll.waiting }
                polling := none
                results := session.results.append poll.out
                handedOut := session.handedOut ++ poll.out.resubmit }
          else none

end Session

def Session.opened : Session Event Hash where
  tracker := .opened
  polling := none
  results := .empty
  handedOut := []
  submissions := []
  started := []

def sessions (Event Hash : Type) [DecidableEq Event] :
    System (Session Event Hash) (Call Event Hash) where
  initial session := session = .opened
  step session call next := session.perform call = some next

end Session

end Eris.Whale.Resubmits
