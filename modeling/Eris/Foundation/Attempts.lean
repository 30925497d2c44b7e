import Mathlib

/-!
# Attempts at work of which only one is waited for

A worker goes through work of several kinds, each kind counted from zero.  It
sends an attempt at the next stretch of a kind, waits for at most one attempt
of each kind, and may give one up.  An attempt that was sent lands, fails or
stays in the air, whatever the worker thinks of it.  As long as no attempt
that was given up lands, the stretches that land never overlap.
-/

namespace Eris.Foundation.Attempts

inductive Fate where
  | flying
  | landed
  | reverted
  | dropped
  deriving DecidableEq

/-- The attempt landed or may still land. -/
def Fate.alive (fate : Fate) : Prop := fate = .flying ∨ fate = .landed

/-- An attempt at a stretch of the work of one kind. -/
structure Attempt (Kind : Type) where
  id : Nat
  kind : Kind
  start : Nat
  length : Nat
  deriving DecidableEq

def Attempt.stop {Kind : Type} (attempt : Attempt Kind) : Nat :=
  attempt.start + attempt.length

/-- The attempts sent, what became of them, and those given up. -/
structure Ledger (Kind : Type) where
  sent : List (Attempt Kind)
  fate : Nat → Fate
  abandoned : List Nat

variable {Kind : Type}

namespace Ledger

def empty : Ledger Kind where
  sent := []
  fate _ := .flying
  abandoned := []

def next (ledger : Ledger Kind) : Nat := ledger.sent.length

def send (ledger : Ledger Kind) (kind : Kind) (start length : Nat) :
    Ledger Kind :=
  { ledger with
    sent := ledger.sent ++ [⟨ledger.next, kind, start, length⟩] }

def resolve (ledger : Ledger Kind) (id : Nat) (fate : Fate) : Ledger Kind :=
  { ledger with fate := Function.update ledger.fate id fate }

def abandon (ledger : Ledger Kind) (id : Nat) : Ledger Kind :=
  { ledger with abandoned := id :: ledger.abandoned }

/-- The attempt may count: it is alive and was not given up. -/
def Live (ledger : Ledger Kind) (attempt : Attempt Kind) : Prop :=
  (ledger.fate attempt.id).alive ∧ attempt.id ∉ ledger.abandoned

/-- No attempt that was given up has landed. -/
def Timely (ledger : Ledger Kind) : Prop :=
  ∀ id ∈ ledger.abandoned, ledger.fate id ≠ .landed

def landed (ledger : Ledger Kind) : List (Attempt Kind) :=
  ledger.sent.filter fun attempt => ledger.fate attempt.id = .landed

end Ledger

def Apart (first second : Attempt Kind) : Prop :=
  first.stop ≤ second.start ∨ second.stop ≤ first.start

/-- What is known of the attempts of a worker that has made some progress in
each kind and waits for some attempt of each. -/
structure Accounted
    (progress : Kind → Nat) (outstanding : Kind → Option Nat)
    (ledger : Ledger Kind) : Prop where
  numbered : ledger.sent.map Attempt.id = List.range ledger.sent.length
  settled : ∀ attempt ∈ ledger.sent, ledger.Live attempt →
      outstanding attempt.kind ≠ some attempt.id →
        attempt.stop ≤ progress attempt.kind
  begun : ∀ attempt ∈ ledger.sent, outstanding attempt.kind = some attempt.id →
      attempt.start ≤ progress attempt.kind
  apart : ∀ first ∈ ledger.sent, ∀ second ∈ ledger.sent,
      ledger.Live first → ledger.Live second → first.kind = second.kind →
        first ≠ second → Apart first second

variable {progress further : Kind → Nat} {outstanding : Kind → Option Nat}
    {ledger : Ledger Kind}

theorem Accounted.empty :
    Accounted (fun _ : Kind => 0) (fun _ => none) Ledger.empty where
  numbered := rfl
  settled _ absent := nomatch absent
  begun _ absent := nomatch absent
  apart _ absent := nomatch absent

theorem Accounted.id_lt
    (accounted : Accounted progress outstanding ledger)
    {attempt : Attempt Kind} (sent : attempt ∈ ledger.sent) :
    attempt.id < ledger.next := by
  have listed := List.mem_map_of_mem (f := Attempt.id) sent
  rw [accounted.numbered, List.mem_range] at listed
  exact listed

theorem Accounted.advance
    (accounted : Accounted progress outstanding ledger)
    (onward : ∀ kind, progress kind ≤ further kind) :
    Accounted further outstanding ledger where
  numbered := accounted.numbered
  settled attempt sent live free :=
    (accounted.settled attempt sent live free).trans (onward _)
  begun attempt sent waited :=
    (accounted.begun attempt sent waited).trans (onward _)
  apart := accounted.apart

/-- An attempt coming down leaves the account as it is, unless it rises from
the dead. -/
theorem Accounted.resolve
    (accounted : Accounted progress outstanding ledger) {id : Nat} {fate : Fate}
    (down : fate.alive → (ledger.fate id).alive) :
    Accounted progress outstanding (ledger.resolve id fate) := by
  have live : ∀ attempt, (ledger.resolve id fate).Live attempt →
      ledger.Live attempt := by
    rintro attempt ⟨alive, kept⟩
    refine ⟨?_, kept⟩
    rw [Ledger.resolve] at alive
    dsimp only at alive
    by_cases same : attempt.id = id
    · rw [same, Function.update_self] at alive
      rw [same]
      exact down alive
    · rwa [Function.update_of_ne same] at alive
  exact
    { numbered := accounted.numbered
      settled := fun attempt sent lively =>
        accounted.settled attempt sent (live attempt lively)
      begun := accounted.begun
      apart := fun first firstSent second secondSent firstLive secondLive =>
        accounted.apart first firstSent second secondSent
          (live first firstLive) (live second secondLive) }

theorem Accounted.abandon
    (accounted : Accounted progress outstanding ledger) (id : Nat) :
    Accounted progress outstanding (ledger.abandon id) := by
  have live :
      ∀ attempt, (ledger.abandon id).Live attempt → ledger.Live attempt := by
    rintro attempt ⟨alive, kept⟩
    exact ⟨alive, fun gone => kept (List.mem_cons_of_mem _ gone)⟩
  exact
    { numbered := accounted.numbered
      settled := fun attempt sent lively =>
        accounted.settled attempt sent (live attempt lively)
      begun := accounted.begun
      apart := fun first firstSent second secondSent firstLive secondLive =>
        accounted.apart first firstSent second secondSent
          (live first firstLive) (live second secondLive) }

section Waiting

variable [DecidableEq Kind]

/-- An attempt is no longer waited for once it counts for nothing or the
progress covers it. -/
theorem Accounted.finish
    (accounted : Accounted progress outstanding ledger) (kind : Kind)
    (covered : ∀ attempt ∈ ledger.sent, attempt.kind = kind →
        outstanding kind = some attempt.id → ledger.Live attempt →
          attempt.stop ≤ progress kind) :
    Accounted progress (Function.update outstanding kind none) ledger where
  numbered := accounted.numbered
  settled attempt sent live free := by
    by_cases same : attempt.kind = kind
    · by_cases waited : outstanding kind = some attempt.id
      · rw [same]
        exact covered attempt sent same waited live
      · apply accounted.settled attempt sent live
        rwa [same]
    · rw [Function.update_of_ne same] at free
      exact accounted.settled attempt sent live free
  begun attempt sent waited := by
    by_cases same : attempt.kind = kind
    · rw [same, Function.update_self] at waited
      cases waited
    · rw [Function.update_of_ne same] at waited
      exact accounted.begun attempt sent waited
  apart := accounted.apart

/-- The next stretch of a kind may be sent when nothing of that kind is waited
for. -/
theorem Accounted.send
    (accounted : Accounted progress outstanding ledger) {kind : Kind}
    (free : outstanding kind = none) (length : Nat) :
    Accounted progress (Function.update outstanding kind (some ledger.next))
      (ledger.send kind (progress kind) length) := by
  have older :
      ∀ attempt ∈ ledger.sent, outstanding attempt.kind ≠ some attempt.id →
        Function.update outstanding kind (some ledger.next) attempt.kind ≠
          some attempt.id := by
    intro attempt sent unwaited
    by_cases same : attempt.kind = kind
    · rw [same, Function.update_self]
      intro equal
      have earlier := accounted.id_lt sent
      rw [← Option.some.inj equal] at earlier
      exact lt_irrefl _ earlier
    · rwa [Function.update_of_ne same]
  have behind :
      ∀ attempt ∈ ledger.sent, ledger.Live attempt → attempt.kind = kind →
        attempt.stop ≤ progress kind := by
    intro attempt sent live same
    have reached := accounted.settled attempt sent live
    rw [same, free] at reached
    exact reached (by simp)
  constructor
  · rw [Ledger.send, List.map_append, accounted.numbered,
      List.length_append, List.length_singleton, List.range_succ]
    rfl
  · intro attempt sent live unwaited
    rcases List.mem_append.mp sent with old | new
    · apply accounted.settled attempt old live
      intro waited
      by_cases same : attempt.kind = kind
      · rw [same, free] at waited
        cases waited
      · rw [Function.update_of_ne same] at unwaited
        exact unwaited waited
    · rw [List.mem_singleton.mp new, Function.update_self] at unwaited
      exact absurd rfl unwaited
  · intro attempt sent waited
    rcases List.mem_append.mp sent with old | new
    · by_cases unwaited : outstanding attempt.kind = some attempt.id
      · exact accounted.begun attempt old unwaited
      · exact absurd waited (older attempt old unwaited)
    · rw [List.mem_singleton.mp new]
  · intro first firstSent second secondSent firstLive secondLive same differ
    rcases List.mem_append.mp firstSent with firstOld | firstNew
    · rcases List.mem_append.mp secondSent with secondOld | secondNew
      · exact accounted.apart first firstOld second secondOld firstLive
          secondLive same differ
      · rw [List.mem_singleton.mp secondNew] at same ⊢
        exact Or.inl (behind first firstOld firstLive same)
    · rcases List.mem_append.mp secondSent with secondOld | secondNew
      · rw [List.mem_singleton.mp firstNew] at same ⊢
        exact Or.inr (behind second secondOld secondLive same.symm)
      · rw [List.mem_singleton.mp firstNew,
          List.mem_singleton.mp secondNew] at differ
        exact absurd rfl differ

theorem Accounted.perform
    (accounted : Accounted progress outstanding ledger) {kind : Kind}
    (free : outstanding kind = none) {length : Nat}
    (onward : ∀ other, progress other ≤ further other)
    (done : progress kind + length ≤ further kind) :
    Accounted further outstanding
      (ledger.send kind (progress kind) length) := by
  have sent := (accounted.send free length).advance onward
  have finished := sent.finish kind
  rw [Function.update_self, Function.update_idem, ← free,
    Function.update_eq_self] at finished
  apply finished
  intro attempt listed same newest live
  rcases List.mem_append.mp listed with old | new
  · have earlier := accounted.id_lt old
    rw [← Option.some.inj newest] at earlier
    exact absurd earlier (lt_irrefl _)
  · rw [List.mem_singleton.mp new]
    exact done

end Waiting

theorem Ledger.Timely.live
    (timely : ledger.Timely) {attempt : Attempt Kind}
    (down : attempt ∈ ledger.landed) :
    attempt ∈ ledger.sent ∧ ledger.Live attempt := by
  obtain ⟨sent, fate⟩ := List.mem_filter.mp down
  have landed : ledger.fate attempt.id = .landed := by simpa using fate
  exact ⟨sent, Or.inr landed, fun gone => timely attempt.id gone landed⟩

theorem Accounted.landed_apart
    (accounted : Accounted progress outstanding ledger) (timely : ledger.Timely)
    {first second : Attempt Kind} (firstLanded : first ∈ ledger.landed)
    (secondLanded : second ∈ ledger.landed)
    (same : first.kind = second.kind) (differ : first ≠ second) :
    Apart first second := by
  obtain ⟨firstSent, firstLive⟩ := timely.live firstLanded
  obtain ⟨secondSent, secondLive⟩ := timely.live secondLanded
  exact accounted.apart first firstSent second secondSent firstLive secondLive
    same differ

def Attempt.range (attempt : Attempt Kind) : Finset Nat :=
  Finset.Ico attempt.start attempt.stop

theorem Attempt.card_range (attempt : Attempt Kind) :
    attempt.range.card = attempt.length := by
  rw [Attempt.range, Nat.card_Ico, Attempt.stop]
  omega

theorem Apart.disjoint {first second : Attempt Kind}
    (apart : Apart first second) : Disjoint first.range second.range := by
  rw [Finset.disjoint_left]
  intro place firstInside secondInside
  rw [Attempt.range, Finset.mem_Ico] at firstInside secondInside
  rcases apart with before | after
  · omega
  · omega

/-- Stretches that do not overlap, all below a bound, are no longer than the
bound together. -/
theorem sum_length_le
    {attempts : List (Attempt Kind)} {bound : Nat}
    (apart : attempts.Pairwise Apart)
    (inside : ∀ attempt ∈ attempts, attempt.stop ≤ bound) :
    (attempts.map Attempt.length).sum ≤ bound := by
  have covered : ∀ listed : List (Attempt Kind), listed.Pairwise Apart →
      ∃ places : Finset Nat, places.card = (listed.map Attempt.length).sum ∧
          ∀ place, place ∈ places ↔
            ∃ attempt ∈ listed, place ∈ attempt.range := by
    intro listed separate
    induction listed with
    | nil => exact ⟨∅, rfl, by simp⟩
    | cons first listed ih =>
        obtain ⟨before, later⟩ := List.pairwise_cons.mp separate
        obtain ⟨places, counted, listing⟩ := ih later
        have disjoint : Disjoint first.range places := by
          rw [Finset.disjoint_left]
          intro place firstInside inPlaces
          obtain ⟨attempt, member, inAttempt⟩ := (listing place).mp inPlaces
          exact Finset.disjoint_left.mp (before attempt member).disjoint
            firstInside inAttempt
        refine ⟨first.range ∪ places, ?_, ?_⟩
        · rw [Finset.card_union_of_disjoint disjoint, counted,
            Attempt.card_range, List.map_cons, List.sum_cons]
        · intro place
          rw [Finset.mem_union, listing]
          simp
  obtain ⟨places, counted, listing⟩ := covered attempts apart
  have below : places ⊆ Finset.range bound := by
    intro place member
    obtain ⟨attempt, listed, inAttempt⟩ := (listing place).mp member
    rw [Attempt.range, Finset.mem_Ico] at inAttempt
    rw [Finset.mem_range]
    exact inAttempt.2.trans_le (inside attempt listed)
  rw [← counted]
  exact (Finset.card_le_card below).trans (Finset.card_range bound).le

/-- What lands of one kind in time is no more than the furthest end of its
attempts. -/
theorem Accounted.landed_length_le [DecidableEq Kind]
    (accounted : Accounted progress outstanding ledger)
    (timely : ledger.Timely) (kind : Kind) {bound : Nat}
    (inside :
      ∀ attempt ∈ ledger.sent, attempt.kind = kind → attempt.stop ≤ bound) :
    ((ledger.landed.filter fun attempt => attempt.kind = kind).map
        Attempt.length).sum ≤ bound := by
  have distinct : ledger.sent.Nodup := by
    apply List.Nodup.of_map Attempt.id
    rw [accounted.numbered]
    exact List.nodup_range
  apply sum_length_le
  · apply List.Pairwise.imp_of_mem _ ((distinct.filter _).filter _)
    intro first second firstListed secondListed differ
    obtain ⟨firstLanded, firstKind⟩ := List.mem_filter.mp firstListed
    obtain ⟨secondLanded, secondKind⟩ := List.mem_filter.mp secondListed
    apply accounted.landed_apart timely firstLanded secondLanded _ differ
    rw [of_decide_eq_true firstKind, of_decide_eq_true secondKind]
  · intro attempt listed
    obtain ⟨landed, same⟩ := List.mem_filter.mp listed
    exact inside attempt (timely.live landed).1 (of_decide_eq_true same)

end Eris.Foundation.Attempts
