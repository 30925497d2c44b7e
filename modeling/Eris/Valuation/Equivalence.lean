import Eris.Valuation.Batched

/-!
# Valuing in batches gives what valuing alone gives

A venue between two rounds stands where driving it alone would have brought
it after as many stages.  A round keeps this: what a venue asks is put behind
what was asked before it, and the slice it is handed back answers exactly its
own reads.

So every venue ends as it does alone.  Two things are left out by design or
by accident: when a venue throws for the field and for every agent alone the
whole valuation throws, and a round in which every venue still running asks
for nothing is taken for the end of all of them.
-/

namespace Eris.Valuation.Equivalence

open Foundation Foundation.Staged Batched

/-! ## Isolated reads -/

section Isolated

variable {Contract Answer : Type} {isolatedGas : Contract → Option Nat}
    {undefined : Answer} {contracts : List Contract}

theorem mem_places {marked : Bool} {place : Nat} :
    place ∈ places isolatedGas marked contracts ↔
      ∃ read, contracts[place]? = some read ∧
        (isolatedGas read).isSome = marked := by
  simp only [places, List.mem_map, List.mem_filter, decide_eq_true_eq]
  constructor
  · rintro ⟨⟨read, other⟩, ⟨listed, isMarked⟩, rfl⟩
    exact ⟨read, List.mem_zipIdx_iff_getElem?.mp listed, isMarked⟩
  · rintro ⟨read, found, isMarked⟩
    exact
      ⟨(read, place), ⟨List.mem_zipIdx_iff_getElem?.mpr found, isMarked⟩, rfl⟩

theorem map_filterMap_places
    {Result : Type} (answer : Contract → Result) (fallback : Result)
    {placed : List Nat}
    (inside : ∀ place ∈ placed, (contracts[place]?).isSome) :
    (placed.filterMap fun place => contracts[place]?).map answer =
      placed.map fun place => (contracts[place]?).elim fallback answer := by
  induction placed with
  | nil => rfl
  | cons place rest ih =>
      rw [List.forall_mem_cons] at inside
      rcases Option.isSome_iff_exists.mp inside.1 with ⟨read, found⟩
      rw [List.filterMap_cons_some found, List.map_cons, List.map_cons,
        ih inside.2, found]
      rfl

theorem getElem?_scatter
    (written : Nat → Answer) (placed : List Nat)
    (out : List (Option Answer)) (place : Nat) :
    (scatter placed (placed.map written) out)[place]? = if place ∈ placed then
        (out[place]?).map fun _ => some (written place)
      else out[place]? := by
  induction placed generalizing out with
  | nil => rfl
  | cons first rest ih =>
      show (scatter rest (rest.map written)
        (out.set first (some (written first))))[place]? = _
      rw [ih]
      by_cases same : place = first
      · subst same
        simp only [List.mem_cons, true_or, if_true, List.getElem?_set_self']
        cases out[place]? with
        | none => split <;> rfl
        | some before => split <;> rfl
      · rw [List.getElem?_set_ne (Ne.symm same)]
        simp only [List.mem_cons, same, false_or]

theorem answersEach_splitIsolatedReads
    {shared alone : Contract → Answer}
    {viaMulticall isolated : List Contract → List Answer}
    (sharedEach : AnswersEach shared viaMulticall)
    (aloneEach : AnswersEach alone isolated) :
    AnswersEach
      (fun read => if (isolatedGas read).isSome then alone read
        else shared read)
      (splitIsolatedReads isolatedGas undefined viaMulticall isolated) := by
  intro contracts
  have inside : ∀ marked, ∀ place ∈ places isolatedGas marked contracts,
      (contracts[place]?).isSome := by
    intro marked place listed
    rcases mem_places.mp listed with ⟨read, found, _⟩
    rw [found]
    rfl
  rw [splitIsolatedReads]
  dsimp only
  split
  · next nobody =>
      rw [sharedEach]
      apply List.map_congr_left
      intro read listed
      rcases List.getElem?_of_mem listed with ⟨place, found⟩
      have unmarked : (isolatedGas read).isSome = false := by
        cases isMarked : (isolatedGas read).isSome with
        | false => rfl
        | true =>
            have present := mem_places.mpr ⟨read, found, isMarked⟩
            rw [nobody] at present
            cases present
      rw [unmarked]
      rfl
  · have sharedResults : (if places isolatedGas false contracts ≠ [] then
            viaMulticall ((places isolatedGas false contracts).filterMap
                fun place => contracts[place]?)
          else []) =
          (places isolatedGas false contracts).map fun place =>
            (contracts[place]?).elim undefined shared := by
      split
      · rw [sharedEach, map_filterMap_places shared undefined (inside false)]
      · next nobody =>
          rw [not_not.mp nobody]
          rfl
    rw [sharedResults, aloneEach,
      map_filterMap_places alone undefined (inside true)]
    apply List.ext_getElem?
    intro place
    rw [List.getElem?_map, getElem?_scatter, getElem?_scatter,
      List.getElem?_map, List.getElem?_replicate]
    simp only [mem_places]
    cases found : contracts[place]? with
    | none =>
        have outside : ¬ place < contracts.length := by
          rw [← List.getElem?_eq_none_iff.trans (not_lt).symm]
          exact found
        simp [outside]
    | some read =>
        have within : place < contracts.length :=
          (List.getElem?_eq_some_iff.mp found).1
        simp only [if_pos within, Option.some.injEq, exists_eq_left',
          Option.map_some, Option.elim_some]
        cases (isolatedGas read).isSome with
        | true => rfl
        | false => rfl

end Isolated

variable {Contract Answer : Type} {opts : Options Contract Answer}
    {answer : Contract → Answer} {stage : Nat} {venue : Venue Contract Answer}
    {run : Pending Contract Answer} {values : InsertionMap String Record}
    {later : InsertionMap String Record}
    {pending : List (Pending Contract Answer)} {fuel : Nat}

/-- A venue's valuation of the field after some stages, driven alone. -/
def after
    (opts : Options Contract Answer) (stage : Nat)
    (venue : Venue Contract Answer) : ValuationRun Contract Answer :=
  (venue.start opts.agents).advance opts.call stage

/-- The reads a venue asks for in a stage, if it still runs. -/
def asked
    (opts : Options Contract Answer) (stage : Nat)
    (venue : Venue Contract Answer) : Option (List Contract) :=
  (venue.start opts.agents).asked opts.call stage

inductive Standing
    (opts : Options Contract Answer) (stage : Nat)
    (venue : Venue Contract Answer) (values : InsertionMap String Record) :
    Pending Contract Answer → Prop where
  | running {next : List Answer → ValuationRun Contract Answer}
      {input : List Answer}
      (resumes : next input = after opts stage venue) :
      Standing opts stage venue values ⟨venue, next, false, .undefined, input⟩
  | returned {next : List Answer → ValuationRun Contract Answer}
      {input : List Answer} {record : Record}
      (ended : after opts stage venue = .returned record)
      (recorded : (values.get venue.id).isSome) :
      Standing opts stage venue values ⟨venue, next, true, .undefined, input⟩
  | threw {next : List Answer → ValuationRun Contract Answer}
      {input : List Answer} {error : Thrown}
      (ended : after opts stage venue = .threw error) :
      Standing opts stage venue values ⟨venue, next, true, error, input⟩

/-- Where a venue stands when it was asked and not yet answered. -/
inductive Polled
    (opts : Options Contract Answer) (stage : Nat)
    (venue : Venue Contract Answer) (values : InsertionMap String Record) :
    Pending Contract Answer → Prop where
  | waiting {next : List Answer → ValuationRun Contract Answer}
      {input : List Answer} {reads : List Contract}
      (asks : after opts stage venue = .asking reads next) :
      Polled opts stage venue values ⟨venue, next, false, .undefined, input⟩
  | ended {run : Pending Contract Answer}
      (standing : Standing opts stage venue values run)
      (done : run.done = true) :
      Polled opts stage venue values run

/-- What is recorded is what some venue returned within so many stages. -/
def Recorded
    (opts : Options Contract Answer) (stage : Nat)
    (values : InsertionMap String Record) : Prop :=
  ∀ key record, values.get key = some record →
    ∃ venue ∈ opts.runs, venue.id = key ∧
      after opts stage venue = .returned record

/-- Every venue recorded before is still recorded. -/
def Grows (before values : InsertionMap String Record) : Prop :=
  ∀ key, (before.get key).isSome → (values.get key).isSome

theorem Grows.alter (key : String) (record : Record) :
    Grows values (values.alter key fun _ => record) := by
  intro other present
  by_cases same : other = key
  · subst same
    rw [InsertionMap.get_alter_self]
    rfl
  · rw [InsertionMap.get_alter_other same]
    exact present

theorem Standing.grow
    (grows : Grows values later)
    (standing : Standing opts stage venue values run) :
    Standing opts stage venue later run := by
  cases standing with
  | running resumes => exact .running resumes
  | returned ended recorded => exact .returned ended (grows _ recorded)
  | threw ended => exact .threw ended

theorem Polled.grow
    (grows : Grows values later) (polled : Polled opts stage venue values run) :
    Polled opts stage venue later run := by
  cases polled with
  | waiting asks => exact .waiting asks
  | ended standing done => exact .ended (standing.grow grows) done

theorem after_succ_of_returned
    {record : Record} (ended : after opts stage venue = .returned record) :
    after opts (stage + 1) venue = .returned record := by
  rw [after, Process.advance_succ]
  rw [after] at ended
  rw [ended]
  rfl

theorem after_succ_of_threw
    {error : Thrown} (ended : after opts stage venue = .threw error) :
    after opts (stage + 1) venue = .threw error := by
  rw [after, Process.advance_succ]
  rw [after] at ended
  rw [ended]
  rfl

theorem Standing.succ
    (standing : Standing opts stage venue values run) (done : run.done = true) :
    Standing opts (stage + 1) venue values run := by
  cases standing with
  | running resumes => cases done
  | returned ended recorded =>
      exact .returned (after_succ_of_returned ended) recorded
  | threw ended => exact .threw (after_succ_of_threw ended)

theorem Recorded.succ (recorded : Recorded opts stage values) :
    Recorded opts (stage + 1) values := by
  intro key record found
  rcases recorded key record found with ⟨venue, listed, named, ended⟩
  exact ⟨venue, listed, named, after_succ_of_returned ended⟩

theorem asked_of_done
    (standing : Standing opts stage venue values run) (done : run.done = true) :
    asked opts stage venue = none := by
  rw [asked, Process.asked]
  cases standing with
  | running resumes => cases done
  | returned ended recorded =>
      rw [after] at ended
      rw [ended]
  | threw ended =>
      rw [after] at ended
      rw [ended]

/-- What a round has come to, after the venues asked so far. -/
structure Polls
    (opts : Options Contract Answer) (answer : Contract → Answer)
    (stage : Nat) (own : List Contract) (before : InsertionMap String Record)
    (venues : List (Venue Contract Answer)) (poll : Poll Contract Answer) :
    Prop where
  polled :
    List.Forall₂ (fun venue run => Polled opts stage venue poll.values run)
      venues poll.pending
  answered : ∀ results, poll.batch.map answer <+: results → List.Forall₂
      (fun venue run =>
          Standing opts (stage + 1) venue poll.values run)
        venues (assign results poll.spans poll.pending)
  inside : ∀ span ∈ poll.spans, span.index < poll.pending.length
  spans : poll.spans = [] ↔ ∀ venue ∈ venues, asked opts stage venue = none
  batch : poll.batch =
      own ++ venues.flatMap fun venue => (asked opts stage venue).getD []
  recorded : Recorded opts stage poll.values
  grows : Grows before poll.values

theorem modify_append_of_lt
    {Entry : Type} {front back : List Entry} {place : Nat}
    (inside : place < front.length) (change : Entry → Entry) :
    (front ++ back).modify place change =
      front.modify place change ++ back := by
  apply List.ext_getElem?
  intro other
  rw [List.getElem?_modify, List.getElem?_append, List.getElem?_append,
    List.length_modify, List.getElem?_modify]
  by_cases front_ : other < front.length
  · rw [if_pos front_, if_pos front_]
  · have different : place ≠ other := by omega
    rw [if_neg front_, if_neg front_]
    simp only [different, if_false]
    exact Option.map_id'

theorem modify_append_last
    {Entry : Type} (front : List Entry) (last : Entry)
    (change : Entry → Entry) :
    (front ++ [last]).modify front.length change = front ++ [change last] := by
  induction front with
  | nil => rfl
  | cons first rest ih =>
      show first :: (rest ++ [last]).modify rest.length change = _
      rw [ih]
      rfl

theorem assign_append
    {results : List Answer} {spans : List Span}
    {rest : List (Pending Contract Answer)}
    (inside : ∀ span ∈ spans, span.index < pending.length) :
    assign results spans (pending ++ rest) =
      assign results spans pending ++ rest := by
  induction spans generalizing pending with
  | nil => rfl
  | cons span others ih =>
      rw [List.forall_mem_cons] at inside
      have modified : assign results (span :: others) (pending ++ rest) =
          assign results others (pending.modify span.index (fun run =>
                { run with
                  input := slice results span.start span.length }) ++
                rest) := by
        rw [← modify_append_of_lt inside.1]
        rfl
      rw [modified, ih]
      · rfl
      · intro other listed
        rw [List.length_modify]
        exact inside.2 other listed

theorem length_assign
    {results : List Answer} {spans : List Span} :
    (assign results spans pending).length = pending.length := by
  induction spans generalizing pending with
  | nil => rfl
  | cons span rest ih =>
      show (assign results rest (pending.modify _ _)).length = _
      rw [ih, List.length_modify]

section Round

variable {own : List Contract} {before : InsertionMap String Record}
    {venues : List (Venue Contract Answer)} {poll : Poll Contract Answer}

theorem Polls.append_ended
    (polls : Polls opts answer stage own before venues poll)
    (grows : Grows poll.values later) (recorded : Recorded opts stage later)
    (standing : Standing opts stage venue later run) (done : run.done = true) :
    Polls opts answer stage own before (venues ++ [venue])
      { poll with pending := poll.pending ++ [run], values := later } where
  polled := List.rel_append
      (polls.polled.imp fun _ _ polled => polled.grow grows)
      (.cons (.ended standing done) .nil)
  answered := by
    intro results isAnswered
    dsimp only
    rw [assign_append polls.inside]
    exact List.rel_append
      ((polls.answered results isAnswered).imp fun _ _ standing =>
          standing.grow grows)
        (.cons (standing.succ done) .nil)
  inside := by
    intro span listed
    rw [List.length_append]
    exact Nat.lt_add_right _ (polls.inside span listed)
  spans := by
    rw [polls.spans]
    simp only [List.mem_append, List.mem_singleton, or_imp, forall_and,
      forall_eq]
    exact ⟨fun all => ⟨all, asked_of_done standing done⟩, And.left⟩
  batch := by
    rw [List.flatMap_append, List.flatMap_singleton,
      asked_of_done standing done, Option.getD_none, List.append_nil]
    exact polls.batch
  recorded := recorded
  grows := fun key present => grows key (polls.grows key present)

theorem Polls.append_asking
    {reads : List Contract}
    {resume : List Answer → ValuationRun Contract Answer} {input : List Answer}
    (each : AnswersEach answer opts.call)
    (polls : Polls opts answer stage own before venues poll)
    (asks : after opts stage venue = .asking reads resume) :
    Polls opts answer stage own before (venues ++ [venue]) { poll with
        pending := poll.pending ++ [⟨venue, resume, false, .undefined, input⟩]
        spans :=
          poll.spans ++ [⟨poll.pending.length, poll.batch.length, reads.length⟩]
        batch := poll.batch ++ reads } where
  polled := List.rel_append polls.polled (.cons (.waiting asks) .nil)
  answered := by
    intro results isAnswered
    dsimp only at isAnswered ⊢
    have earlier : poll.batch.map answer <+: results := by
      refine List.IsPrefix.trans ?_ isAnswered
      rw [List.map_append]
      exact List.prefix_append _ _
    have handed : assign results (poll.spans ++
            [⟨poll.pending.length, poll.batch.length, reads.length⟩])
          (poll.pending ++ [⟨venue, resume, false, .undefined, input⟩]) =
        assign results poll.spans poll.pending ++
          [⟨venue, resume, false, .undefined, reads.map answer⟩] := by
      have length : (assign results poll.spans poll.pending).length =
            poll.pending.length :=
        length_assign
      rw [assign, List.foldl_append]
      show (assign results poll.spans (poll.pending ++ _)).modify _ _ = _
      rw [assign_append polls.inside, ← length, modify_append_last, slice_of_isPrefix isAnswered]
    rw [handed]
    refine List.rel_append (polls.answered results earlier)
      (.cons (.running ?_) .nil)
    rw [after, Process.advance_succ]
    rw [after] at asks
    rw [asks, ← each]
    rfl
  inside := by
    intro span listed
    rw [List.length_append, List.length_singleton]
    rcases List.mem_append.mp listed with old | new
    · exact Nat.lt_succ_of_lt (polls.inside span old)
    · rw [List.mem_singleton.mp new]
      exact Nat.lt_succ_self _
  spans := by
    have asking : asked opts stage venue = some reads := by
      rw [after] at asks
      rw [asked, Process.asked, asks]
    constructor
    · intro nobody
      exact absurd nobody (List.append_ne_nil_of_right_ne_nil _ (by simp))
    · intro nobody
      have quiet := nobody venue (by simp)
      rw [asking] at quiet
      cases quiet
  batch := by
    have asking : asked opts stage venue = some reads := by
      rw [after] at asks
      rw [asked, Process.asked, asks]
    rw [List.flatMap_append, List.flatMap_singleton, asking,
      Option.getD_some, ← List.append_assoc, ← polls.batch]
  recorded := polls.recorded
  grows := polls.grows

theorem Polls.ask
    (each : AnswersEach answer opts.call) (listed : venue ∈ opts.runs)
    (polls : Polls opts answer stage own before venues poll)
    (standing : Standing opts stage venue before run) :
    Polls opts answer stage own before (venues ++ [venue]) (poll.ask run) := by
  have standing' := standing.grow polls.grows
  cases standing with
  | returned ended recorded =>
      exact polls.append_ended (fun _ present => present) polls.recorded
          standing' rfl
  | threw ended =>
      exact polls.append_ended (fun _ present => present) polls.recorded
          standing' rfl
  | running resumes =>
      rw [Poll.ask, if_neg (by simp)]
      dsimp only
      rw [resumes]
      cases here : after opts stage venue with
      | asking reads resume => exact polls.append_asking each here
      | threw error =>
          exact polls.append_ended (fun _ present => present) polls.recorded
              (.threw here) rfl
      | returned record =>
          refine polls.append_ended (.alter venue.id record) ?_
            (.returned here ?_) rfl
          · intro key other found
            by_cases same : key = venue.id
            · subst same
              rw [InsertionMap.get_alter_self] at found
              cases found
              exact ⟨venue, listed, rfl, here⟩
            · rw [InsertionMap.get_alter_other same] at found
              exact polls.recorded key other found
          · rw [InsertionMap.get_alter_self]
            rfl

theorem Polls.foldl_ask
    (each : AnswersEach answer opts.call) {rest : List (Venue Contract Answer)}
    {pending : List (Pending Contract Answer)}
    (listed : ∀ venue ∈ rest, venue ∈ opts.runs)
    (standing :
      List.Forall₂ (fun venue run => Standing opts stage venue before run)
        rest pending)
    (polls : Polls opts answer stage own before venues poll) :
    Polls opts answer stage own before (venues ++ rest)
      (pending.foldl Poll.ask poll) := by
  induction standing generalizing venues poll with
  | nil =>
      rw [List.append_nil]
      exact polls
  | cons first others ih =>
      rw [List.forall_mem_cons] at listed
      have asked := ih listed.2 (polls.ask each listed.1 first)
      rw [List.append_assoc] at asked
      exact asked

end Round

/-! ## All rounds -/

/-- What a session has come to between two rounds. -/
structure Between
    (opts : Options Contract Answer)
    (session : Session Contract Answer) : Prop where
  standing : List.Forall₂ (fun venue run =>
        Standing opts session.stage venue session.values run)
      opts.runs session.pending
  recorded : Recorded opts session.stage session.values

theorem Between.opened : Between opts (.opened opts) where
  standing := by
    show List.Forall₂ _ opts.runs (opts.runs.map (Pending.opened opts.agents))
    rw [List.forall₂_map_right_iff]
    exact List.forall₂_same.mpr fun venue _ => .running rfl
  recorded := by
    intro key record found
    cases found

section Session

variable {session : Session Contract Answer}

theorem Between.poll
    (each : AnswersEach answer opts.call) (between : Between opts session) :
    Polls opts answer session.stage
      (if session.stage = 0 then opts.scorerReads else []) session.values
      opts.runs (session.poll opts) := by
  refine @Polls.foldl_ask _ _ _ _ _ _ _ [] _ each _ _ (fun _ listed => listed)
      between.standing ?_
  constructor
  · exact .nil
  · intro results _
    exact .nil
  · intro span listed
    cases listed
  · exact iff_of_true rfl fun _ listed => absurd listed List.not_mem_nil
  · exact (List.append_nil _).symm
  · exact between.recorded
  · exact fun _ present => present

theorem Between.answered
    (each : AnswersEach answer opts.call) (between : Between opts session) :
    Between opts (session.answered opts (session.poll opts)) where
  standing := by
    apply (between.poll each).answered
    rw [← each]
  recorded := (between.poll each).recorded.succ

/--
A round in which every venue still running asks for nothing, so that the
batch is empty while somebody waits for it.
-/
structure Silent (opts : Options Contract Answer) (stage : Nat) : Prop where
  unread : stage = 0 → opts.scorerReads = []
  waiting : ∃ venue ∈ opts.runs, asked opts stage venue ≠ none
  empty : ∀ venue ∈ opts.runs, ∀ reads,
      asked opts stage venue = some reads → reads = []

/-- How a venue ended, and what is recorded of it. -/
def Settled
    (opts : Options Contract Answer) (values : InsertionMap String Record)
    (venue : Venue Contract Answer) (run : Pending Contract Answer) :
    Prop :=
  run.venue = venue ∧ match driveAlone (venue.start opts.agents) opts.call with
    | .ok record =>
        run.error = .undefined ∧ values.get venue.id = some record
    | .error error => run.error = error ∧ values.get venue.id = none

theorem driveAlone_of_after
    {process : ValuationRun Contract Answer}
    (ended : after opts stage venue = process) :
    driveAlone (venue.start opts.agents) opts.call =
      process.drive opts.call := by
  rw [driveAlone, ← Process.drive_advance stage]
  rw [after] at ended
  rw [ended]

theorem Standing.settled
    (distinct : (opts.runs.map Venue.id).Nodup)
    (recorded : Recorded opts stage values) (listed : venue ∈ opts.runs)
    (standing : Standing opts stage venue values run) (done : run.done = true) :
    Settled opts values venue run := by
  have own : ∀ record, values.get venue.id = some record →
      after opts stage venue = .returned record := by
    intro record found
    rcases recorded _ _ found with ⟨other, otherListed, named, ended⟩
    rw [← List.inj_on_of_nodup_map distinct otherListed listed named]
    exact ended
  cases standing with
  | running resumes => cases done
  | returned ended present =>
      rw [Settled, driveAlone_of_after ended]
      rcases Option.isSome_iff_exists.mp present with ⟨found, foundEq⟩
      have same := own found foundEq
      rw [ended] at same
      cases same
      exact ⟨rfl, rfl, foundEq⟩
  | threw ended =>
      rw [Settled, driveAlone_of_after ended]
      refine ⟨rfl, rfl, ?_⟩
      by_contra present
      rcases Option.ne_none_iff_exists'.mp present with ⟨record, found⟩
      have same := own record found
      rw [ended] at same
      cases same

theorem Polls.settled
    {own : List Contract} {before : InsertionMap String Record}
    {poll : Poll Contract Answer} (distinct : (opts.runs.map Venue.id).Nodup)
    (polls : Polls opts answer stage own before opts.runs poll)
    (nobody : ∀ venue ∈ opts.runs, asked opts stage venue = none) :
    List.Forall₂ (Settled opts poll.values) opts.runs poll.pending := by
  rw [List.forall₂_iff_get]
  refine ⟨polls.polled.length_eq, fun place left right => ?_⟩
  have polled := polls.polled.get left right
  have listed : opts.runs.get ⟨place, left⟩ ∈ opts.runs := List.get_mem _ _
  cases here : poll.pending.get ⟨place, right⟩ with
  | mk venue next done error input =>
      rw [here] at polled
      have quiet := nobody _ listed
      cases polled with
      | waiting asks =>
          rw [after] at asks
          rw [asked, Process.asked, asks] at quiet
          cases quiet
      | ended standing done =>
          exact standing.settled distinct polls.recorded listed done

theorem Between.settled
    (each : AnswersEach answer opts.call)
    (distinct : (opts.runs.map Venue.id).Nodup)
    (heard : ∀ stage, ¬ Silent opts stage) (between : Between opts session)
    (enough :
      ∀ venue ∈ opts.runs, asked opts (session.stage + fuel) venue = none) :
    ∃ final, rounds opts (fuel + 1) session = some final ∧
      List.Forall₂ (Settled opts final.values) opts.runs final.pending := by
  induction fuel generalizing session with
  | zero =>
      have polls := between.poll each
      have quiet := polls.spans.mpr enough
      have settled := polls.settled distinct enough
      rw [rounds]
      dsimp only
      split
      · exact ⟨_, rfl, settled⟩
      · refine ⟨_, rfl, ?_⟩
        rw [Session.answered, quiet]
        exact settled
  | succ fuel ih =>
      have polls := between.poll each
      rw [rounds]
      dsimp only
      split
      · next empty =>
          have nothing := polls.batch
          rw [empty] at nothing
          rcases List.append_eq_nil_iff.mp nothing.symm with
            ⟨noOwn, noReads⟩
          rw [List.flatMap_eq_nil_iff] at noReads
          refine ⟨_, rfl, polls.settled distinct ?_⟩
          by_contra someone
          push Not at someone
          refine heard session.stage ⟨?_, someone, ?_⟩
          · intro first
            rw [if_pos first] at noOwn
            exact noOwn
          · intro venue listed reads asks
            have none := noReads venue listed
            rw [asks] at none
            exact none
      · split
        · next quiet =>
            refine ⟨_, rfl, ?_⟩
            rw [Session.answered, quiet]
            exact polls.settled distinct (polls.spans.mp quiet)
        · apply ih (between.answered each)
          intro venue listed
          have later := enough venue listed
          rw [show session.stage + (fuel + 1) =
            session.stage + 1 + fuel by omega] at later
          exact later

end Session

/-! ## The venues which threw -/

/-- The error the whole valuation throws because of a venue, if any: the one
it threw for the field, when it throws for every agent alone as well. -/
def refusal (opts : Options Contract Answer)
    (venue : Venue Contract Answer) : Option Thrown :=
  match driveAlone (venue.start opts.agents) opts.call with
  | .ok _ => none
  | .error error =>
      if opts.agents ≠ [] ∧
          ∀ agent ∈ opts.agents, throwsAlone opts venue agent = true then
        some error
      else none

/-- What is recorded of a venue in the end. -/
def valued (opts : Options Contract Answer)
    (venue : Venue Contract Answer) : Record :=
  match driveAlone (venue.start opts.agents) opts.call with
  | .ok record => record
  | .error _ => oneAtATime opts venue

/-- The record driven for one agent after another has, under each id, what
driving alone gives the last agent of that id. -/
theorem oneAtATime_eq
    (opts : Options Contract Answer) (venue : Venue Contract Answer)
    (id : String) :
    oneAtATime opts venue id =
      (opts.agents.reverse.find? (·.id = id)).map (aloneValue opts venue) := by
  rw [oneAtATime]
  induction opts.agents using List.reverseRecOn with
  | nil => rfl
  | append_singleton agents agent ih =>
      rw [List.foldl_append, List.foldl_cons, List.foldl_nil,
        List.reverse_append, List.reverse_singleton, List.singleton_append]
      by_cases same : agent.id = id
      · rw [List.find?_cons_of_pos (by simpa using same), ← same,
          Function.update_self]
        rfl
      · rw [List.find?_cons_of_neg (by simpa using same),
          Function.update_of_ne (Ne.symm same)]
        exact ih

theorem Settled.alter
    {key : String} {record : Record} (settled : Settled opts values venue run)
    (different : venue.id ≠ key) :
    Settled opts (values.alter key fun _ => record) venue run := by
  rw [Settled, InsertionMap.get_alter_other different]
  exact settled

/-- What becomes of settled venues. -/
theorem retry_settled
    {venues : List (Venue Contract Answer)}
    (distinct : (venues.map Venue.id).Nodup)
    (named : ∀ venue ∈ venues,
      driveAlone (venue.start opts.agents) opts.call ≠ .error .undefined)
    (settled : List.Forall₂ (Settled opts values) venues pending) :
    (∀ error, venues.findSome? (refusal opts) = some error →
        retry opts pending values = .error error) ∧
      (venues.findSome? (refusal opts) = none →
        ∃ out, retry opts pending values = .ok out ∧
          (∀ key, key ∉ venues.map Venue.id → out.get key = values.get key) ∧
          ∀ venue ∈ venues, out.get venue.id = some (valued opts venue)) := by
  induction venues generalizing pending values with
  | nil =>
      rw [List.forall₂_nil_left_iff] at settled
      subst settled
      refine ⟨fun error found => (nomatch found), fun _ => ?_⟩
      exact
        ⟨values, rfl, fun _ _ => rfl, fun _ listed =>
          absurd listed List.not_mem_nil⟩
  | cons venue venues ih =>
      rw [List.map_cons, List.nodup_cons] at distinct
      rw [List.forall_mem_cons] at named
      rw [List.forall₂_cons_left_iff] at settled
      rcases settled with ⟨run, pending, ⟨rfl, ended⟩, rest, rfl⟩
      have notUndefined := named.1
      cases alone : driveAlone (run.venue.start opts.agents) opts.call with
      | ok record =>
          rw [alone] at ended
          have passes : refusal opts run.venue = none := by
            rw [refusal, alone]
          have others := ih distinct.2 named.2 rest
          rw [List.findSome?_cons, passes, retry, if_pos ended.1]
          refine ⟨others.1, fun nobody => ?_⟩
          rcases others.2 nobody with ⟨out, done, kept, recorded⟩
          refine ⟨out, done, ?_, ?_⟩
          · intro key absent
            exact kept key fun listed => absent (List.mem_cons_of_mem _ listed)
          · rw [List.forall_mem_cons]
            refine ⟨?_, recorded⟩
            rw [kept _ distinct.1, ended.2, valued, alone]
      | error error =>
          rw [alone] at ended notUndefined
          have thrown : run.error ≠ .undefined := by
            intro undefined
            rw [ended.1] at undefined
            exact notUndefined (by rw [undefined])
          have everybody :
              ((opts.agents.filter (throwsAlone opts run.venue)).length =
                    opts.agents.length ∧ 0 < opts.agents.length) ↔
                opts.agents ≠ [] ∧ ∀ agent ∈ opts.agents,
                    throwsAlone opts run.venue agent = true := by
            rw [List.length_filter_eq_length_iff, List.length_pos_iff]
            exact and_comm
          rw [List.findSome?_cons, retry, if_neg thrown, refusal, alone]
          dsimp only
          by_cases refuses : opts.agents ≠ [] ∧
              ∀ agent ∈ opts.agents, throwsAlone opts run.venue agent = true
          · rw [if_pos refuses, if_pos (everybody.mpr refuses)]
            refine ⟨?_, fun nobody => (nomatch nobody)⟩
            intro other found
            cases found
            rw [ended.1]
          · rw [if_neg refuses, if_neg fun all =>
              refuses (everybody.mp all)]
            have different : ∀ other ∈ venues, other.id ≠ run.venue.id :=
              fun other listed same =>
                distinct.1 (same ▸ List.mem_map_of_mem listed)
            have altered : List.Forall₂ (Settled opts
                (values.alter run.venue.id fun _ =>
                      oneAtATime opts run.venue))
                  venues pending := by
              rw [List.forall₂_iff_get] at rest ⊢
              refine ⟨rest.1, fun place left right => ?_⟩
              exact (rest.2 place left right).alter
                (different _ (List.get_mem _ _))
            have others := ih distinct.2 named.2 altered
            refine ⟨others.1, fun nobody => ?_⟩
            rcases others.2 nobody with ⟨out, done, kept, recorded⟩
            refine ⟨out, done, ?_, ?_⟩
            · intro key absent
              rw [List.map_cons, List.mem_cons, not_or] at absent
              rw [kept key absent.2, InsertionMap.get_alter_other absent.1]
            · rw [List.forall_mem_cons]
              refine ⟨?_, recorded⟩
              rw [kept _ distinct.1, InsertionMap.get_alter_self, valued, alone]

/-! ## The whole valuation -/

/-- The greatest number of stages a venue takes. -/
def longest (opts : Options Contract Answer) : Nat :=
  (opts.runs.map fun venue =>
    (venue.start opts.agents).stages opts.call).foldr max 0

theorem asked_longest
    (listed : venue ∈ opts.runs) (fuel : Nat) (enough : longest opts ≤ fuel) :
    asked opts fuel venue = none := by
  refine Process.asked_of_le Process.asked_stages (le_trans ?_ enough)
  rw [longest]
  exact List.le_max_of_le' 0
    (List.mem_map_of_mem (f := fun venue : Venue Contract Answer =>
        (venue.start opts.agents).stages opts.call) listed)
      (le_refl _)

/--
The valuation ends.  It throws exactly when some venue throws for the field
and for every agent alone, and then what the first such venue threw for the
field.  Otherwise it has, for each venue, what driving the venue alone
returns, or what driving it for one agent at a time gives.
-/
theorem runValuations_agrees
    (each : AnswersEach answer opts.call)
    (distinct : (opts.runs.map Venue.id).Nodup)
    (heard : ∀ stage, ¬ Silent opts stage)
    (named : ∀ venue ∈ opts.runs,
      driveAlone (venue.start opts.agents) opts.call ≠ .error .undefined)
    {fuel : Nat} (enough : longest opts < fuel) :
    ∃ stageZero outcome, runValuations opts fuel = some (stageZero, outcome) ∧
        (∀ error, outcome = .error error ↔
          opts.runs.findSome? (refusal opts) = some error) ∧
        ∀ values, outcome = .ok values → ∀ venue ∈ opts.runs, (∀ record,
            driveAlone (venue.start opts.agents) opts.call = .ok record →
              values.get venue.id = some record) ∧
          ∀ error, driveAlone (venue.start opts.agents) opts.call =
                .error error →
              ∃ record, values.get venue.id = some record ∧ ∀ id, record id =
                  (opts.agents.reverse.find? (·.id = id)).map
                    (aloneValue opts venue) := by
  cases fuel with
  | zero => exact absurd enough (Nat.not_lt_zero _)
  | succ fuel =>
      have ends : ∀ venue ∈ opts.runs,
          asked opts ((Session.opened opts).stage + fuel) venue = none := by
        intro venue listed
        show asked opts (0 + fuel) venue = none
        rw [Nat.zero_add]
        exact asked_longest listed fuel (Nat.le_of_lt_succ enough)
      rcases Between.settled each distinct heard Between.opened ends with
        ⟨final, ended, settled⟩
      rcases retry_settled distinct named settled with ⟨refused, kept⟩
      refine
        ⟨final.onStageZero, retry opts final.pending final.values, ?_, ?_, ?_⟩
      · rw [runValuations, ended]
        rfl
      · intro error
        constructor
        · intro threw
          cases first : opts.runs.findSome? (refusal opts) with
          | none =>
              rcases kept first with ⟨out, done, _⟩
              rw [threw] at done
              cases done
          | some other =>
              rw [refused other first] at threw
              cases threw
              rfl
        · exact refused error
      · intro values done venue listed
        cases first : opts.runs.findSome? (refusal opts) with
        | some other =>
            rw [refused other first] at done
            cases done
        | none =>
            rcases kept first with ⟨out, returned, _, recorded⟩
            rw [done] at returned
            cases returned
            have own := recorded venue listed
            constructor
            · intro record alone
              rw [own, valued, alone]
            · intro error alone
              refine ⟨_, own, fun id => ?_⟩
              rw [valued, alone]
              exact oneAtATime_eq opts venue id

/-- An agent, and a venue which throws before it asks for anything. -/
def broken : Options Unit Unit where
  runs := [⟨"curve", fun _ => .threw (.error "market list unreadable")⟩]
  agents := [⟨"good", 1⟩]
  scorerReads := []
  call := id

theorem broken_throws :
    ¬ ∀ (opts : Options Unit Unit) (answer : Unit → Unit),
      AnswersEach answer opts.call →
      (opts.runs.map Venue.id).Nodup →
      ∃ fuel stageZero values,
        runValuations opts fuel = some (stageZero, .ok values) ∧
          ∀ venue ∈ opts.runs, (values.get venue.id).isSome := by
  intro claimed
  rcases claimed broken id (fun reads => (List.map_id reads).symm)
      (List.nodup_singleton _)
    with ⟨fuel, stageZero, values, returned, _⟩
  cases fuel with
  | zero => cases returned
  | succ fuel =>
      have threw : runValuations broken (fuel + 1) =
            some (none, .error (.error "market list unreadable")) :=
        rfl
      rw [threw] at returned
      cases returned

/-- A venue which cannot decode the state of one agent. -/
def brittle : Venue (Option Nat) Bool where
  id := "uniswap"
  start := fun agents =>
    .asking (agents.map fun _ => none) fun _ =>
      if agents.any (·.id = "evil") then .threw (.error "cannot decode")
      else .returned fun _ => some ⟨100, 100, []⟩

/-- A venue with a read of capped gas, and a second stage. -/
def steady : Venue (Option Nat) Bool where
  id := "balancer"
  start := fun _ =>
    .asking [some 1000000] fun first =>
      .asking [none] fun second =>
        .returned fun _ => some ⟨(first ++ second).length, 0, []⟩

def field : Options (Option Nat) Bool where
  runs := [brittle, steady]
  agents := [⟨"good", 1⟩, ⟨"evil", 2⟩]
  scorerReads := [none]
  call := splitIsolatedReads id false (List.map fun _ => true)
      (List.map fun _ => false)

theorem field_heard (stage : Nat) : ¬ Silent field stage := by
  intro silent
  match stage with
  | 0 => exact absurd (silent.unread rfl) (List.cons_ne_nil _ _)
  | 1 =>
      exact absurd (silent.empty steady (by simp [field]) [none] rfl)
          (List.cons_ne_nil _ _)
  | later + 2 =>
      rcases silent.waiting with ⟨venue, listed, waits⟩
      exact waits (asked_longest listed (later + 2) (Nat.le_add_left 2 later))

theorem field_agrees :
    ∃ stageZero outcome, runValuations field 3 = some (stageZero, outcome) ∧
        (∀ error, outcome = .error error ↔
          field.runs.findSome? (refusal field) = some error) ∧
        ∀ values, outcome = .ok values → ∀ venue ∈ field.runs, (∀ record,
            driveAlone (venue.start field.agents) field.call = .ok record →
              values.get venue.id = some record) ∧
          ∀ error, driveAlone (venue.start field.agents) field.call =
                .error error →
              ∃ record, values.get venue.id = some record ∧ ∀ id, record id =
                  (field.agents.reverse.find? (·.id = id)).map
                    (aloneValue field venue) := by
  refine runValuations_agrees
    (answersEach_splitIsolatedReads (fun _ => rfl) (fun _ => rfl))
    (by decide) field_heard ?_ (by decide)
  intro venue listed
  simp only [field, List.mem_cons, List.not_mem_nil, or_false] at listed
  rcases listed with rfl | rfl
  · intro threw
    cases threw
  · intro threw
    cases threw

/-! ## Venues nobody waits for -/

theorem retry_keeps
    {key : String} {out : InsertionMap String Record}
    (untouched : ∀ run ∈ pending, run.error ≠ .undefined → run.venue.id ≠ key)
    (done : retry opts pending values = .ok out) :
    out.get key = values.get key := by
  induction pending generalizing values with
  | nil =>
      cases done
      rfl
  | cons run rest ih =>
      rw [List.forall_mem_cons] at untouched
      rw [retry] at done
      split at done
      · exact ih untouched.2 done
      · next threw =>
          dsimp only at done
          split at done
          · cases done
          · rw [ih untouched.2 done, InsertionMap.get_alter_other
              (untouched.1 threw).symm]

theorem Between.silenced
    {session : Session Contract Answer} {ahead : Nat}
    (each : AnswersEach answer opts.call) (between : Between opts session)
    (silent : Silent opts (session.stage + ahead))
    (first : ∀ earlier < session.stage + ahead, ¬ Silent opts earlier)
    (enough : ahead < fuel) :
    ∃ final, rounds opts fuel session = some final ∧
      Recorded opts (session.stage + ahead) final.values ∧
      List.Forall₂ (fun venue run =>
          Polled opts (session.stage + ahead) venue final.values run)
        opts.runs final.pending := by
  induction ahead generalizing session fuel with
  | zero =>
      cases fuel with
      | zero => exact absurd enough (Nat.lt_irrefl 0)
      | succ fuel =>
          have polls := between.poll each
          have nothing : (session.poll opts).batch = [] := by
            rw [polls.batch, List.append_eq_nil_iff, List.flatMap_eq_nil_iff]
            constructor
            · split
              · next started => exact silent.unread started
              · rfl
            · intro venue listed
              cases asks : asked opts session.stage venue with
              | none => rfl
              | some reads => exact silent.empty venue listed reads asks
          rw [rounds]
          dsimp only
          rw [if_pos nothing]
          exact ⟨_, rfl, polls.recorded, polls.polled⟩
  | succ ahead ih =>
      cases fuel with
      | zero => exact absurd enough (Nat.not_lt_zero _)
      | succ fuel =>
          have polls := between.poll each
          rcases silent.waiting with ⟨venue, listed, waits⟩
          have asks : asked opts session.stage venue ≠ none := by
            intro quiet
            exact waits (Process.asked_of_le quiet (Nat.le_add_right _ _))
          have somebody : (session.poll opts).spans ≠ [] := by
            intro nobody
            exact asks (polls.spans.mp nobody venue listed)
          have something : (session.poll opts).batch ≠ [] := by
            intro nothing
            rw [polls.batch, List.append_eq_nil_iff,
              List.flatMap_eq_nil_iff] at nothing
            refine first session.stage (by omega)
              ⟨?_, ⟨venue, listed, asks⟩, ?_⟩
            · intro started
              have noReads := nothing.1
              rwa [if_pos started] at noReads
            · intro other otherListed reads otherAsks
              have noReads := nothing.2 other otherListed
              rwa [otherAsks] at noReads
          rw [rounds]
          dsimp only
          rw [if_neg something, if_neg somebody]
          have shifted :
              session.stage + (ahead + 1) = session.stage + 1 + ahead := by
            omega
          rw [shifted] at silent first ⊢
          exact ih (between.answered each) silent first
            (Nat.lt_of_succ_lt_succ enough)

/-- A venue which asks for nothing before it returns. -/
def unheard : Options Unit Unit where
  runs := [⟨"curve", fun _ => .asking [] fun _ => .returned fun _ => none⟩]
  agents := []
  scorerReads := []
  call := id

end Eris.Valuation.Equivalence
