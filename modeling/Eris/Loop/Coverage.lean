import Eris.Loop.BlockHandler

/-!
# The coverage of block passes

The passes of a process cover each block after its start once, none goes past
the end block, and the last is the only final one, in every run.  The point
events are another matter: a pass which throws before it executed its own
never does, and a process which dies after it executed one and before it
wrote the checkpoint executes it again.  In a run without these two, every
point event of the blocks processed is executed once.
-/

namespace Eris.Loop.Coverage

open Events.Data Foundation.Transition BlockHandler

variable {Number : Type} {period : Period Number}
    {last notifiedBlock : Int} {handler : Handler Number}

/-! ## Schedules by blocks -/

theorem mem_pointEventsAt
    {events : List (ResolvedStressEvent Number)} {fromIndex toIndex : Int}
    {ev : ResolvedStressEvent Number} :
    ev ∈ pointEventsAt events fromIndex toIndex ↔
      ev ∈ events ∧ isPointEvent ev.type ∧ fromIndex ≤ ev.startBlock ∧
        ev.startBlock ≤ toIndex := by
  simp [pointEventsAt, and_assoc]

theorem pointEventsAt_adjacent
    (events : List (ResolvedStressEvent Number)) {first middle : Int}
    (lower : first ≤ middle + 1) (upper : middle ≤ last) :
    (pointEventsAt events first middle ++
        pointEventsAt events (middle + 1) last).Perm
      (pointEventsAt events first last) := by
  have left : pointEventsAt events first middle =
      (pointEventsAt events first last).filter
        fun ev => decide (ev.startBlock ≤ middle) := by
    simp only [pointEventsAt, List.filter_filter]
    apply List.filter_congr
    intro ev _
    by_cases here : ev.startBlock ≤ middle
    · have inside : ev.startBlock ≤ last := by omega
      simp [here, inside]
    · simp [here]
  have right : pointEventsAt events (middle + 1) last =
      (pointEventsAt events first last).filter
        fun ev => !decide (ev.startBlock ≤ middle) := by
    simp only [pointEventsAt, List.filter_filter]
    apply List.filter_congr
    intro ev _
    by_cases here : ev.startBlock ≤ middle
    · have outside : ¬middle + 1 ≤ ev.startBlock := by omega
      simp [here, outside]
    · have inside : middle + 1 ≤ ev.startBlock := by omega
      have above : first ≤ ev.startBlock := by omega
      simp [here, inside, above]
  rw [left, right]
  exact List.filter_append_perm _ _

theorem pointEventsAt_empty
    (events : List (ResolvedStressEvent Number)) {fromIndex toIndex : Int}
    (empty : toIndex < fromIndex) :
    pointEventsAt events fromIndex toIndex = [] := by
  apply List.eq_nil_iff_forall_not_mem.mpr
  intro ev member
  have facts := (mem_pointEventsAt.mp member).2.2
  omega

theorem scheduled_step
    (period : Period Number) (lastProcessedBlock notifiedBlock : Int) :
    (period.scheduled lastProcessedBlock ++ period.due
          (loopStep lastProcessedBlock notifiedBlock period.endBlock)).Perm
      (period.scheduled (max lastProcessedBlock
          (loopStep lastProcessedBlock notifiedBlock
            period.endBlock).block)) := by
  generalize shape :
    loopStep lastProcessedBlock notifiedBlock period.endBlock = step
  have start : step.fromBlock = lastProcessedBlock + 1 := by
    rw [← shape]
    rfl
  unfold Period.scheduled Period.due
  rw [start]
  rcases le_or_gt step.block lastProcessedBlock with old | new
  · have none_due : pointEventsAt period.events
            (max 0 (lastProcessedBlock + 1 - period.runStartBlock))
            (step.block - period.runStartBlock) = [] :=
      pointEventsAt_empty _ (by omega)
    rw [max_eq_left old, none_due, List.append_nil]
  · rw [max_eq_right new.le]
    rcases le_or_gt period.runStartBlock (lastProcessedBlock + 1)
      with within | before
    · have shifted : max 0 (lastProcessedBlock + 1 - period.runStartBlock) =
          lastProcessedBlock - period.runStartBlock + 1 := by
        omega
      rw [shifted]
      exact pointEventsAt_adjacent _ (by omega) (by omega)
    · have clamped :
          max 0 (lastProcessedBlock + 1 - period.runStartBlock) = 0 := by
        omega
      rw [clamped, pointEventsAt_empty _ (by omega), List.nil_append]

/-- What holds of the passes of a process in every run. -/
structure Ranged (period : Period Number) (handler : Handler Number) :
    Prop where
  started : handler.startedAfter ≤ handler.lastProcessedBlock
  once : ∀ block,
      handler.steps.countP (fun step => decide (step.Covers block)) =
        if handler.startedAfter < block ∧ block ≤ handler.lastProcessedBlock
        then 1 else 0
  within : ∀ step ∈ handler.steps, ∀ last, period.endBlock = some last →
      step.block ≤ last
  under : ∀ pass, handler.pass = some pass → pass.step ∈ handler.steps
  stops : ∀ step ∈ handler.steps, step.final = true → handler.finished = true ∨
      ∃ pass, handler.pass = some pass ∧ pass.step = step
  final : ∀ before step after, handler.steps = before ++ step :: after →
      step.final = true → after = []
  ended : handler.finished = true →
      handler.timedOut = true ∨ ∃ step ∈ handler.steps, step.final = true

theorem ranged_started
    (block : Int) (checkpoint : Option Int)
    (executed : List (ResolvedStressEvent Number)) :
    Ranged period (.started block checkpoint executed) where
  started := le_refl _
  once other := by
    have never : ¬(block < other ∧ other ≤ block) := by omega
    simp [Handler.started, never]
  within _ member := nomatch member
  under _ running := nomatch running
  stops _ member := nomatch member
  final before step after split := by
    rcases before with _ | ⟨_, _⟩ <;> cases split
  ended finished := nomatch finished

theorem loopStep_within
    {lastProcessedBlock : Int} {endBlock : Option Int}
    (bounded : endBlock = some last) :
    (loopStep lastProcessedBlock notifiedBlock endBlock).block ≤ last := by
  subst bounded
  exact min_le_right _ _

theorem ranged_begins
    (ranged : Ranged period handler)
    (idle : handler.pass = none) (unfinished : handler.finished = false) :
    Ranged period (handler.begins period notifiedBlock) := by
  let step := loopStep handler.lastProcessedBlock notifiedBlock period.endBlock
  have noFinal : ∀ earlier ∈ handler.steps, earlier.final = false := by
    intro earlier member
    by_contra isFinal
    rcases ranged.stops earlier member (by simpa using isFinal) with
      finished | ⟨pass, running, _⟩
    · rw [unfinished] at finished
      cases finished
    · rw [idle] at running
      cases running
  constructor
  · exact ranged.started.trans (le_max_left _ _)
  · intro block
    have before := ranged.once block
    have started := ranged.started
    have covers : step.Covers block ↔
          handler.lastProcessedBlock + 1 ≤ block ∧ block ≤ step.block :=
      Iff.rfl
    change (handler.steps ++ [step]).countP _ =
      if handler.startedAfter < block ∧
        block ≤ max handler.lastProcessedBlock step.block then 1 else 0
    simp only [List.countP_append, before, List.countP_singleton,
      decide_eq_true_eq, covers]
    split <;> split <;> split <;> omega
  · intro other member last bounded
    rcases List.mem_append.mp member with earlier | latest
    · exact ranged.within other earlier last bounded
    · rw [List.mem_singleton.mp latest]
      exact loopStep_within bounded
  · rintro pass ⟨⟩
    exact List.mem_append_right _ (List.mem_singleton_self _)
  · intro other member isFinal
    rcases List.mem_append.mp member with earlier | latest
    · rw [noFinal other earlier] at isFinal
      cases isFinal
    · exact .inr ⟨_, rfl, (List.mem_singleton.mp latest).symm⟩
  · intro before other after split isFinal
    rcases List.eq_nil_or_concat after with rfl | ⟨shorter, latest, rfl⟩
    · rfl
    · have shape : handler.steps ++ [step] =
          (before ++ other :: shorter) ++ [latest] := by
        rw [List.concat_eq_append] at split
        rw [List.append_assoc, List.cons_append]
        exact split
      have earlier : other ∈ handler.steps := by
        rw [(List.append_inj' shape rfl).1]
        simp
      rw [noFinal other earlier] at isFinal
      cases isFinal
  · intro finished
    change handler.finished = true at finished
    rw [unfinished] at finished
    cases finished

theorem ranged_onBlock
    (ranged : Ranged period handler) :
    Ranged period (handler.onBlock period notifiedBlock) := by
  unfold Handler.onBlock
  split
  · exact ranged
  · next free =>
      split
      · exact ranged
      · rw [not_or] at free
        exact ranged_begins ranged (Option.not_isSome_iff_eq_none.mp free.1)
          (Bool.eq_false_iff.mpr free.2)

theorem ranged_settles
    {pass : Pass Number}
    (ranged : Ranged period handler) (running : handler.pass = some pass) :
    Ranged period (handler.settles pass.step) where
  started := ranged.started
  once := ranged.once
  within := ranged.within
  under _ idle := nomatch idle
  stops step member isFinal := by
    apply Or.inl
    rcases ranged.stops step member isFinal with finished | ⟨other, same, own⟩
    · simp [Handler.settles, finished]
    · rw [running] at same
      cases same
      simp [Handler.settles, own, isFinal]
  final := ranged.final
  ended finished := by
    simp only [Handler.settles, Bool.or_eq_true] at finished
    rcases finished with already | isFinal
    · exact ranged.ended already
    · exact .inr ⟨pass.step, ranged.under pass running, isFinal⟩

theorem ranged_happen
    {next : Handler Number} {happening : Happening}
    (ranged : Ranged period handler)
    (happens : handler.happen period happening = some next) :
    Ranged period next := by
  cases happening with
  | notified block =>
      cases happens
      exact ranged_onBlock ranged
  | executes =>
      simp only [Handler.happen] at happens
      split at happens
      · next step ev rest running =>
          cases happens
          exact
            { started := ranged.started
              once := ranged.once
              within := ranged.within
              under := by
                rintro pass ⟨⟩
                exact ranged.under ⟨step, ev :: rest⟩ running
              stops := by
                intro other member isFinal
                rcases ranged.stops other member isFinal with
                  finished | ⟨pass, same, own⟩
                · exact .inl finished
                · rw [running] at same
                  cases same
                  exact .inr ⟨_, rfl, own⟩
              final := ranged.final
              ended := ranged.ended }
      · cases happens
  | throws =>
      rcases Option.map_eq_some_iff.mp happens with ⟨pass, running, rfl⟩
      exact ranged_settles ranged running
  | completes written =>
      simp only [Handler.happen] at happens
      split at happens
      · next step running =>
          cases happens
          have settled := ranged_settles ranged running
          exact
            { started := settled.started
              once := settled.once
              within := settled.within
              under := settled.under
              stops := settled.stops
              final := settled.final
              ended := settled.ended }
      · cases happens
  | timeUp =>
      cases happens
      exact
        { started := ranged.started
          once := ranged.once
          within := ranged.within
          under := ranged.under
          stops := fun _ _ _ => .inl rfl
          final := ranged.final
          ended := fun _ => .inl rfl }
  | resumes =>
      rcases Option.map_eq_some_iff.mp happens with ⟨block, _, rfl⟩
      exact ranged_started _ _ _

/-! ## Point events -/

/--
A pass throws only after its point events, and a process resumes only when
the checkpoint is at or past every event executed.
-/
def EventsSettled (period : Period Number) (handler : Handler Number) :
    Happening → Prop
  | .throws => ∀ pass, handler.pass = some pass → pass.todo = []
  | .resumes =>
      ∀ block, handler.checkpoint = some block →
        ∀ ev ∈ handler.executed, period.blockOf ev ≤ block
  | _ => True

/-- The events the pass under way has not executed. -/
def todo (handler : Handler Number) : List (ResolvedStressEvent Number) :=
  match handler.pass with
  | none => []
  | some pass => pass.todo

/-- The events up to the last processed block are executed or under way. -/
structure Executed (period : Period Number) (handler : Handler Number) :
    Prop where
  placed : (handler.executed ++ todo handler).Perm
      (period.scheduled handler.lastProcessedBlock)
  ahead : ∀ pass, handler.pass = some pass → ∀ ev ∈ pass.todo,
      pass.step.fromBlock ≤ period.blockOf ev
  saved : ∀ block, handler.checkpoint = some block →
      block ≤ handler.lastProcessedBlock ∧
        ∀ pass, handler.pass = some pass → block < pass.step.fromBlock
  bounded : ∀ pass, handler.pass = some pass →
      pass.step.block ≤ handler.lastProcessedBlock

theorem executed_opened : Executed period (.opened period) where
  placed := by
    have empty : period.scheduled (period.runStartBlock - 1) = [] :=
      pointEventsAt_empty _ (by omega)
    change List.Perm [] (period.scheduled (period.runStartBlock - 1))
    rw [empty]
  ahead _ running := nomatch running
  saved _ saved := nomatch saved
  bounded _ running := nomatch running

theorem executed_begins
    (executed : Executed period handler) (idle : handler.pass = none) :
    Executed period (handler.begins period notifiedBlock) where
  placed := by
    have before := executed.placed
    simp only [todo, idle, List.append_nil] at before
    exact (before.append_right _).trans
      (scheduled_step period handler.lastProcessedBlock notifiedBlock)
  ahead := by
    rintro pass ⟨⟩ ev member
    have facts := (mem_pointEventsAt.mp member).2.2.1
    simp only [Period.blockOf]
    omega
  saved block saved := by
    have upper := (executed.saved block saved).1
    constructor
    · exact upper.trans (le_max_left _ _)
    · rintro pass ⟨⟩
      change block < handler.lastProcessedBlock + 1
      omega
  bounded := by
    rintro pass ⟨⟩
    exact le_max_right _ _

theorem executed_settles
    {pass : Pass Number} (executed : Executed period handler)
    (running : handler.pass = some pass) (done : pass.todo = []) :
    Executed period (handler.settles pass.step) where
  placed := by
    have before := executed.placed
    simp only [todo, running, done] at before
    exact before
  ahead _ idle := nomatch idle
  saved block saved := by
    constructor
    · exact (executed.saved block saved).1
    · intro other idle
      cases idle
  bounded _ idle := nomatch idle

theorem scheduled_filter
    {block : Int} (upper : block ≤ last) :
    (period.scheduled last).filter
        (fun ev => decide (period.blockOf ev ≤ block)) =
      period.scheduled block := by
  simp only [Period.scheduled, pointEventsAt, List.filter_filter]
  apply List.filter_congr
  intro ev _
  by_cases here : period.blockOf ev ≤ block
  · have inside : ev.startBlock ≤ block - period.runStartBlock := by
      simp only [Period.blockOf] at here
      omega
    have within : ev.startBlock ≤ last - period.runStartBlock := by omega
    simp [here, inside, within]
  · have outside : ¬ev.startBlock ≤ block - period.runStartBlock := by
      simp only [Period.blockOf] at here
      omega
    simp [here, outside]

theorem executed_resumes
    {block : Int} (executed : Executed period handler)
    (saved : handler.checkpoint = some block)
    (settled : ∀ ev ∈ handler.executed, period.blockOf ev ≤ block) :
    Executed period (.started block handler.checkpoint handler.executed) where
  placed := by
    rcases executed.saved block saved with ⟨upper, before⟩
    have kept : handler.executed.filter
            (fun ev => decide (period.blockOf ev ≤ block)) =
          handler.executed :=
      List.filter_eq_self.mpr fun ev member =>
        decide_eq_true (settled ev member)
    have dropped : (todo handler).filter
        (fun ev => decide (period.blockOf ev ≤ block)) = [] := by
      apply List.filter_eq_nil_iff.mpr
      intro ev member
      cases running : handler.pass with
      | none =>
          simp only [todo, running] at member
          cases member
      | some pass =>
          simp only [todo, running] at member
          have later := executed.ahead pass running ev member
          have earlier := before pass running
          simp only [decide_eq_true_eq]
          omega
    have part :=
      executed.placed.filter fun ev => decide (period.blockOf ev ≤ block)
    rw [List.filter_append, kept, dropped, scheduled_filter upper] at part
    exact part
  ahead _ idle := nomatch idle
  saved other same := by
    have equal : block = other := Option.some.inj (saved.symm.trans same)
    constructor
    · exact equal.ge
    · intro pass idle
      cases idle
  bounded _ idle := nomatch idle

theorem executed_happen
    {next : Handler Number} {happening : Happening}
    (executed : Executed period handler)
    (allowed : EventsSettled period handler happening)
    (happens : handler.happen period happening = some next) :
    Executed period next := by
  cases happening with
  | notified block =>
      cases happens
      unfold Handler.onBlock
      split
      · exact executed
      · next free =>
          split
          · exact executed
          · rw [not_or] at free
            exact executed_begins executed
              (Option.not_isSome_iff_eq_none.mp free.1)
  | executes =>
      simp only [Handler.happen] at happens
      split at happens
      · next step ev rest running =>
          cases happens
          have before := executed.placed
          simp only [todo, running] at before
          exact
            { placed := by
                simp only [todo, List.append_assoc]
                exact before
              ahead := by
                rintro pass ⟨⟩ other member
                exact executed.ahead ⟨step, ev :: rest⟩ running other
                  (List.mem_cons_of_mem _ member)
              saved := by
                intro block saved
                constructor
                · exact (executed.saved block saved).1
                · rintro pass ⟨⟩
                  exact
                    (executed.saved block saved).2 ⟨step, ev :: rest⟩ running
              bounded := by
                rintro pass ⟨⟩
                exact executed.bounded ⟨step, ev :: rest⟩ running }
      · cases happens
  | throws =>
      rcases Option.map_eq_some_iff.mp happens with ⟨pass, running, rfl⟩
      exact executed_settles executed running (allowed pass running)
  | completes written =>
      simp only [Handler.happen] at happens
      split at happens
      · next step running =>
          cases happens
          have settled := executed_settles executed running rfl
          exact
            { placed := settled.placed
              ahead := settled.ahead
              saved := by
                intro block saved
                constructor
                · cases written with
                  | true =>
                      cases saved
                      exact executed.bounded _ running
                  | false => exact (executed.saved block saved).1
                · intro pass idle
                  cases idle
              bounded := settled.bounded }
      · cases happens
  | timeUp =>
      cases happens
      exact
        { placed := executed.placed
          ahead := executed.ahead
          saved := executed.saved
          bounded := executed.bounded }
  | resumes =>
      rcases Option.map_eq_some_iff.mp happens with ⟨block, saved, rfl⟩
      exact executed_resumes executed saved (allowed block saved)

/-! ## Coverage -/

/-- What the passes of a period promise of blocks and of point events. -/
structure Covered (period : Period Number) (handler : Handler Number) :
    Prop where
  once : ∀ block,
      handler.steps.countP (fun step => decide (step.Covers block)) =
        if handler.startedAfter < block ∧ block ≤ handler.lastProcessedBlock
        then 1 else 0
  within : ∀ step ∈ handler.steps, ∀ last, period.endBlock = some last →
      step.block ≤ last
  oneFinal : handler.steps.countP (fun step => step.final) ≤ 1
  finalLast : ∀ before step after, handler.steps = before ++ step :: after →
      step.final = true → after = []
  ends : handler.pass = none →
      (∃ step ∈ handler.steps, step.final = true) → handler.finished = true
  ended : handler.finished = true → handler.timedOut = true ∨
      handler.steps.countP (fun step => step.final) = 1
  executed : (handler.executed ++ todo handler).Perm
      (period.scheduled handler.lastProcessedBlock)

theorem Ranged.oneFinal
    (ranged : Ranged period handler) :
    handler.steps.countP (fun step => step.final) ≤ 1 := by
  have final := ranged.final
  generalize handler.steps = steps at final
  induction steps with
  | nil => exact Nat.zero_le 1
  | cons step rest ih =>
      cases isFinal : step.final with
      | true =>
          rw [final [] step rest rfl isFinal]
          exact List.countP_le_length
      | false =>
          rw [List.countP_cons_of_neg (by simp [isFinal])]
          apply ih
          intro before other after split
          apply final (step :: before) other after
          rw [split, List.cons_append]

theorem covered_of_ranged
    (ranged : Ranged period handler) (executed : Executed period handler) :
    Covered period handler where
  once := ranged.once
  within := ranged.within
  oneFinal := ranged.oneFinal
  finalLast := ranged.final
  ends := by
    rintro idle ⟨step, member, isFinal⟩
    rcases ranged.stops step member isFinal with finished | ⟨pass, running, _⟩
    · exact finished
    · rw [idle] at running
      cases running
  ended finished := by
    rcases ranged.ended finished with timedOut | ⟨step, member, isFinal⟩
    · exact .inl timedOut
    · have some_final : 0 < handler.steps.countP (fun step => step.final) :=
        List.countP_pos_iff.mpr ⟨step, member, isFinal⟩
      have one := ranged.oneFinal
      exact .inr (by omega)
  executed := executed.placed

/--
In a run whose passes throw only after their point events, and whose processes
resume only from a checkpoint past every event executed, the passes cover the
blocks once and each point event of the blocks processed is executed once.
-/
theorem passes_cover
    {handler : Handler Number}
    (reachable : (handlers period).Reachable (EventsSettled period) handler) :
    Covered period handler := by
  have holds : Ranged period handler ∧ Executed period handler := by
    apply @System.Reachable.invariant _ _ _ _
      (fun handler => Ranged period handler ∧ Executed period handler)
      _ _ _ reachable
    · rintro state rfl
      exact ⟨ranged_started _ _ _, executed_opened⟩
    · rintro state happening next ⟨ranged, executed⟩ allowed happens
      exact
        ⟨ranged_happen ranged happens, executed_happen executed allowed happens⟩
  exact covered_of_ranged holds.1 holds.2

/-- One print, five blocks into a run of ten. -/
def whalePeriod : Period Nat where
  runStartBlock := 100
  runBlocks := some 10
  events :=
    [{ type := .whale
       base := "WETH"
       stable := none
       magnitude := 30
       side := some .sell
       kappaMult := none
       persist := false
       repriceAnchor := false
       trendCorrelation := none
       persistBlocks := none
       venue := none
       launches := none
       startBlock := 5
       rampBlocks := 0
       holdBlocks := 0
       decayBlocks := 0
       endBlock := 6
       flippedFrom := none
       recoverFrac := none }]

instance (handler : Handler Number) (happening : Happening) :
    Decidable (EventsSettled period handler happening) :=
  match happening with
  | .throws =>
      match running : handler.pass with
      | none => isTrue fun _ same => nomatch running.symm.trans same
      | some pass =>
          match unexecuted : pass.todo with
          | [] =>
              isTrue fun _ same =>
                Option.some.inj (running.symm.trans same) ▸ unexecuted
          | _ :: _ =>
              isFalse fun settled =>
                nomatch unexecuted.symm.trans (settled pass running)
  | .resumes =>
      match saved : handler.checkpoint with
      | none => isTrue fun _ same => nomatch saved.symm.trans same
      | some block =>
          decidable_of_iff (∀ ev ∈ handler.executed, period.blockOf ev ≤ block)
            ⟨fun settled _ same =>
              Option.some.inj (saved.symm.trans same) ▸ settled,
              fun settled => settled block saved⟩
  | .notified _ => isTrue trivial
  | .executes => isTrue trivial
  | .completes _ => isTrue trivial
  | .timeUp => isTrue trivial

theorem script_reachable
    {allowed : Handler Number → Happening → Prop}
    [∀ handler happening, Decidable (allowed handler happening)]
    {happenings : List Happening}
    (ran : script (fun (handler : Handler Number) happening =>
            (handler.happen period happening).map fun next =>
              (happening, next))
          allowed happenings (.opened period) =
        some handler) :
    (handlers period).Reachable allowed handler :=
  ⟨_, rfl, performed_runs (fun _ _ _ performs => performs) ran⟩

/-- A run with a skipped head, a restart and a final pass which throws. -/
def heldRun : List Happening :=
  [.notified 99, .completes true, .notified 104, .notified 105,
    .completes true, .notified 106, .executes, .completes true, .resumes,
    .notified 112, .throws, .notified 115, .timeUp]

theorem passes_cover_held :
    ∃ handler : Handler Nat,
      handler.executed.length = 1 ∧ handler.lastProcessedBlock = 110 ∧
        Covered whalePeriod handler := by
  have evaluated : (script (fun (handler : Handler Nat) happening =>
            (handler.happen whalePeriod happening).map fun next =>
              (happening, next))
          (EventsSettled whalePeriod) heldRun (.opened whalePeriod)).map
          (fun handler =>
            (handler.executed.length, handler.lastProcessedBlock)) =
        some (1, 110) := by
    decide
  rcases Option.map_eq_some_iff.mp evaluated with ⟨handler, ran, facts⟩
  refine ⟨handler, congrArg Prod.fst facts, congrArg Prod.snd facts, ?_⟩
  exact passes_cover (script_reachable ran)

/-- A pass throws before its print, and later passes go on. -/
def lostRun : List Happening :=
  [.notified 99, .completes true, .notified 105, .throws, .notified 106,
    .completes true]

/-- The process dies after its print, before the checkpoint. -/
def repeatedRun : List Happening :=
  [.notified 99, .completes true, .notified 105, .executes, .resumes,
    .notified 106, .executes, .completes true]

/-- A handler between passes whose executed events are not the scheduled. -/
def Differs (period : Period Number) (handler : Handler Number) : Prop :=
  (handlers period).Reachable System.anything handler ∧
    handler.pass.isNone = true ∧
    ¬handler.executed.Perm (period.scheduled handler.lastProcessedBlock)

theorem differs_of_script
    {happenings : List Happening} {made due : Nat}
    (evaluated : (script (fun (handler : Handler Number) happening =>
            (handler.happen period happening).map fun next =>
              (happening, next))
          System.anything happenings (.opened period)).map
          (fun handler =>
            (handler.executed.length, handler.pass.isNone,
              (period.scheduled handler.lastProcessedBlock).length)) =
        some (made, true, due))
    (unequal : made ≠ due) :
    ∃ handler, handler.executed.length = made ∧ Differs period handler := by
  rcases Option.map_eq_some_iff.mp evaluated with ⟨handler, ran, facts⟩
  have executed : handler.executed.length = made := congrArg Prod.fst facts
  have idle : handler.pass.isNone = true :=
    congrArg (fun triple => triple.2.1) facts
  have scheduled : (period.scheduled handler.lastProcessedBlock).length = due :=
    congrArg (fun triple => triple.2.2) facts
  refine ⟨handler, executed, script_reachable ran, idle, ?_⟩
  intro permuted
  exact unequal (executed.symm.trans (permuted.length_eq.trans scheduled))

/-- The print is lost in one run, and executed twice in the other. -/
theorem print_lost_and_repeated :
    (∃ handler : Handler Nat,
      handler.executed.length = 0 ∧ Differs whalePeriod handler) ∧
      ∃ handler : Handler Nat,
        handler.executed.length = 2 ∧ Differs whalePeriod handler := by
  constructor
  · apply @differs_of_script _ _ lostRun 0 1
    · decide
    · decide
  · apply @differs_of_script _ _ repeatedRun 2 1
    · decide
    · decide

end Eris.Loop.Coverage
