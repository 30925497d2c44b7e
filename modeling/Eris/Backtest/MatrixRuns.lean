import Eris.Backtest.Matrix

/-!
# Every ordinal completes once

However often a matrix is interrupted and resumed, the stored results and the
ordinals to run again make up the plan, no ordinal completes twice, and a
scenario which runs again starts from the state which the latest complete
ordinal below it ended with.
-/

namespace Eris.Backtest.MatrixRuns

open Foundation.Transition ScenarioScores Resume Backtest.Matrix

variable {State : Type} {plan : Plan} {carry : Bool}
    {event : Event State} {results : List ScenarioResult} {scenario : Scenario}
    {rest : List Scenario} {outcome : Outcome}

/-! ## What a history tells -/

/-- The ordinals completed in a history, and the states they ended with. -/
def completions (history : List (Event State)) : List (ℕ × State) :=
  history.filterMap fun event =>
    match event with
    | .completed s content => some (s, content)
    | _ => none

def completedOrdinals (history : List (Event State)) : List ℕ :=
  (completions history).map Prod.fst

def opening (history : List (Event State)) : Option State :=
  history.head?.bind fun event =>
    match event with
    | .opened content => some content
    | _ => none

/-- The state which an ordinal has to start from after a history. -/
def startState (history : List (Event State)) (s : ℕ) : Option State :=
  match latestBelow s (completedOrdinals history) with
  | none => opening history
  | some latest =>
      ((completions history).find? (·.1 = latest)).map Prod.snd

/-- Every scenario which ran again was restored to where it has to start. -/
def RerunsRestored (history : List (Event State)) : Prop :=
  ∀ before s restored content after,
    history = before ++ .started s true restored content :: after →
      restored = some (stateLabelBefore s (completedOrdinals before)) ∧
        startState before s = some content

theorem completions_append (first second : List (Event State)) :
    completions (first ++ second) = completions first ++ completions second :=
  List.filterMap_append

theorem completedOrdinals_append (first second : List (Event State)) :
    completedOrdinals (first ++ second) =
      completedOrdinals first ++ completedOrdinals second := by
  rw [completedOrdinals, completions_append, List.map_append]
  rfl

theorem opening_append
    {first second : List (Event State)} {content : State}
    (opened : opening first = some content) :
    opening (first ++ second) = some content := by
  cases first with
  | nil => cases opened
  | cons event rest => exact opened

theorem split_snoc
    {Item : Type} {before after history : List Item} {item last : Item}
    (split : history ++ [last] = before ++ item :: after) :
    (before = history ∧ item = last) ∨
      ∃ earlier, history = before ++ item :: earlier := by
  rcases List.eq_nil_or_concat after with rfl | ⟨earlier, final, rfl⟩
  · have parts := List.append_inj' split rfl
    cases parts.2
    exact Or.inl ⟨parts.1.symm, rfl⟩
  · have whole :
        history ++ [last] = (before ++ item :: earlier) ++ [final] := by
      rw [split]
      simp
    exact Or.inr ⟨earlier, (List.append_inj' whole rfl).1⟩

theorem RerunsRestored.append
    {history : List (Event State)} (restored : RerunsRestored history)
    (last : ∀ s label content, event = .started s true label content →
        label = some (stateLabelBefore s (completedOrdinals history)) ∧
          startState history s = some content) :
    RerunsRestored (history ++ [event]) := by
  intro before s label content after split
  rcases split_snoc split with ⟨rfl, same⟩ | ⟨earlier, whole⟩
  · exact last s label content same.symm
  · exact restored before s label content earlier whole

/-- Stored results tell the same completions as a history. -/
structure Stored
    (plan : Plan) (history : List (Event State))
    (results : List ScenarioResult) :
    Prop where
  planned : ∀ result ∈ results, Planned plan.scenarios result
  counted : (completed results).Perm (completedOrdinals history)

/-- The scenario which an invocation is at. -/
def current (invocation : Invocation) : List Scenario :=
  match invocation.phase with
  | .idle => []
  | .running scenario => [scenario]
  | .finished scenario _ => [scenario]
  | .recording scenario _ => [scenario]

/-- The ordinal which is complete but not yet stored. -/
def checkpointed (invocation : Invocation) : List ℕ :=
  match invocation.phase with
  | .recording scenario outcome =>
      if outcome.perRepeat ≠ [] then [scenario.s] else []
  | _ => []

structure Running
    (plan : Plan) (carry : Bool) (history : List (Event State))
    (invocation : Invocation) :
    Prop where
  results : Stored plan history invocation.results
  planned : ∀ scenario ∈ current invocation ++ invocation.todo,
      scenario ∈ plan.scenarios
  distinct : ((current invocation ++ invocation.todo).map (·.s)).Nodup
  fresh :
    ∀ scenario ∈ current invocation, scenario.s ∉ completedOrdinals history
  pending : ∀ scenario ∈ invocation.todo,
      scenario.s ∈ invocation.complete ↔ scenario.s ∈ completedOrdinals history
  complete : carry = true → ∀ s, s ∈ invocation.complete ↔
      s ∈ completedOrdinals history ∨ s ∈ checkpointed invocation
  covered : (invocation.results.map (·.s) ++ ((current invocation).map (·.s) ++
      (invocation.todo.filter fun scenario =>
            scenario.s ∉ invocation.complete).map (·.s))).Perm
      plan.ordinals

structure Kept (plan : Plan) (carry : Bool) (world : World State) : Prop where
  matrix :
    ∀ stored, world.matrix = some stored → Stored plan world.history stored
  unstored : world.matrix = none → completedOrdinals world.history = []
  distinct : (completedOrdinals world.history).Nodup
  snapshots : carry = true → ∀ done ∈ completions world.history,
      world.snapshots (.after done.1) = some done.2
  opened : carry = true → (world.matrix ≠ none ∨ world.running ≠ none) →
      ∃ content, opening world.history = some content ∧
        world.snapshots .initial = some content
  taken : carry = true → ∀ invocation scenario outcome,
      world.running = some invocation →
        invocation.phase = .recording scenario outcome →
          outcome.perRepeat ≠ [] →
            world.snapshots (.after scenario.s) = some world.root
  reruns : carry = true → RerunsRestored world.history
  invocation : ∀ invocation, world.running = some invocation →
      Running plan carry world.history invocation

variable {world next : World State} {invocation : Invocation}

theorem isComplete_resultOf (scenario : Scenario) (outcome : Outcome) :
    (resultOf scenario outcome).isComplete = true ↔ outcome.perRepeat ≠ [] := by
  unfold ScenarioResult.isComplete resultOf
  by_cases scored : outcome.perRepeat = []
  · simp [scored]
  · have folded : foldRepeats (outcome.perRepeat.map Subtype.val) ≠ [] := by
      apply foldRepeats_ne_nil
      rcases List.exists_mem_of_ne_nil _ scored with ⟨run, member⟩
      exact ⟨run.val, List.mem_map_of_mem member, run.property⟩
    simp only [decide_not, scored]
    simp [scored, folded, -List.map_subtype]

theorem completed_append (first second : List ScenarioResult) :
    completed (first ++ second) = completed first ++ completed second := by
  simp [completed]

theorem completed_resultOf (scenario : Scenario) (outcome : Outcome) :
    completed [resultOf scenario outcome] =
      if outcome.perRepeat ≠ [] then [scenario.s] else [] := by
  by_cases scored : outcome.perRepeat ≠ []
  · have complete := (isComplete_resultOf scenario outcome).2 scored
    rw [if_pos scored, completed, List.filter_cons_of_pos (by exact complete)]
    rfl
  · have incomplete : (resultOf scenario outcome).isComplete = false := by
      rw [Bool.eq_false_iff]
      intro complete
      exact scored ((isComplete_resultOf scenario outcome).1 complete)
    rw [if_neg scored]
    simp [completed, incomplete]

theorem Stored.perm
    {history : List (Event State)} {first second : List ScenarioResult}
    (stored : Stored plan history first) (same : second.Perm first) :
    Stored plan history second where
  planned result member := stored.planned result (same.mem_iff.1 member)
  counted := ((same.filter _).map _).trans stored.counted

theorem Stored.ordered
    {history : List (Event State)} (stored : Stored plan history results) :
    Stored plan history (ordered results) :=
  stored.perm (List.perm_insertionSort _ results)

theorem Stored.preloaded
    {history : List (Event State)} (stored : Stored plan history results) :
    Stored plan history (results.filter (·.isComplete)) where
  planned result member := stored.planned result (List.mem_filter.1 member).1
  counted := by
    have same :
        completed (results.filter (·.isComplete)) = completed results := by
      rw [completed, List.filter_filter]
      simp [completed]
    rw [same]
    exact stored.counted

/-! ## Starting -/

theorem Kept.opened_running
    (kept : Kept plan carry world)
    (running : world.running = some invocation) (carried : carry = true) :
    ∃ content, opening world.history = some content ∧
      world.snapshots .initial = some content := by
  apply kept.opened carried
  right
  rw [running]
  exact Option.some_ne_none invocation

theorem Kept.of_initial (initial : Initial world) : Kept plan carry world := by
  rcases initial with ⟨matrix, running, history⟩
  constructor
  · intro stored known
    rw [matrix] at known
    cases known
  · intro _
    rw [history]
    rfl
  · rw [history]
    exact List.nodup_nil
  · intro _ done member
    rw [history] at member
    cases member
  · rintro _ (known | known)
    · exact absurd matrix known
    · exact absurd running known
  · intro _ invocation scenario outcome known
    rw [running] at known
    cases known
  · intro _ before s restored content after split
    rw [history] at split
    simp at split
  · intro invocation known
    rw [running] at known
    cases known

theorem kept_openFresh
    (performed : openFresh plan carry world = some next) :
    Kept plan carry next := by
  unfold Matrix.openFresh at performed
  split at performed
  · next idle none =>
      cases performed
      constructor
      · intro stored known
        rw [none] at known
        cases known
      · intro _
        rfl
      · exact List.nodup_nil
      · intro _ done member
        cases member
      · intro carried _
        refine ⟨world.root, rfl, ?_⟩
        simp [carried]
      · intro _ invocation scenario outcome known phase
        cases known
        cases phase
      · intro _ before s restored content after split
        rcases before with _ | ⟨event, before⟩
        · cases split
        · have rest := (List.cons.inj split).2
          simp at rest
      · intro invocation known
        cases known
        constructor
        · constructor
          · intro result member
            cases member
          · exact List.Perm.refl _
        · intro scenario member
          exact member
        · exact plan.distinct
        · intro scenario member
          cases member
        · intro scenario _
          exact Iff.rfl
        · intro _ s
          simp [completedOrdinals, completions, checkpointed]
        · simp [current, Plan.ordinals]
  · cases performed

theorem Kept.tearInitial
    {content : Option State} (kept : Kept plan carry world)
    (performed : tearInitial content world = some next) :
    Kept plan carry next := by
  unfold Matrix.tearInitial at performed
  split at performed
  · next idle none =>
      cases performed
      refine
        { matrix := kept.matrix
          unstored := kept.unstored
          distinct := kept.distinct
          snapshots := ?_
          opened := ?_
          taken := ?_
          reruns := kept.reruns
          invocation := kept.invocation }
      · intro carried done member
        have known := kept.snapshots carried done member
        simpa using known
      · rintro _ (known | known)
        · exact absurd none known
        · exact absurd idle known
      · intro _ invocation scenario outcome known
        rw [idle] at known
        cases known
  · cases performed

theorem Kept.resume
    (kept : Kept plan carry world) (performed : resume plan world = some next) :
    Kept plan carry next := by
  unfold Matrix.resume at performed
  split at performed
  · next stored idle known =>
      split at performed
      · next merged merges =>
          cases performed
          have storedHere := kept.matrix stored known
          have parts := mergeStoredResults_partition merges
          rcases mergeStoredResults_eq_ok_iff.1 merges with ⟨_, _, rfl⟩
          refine
            { matrix := kept.matrix
              unstored := kept.unstored
              distinct := kept.distinct
              snapshots := kept.snapshots
              opened := ?_
              taken := ?_
              reruns := kept.reruns
              invocation := ?_ }
          · intro carried _
            refine kept.opened carried (Or.inl ?_)
            rw [known]
            exact Option.some_ne_none stored
          · intro _ invocation scenario outcome running phase
            cases running
            cases phase
          · intro invocation running
            cases running
            constructor
            · exact storedHere.preloaded
            · intro scenario member
              exact member
            · exact plan.distinct
            · intro scenario member
              cases member
            · intro scenario _
              exact storedHere.counted.mem_iff
            · intro _ s
              have same := @List.Perm.mem_iff _ s _ _ storedHere.counted
              simp [checkpointed, same]
            · exact parts.1
      · cases performed
  · cases performed

/-! ## Running -/

theorem Kept.snapshot_eq
    (kept : Kept plan carry world) (carried : carry = true)
    (running : world.running = some invocation)
    (idle : invocation.phase = .idle) (s : ℕ) :
    stateLabelBefore s invocation.complete =
        stateLabelBefore s (completedOrdinals world.history) ∧
      world.snapshots (stateLabelBefore s invocation.complete) =
        startState world.history s ∧
      (startState world.history s).isSome := by
  have same : latestBelow s invocation.complete =
      latestBelow s (completedOrdinals world.history) := by
    apply latestBelow_congr
    intro done
    have complete := (kept.invocation invocation running).complete carried done
    simpa [checkpointed, idle] using complete
  have found := found_latestBelow s (completedOrdinals world.history)
  unfold stateLabelBefore startState
  rw [same]
  refine ⟨rfl, ?_⟩
  cases latest : latestBelow s (completedOrdinals world.history) with
  | none =>
      rcases kept.opened_running running carried with
        ⟨content, opened, snapshot⟩
      dsimp only
      rw [opened, snapshot]
      exact ⟨rfl, rfl⟩
  | some ordinal =>
      rw [latest] at found
      rcases List.mem_map.1 found.1 with ⟨done, member, rfl⟩
      dsimp only
      cases entry : (completions world.history).find? (·.1 = done.1) with
      | none =>
          have missed := List.find?_eq_none.1 entry done member
          simp at missed
      | some other =>
          have sameOrdinal : other.1 = done.1 := by
            simpa using List.find?_some entry
          have snapshot :=
            kept.snapshots carried other (List.mem_of_find?_eq_some entry)
          rw [← sameOrdinal, snapshot]
          exact ⟨rfl, rfl⟩

theorem Running.skip
    {history : List (Event State)}
    (running : Running plan carry history invocation)
    (idle : invocation.phase = .idle)
    (todo : invocation.todo = scenario :: rest)
    (complete : scenario.s ∈ invocation.complete) :
    Running plan carry history { invocation with todo := rest } := by
  have nobody : current invocation = [] := by simp [current, idle]
  have stillNobody : current { invocation with todo := rest } = [] := nobody
  have planned := running.planned
  have distinct := running.distinct
  have covered := running.covered
  rw [todo, nobody] at planned distinct covered
  refine
    { results := running.results
      planned := ?_
      distinct := ?_
      fresh := running.fresh
      pending := ?_
      complete := running.complete
      covered := ?_ }
  · intro other member
    rw [stillNobody] at member
    apply planned
    exact List.mem_cons_of_mem _ member
  · rw [List.nil_append, List.map_cons, List.nodup_cons] at distinct
    rw [stillNobody]
    exact distinct.2
  · intro other member
    apply running.pending
    rw [todo]
    exact List.mem_cons_of_mem _ member
  · rw [stillNobody]
    simpa [complete] using covered

theorem Running.start
    {history : List (Event State)}
    (running : Running plan carry history invocation)
    (idle : invocation.phase = .idle)
    (todo : invocation.todo = scenario :: rest)
    (incomplete : scenario.s ∉ invocation.complete)
    (silent : completions [event] = []) :
    Running plan carry (history ++ [event])
      { invocation with todo := rest, phase := .running scenario } := by
  have nobody : current invocation = [] := by simp [current, idle]
  have same : completedOrdinals (history ++ [event]) =
      completedOrdinals history := by
    rw [completedOrdinals, completions_append, silent, List.append_nil]
    rfl
  have planned := running.planned
  have distinct := running.distinct
  have covered := running.covered
  have complete := running.complete
  rw [todo, nobody] at planned distinct covered
  refine
    { results := ⟨running.results.planned, ?_⟩
      planned := planned
      distinct := distinct
      fresh := ?_
      pending := ?_
      complete := ?_
      covered := ?_ }
  · rw [same]
    exact running.results.counted
  · intro other member
    cases List.mem_singleton.1 member
    rw [same, ← running.pending scenario (by rw [todo]; simp)]
    exact incomplete
  · intro other member
    rw [same]
    apply running.pending
    rw [todo]
    exact List.mem_cons_of_mem _ member
  · intro carried s
    rw [same]
    simpa [checkpointed, idle] using complete carried s
  · simpa [current, incomplete] using covered

theorem Kept.start
    (kept : Kept plan carry world) (running : world.running = some invocation)
    (idle : invocation.phase = .idle)
    (todo : invocation.todo = scenario :: rest)
    (incomplete : scenario.s ∉ invocation.complete)
    (root : State) (silent : completions [event] = [])
    (last :
      carry = true → ∀ s label content, event = .started s true label content →
        label = some (stateLabelBefore s (completedOrdinals world.history)) ∧
          startState world.history s = some content) :
    Kept plan carry { world with
        root := root
        running :=
          some { invocation with todo := rest, phase := .running scenario }
        history := world.history ++ [event] } := by
  have same : completedOrdinals (world.history ++ [event]) =
      completedOrdinals world.history := by
    rw [completedOrdinals, completions_append, silent, List.append_nil]
    rfl
  refine
    { matrix := ?_
      unstored := ?_
      distinct := ?_
      snapshots := ?_
      opened := ?_
      taken := ?_
      reruns := ?_
      invocation := ?_ }
  · intro stored found
    have before := kept.matrix stored found
    refine ⟨before.planned, ?_⟩
    dsimp only
    rw [same]
    exact before.counted
  · intro none
    dsimp only
    rw [same]
    exact kept.unstored none
  · dsimp only
    rw [same]
    exact kept.distinct
  · intro carried done member
    dsimp only at member
    rw [completions_append, silent, List.append_nil] at member
    exact kept.snapshots carried done member
  · intro carried _
    rcases kept.opened_running running carried with
      ⟨first, opened, initial⟩
    exact ⟨first, opening_append opened, initial⟩
  · intro _ other scenario outcome now phase
    cases now
    cases phase
  · intro carried
    exact (kept.reruns carried).append (last carried)
  · intro other now
    cases now
    exact (kept.invocation invocation running).start idle todo incomplete silent

theorem Kept.startNext
    (kept : Kept plan carry world) (running : world.running = some invocation)
    (idle : invocation.phase = .idle)
    (todo : invocation.todo = scenario :: rest) :
    Kept plan carry (startNext carry world invocation scenario rest) := by
  unfold Matrix.startNext
  split
  · next complete =>
      refine
        { matrix := kept.matrix
          unstored := kept.unstored
          distinct := kept.distinct
          snapshots := kept.snapshots
          opened := fun carried _ => kept.opened_running running carried
          taken := ?_
          reruns := kept.reruns
          invocation := ?_ }
      · intro _ other scenario outcome known phase
        cases known
        rw [idle] at phase
        cases phase
      · intro other known
        cases known
        exact (kept.invocation invocation running).skip idle todo complete
  · next incomplete =>
      split
      · next restores =>
          rw [Bool.and_eq_true] at restores
          have snapshot := kept.snapshot_eq restores.1 running idle scenario.s
          split
          · next missing =>
              rw [← snapshot.2.1, missing] at snapshot
              cases snapshot.2.2
          · next content known =>
              apply kept.start running idle todo incomplete content rfl
              intro carried s label other event
              cases event
              refine ⟨congrArg some snapshot.1, ?_⟩
              rw [← snapshot.2.1, known]
      · next unrestored =>
          apply kept.start running idle todo incomplete world.root rfl
          intro carried s label other event
          rw [Event.started.injEq] at event
          rw [carried, event.2.1] at unrestored
          simp at unrestored

/-! ## Finishing -/

/-- What comes next for the scenario at hand leaves the rest as it is. -/
theorem Running.rephase
    {history : List (Event State)} {phase : Phase}
    (running : Running plan carry history invocation)
    (same : current { invocation with phase } = current invocation)
    (complete : carry = true →
      checkpointed { invocation with phase } = checkpointed invocation) :
    Running plan carry history { invocation with phase } := by
  refine
    { results := running.results
      planned := ?_
      distinct := ?_
      fresh := ?_
      pending := running.pending
      complete := ?_
      covered := ?_ }
  · rw [same]
    exact running.planned
  · rw [same]
    exact running.distinct
  · rw [same]
    exact running.fresh
  · intro carried
    rw [complete carried]
    exact running.complete carried
  · rw [same]
    exact running.covered

theorem Running.at_scenario
    {history : List (Event State)}
    (running : Running plan carry history invocation)
    (same : current invocation = [scenario]) :
    scenario ∈ plan.scenarios ∧ scenario.s ∉ completedOrdinals history ∧
      (invocation.todo.map (·.s)).Nodup ∧
        ∀ other ∈ invocation.todo, other.s ≠ scenario.s := by
  have planned := running.planned
  have distinct := running.distinct
  have fresh := running.fresh
  rw [same] at planned distinct fresh
  rw [List.singleton_append, List.map_cons, List.nodup_cons] at distinct
  refine ⟨planned scenario (by simp), fresh scenario (by simp), distinct.2, ?_⟩
  intro other member equal
  exact distinct.1 (equal ▸ List.mem_map_of_mem (f := (·.s)) member)

theorem Kept.endRun
    (kept : Kept plan carry world) (running : world.running = some invocation)
    (phase : invocation.phase = .running scenario)
    (after : State) (base : Option State) :
    Kept plan carry (endRun outcome after base world invocation scenario) := by
  refine
    { matrix := kept.matrix
      unstored := kept.unstored
      distinct := kept.distinct
      snapshots := ?_
      opened := ?_
      taken := ?_
      reruns := kept.reruns
      invocation := ?_ }
  · intro carried done member
    simpa [Matrix.endRun] using kept.snapshots carried done member
  · intro carried _
    rcases kept.opened_running running carried with
      ⟨content, opened, initial⟩
    refine ⟨content, opened, ?_⟩
    simpa [Matrix.endRun] using initial
  · intro _ other later outcome now recording
    cases now
    cases recording
  · intro other now
    cases now
    have here := kept.invocation invocation running
    exact here.rephase (by simp [current, phase])
      (by simp [checkpointed, phase])

theorem Kept.takeCheckpoint
    (kept : Kept plan carry world) (running : world.running = some invocation)
    (phase : invocation.phase = .finished scenario outcome) :
    Kept plan carry
      (takeCheckpoint carry world invocation scenario outcome) := by
  have here := kept.invocation invocation running
  have same : current invocation = [scenario] := by simp [current, phase]
  rcases here.at_scenario same with ⟨_, unfinished, _, others⟩
  unfold Matrix.takeCheckpoint
  split
  · next scored =>
      rw [Bool.and_eq_true, decide_eq_true_eq] at scored
      refine
        { matrix := kept.matrix
          unstored := kept.unstored
          distinct := kept.distinct
          snapshots := ?_
          opened := ?_
          taken := ?_
          reruns := kept.reruns
          invocation := ?_ }
      · intro carried done member
        have different : done.1 ≠ scenario.s := by
          intro equal
          exact unfinished (equal ▸ List.mem_map_of_mem (f := Prod.fst) member)
        have known := kept.snapshots carried done member
        simpa [Function.update, different] using known
      · intro carried _
        rcases kept.opened_running running carried with
          ⟨content, opened, initial⟩
        refine ⟨content, opened, ?_⟩
        simpa using initial
      · intro _ other later result now recording _
        cases now
        cases recording
        simp
      · intro other now
        cases now
        have planned := here.planned
        have distinct := here.distinct
        have fresh := here.fresh
        have covered := here.covered
        rw [same] at planned distinct fresh covered
        refine
          { results := here.results
            planned := planned
            distinct := distinct
            fresh := fresh
            pending := ?_
            complete := ?_
            covered := ?_ }
        · intro other member
          rw [← here.pending other member, List.mem_append, List.mem_singleton]
          simp [others other member]
        · intro carried s
          have known := here.complete carried s
          simp only [checkpointed, phase, List.not_mem_nil, or_false] at known
          simp [checkpointed, scored.2, known]
        · have unchanged : (invocation.todo.filter fun other =>
                  other.s ∉ invocation.complete ++ [scenario.s]) =
                invocation.todo.filter fun other =>
                  other.s ∉ invocation.complete := by
            apply List.filter_congr
            intro other member
            simp [others other member]
          dsimp only [current]
          rw [unchanged]
          exact covered
  · next unscored =>
      refine
        { matrix := kept.matrix
          unstored := kept.unstored
          distinct := kept.distinct
          snapshots := kept.snapshots
          opened := fun carried _ => kept.opened_running running carried
          taken := ?_
          reruns := kept.reruns
          invocation := ?_ }
      · intro carried other later result now recording scored
        cases now
        cases recording
        simp [carried, scored] at unscored
      · intro other now
        cases now
        refine here.rephase (by rw [same]; rfl) ?_
        intro carried
        have nobody : outcome.perRepeat = [] := by
          simpa [carried] using unscored
        simp [checkpointed, nobody, phase]

theorem completedOrdinals_record
    (history : List (Event State)) (scenario : Scenario) (outcome : Outcome)
    (content : State) :
    completedOrdinals (history ++ if outcome.perRepeat ≠ [] then
            [.completed scenario.s content]
          else
            []) =
      completedOrdinals history ++ completed [resultOf scenario outcome] := by
  rw [completedOrdinals_append, completed_resultOf]
  split <;> rfl

theorem RerunsRestored.record
    {history : List (Event State)} (restored : RerunsRestored history)
    (scenario : Scenario) (outcome : Outcome) (content : State) :
    RerunsRestored (history ++ if outcome.perRepeat ≠ [] then
          [.completed scenario.s content]
        else
          []) := by
  split
  · apply restored.append
    intro s label other event
    cases event
  · rw [List.append_nil]
    exact restored

theorem Stored.record
    {history : List (Event State)} (stored : Stored plan history results)
    (listed : scenario ∈ plan.scenarios) (outcome : Outcome) (content : State) :
    Stored plan (history ++ if outcome.perRepeat ≠ [] then
          [.completed scenario.s content]
        else
          [])
      (results ++ [resultOf scenario outcome]) where
  planned result member := by
    rcases List.mem_append.1 member with member | member
    · exact stored.planned result member
    · cases List.mem_singleton.1 member
      exact ⟨scenario, byOrdinal_of_mem plan.distinct listed, rfl, rfl⟩
  counted := by
    rw [completed_append, completedOrdinals_record]
    exact stored.counted.append_right _

theorem Kept.storeResult
    (kept : Kept plan carry world) (running : world.running = some invocation)
    (phase : invocation.phase = .recording scenario outcome) :
    Kept plan carry (storeResult world invocation scenario outcome) := by
  have here := kept.invocation invocation running
  have same : current invocation = [scenario] := by simp [current, phase]
  rcases here.at_scenario same with ⟨listed, unfinished, distinct, others⟩
  have planned := here.planned
  have covered := here.covered
  rw [same] at planned covered
  have stored := here.results.record listed outcome world.root
  have recorded :=
    completedOrdinals_record world.history scenario outcome world.root
  rw [completed_resultOf] at recorded
  unfold Matrix.storeResult
  refine
    { matrix := ?_
      unstored := ?_
      distinct := ?_
      snapshots := ?_
      opened := ?_
      taken := ?_
      reruns := fun carried => (kept.reruns carried).record _ _ _
      invocation := ?_ }
  · intro results known
    cases known
    exact stored.ordered
  · intro none
    cases none
  · dsimp only
    rw [recorded, List.nodup_append]
    refine ⟨kept.distinct, by split <;> simp, ?_⟩
    intro s member other added equal
    split at added
    · rw [List.mem_singleton] at added
      exact unfinished (added ▸ equal ▸ member)
    · cases added
  · intro carried done member
    dsimp only at member
    rw [completions_append, List.mem_append] at member
    rcases member with member | member
    · exact kept.snapshots carried done member
    · split at member
      · next scored =>
          cases List.mem_singleton.1 member
          exact kept.taken carried invocation scenario outcome running phase
            scored
      · cases member
  · intro carried _
    rcases kept.opened_running running carried with
      ⟨content, opened, initial⟩
    exact ⟨content, opening_append opened, initial⟩
  · intro _ other later result now recording
    cases now
    cases recording
  · intro other now
    cases now
    refine
      { results := stored
        planned := ?_
        distinct := ?_
        fresh := ?_
        pending := ?_
        complete := ?_
        covered := ?_ }
    · intro other member
      exact planned other (List.mem_cons_of_mem _ member)
    · exact distinct
    · intro other member
      cases member
    · intro other member
      rw [recorded, List.mem_append, ← here.pending other member]
      split <;> simp [others other member]
    · intro carried s
      rw [recorded, List.mem_append, here.complete carried s]
      simp [checkpointed, phase]
    · simpa [current, resultOf] using covered

/-! ## Ending -/

theorem Kept.finish
    (kept : Kept plan carry world) (running : world.running = some invocation) :
    Kept plan carry { world with
        matrix := some (ordered invocation.results)
        running := none } := by
  refine
    { matrix := ?_
      unstored := ?_
      distinct := kept.distinct
      snapshots := kept.snapshots
      opened := fun carried _ => kept.opened_running running carried
      taken := ?_
      reruns := kept.reruns
      invocation := ?_ }
  · intro results known
    cases known
    exact (kept.invocation invocation running).results.ordered
  · intro none
    cases none
  · intro _ other scenario outcome known
    cases known
  · intro other known
    cases known

theorem tornSnapshots_of_ne
    {label : StateLabel} (torn : Option State)
    (bases : ∀ s, label ≠ .repeatBase s)
    (unfinished : ∀ scenario ∈ current invocation, label ≠ .after scenario.s) :
    tornSnapshots torn world invocation label = world.snapshots label := by
  unfold tornSnapshots
  cases phase : invocation.phase with
  | idle => rfl
  | running scenario =>
      dsimp only
      rw [Function.update_of_ne (bases scenario.s)]
  | finished scenario outcome =>
      dsimp only
      rw [Function.update_of_ne]
      exact unfinished scenario (by simp [current, phase])
  | recording scenario outcome => rfl

theorem Kept.interrupt
    (kept : Kept plan carry world) (running : world.running = some invocation)
    (after : State) (torn : Option State) :
    Kept plan carry { world with
        root := after
        snapshots := tornSnapshots torn world invocation
        running := none } := by
  refine
    { matrix := kept.matrix
      unstored := kept.unstored
      distinct := kept.distinct
      snapshots := ?_
      opened := ?_
      taken := ?_
      reruns := kept.reruns
      invocation := ?_ }
  · intro carried done member
    dsimp only
    rw [tornSnapshots_of_ne torn (by simp)]
    · exact kept.snapshots carried done member
    · intro scenario listed equal
      apply (kept.invocation invocation running).fresh scenario listed
      rw [← StateLabel.after.inj equal]
      exact List.mem_map_of_mem (f := Prod.fst) member
  · intro carried _
    rcases kept.opened_running running carried with
      ⟨content, opened, initial⟩
    refine ⟨content, opened, ?_⟩
    dsimp only
    rw [tornSnapshots_of_ne torn (by simp) (by simp)]
    exact initial
  · intro _ other scenario outcome known
    cases known
  · intro other known
    cases known

theorem Kept.step
    {label : Label State} (kept : Kept plan carry world)
    (performed : perform plan carry world label = some next) :
    Kept plan carry next := by
  cases label with
  | openFresh => exact kept_openFresh performed
  | tearInitial content => exact kept.tearInitial performed
  | resume => exact kept.resume performed
  | next =>
      simp only [perform] at performed
      split at performed
      · next running =>
          cases performed
          exact kept.startNext running rfl rfl
      · cases performed
  | runEnds outcome after base =>
      simp only [perform] at performed
      split at performed
      · next running =>
          cases performed
          exact kept.endRun running rfl after base
      · cases performed
  | checkpoint =>
      simp only [perform] at performed
      split at performed
      · next running =>
          cases performed
          exact kept.takeCheckpoint running rfl
      · cases performed
  | record =>
      simp only [perform] at performed
      split at performed
      · next running =>
          cases performed
          exact kept.storeResult running rfl
      · cases performed
  | finish =>
      simp only [perform] at performed
      split at performed
      · next running =>
          cases performed
          exact kept.finish running
      · cases performed
  | interrupt after torn =>
      rcases Option.map_eq_some_iff.1 performed with
        ⟨invocation, running, rfl⟩
      exact kept.interrupt running after torn

theorem kept_of_reachable
    (reachable : (matrices plan carry).Reachable System.anything world) :
    Kept plan carry world :=
  reachable.invariant (fun _ => Kept.of_initial)
    fun _ _ _ kept _ performed => kept.step performed

/-- Resuming takes up exactly the ordinals which have not completed. -/
structure ResumesFrom
    (plan : Plan) (history : List (Event State))
    (stored : List ScenarioResult) (resumed : ResumePlan) :
    Prop where
  merged : mergeStoredResults plan.scenarios stored = .ok resumed
  once : (resumed.complete ++ resumed.rerun).Perm plan.ordinals
  disjoint : (resumed.complete ++ resumed.rerun).Nodup
  completed : resumed.complete.Perm (completedOrdinals history)

theorem Stored.resumesFrom
    {history : List (Event State)} {stored : List ScenarioResult}
    (known : Stored plan history stored)
    (distinct : (completedOrdinals history).Nodup) :
    ∃ resumed, ResumesFrom plan history stored resumed := by
  have merges := mergeStoredResults_eq_ok_iff.2
      ⟨known.planned, known.counted.nodup_iff.2 distinct, rfl⟩
  have parts := mergeStoredResults_partition merges
  exact ⟨_, merges, parts.1, parts.2, known.counted⟩

/-- What holds of a plan's matrix, however its invocations ended. -/
structure MatrixLaws
    (plan : Plan) (carry : Bool) (world : World State) :
    Prop where
  partition : ∀ stored resumed,
      mergeStoredResults plan.scenarios stored = .ok resumed →
        (resumed.complete ++ resumed.rerun).Perm plan.ordinals ∧
          (resumed.complete ++ resumed.rerun).Nodup
  resumes : ∀ stored, world.matrix = some stored →
      ∃ resumed, ResumesFrom plan world.history stored resumed
  completedOnce : (completedOrdinals world.history).Nodup
  allRun : ∀ invocation, world.running = some invocation →
      invocation.phase = .idle → invocation.todo = [] →
        (invocation.results.map (·.s)).Perm plan.ordinals
  latest : ∀ s complete, Found s complete (latestBelow s complete) ∧
      stateLabelBefore s complete =
        (latestBelow s complete).elim .initial .after
  restorable : carry = true → ∀ invocation, world.running = some invocation →
      invocation.phase = .idle → ∀ s,
        (world.snapshots (stateLabelBefore s invocation.complete)).isSome
  restored : carry = true → RerunsRestored world.history

/-- Interrupted and resumed anyhow, a matrix completes each ordinal once. -/
theorem matrixLaws_of_reachable
    (reachable : (matrices plan carry).Reachable System.anything world) :
    MatrixLaws plan carry world := by
  have kept := kept_of_reachable reachable
  constructor
  · intro stored resumed merges
    exact mergeStoredResults_partition merges
  · intro stored known
    exact (kept.matrix stored known).resumesFrom kept.distinct
  · exact kept.distinct
  · intro invocation running idle done
    have covered := (kept.invocation invocation running).covered
    simpa [current, idle, done] using covered
  · intro s complete
    refine ⟨found_latestBelow s complete, ?_⟩
    unfold stateLabelBefore
    cases latestBelow s complete with
    | none => rfl
    | some latest => rfl
  · intro carried invocation running idle s
    have snapshot := kept.snapshot_eq carried running idle s
    rw [snapshot.2.1]
    exact snapshot.2.2
  · exact kept.reruns

def performAll
    (plan : Plan) (carry : Bool) (labels : List (Label State))
    (world : World State) :
    Option (World State) :=
  script (fun world label =>
      (perform plan carry world label).map fun next => (label, next))
    System.anything labels world

theorem reachable_performAll
    {start : World State} {labels : List (Label State)}
    (initial : Initial start)
    (performed : performAll plan carry labels start = some world) :
    (matrices plan carry).Reachable System.anything world := by
  refine ⟨start, initial, ?_⟩
  refine
    @script_runs (World State) (Label State) (Label State) _ System.anything _
      (matrices plan carry) (fun _ => True) System.anything ?_ labels start
      world ?_ performed
  · intro state label done _ ran
    rcases Option.map_eq_some_iff.1 ran with ⟨next, step, rfl⟩
    exact ⟨step, trivial⟩
  · intro _ _
    trivial

def calmThenStormy : Plan where
  scenarios := [⟨1, "calm", 7, none⟩, ⟨2, "stormy", 8, none⟩]
  distinct := by decide

/-- One agent which ended where it began. -/
def evenScore : AgentScore :=
  { id := "alice", pnlUsdc := some 0, pnlSource := none, v0Source := none
    netPnlUsdc := none, alphaUsdc := none, initialValueUsdc := none
    finalValueUsdc := none, baseline := none, participant := none
    flags := [] }

/-- The first scenario scores, the second one fails. -/
def interruptedRun : List (Label ℕ) :=
  [ .openFresh, .next,
    .runEnds ⟨[⟨[evenScore], List.cons_ne_nil _ _⟩], none, [], 0⟩ 5 none,
    .checkpoint, .record, .next,
    .runEnds ⟨[], some "the node died", [], 0⟩ 9 (some 6), .checkpoint,
    .record, .interrupt 10 none, .resume, .next, .next ]

/-- The second scenario runs again from what the first one ended with. -/
theorem matrixLaws_interruptedRun :
    ∃ world : World ℕ, performAll calmThenStormy true interruptedRun
          ⟨none, 0, fun _ => none, none, []⟩ =
        some world ∧
        world.root = 5 ∧ MatrixLaws calmThenStormy true world := by
  have ended : (performAll calmThenStormy true interruptedRun
        ⟨none, 0, fun _ => none, none, []⟩).map (·.root) =
      some 5 := by
    decide
  rcases Option.map_eq_some_iff.1 ended with ⟨world, ran, root⟩
  have reachable := reachable_performAll ⟨rfl, rfl, rfl⟩ ran
  exact ⟨world, ran, root, matrixLaws_of_reachable reachable⟩

end Eris.Backtest.MatrixRuns
