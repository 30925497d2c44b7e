import Eris.Backtest.ScenarioScores

/-!
# Resuming a matrix of scenarios

`core/src/backtest/resume.ts`.  The results stored by earlier invocations are
merged into the plan: those with agents are complete and kept, the others run
again.  A scenario which runs again starts from the state which the latest
complete ordinal below it ended with.
-/

namespace Eris.Backtest.Resume

open ScenarioScores

/-- A scenario of a plan, under its scheduled ordinal. -/
structure Scenario where
  s : ℕ
  regime : String
  seed : ℤ
  startsAt : Option String
  deriving DecidableEq

/-- The scenarios of a set; no two have the same ordinal. -/
structure Plan where
  scenarios : List Scenario
  distinct : (scenarios.map (·.s)).Nodup

/-- The ordinals of a plan, in its order. -/
def Plan.ordinals (plan : Plan) : List ℕ := plan.scenarios.map (·.s)

/-- What is stored of a scenario which ran. -/
structure ScenarioResult where
  s : ℕ
  regime : String
  seed : ℤ
  agents : Option (List AgentScore)
  runDir : Option String
  error : Option String
  startsAt : Option String
  flags : List String
  deriving DecidableEq

/-- The epoch is complete: somebody has a score in it. -/
def ScenarioResult.isComplete (result : ScenarioResult) : Bool :=
  result.agents.getD [] ≠ []

/-- The ordinals of the complete results. -/
def completed (results : List ScenarioResult) : List ℕ :=
  (results.filter (·.isComplete)).map (·.s)

/-- Results kept as they are, their ordinals, and the ordinals to run. -/
structure ResumePlan where
  preloaded : List ScenarioResult
  complete : List ℕ
  rerun : List ℕ
  deriving DecidableEq

/-- The scenario which a plan has at an ordinal. -/
def byOrdinal (plan : List Scenario) (s : ℕ) : Option Scenario :=
  plan.reverse.find? (·.s = s)

def scenarioText (regime : String) (seed : ℤ) : String :=
  regime ++ "#" ++ toString seed

def mergeStored
    (plan : List Scenario)
    (merged : List ScenarioResult × List ℕ) (r : ScenarioResult) :
    Except String (List ScenarioResult × List ℕ) :=
  match byOrdinal plan r.s with
  | none =>
      .error <|
        "--resume: stored s=" ++ toString r.s ++ " (" ++
          scenarioText r.regime r.seed ++
          ") is not in the current plan; the scenario set changed under " ++
          "the same path"
  | some planned =>
      if planned.regime ≠ r.regime ∨ planned.seed ≠ r.seed then
        .error <|
          "--resume: stored s=" ++ toString r.s ++ " is " ++
            scenarioText r.regime r.seed ++ " but the plan says " ++
            scenarioText planned.regime planned.seed ++
            "; the scenario set changed under the same path"
      else if r.isComplete then
        if r.s ∈ merged.2 then
          .error <|
            "--resume: stored matrix has s=" ++ toString r.s ++ " twice"
        else
          .ok (merged.1 ++ [r], merged.2 ++ [r.s])
      else
        .ok merged

/-- Merge the stored results into the plan. -/
def mergeStoredResults
    (plan : List Scenario) (stored : List ScenarioResult) :
    Except String ResumePlan :=
  (stored.foldlM (mergeStored plan) ([], [])).map fun merged =>
    { preloaded := merged.1
      complete := merged.2
      rerun := (plan.filter fun p => p.s ∉ merged.2).map (·.s) }

/-- The result is of the scenario which the plan has at its ordinal. -/
def Planned (plan : List Scenario) (result : ScenarioResult) : Prop :=
  ∃ planned, byOrdinal plan result.s = some planned ∧
    planned.regime = result.regime ∧ planned.seed = result.seed

variable {plan : List Scenario} {stored : List ScenarioResult}
    {merged : List ScenarioResult × List ℕ} {result : ScenarioResult}

theorem mergeStored_eq_ok
    {next : List ScenarioResult × List ℕ}
    (merges : mergeStored plan merged result = .ok next) :
    Planned plan result ∧ ((result.isComplete = true ∧ result.s ∉ merged.2 ∧
          next = (merged.1 ++ [result], merged.2 ++ [result.s])) ∨
        (result.isComplete = false ∧ next = merged)) := by
  unfold mergeStored at merges
  split at merges
  · cases merges
  · next planned found =>
      split_ifs at merges with differs complete twice
      · rw [not_or, not_not, not_not] at differs
        cases merges
        exact ⟨⟨planned, found, differs⟩, Or.inl ⟨complete, twice, rfl⟩⟩
      · rw [not_or, not_not, not_not] at differs
        cases merges
        exact ⟨⟨planned, found, differs⟩,
          Or.inr ⟨Bool.eq_false_iff.2 complete, rfl⟩⟩

theorem mergeStored_of_planned
    (planned : Planned plan result)
    (fresh : result.isComplete = true → result.s ∉ merged.2) :
    mergeStored plan merged result = .ok (if result.isComplete then
          (merged.1 ++ [result], merged.2 ++ [result.s])
        else
          merged) := by
  rcases planned with ⟨planned, found, regime, seed⟩
  have same : ¬ (planned.regime ≠ result.regime ∨
      planned.seed ≠ result.seed) := by
    rw [not_or, not_not, not_not]
    exact ⟨regime, seed⟩
  simp only [mergeStored, found, if_neg same]
  cases complete : result.isComplete with
  | true =>
      rw [if_pos rfl, if_neg (fresh complete), if_pos rfl]
  | false => rfl

theorem foldlM_mergeStored
    {next : List ScenarioResult × List ℕ}
    (merges : stored.foldlM (mergeStored plan) merged = .ok next) :
    (∀ result ∈ stored, Planned plan result) ∧
      next.1 = merged.1 ++ stored.filter (·.isComplete) ∧
        next.2 = merged.2 ++ completed stored ∧
          (merged.2.Nodup → next.2.Nodup) := by
  induction stored generalizing merged with
  | nil =>
      cases merges
      refine ⟨?_, by simp, by simp [completed], id⟩
      intro result member
      cases member
  | cons result stored ih =>
      rw [List.foldlM_cons] at merges
      rcases step : mergeStored plan merged result with failure | middle
      · rw [step] at merges
        cases merges
      · rw [step] at merges
        rcases ih merges with
          ⟨planned, kept, ordinals, distinct⟩
        rcases mergeStored_eq_ok step with
          ⟨here, ⟨complete, fresh, rfl⟩ | ⟨incomplete, rfl⟩⟩
        · refine ⟨List.forall_mem_cons.2 ⟨here, planned⟩, ?_, ?_, ?_⟩
          · rw [kept]
            simp [complete]
          · rw [ordinals]
            simp [completed, complete]
          · intro nodup
            apply distinct
            rw [List.nodup_append]
            refine ⟨nodup, List.nodup_singleton _, ?_⟩
            intro s member other added same
            rw [List.mem_singleton] at added
            exact fresh (added ▸ same ▸ member)
        · refine ⟨List.forall_mem_cons.2 ⟨here, planned⟩, ?_, ?_, distinct⟩
          · rw [kept]
            simp [incomplete]
          · rw [ordinals]
            simp [completed, incomplete]

theorem foldlM_mergeStored_of_planned
    (planned : ∀ result ∈ stored, Planned plan result)
    (distinct : (merged.2 ++ completed stored).Nodup) :
    stored.foldlM (mergeStored plan) merged = .ok
        (merged.1 ++ stored.filter (·.isComplete),
          merged.2 ++ completed stored) := by
  induction stored generalizing merged with
  | nil => simp [completed, pure, Except.pure]
  | cons result stored ih =>
      rw [List.forall_mem_cons] at planned
      have fresh : result.isComplete = true → result.s ∉ merged.2 := by
        intro complete member
        have clash := (List.nodup_append.1 distinct).2.2 _ member result.s
        simp [completed, complete] at clash
      rw [List.foldlM_cons, mergeStored_of_planned planned.1 fresh]
      cases complete : result.isComplete with
      | true =>
          have rest := @ih
              (merged.1 ++ [result], merged.2 ++ [result.s]) planned.2
          simp only [completed, complete, List.filter_cons_of_pos,
            List.map_cons, List.append_assoc, List.singleton_append]
            at rest distinct ⊢
          exact rest distinct
      | false =>
          have rest := @ih merged planned.2
          simp only [completed, complete, Bool.false_eq_true,
            not_false_eq_true, List.filter_cons_of_neg] at rest distinct ⊢
          exact rest distinct

theorem mergeStoredResults_eq_ok_iff {resumed : ResumePlan} :
    mergeStoredResults plan stored = .ok resumed ↔
      (∀ result ∈ stored, Planned plan result) ∧ (completed stored).Nodup ∧
          resumed =
            { preloaded := stored.filter (·.isComplete)
              complete := completed stored
              rerun :=
                (plan.filter fun p => p.s ∉ completed stored).map (·.s) } := by
  unfold mergeStoredResults
  constructor
  · intro merges
    rcases folded : stored.foldlM (mergeStored plan) ([], []) with
      failure | next
    · rw [folded] at merges
      cases merges
    · rw [folded] at merges
      rcases foldlM_mergeStored folded with
        ⟨planned, kept, ordinals, distinct⟩
      rw [List.nil_append] at kept ordinals
      cases merges
      refine ⟨planned, ?_, ?_⟩
      · rw [← ordinals]
        exact distinct List.nodup_nil
      · rw [← kept, ← ordinals]
  · rintro ⟨planned, distinct, rfl⟩
    rw [foldlM_mergeStored_of_planned planned (by simpa using distinct)]
    rfl

theorem byOrdinal_mem
    {s : ℕ} {planned : Scenario} (found : byOrdinal plan s = some planned) :
    planned ∈ plan ∧ planned.s = s := by
  constructor
  · exact List.mem_reverse.1 (List.mem_of_find?_eq_some found)
  · simpa using List.find?_some found

theorem byOrdinal_of_mem
    (distinct : (plan.map (·.s)).Nodup)
    {planned : Scenario} (listed : planned ∈ plan) :
    byOrdinal plan planned.s = some planned := by
  cases found : byOrdinal plan planned.s with
  | none =>
      have missed :=
        List.find?_eq_none.1 found planned (List.mem_reverse.2 listed)
      simp at missed
  | some other =>
      rcases byOrdinal_mem found with ⟨member, same⟩
      rw [List.inj_on_of_nodup_map distinct member listed same]

theorem completed_subset
    (planned : ∀ result ∈ stored, Planned plan result)
    {s : ℕ} (member : s ∈ completed stored) :
    s ∈ plan.map (·.s) := by
  rcases List.mem_map.1 member with ⟨result, listed, rfl⟩
  rcases planned result (List.mem_filter.1 listed).1 with
    ⟨scenario, found, -⟩
  rcases byOrdinal_mem found with ⟨within, same⟩
  exact List.mem_map.2 ⟨scenario, within, same⟩

theorem mergeStoredResults_partition
    {plan : Plan} {resumed : ResumePlan}
    (merges : mergeStoredResults plan.scenarios stored = .ok resumed) :
    (resumed.complete ++ resumed.rerun).Perm plan.ordinals ∧
      (resumed.complete ++ resumed.rerun).Nodup := by
  rcases mergeStoredResults_eq_ok_iff.1 merges with
    ⟨planned, distinct, rfl⟩
  have rerun :
      ((plan.scenarios.filter fun p => p.s ∉ completed stored).map (·.s)) =
        plan.ordinals.filter fun s => s ∉ completed stored := by
    rw [Plan.ordinals, List.filter_map]
    rfl
  have kept : (completed stored).Perm
      (plan.ordinals.filter fun s => s ∈ completed stored) := by
    have within : (plan.ordinals.filter fun s => s ∈ completed stored).Nodup :=
      plan.distinct.filter _
    rw [List.perm_ext_iff_of_nodup distinct within]
    intro s
    simp only [List.mem_filter, decide_eq_true_eq]
    constructor
    · intro member
      exact ⟨completed_subset planned member, member⟩
    · exact And.right
  have whole : (completed stored ++
        plan.ordinals.filter fun s => s ∉ completed stored).Perm
      plan.ordinals := by
    refine (kept.append_right _).trans ?_
    have split :=
      List.filter_append_perm (fun s => decide (s ∈ completed stored))
        plan.ordinals
    simpa using split
  simp only [rerun]
  exact ⟨whole, whole.nodup_iff.2 plan.distinct⟩

/-- What the state root is snapshotted under. -/
inductive StateLabel where
  | initial
  | after (s : ℕ)
  | repeatBase (s : ℕ)
  deriving DecidableEq

def StateLabel.text : StateLabel → String
  | .initial => "initial"
  | .after s => "end-s" ++ toString s
  | .repeatBase s => "repeat-base-s" ++ toString s

/-- Take an ordinal below `s` which is later than the latest one so far. -/
def later (s : ℕ) (latest : Option ℕ) (done : ℕ) : Option ℕ :=
  if done < s ∧ (∀ found ∈ latest, done > found) then some done else latest

/-- The latest complete ordinal below `s`. -/
def latestBelow (s : ℕ) (complete : List ℕ) : Option ℕ :=
  complete.foldl (later s) none

/-- The label which ordinal `s` has to start from. -/
def stateLabelBefore (s : ℕ) (complete : List ℕ) : StateLabel :=
  match latestBelow s complete with
  | none => .initial
  | some latest => .after latest

/-- An ordinal is the latest one below `s` among some. -/
def Latest (s : ℕ) (complete : List ℕ) (latest : ℕ) : Prop :=
  latest ∈ complete ∧ latest < s ∧ ∀ done ∈ complete, done < s → done ≤ latest

/-- The result of a search: the latest one below `s`, or nothing is. -/
def Found (s : ℕ) (complete : List ℕ) (latest : Option ℕ) : Prop :=
  match latest with
  | none => ∀ done ∈ complete, s ≤ done
  | some latest => Latest s complete latest

theorem Found.later
    {s : ℕ} {complete : List ℕ} {latest : Option ℕ} (done : ℕ)
    (found : Found s complete latest) :
    Found s (complete ++ [done]) (later s latest done) := by
  unfold Resume.later
  split
  · next below =>
      refine ⟨by simp, below.1, ?_⟩
      intro other member small
      rcases List.mem_append.1 member with member | member
      · cases latest with
        | none => exact absurd small (not_lt.2 (found other member))
        | some latest =>
            have upper := found.2.2 other member small
            have past := below.2 latest rfl
            omega
      · rw [List.mem_singleton.1 member]
  · next unsuited =>
      cases latest with
      | none =>
          intro other member
          rcases List.mem_append.1 member with member | member
          · exact found other member
          · rw [List.mem_singleton.1 member]
            simpa using unsuited
      | some latest =>
          refine ⟨List.mem_append_left _ found.1, found.2.1, ?_⟩
          intro other member small
          rcases List.mem_append.1 member with member | member
          · exact found.2.2 other member small
          · rw [List.mem_singleton.1 member] at small ⊢
            by_contra past
            apply unsuited
            refine ⟨small, ?_⟩
            intro found known
            cases Option.mem_some_iff.1 known
            omega

theorem found_latestBelow (s : ℕ) (complete : List ℕ) :
    Found s complete (latestBelow s complete) := by
  induction complete using List.reverseRecOn with
  | nil =>
      intro done member
      cases member
  | append_singleton complete done ih =>
      rw [latestBelow, List.foldl_append]
      exact ih.later done

theorem latestBelow_congr
    {s : ℕ} {first second : List ℕ}
    (same : ∀ done, done ∈ first ↔ done ∈ second) :
    latestBelow s first = latestBelow s second := by
  have one := found_latestBelow s first
  have other := found_latestBelow s second
  cases left : latestBelow s first with
  | none =>
      rw [left] at one
      cases right : latestBelow s second with
      | none => rfl
      | some latest =>
          rw [right] at other
          have upper := one latest ((same latest).2 other.1)
          exact absurd other.2.1 (not_lt.2 upper)
  | some latest =>
      rw [left] at one
      cases right : latestBelow s second with
      | none =>
          rw [right] at other
          have upper := other latest ((same latest).1 one.1)
          exact absurd one.2.1 (not_lt.2 upper)
      | some found =>
          rw [right] at other
          have upper := one.2.2 found ((same found).2 other.1) other.2.1
          have lower := other.2.2 latest ((same latest).1 one.1) one.2.1
          rw [le_antisymm lower upper]

end Eris.Backtest.Resume
