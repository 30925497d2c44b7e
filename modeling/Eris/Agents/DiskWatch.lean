import Eris.Foundation.Sweeping

/-!
# The disk watch of the agents

`core/src/realtime/agentDisk.ts`: `diskVerdict` and `AgentDiskWatch`.  A tick
measures what fits in its budget, and the next tick resumes where it stopped;
an agent stopped for its quota stays in the rotation, and is reported while its
files grow.  Every tick is given who is in the rotation, what a measurement of
each of them finds, and what the clock reads.

The pass is one of `Foundation.Sweeping`; what is reported of an agent is the
run of a machine which sees that agent's measurements alone.
-/

namespace Eris.Agents.DiskWatch

open Foundation.Sweeping

/-! ## The rule -/

structure DiskQuota where
  stateBytes : ℤ
  logBytes : ℤ

/-- What a walk of a state directory found. -/
structure TreeUsage where
  entries : ℕ
  depth : ℕ
  truncated : Bool

structure AgentDiskSample where
  stateBytes : Option ℤ
  logBytes : ℤ
  stateUsage : Option TreeUsage

inductive Level where
  | ok
  | warning
  | exceeded
deriving DecidableEq

inductive Finding where
  | exceeds (what : String) (bytes cap : ℤ)
  | nears (what : String) (bytes cap : ℤ)
  | truncated (entries depth : ℕ)

structure DiskVerdict where
  level : Level
  findings : List Finding

def DISK_WARNING_FRACTION : ℚ := 8 / 10

/-- One quota, checked after those before it. -/
def check
    (warningFraction : ℚ) (what : String) (bytes : Option ℤ) (cap : ℤ)
    (verdict : DiskVerdict) : DiskVerdict :=
  match bytes with
  | none => verdict
  | some bytes =>
      if cap ≤ 0 then verdict
      else if cap < bytes then
        { level := .exceeded
          findings := verdict.findings ++ [.exceeds what bytes cap] }
      else if cap * warningFraction < bytes then
        { level := if verdict.level = .ok then .warning else verdict.level
          findings := verdict.findings ++ [.nears what bytes cap] }
      else verdict

/-- A walk which hit its bound is a warning at least. -/
def checkWalk (usage : Option TreeUsage) (verdict : DiskVerdict) :
    DiskVerdict :=
  match usage with
  | none => verdict
  | some usage =>
      if usage.truncated then
        { level := if verdict.level = .ok then .warning else verdict.level
          findings :=
            verdict.findings ++ [.truncated usage.entries usage.depth] }
      else verdict

def diskVerdict (sample : AgentDiskSample) (quota : DiskQuota) :
    DiskVerdict :=
  checkWalk sample.stateUsage
    (check DISK_WARNING_FRACTION "log files" (some sample.logBytes)
      quota.logBytes
      (check DISK_WARNING_FRACTION "state directory" sample.stateBytes
        quota.stateBytes { level := .ok, findings := [] }))

structure DiskWatchTarget where
  id : String
  stateDir : Option String
  logFiles : List String

inductive Report where
  | none
  | warning
  | exceeded
  | stillWriting
deriving DecidableEq

structure DiskWatchOutcome where
  id : String
  sample : AgentDiskSample
  verdict : DiskVerdict
  report : Report
  grewBytes : Option ℤ

structure DiskTick where
  outcomes : List DiskWatchOutcome
  rotation : ℕ
  elapsedMs : ℚ
  sweep : Option ℕ

def STOPPED_GROWTH_SLACK_BYTES : ℤ := 64 * 1024

def totalBytes (sample : AgentDiskSample) : ℤ :=
  sample.stateBytes.getD 0 + sample.logBytes

/-- What the watch remembers from tick to tick. -/
structure AgentDiskWatch where
  warned : Finset String
  stopped : String → Option ℤ
  pending : Finset String
  ticks : ℕ

def AgentDiskWatch.opened : AgentDiskWatch where
  warned := ∅
  stopped _ := none
  pending := ∅
  ticks := 0

/-- What a tick is given: the rotation, the file system and the clock. -/
structure Call where
  targets : List DiskWatchTarget
  measure : DiskWatchTarget → AgentDiskSample
  started : ℚ
  /-- What the clock reads once so many agents have been measured. -/
  now : ℕ → ℚ
  finished : ℚ

def Call.ids (call : Call) : Finset String :=
  (call.targets.map DiskWatchTarget.id).toFinset

variable (quota : DiskQuota) (budgetMs : ℚ)

/-- Measure one agent, and decide what to report of it. -/
def judge
    (watch : AgentDiskWatch) (id : String) (sample : AgentDiskSample) :
    DiskWatchOutcome × AgentDiskWatch :=
  let verdict := diskVerdict sample quota
  match watch.stopped id with
  | some stoppedAt =>
      let grewBytes := totalBytes sample - stoppedAt
      if grewBytes ≤ STOPPED_GROWTH_SLACK_BYTES then
        (⟨id, sample, verdict, .none, none⟩, watch)
      else
        (⟨id, sample, verdict, .stillWriting, some grewBytes⟩, { watch with
            stopped :=
              Function.update watch.stopped id (some (totalBytes sample)) })
  | none =>
      match verdict.level with
      | .exceeded =>
          (⟨id, sample, verdict, .exceeded, none⟩, { watch with
              stopped := Function.update watch.stopped id
                  (some (totalBytes sample)) })
      | .warning =>
          if id ∈ watch.warned then
            (⟨id, sample, verdict, .none, none⟩, watch)
          else
            (⟨id, sample, verdict, .warning, none⟩,
              { watch with warned := insert id watch.warned })
      | .ok =>
          (⟨id, sample, verdict, .none, none⟩,
            { watch with warned := watch.warned.erase id })

/-- The targets of a tick, so many agents having been measured in it. -/
def measureTargets
    (call : Call) (watch : AgentDiskWatch) (measured : ℕ) :
    List DiskWatchTarget → List DiskWatchOutcome × AgentDiskWatch
  | [] => ([], watch)
  | target :: rest =>
      if target.id ∉ watch.pending then
        measureTargets call watch measured rest
      else if 0 < measured ∧ budgetMs ≤ call.now measured - call.started then
        ([], watch)
      else
        let judged := judge quota
            { watch with pending := watch.pending.erase target.id }
            target.id (call.measure target)
        let later := measureTargets call judged.2 (measured + 1) rest
        (judged.1 :: later.1, later.2)

/-- Who is still owed a measurement once those who left are dropped. -/
def AgentDiskWatch.owed (watch : AgentDiskWatch) (call : Call) :
    Finset String :=
  watch.pending ∩ call.ids

/-- The watch as a tick finds it: the open pass goes on, or one opens. -/
def AgentDiskWatch.resumed (watch : AgentDiskWatch) (call : Call) :
    AgentDiskWatch :=
  if watch.owed call = ∅ then
    { watch with pending := call.ids, ticks := 1 }
  else { watch with pending := watch.owed call, ticks := watch.ticks + 1 }

def tick (watch : AgentDiskWatch) (call : Call) :
    DiskTick × AgentDiskWatch :=
  if call.ids = ∅ then
    (⟨[], 0, 0, none⟩, { watch with pending := ∅, ticks := 0 })
  else
    let measured :=
      measureTargets quota budgetMs call (watch.resumed call) 0 call.targets
    (⟨measured.1, call.ids.card, call.finished - call.started,
        if measured.2.pending = ∅ then some measured.2.ticks else none⟩,
      measured.2)

def ticksOf (watch : AgentDiskWatch) : List Call → List DiskTick
  | [] => []
  | call :: rest =>
      (tick quota budgetMs watch call).1 ::
        ticksOf (tick quota budgetMs watch call).2 rest

def watchAfter (watch : AgentDiskWatch) (calls : List Call) :
    AgentDiskWatch :=
  calls.foldl (fun watch call => (tick quota budgetMs watch call).2) watch

/-- The outcomes of some ticks, in order. -/
def outcomesOf (watch : AgentDiskWatch) (calls : List Call) :
    List DiskWatchOutcome :=
  (ticksOf quota budgetMs watch calls).flatMap DiskTick.outcomes

/-- What some ticks found of one agent, in order. -/
def historyOf (calls : List Call) (id : String) : List DiskWatchOutcome :=
  (outcomesOf quota budgetMs .opened calls).filter (·.id = id)

/-- A tick opens a pass over everybody in the rotation. -/
def AgentDiskWatch.Opens (watch : AgentDiskWatch) (call : Call) : Prop :=
  call.ids ≠ ∅ ∧ watch.owed call = ∅

/-- Calls which all find the pass still open. -/
def Continues (watch : AgentDiskWatch) : List Call → Prop
  | [] => True
  | call :: rest =>
      watch.owed call ≠ ∅ ∧ Continues (tick quota budgetMs watch call).2 rest

/-! ## A pass -/

variable
  {quota : DiskQuota} {budgetMs : ℚ} {watch : AgentDiskWatch} {call : Call}
  {id : String} {sample : AgentDiskSample} {calls : List Call}

/-- The ids of the agents measured in a tick. -/
def measuredIds (outcomes : List DiskWatchOutcome) : List String :=
  outcomes.map DiskWatchOutcome.id

@[simp]
theorem judge_id : (judge quota watch id sample).1.id = id := by
  unfold judge
  dsimp only
  split
  · split <;> rfl
  · split
    · rfl
    · split <;> rfl
    · rfl

@[simp]
theorem judge_position :
    (judge quota watch id sample).2.pending = watch.pending ∧
      (judge quota watch id sample).2.ticks = watch.ticks := by
  unfold judge
  dsimp only
  split
  · split <;> exact ⟨rfl, rfl⟩
  · split
    · exact ⟨rfl, rfl⟩
    · split <;> exact ⟨rfl, rfl⟩
    · exact ⟨rfl, rfl⟩

/-- What the targets of a tick do to the position of the pass. -/
structure Measures
    (watch : AgentDiskWatch) (targets : List DiskWatchTarget)
    (result : List DiskWatchOutcome × AgentDiskWatch) : Prop where
  owes : ∀ id ∈ measuredIds result.1,
      id ∈ watch.pending ∧ id ∈ targets.map DiskWatchTarget.id
  once : (measuredIds result.1).Nodup
  pending : result.2.pending = watch.pending \ (measuredIds result.1).toFinset
  ticks : result.2.ticks = watch.ticks

theorem measures_none (targets : List DiskWatchTarget) :
    Measures watch targets ([], watch) where
  owes _ none := absurd none List.not_mem_nil
  once := List.nodup_nil
  pending := (Finset.sdiff_empty).symm
  ticks := rfl

theorem measures_targets
    (call : Call) (watch : AgentDiskWatch) (measured : ℕ)
    (targets : List DiskWatchTarget) :
    Measures watch targets
      (measureTargets quota budgetMs call watch measured targets) := by
  induction targets generalizing watch measured with
  | nil => exact measures_none []
  | cons target rest ih =>
      unfold measureTargets
      split
      · have later := ih watch measured
        exact { later with
            owes := fun id listed =>
              ⟨(later.owes id listed).1,
                List.mem_cons_of_mem _ (later.owes id listed).2⟩ }
      next owed =>
      split
      · exact measures_none _
      have later := ih (judge quota
            { watch with pending := watch.pending.erase target.id } target.id
            (call.measure target)).2
          (measured + 1)
      have position := @judge_position quota
          { watch with pending := watch.pending.erase target.id } target.id
          (call.measure target)
      have unmeasured := later.owes
      rw [position.1] at unmeasured
      have here := not_not.mp owed
      constructor
      · intro id listed
        rcases List.mem_cons.mp listed with rfl | listed
        · rw [judge_id]
          exact ⟨here, List.mem_cons_self⟩
        · rcases unmeasured id listed with ⟨pending, among⟩
          exact ⟨Finset.mem_of_mem_erase pending, List.mem_cons_of_mem _ among⟩
      · apply List.nodup_cons.mpr ⟨_, later.once⟩
        intro again
        rw [judge_id] at again
        exact Finset.notMem_erase _ _ (unmeasured _ again).1
      · change _ = watch.pending \ (_ :: measuredIds _).toFinset
        rw [later.pending, position.1, judge_id, List.toFinset_cons]
        ext id
        simp only [Finset.mem_sdiff, Finset.mem_erase, Finset.mem_insert]
        tauto
      · exact later.ticks.trans position.2

theorem measureTargets_serves
    {targets : List DiskWatchTarget}
    (owed : ∃ target ∈ targets, target.id ∈ watch.pending) :
    (measureTargets quota budgetMs call watch 0 targets).1 ≠ [] := by
  induction targets with
  | nil =>
      rcases owed with ⟨target, none, -⟩
      cases none
  | cons target rest ih =>
      unfold measureTargets
      by_cases here : target.id ∈ watch.pending
      · rw [if_neg (not_not.mpr here), if_neg (fun late => by
          exact absurd late.1 (lt_irrefl 0))]
        exact List.cons_ne_nil _ _
      · rw [if_pos here]
        apply ih
        rcases owed with ⟨other, listed, pending⟩
        rcases List.mem_cons.mp listed with rfl | listed
        · exact absurd pending here
        · exact ⟨other, listed, pending⟩

def roundOf (watch : AgentDiskWatch) (call : Call) : Round String where
  present := call.ids
  visited := measuredIds (tick quota budgetMs watch call).1.outcomes

def roundsOf (watch : AgentDiskWatch) : List Call → List (Round String)
  | [] => []
  | call :: rest =>
      @roundOf quota budgetMs watch call ::
        roundsOf (tick quota budgetMs watch call).2 rest

theorem resumed_subset : (watch.resumed call).pending ⊆ call.ids := by
  unfold AgentDiskWatch.resumed
  split
  · exact Finset.Subset.refl _
  · exact Finset.inter_subset_right

theorem resumed_ne_empty (anyone : call.ids ≠ ∅) :
    (watch.resumed call).pending ≠ ∅ := by
  unfold AgentDiskWatch.resumed
  split
  · exact anyone
  · assumption

theorem tick_serves
    (anyone : call.ids ≠ ∅) {owed : Finset String}
    (same : (watch.resumed call).pending = owed ∩ call.ids) :
    Serves owed (@roundOf quota budgetMs watch call) ∧
      (tick quota budgetMs watch call).2.pending =
        owedAfter owed (@roundOf quota budgetMs watch call) ∧
      (tick quota budgetMs watch call).2.ticks =
        (watch.resumed call).ticks := by
  have measures :=
    @measures_targets quota budgetMs call (watch.resumed call) 0 call.targets
  have serves : (measureTargets quota budgetMs call (watch.resumed call) 0
      call.targets).1 ≠ [] := by
    apply measureTargets_serves
    rcases Finset.nonempty_iff_ne_empty.mpr (resumed_ne_empty anyone) with
      ⟨id, pending⟩
    have among := List.mem_toFinset.mp (resumed_subset pending)
    rcases List.mem_map.mp among with ⟨target, listed, rfl⟩
    exact ⟨target, listed, pending⟩
  unfold roundOf tick owedAfter
  rw [if_neg anyone]
  refine ⟨⟨?_, measures.once, ?_⟩, ?_, measures.ticks⟩
  · intro id listed
    rw [← same]
    exact (measures.owes id listed).1
  · exact fun none => serves (List.map_eq_nil_iff.mp none)
  · rw [← same]
    exact measures.pending

theorem visits_roundsOf :
    visits (@roundsOf quota budgetMs watch calls) =
      measuredIds (outcomesOf quota budgetMs watch calls) := by
  induction calls generalizing watch with
  | nil => rfl
  | cons call rest ih =>
      change _ ++ visits _ = List.map _ (_ ++ outcomesOf _ _ _ _)
      rw [ih, List.map_append]
      rfl

theorem present_roundsOf
    {round : Round String}
    (listed : round ∈ @roundsOf quota budgetMs watch calls) :
    ∃ call ∈ calls, round.present = call.ids := by
  induction calls generalizing watch with
  | nil => cases listed
  | cons call rest ih =>
      rcases List.mem_cons.mp listed with rfl | later
      · exact ⟨call, List.mem_cons_self, rfl⟩
      · rcases ih later with ⟨other, among, same⟩
        exact ⟨other, List.mem_cons_of_mem _ among, same⟩

theorem length_roundsOf :
    (@roundsOf quota budgetMs watch calls).length = calls.length := by
  induction calls generalizing watch with
  | nil => rfl
  | cons call rest ih =>
      exact congrArg (· + 1) ih

theorem Continues.sweeps (continues : Continues quota budgetMs watch calls) :
    Sweeps watch.pending (@roundsOf quota budgetMs watch calls)
        (watchAfter quota budgetMs watch calls).pending ∧
      (watchAfter quota budgetMs watch calls).ticks =
        watch.ticks + calls.length := by
  induction calls generalizing watch with
  | nil => exact ⟨Sweeps.nil _, rfl⟩
  | cons call rest ih =>
      rcases continues with ⟨goesOn, continues⟩
      have anyone : call.ids ≠ ∅ := by
        intro none
        apply goesOn
        rw [AgentDiskWatch.owed, none, Finset.inter_empty]
      have resumed : watch.resumed call = { watch with
              pending := watch.owed call
              ticks := watch.ticks + 1 } :=
        if_neg goesOn
      rcases @tick_serves quota budgetMs watch call anyone watch.pending
          (by rw [resumed]; rfl)
        with ⟨served, pending, ticks⟩
      rcases ih continues with ⟨sweeps, count⟩
      rw [pending] at sweeps
      rw [ticks, resumed] at count
      exact
        ⟨Sweeps.cons served sweeps, count.trans (Nat.succ_add_eq_add_succ _ _)⟩

theorem pass_sweeps
    (opens : watch.Opens call)
    (continues :
      Continues quota budgetMs (tick quota budgetMs watch call).2 calls) :
    Sweeps call.ids (@roundsOf quota budgetMs watch (call :: calls))
        (watchAfter quota budgetMs watch (call :: calls)).pending ∧
      (watchAfter quota budgetMs watch (call :: calls)).ticks =
        (call :: calls).length := by
  have resumed :
      watch.resumed call = { watch with pending := call.ids, ticks := 1 } :=
    if_pos opens.2
  rcases @tick_serves quota budgetMs watch call opens.1 call.ids
      (by rw [resumed, Finset.inter_self])
    with ⟨served, pending, ticks⟩
  rcases continues.sweeps with ⟨sweeps, count⟩
  rw [pending] at sweeps
  rw [ticks, resumed] at count
  exact ⟨Sweeps.cons served sweeps, count.trans (Nat.add_comm _ _)⟩

theorem sweep_last
    (anyone : call.ids ≠ ∅)
    (continues :
      Continues quota budgetMs (tick quota budgetMs watch call).2 calls) :
    (ticksOf quota budgetMs watch (call :: calls)).getLast?.bind
        DiskTick.sweep =
      if (watchAfter quota budgetMs watch (call :: calls)).pending = ∅ then
        some (watchAfter quota budgetMs watch (call :: calls)).ticks
      else none := by
  induction calls generalizing watch call with
  | nil =>
      change (tick quota budgetMs watch call).1.sweep = _
      change
        _ = if (tick quota budgetMs watch call).2.pending = ∅ then
            some (tick quota budgetMs watch call).2.ticks
          else none
      unfold tick
      rw [if_neg anyone]
  | cons next rest ih =>
      rcases continues with ⟨goesOn, continues⟩
      apply ih _ continues
      intro none
      apply goesOn
      rw [AgentDiskWatch.owed, none, Finset.inter_empty]

/-! ## One agent -/

/-- What the watch remembers of one agent. -/
structure Standing where
  warned : Bool
  stopped : Option ℤ

def AgentDiskWatch.standing (watch : AgentDiskWatch) (id : String) :
    Standing where
  warned := id ∈ watch.warned
  stopped := watch.stopped id

variable (quota) in
/-- The judgement of an agent, from what is remembered of it alone. -/
def Standing.judge
    (standing : Standing) (id : String) (sample : AgentDiskSample) :
    DiskWatchOutcome × Standing :=
  let verdict := diskVerdict sample quota
  match standing.stopped with
  | some stoppedAt =>
      if totalBytes sample - stoppedAt ≤ STOPPED_GROWTH_SLACK_BYTES then
        (⟨id, sample, verdict, .none, none⟩, standing)
      else
        (⟨id, sample, verdict, .stillWriting,
            some (totalBytes sample - stoppedAt)⟩,
          { standing with stopped := some (totalBytes sample) })
  | none =>
      match verdict.level with
      | .exceeded =>
          (⟨id, sample, verdict, .exceeded, none⟩,
            { standing with stopped := some (totalBytes sample) })
      | .warning =>
          (⟨id, sample, verdict,
              if standing.warned then .none else .warning, none⟩,
            { standing with warned := true })
      | .ok =>
          (⟨id, sample, verdict, .none, none⟩,
            { standing with warned := false })

variable (quota) in
/-- What is found of an agent over some measurements. -/
inductive Follows (id : String) :
    Standing → List DiskWatchOutcome → Standing → Prop where
  | nil (standing : Standing) : Follows id standing [] standing
  | cons {standing left : Standing} (sample : AgentDiskSample)
      {outcomes : List DiskWatchOutcome}
      (rest : Follows id (standing.judge quota id sample).2 outcomes left) :
      Follows id standing ((standing.judge quota id sample).1 :: outcomes) left

theorem Follows.append
    {standing middle left : Standing} {outcomes others : List DiskWatchOutcome}
    (first : Follows quota id standing outcomes middle)
    (second : Follows quota id middle others left) :
    Follows quota id standing (outcomes ++ others) left := by
  induction first with
  | nil standing => exact second
  | cons sample rest ih =>
      exact Follows.cons sample (ih second)

theorem Level.trichotomy (level : Level) :
    level = .exceeded ∨ level = .warning ∨ level = .ok := by
  cases level <;> simp

theorem judge_standing :
    (judge quota watch id sample).1 =
        ((watch.standing id).judge quota id sample).1 ∧
      (judge quota watch id sample).2.standing id =
        ((watch.standing id).judge quota id sample).2 := by
  unfold judge Standing.judge AgentDiskWatch.standing
  dsimp only
  cases found : watch.stopped id with
  | some stoppedAt =>
      dsimp only
      split
      · refine ⟨rfl, ?_⟩
        dsimp only
        rw [found]
      · refine ⟨rfl, ?_⟩
        dsimp only
        rw [Function.update_self]
  | none =>
      dsimp only
      rcases (diskVerdict sample quota).level.trichotomy with
        level | level | level
      · simp [level]
      · by_cases warned : id ∈ watch.warned
        · simp [level, warned, found]
        · simp [level, warned, found]
      · simp [level, found]

theorem judge_other {other : String} (distinct : other ≠ id) :
    (judge quota watch id sample).2.standing other = watch.standing other := by
  unfold judge AgentDiskWatch.standing
  dsimp only
  split
  · split
    · rfl
    · simp [distinct]
  · rcases (diskVerdict sample quota).level.trichotomy with
      level | level | level
    · simp [level, distinct]
    · by_cases warned : id ∈ watch.warned
      · simp [level, warned]
      · simp [level, warned, distinct]
    · simp [level, distinct]

theorem Standing.judge_stopped
    {standing : Standing} {stoppedAt : ℤ}
    (stopped : standing.stopped = some stoppedAt) :
    ((standing.judge quota id sample).1.report ≠ .exceeded ∧
        (standing.judge quota id sample).1.report ≠ .warning) ∧
      ∃ bytes, (standing.judge quota id sample).2.stopped = some bytes ∧ bytes =
          stoppedAt + (standing.judge quota id sample).1.grewBytes.getD 0 ∧
        totalBytes (standing.judge quota id sample).1.sample ≤
          bytes + STOPPED_GROWTH_SLACK_BYTES := by
  unfold Standing.judge
  rw [stopped]
  dsimp only
  split
  · next within =>
      refine ⟨⟨by simp, by simp⟩, stoppedAt, stopped, ?_, ?_⟩
      · exact (add_zero _).symm
      · exact sub_le_iff_le_add'.mp within
  · refine ⟨⟨by simp, by simp⟩, totalBytes sample, rfl, ?_, ?_⟩
    · exact (add_sub_cancel _ _).symm
    · exact le_add_of_nonneg_right (by decide)

theorem Standing.judge_running
    {standing : Standing} (running : standing.stopped = none) :
    ((diskVerdict sample quota).level = .exceeded ∧
        (standing.judge quota id sample).1.report = .exceeded ∧
        (standing.judge quota id sample).2.stopped = some (totalBytes sample)) ∨
      ((diskVerdict sample quota).level ≠ .exceeded ∧
        (standing.judge quota id sample).1.report ≠ .exceeded ∧
        (standing.judge quota id sample).2.stopped = none ∧
        ((standing.judge quota id sample).2.warned = true ↔
          (diskVerdict sample quota).level = .warning) ∧
        ((standing.judge quota id sample).1.report = .warning ↔
          (diskVerdict sample quota).level = .warning ∧
            standing.warned = false)) := by
  unfold Standing.judge
  rw [running]
  dsimp only
  rcases (diskVerdict sample quota).level.trichotomy with
    level | level | level
  · simp [level]
  · cases warned : standing.warned
    · simp [level]
    · simp [level]
  · simp [level]

theorem Standing.judge_sample (standing : Standing) :
    (standing.judge quota id sample).1.sample = sample := by
  unfold Standing.judge
  dsimp only
  split
  · split <;> rfl
  · split <;> rfl

section History

variable
  {standing left : Standing} {outcomes earlier others : List DiskWatchOutcome}
  {outcome : DiskWatchOutcome}

theorem Follows.cut
    (follows : Follows quota id standing (earlier ++ others) left) :
    ∃ middle, Follows quota id standing earlier middle ∧
      Follows quota id middle others left := by
  induction earlier generalizing standing with
  | nil => exact ⟨standing, Follows.nil standing, follows⟩
  | cons first rest ih =>
      cases follows with
      | cons sample follows =>
          rcases ih follows with ⟨middle, before, after⟩
          exact ⟨middle, Follows.cons sample before, after⟩

theorem Follows.stopped
    (follows : Follows quota id standing outcomes left)
    {stoppedAt : ℤ} (stopped : standing.stopped = some stoppedAt) :
    (∃ bytes, left.stopped = some bytes) ∧
      ∀ outcome ∈ outcomes, outcome.report ≠ .exceeded ∧
        outcome.report ≠ .warning := by
  induction follows generalizing stoppedAt with
  | nil standing =>
      exact ⟨⟨stoppedAt, stopped⟩, fun _ none => absurd none List.not_mem_nil⟩
  | cons sample rest ih =>
      rcases Standing.judge_stopped stopped with ⟨quiet, bytes, still, -⟩
      rcases ih still with ⟨stays, later⟩
      exact ⟨stays, List.forall_mem_cons.mpr ⟨quiet, later⟩⟩

theorem Follows.running_iff
    (follows : Follows quota id standing outcomes left)
    (running : standing.stopped = none) :
    left.stopped = none ↔ ∀ outcome ∈ outcomes, outcome.report ≠ .exceeded := by
  induction follows with
  | nil standing =>
      exact iff_of_true running fun _ none => absurd none List.not_mem_nil
  | cons sample rest ih =>
      rw [List.forall_mem_cons]
      rcases Standing.judge_running running with
        ⟨-, exceeded, stopped⟩ | ⟨-, within, still, -⟩
      · rcases rest.stopped stopped with ⟨⟨bytes, stays⟩, -⟩
        apply iff_of_false
        · rw [stays]
          exact Option.some_ne_none bytes
        · exact fun none => none.1 exceeded
      · rw [ih still]
        exact (and_iff_right within).symm

theorem Follows.exceeded_once
    (follows : Follows quota id standing outcomes left) :
    outcomes.countP (·.report = .exceeded) ≤ 1 := by
  induction follows with
  | nil standing => exact Nat.zero_le 1
  | @cons standing left sample outcomes rest ih =>
      by_cases exceeded : (standing.judge quota id sample).1.report = .exceeded
      · cases stoppedAt : standing.stopped with
        | some bytes =>
            exact absurd exceeded (Standing.judge_stopped stoppedAt).1.1
        | none =>
            rcases Standing.judge_running stoppedAt with
              ⟨-, -, stopped⟩ | ⟨-, within, -⟩
            · have none_ : outcomes.countP (·.report = .exceeded) = 0 := by
                apply List.countP_eq_zero.mpr
                intro outcome listed
                rw [decide_eq_true_eq]
                exact ((rest.stopped stopped).2 outcome listed).1
              rw [List.countP_cons_of_pos (by simpa using exceeded), none_]
            · exact absurd exceeded within
      · rw [List.countP_cons_of_neg (by simpa using exceeded)]
        exact ih

theorem Follows.grows
    (follows : Follows quota id standing outcomes left)
    {stoppedAt : ℤ} (stopped : standing.stopped = some stoppedAt)
    (last : outcomes.getLast? = some outcome) :
    totalBytes outcome.sample ≤
      stoppedAt + (outcomes.map fun outcome => outcome.grewBytes.getD 0).sum +
        STOPPED_GROWTH_SLACK_BYTES := by
  induction follows generalizing stoppedAt with
  | nil standing => cases last
  | @cons standing left sample outcomes rest ih =>
      rcases Standing.judge_stopped stopped with
        ⟨-, bytes, still, grown, holds⟩
      rw [List.map_cons, List.sum_cons, ← add_assoc, ← grown]
      cases outcomes with
      | nil =>
          cases last
          simpa using holds
      | cons next others =>
          apply ih still
          rw [List.getLast?_cons_cons] at last
          exact last

theorem Follows.warned_last
    (follows : Follows quota id standing (outcomes ++ [outcome]) left)
    (running : left.stopped = none) :
    (diskVerdict outcome.sample quota).level ≠ .exceeded ∧ (left.warned = true ↔
        (diskVerdict outcome.sample quota).level = .warning) := by
  rcases follows.cut with ⟨middle, -, last⟩
  cases last with
  | cons sample rest =>
      cases rest with
      | nil =>
          rw [Standing.judge_sample]
          cases stopped : middle.stopped with
          | some bytes =>
              rcases Standing.judge_stopped stopped with
                ⟨-, bytes, still, -⟩
              rw [still] at running
              cases running
          | none =>
              rcases Standing.judge_running stopped with
                ⟨-, -, still⟩ | ⟨within, -, -, warned, -⟩
              · rw [still] at running
                cases running
              · exact ⟨within, warned⟩

end History

/-! ## The whole field -/

theorem measureTargets_follows
    (call : Call) (watch : AgentDiskWatch) (measured : ℕ)
    (targets : List DiskWatchTarget) :
    Follows quota id (watch.standing id)
      ((measureTargets quota budgetMs call watch measured targets).1.filter
        (·.id = id))
      ((measureTargets quota budgetMs call watch measured
        targets).2.standing id) := by
  induction targets generalizing watch measured with
  | nil => exact Follows.nil _
  | cons target rest ih =>
      unfold measureTargets
      split
      · exact ih watch measured
      split
      · exact Follows.nil _
      dsimp only
      have later := ih (judge quota
            { watch with pending := watch.pending.erase target.id } target.id
            (call.measure target)).2
          (measured + 1)
      by_cases same : target.id = id
      · subst same
        rw [List.filter_cons_of_pos (by simp)]
        rcases @judge_standing quota
            { watch with pending := watch.pending.erase target.id } target.id
            (call.measure target)
          with ⟨outcome, remembered⟩
        rw [remembered] at later
        rw [outcome]
        exact Follows.cons _ later
      · rw [judge_other (Ne.symm same)] at later
        rw [List.filter_cons_of_neg (by simpa using same)]
        exact later

theorem tick_follows :
    Follows quota id (watch.standing id)
      ((tick quota budgetMs watch call).1.outcomes.filter (·.id = id))
      ((tick quota budgetMs watch call).2.standing id) := by
  unfold tick
  split
  · exact Follows.nil _
  · have resumed : (watch.resumed call).standing id = watch.standing id := by
      unfold AgentDiskWatch.resumed
      split <;> rfl
    rw [← resumed]
    exact measureTargets_follows call (watch.resumed call) 0 call.targets

theorem outcomesOf_follows (calls : List Call) (watch : AgentDiskWatch) :
    Follows quota id (watch.standing id)
      ((outcomesOf quota budgetMs watch calls).filter (·.id = id))
      ((watchAfter quota budgetMs watch calls).standing id) := by
  induction calls generalizing watch with
  | nil => exact Follows.nil _
  | cons call rest ih =>
      change Follows quota id (watch.standing id)
        (((tick quota budgetMs watch call).1.outcomes ++
          outcomesOf quota budgetMs _ rest).filter (·.id = id)) _
      rw [List.filter_append]
      exact tick_follows.append (ih _)

section Claims

variable (quota budgetMs) (calls : List Call)

/--
Every pass measures nobody twice and everybody who stays but those it still
owes a measurement, and closes in no more ticks than it has agents.
-/
def SweepsEveryone : Prop :=
  ∀ earlier opening during later,
    calls = earlier ++ (opening :: during) ++ later →
      let before := watchAfter quota budgetMs .opened earlier
      before.Opens opening →
        Continues quota budgetMs (tick quota budgetMs before opening).2 during →
          let pass := opening :: during
          let measured := measuredIds (outcomesOf quota budgetMs before pass)
          let left := (watchAfter quota budgetMs before pass).pending
          measured.Nodup ∧ (∀ id, (∀ call ∈ pass, id ∈ call.ids) →
              measured.count id = if id ∈ left then 0 else 1) ∧
            left.card + pass.length ≤ opening.ids.card ∧
            (ticksOf quota budgetMs before pass).getLast?.bind DiskTick.sweep =
              if left = ∅ then some pass.length else none

/-- Nobody is reported twice for exceeding a quota. -/
def ExceedsOnce : Prop :=
  ∀ id, (historyOf quota budgetMs calls id).countP (·.report = .exceeded) ≤ 1

/-- A warning is reported where a running agent's level becomes a warning. -/
def WarnsOncePerCrossing : Prop :=
  ∀ id earlier outcome later,
    historyOf quota budgetMs calls id = earlier ++ outcome :: later →
      (outcome.report = .warning ↔
        (diskVerdict outcome.sample quota).level = .warning ∧
          (∀ previous ∈ earlier, previous.report ≠ .exceeded) ∧
          ∀ previous ∈ earlier.getLast?,
            (diskVerdict previous.sample quota).level = .ok)

/-- What a stopped agent's files grew by was reported but for the slack. -/
def AccountsForGrowth : Prop :=
  ∀ id earlier stop later last,
    historyOf quota budgetMs calls id = earlier ++ stop :: later →
      stop.report = .exceeded → (stop :: later).getLast? = some last →
          totalBytes last.sample - totalBytes stop.sample ≤
            (later.map fun outcome => outcome.grewBytes.getD 0).sum +
              STOPPED_GROWTH_SLACK_BYTES

end Claims

theorem sweepsEveryone (calls : List Call) :
    SweepsEveryone quota budgetMs calls := by
  intro earlier opening during later _ before opens continues
  rcases pass_sweeps opens continues with ⟨sweeps, ticks⟩
  have measured := @visits_roundsOf quota budgetMs before (opening :: during)
  refine ⟨?_, ?_, ?_, ?_⟩
  · rw [← measured]
    exact sweeps.visits_nodup
  · intro id stays
    rw [← measured]
    apply sweeps.count_of_stays (stays opening List.mem_cons_self)
    intro round listed
    rcases present_roundsOf listed with ⟨call, among, present⟩
    rw [present]
    exact stays call among
  · rw [← @length_roundsOf quota budgetMs before (opening :: during)]
    exact sweeps.card_add_length
  · rw [sweep_last opens.1 continues, ticks]

theorem exceedsOnce (calls : List Call) :
    ExceedsOnce quota budgetMs calls :=
  fun _ => (outcomesOf_follows calls .opened).exceeded_once

theorem warnsOncePerCrossing (calls : List Call) :
    WarnsOncePerCrossing quota budgetMs calls := by
  intro id earlier outcome later cut
  have follows := @outcomesOf_follows quota budgetMs id calls .opened
  change Follows quota id _ (historyOf quota budgetMs calls id) _ at follows
  rw [cut] at follows
  rcases follows.cut with ⟨middle, before, after⟩
  have running := before.running_iff rfl
  cases after with
  | cons sample rest =>
      rw [Standing.judge_sample]
      cases stopped : middle.stopped with
      | some bytes =>
          apply iff_of_false (Standing.judge_stopped stopped).1.2
          rintro ⟨-, none, -⟩
          rw [running.mpr none] at stopped
          cases stopped
      | none =>
          have unreported := running.mp stopped
          have unwarned : middle.warned = false ↔ ∀ previous ∈ earlier.getLast?,
              (diskVerdict previous.sample quota).level = .ok := by
            rcases List.eq_nil_or_concat earlier with rfl | ⟨init, last, rfl⟩
            · cases before
              exact iff_of_true rfl fun _ none => by cases none
            · rw [List.concat_eq_append] at before
              rcases before.warned_last stopped with ⟨within, warned⟩
              rw [List.concat_eq_append, List.getLast?_concat,
                ← Bool.not_eq_true, warned]
              rcases (diskVerdict last.sample quota).level.trichotomy with
                level | level | level
              · exact absurd level within
              · simp [level]
              · simp [level]
          rcases Standing.judge_running stopped with
            ⟨level, report, -⟩ | ⟨-, -, -, -, warns⟩
          · apply iff_of_false
            · rw [report]
              decide
            · rw [level]
              exact fun wrong => absurd wrong.1 (by decide)
          · rw [warns, unwarned]
            exact and_congr_right fun _ => (and_iff_right unreported).symm

theorem accountsForGrowth (calls : List Call) :
    AccountsForGrowth quota budgetMs calls := by
  intro id earlier stop later last cut exceeded ends
  have follows := @outcomesOf_follows quota budgetMs id calls .opened
  change Follows quota id _ (historyOf quota budgetMs calls id) _ at follows
  rw [cut] at follows
  rcases follows.cut with ⟨middle, -, after⟩
  cases after with
  | cons sample rest =>
      rw [Standing.judge_sample]
      cases stopped : middle.stopped with
      | some bytes =>
          exact absurd exceeded (Standing.judge_stopped stopped).1.1
      | none =>
          rcases Standing.judge_running stopped with
            ⟨-, -, still⟩ | ⟨-, within, -⟩
          · cases later with
            | nil =>
                cases ends
                rw [List.getLast_singleton, Standing.judge_sample, sub_self]
                decide
            | cons next others =>
                rw [List.getLast?_cons_cons] at ends
                have grows := rest.grows still ends
                linarith
          · exact absurd exceeded within

/--
Over every sequence of ticks and every cost of a measurement, passes sweep
everybody who stays, nobody exceeds twice, warnings stand for crossings, and
the growth of a stopped agent is reported.
-/
theorem watches_everyone
    (quota : DiskQuota) (budgetMs : ℚ) (calls : List Call) :
    SweepsEveryone quota budgetMs calls ∧ ExceedsOnce quota budgetMs calls ∧
      WarnsOncePerCrossing quota budgetMs calls ∧
      AccountsForGrowth quota budgetMs calls :=
  ⟨sweepsEveryone calls, exceedsOnce calls, warnsOncePerCrossing calls,
    accountsForGrowth calls⟩

end Eris.Agents.DiskWatch
