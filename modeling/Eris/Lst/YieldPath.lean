import Eris.Foundation.Transition

/-!
# The yield path of the staking venue

`core/src/realtime/lst.ts`, `ApySchedule` and `stepLstApy`, and the accrual
task of `core/src/realtime/coordinator.ts`.  Every pass sends an accrual and
then asks the schedule for the yield at its block index; a yield which differs
from the last one is written to the vault.  The schedule moves on before the
write is sent, and a schedule rebuilt after a restart takes the configured
yield for the vault's.  So the vault can be left at an earlier rate; it is not
when no write of a new yield is lost and the first draw after a restart does
not fall on the configured yield while the vault is at another rate.

Numbers are exact; the draws of the seed's stream are a parameter.
-/

namespace Eris.Lst.YieldPath

open Foundation.Transition

/-! ## The schedule -/

def mathRound (value : ℚ) : ℤ := ⌊value + 1 / 2⌋

def RAY : ℤ := 10 ^ 27

def SECONDS_PER_YEAR : ℤ := 31536000

/-- The rate of a block for a yield and the seconds a block stands for. -/
def rewardRatePerBlockRay (apyBps simulatedSecondsPerBlock : ℚ) : ℤ :=
  if apyBps ≤ 0 ∨ simulatedSecondsPerBlock ≤ 0 then 0
  else
    (mathRound apyBps * mathRound simulatedSecondsPerBlock * RAY).tdiv
      (10000 * SECONDS_PER_YEAR)

/-- The settings of the venue, and the draws of the seed's stream. -/
structure Settings where
  next : ℕ → ℚ
  lo : ℚ
  hi : ℚ
  stepBlocks : ℕ
  apyBps : ℚ
  simulatedSecondsPerBlock : ℚ

structure ApySchedule where
  stepsTaken : ℕ
  currentBps : ℚ

variable (settings : Settings)

/-- `Math.max(1, stepBlocks)` -/
def Settings.step : ℕ := max 1 settings.stepBlocks

/-- The yield of a draw, counted from zero. -/
def Settings.sample (draw : ℕ) : ℚ :=
  mathRound (settings.lo + (settings.hi - settings.lo) * settings.next draw)

/-- The rate which the vault is given for a yield. -/
def Settings.rate (apyBps : ℚ) : ℤ :=
  rewardRatePerBlockRay apyBps settings.simulatedSecondsPerBlock

/-- The number of draws which are due at a block index. -/
def Settings.dueSteps (blockIndex : ℕ) : ℕ := blockIndex / settings.step + 1

def ApySchedule.opened : ApySchedule where
  stepsTaken := 0
  currentBps := settings.apyBps

/-- Draw so many times; the last draw, and how many were taken. -/
def drawSteps (sampled : ℚ) (stepsTaken : ℕ) : ℕ → ℚ × ℕ
  | 0 => (sampled, stepsTaken)
  | owed + 1 => drawSteps (settings.sample stepsTaken) (stepsTaken + 1) owed

/-- The yield as of a block index, or nothing where no write is needed. -/
def ApySchedule.nextAt (schedule : ApySchedule) (blockIndex : ℕ) :
    Option ℚ × ApySchedule :=
  let dueSteps := settings.dueSteps blockIndex
  if dueSteps ≤ schedule.stepsTaken then (none, schedule)
  else
    let drawn := drawSteps settings schedule.currentBps schedule.stepsTaken
        (dueSteps - schedule.stepsTaken)
    if drawn.1 = schedule.currentBps then
      (none, { schedule with stepsTaken := drawn.2 })
    else
      (some drawn.1, { stepsTaken := drawn.2, currentBps := drawn.1 })

/-- What becomes of a transaction and of the call which sends it. -/
inductive Sending where
  | landed
  | refused
  | unanswered
deriving DecidableEq

/-- The vault's rate, the schedule, and the index of the last pass. -/
structure Venue where
  schedule : ApySchedule
  rewardRate : ℤ
  passed : Option ℕ

/-- Setup writes the configured yield, and makes a schedule. -/
def Venue.configured : Venue where
  schedule := .opened settings
  rewardRate := settings.rate settings.apyBps
  passed := none

/-- `stepLstApy`: resample the yield, and send it where it changed. -/
def stepLstApy (venue : Venue) (blockIndex : ℕ) (sending : Sending) : Venue :=
  match venue.schedule.nextAt settings blockIndex with
  | (none, schedule) => { venue with schedule := schedule }
  | (some next, schedule) =>
      { venue with
        schedule := schedule
        rewardRate := match sending with
          | .refused => venue.rewardRate
          | .landed | .unanswered => settings.rate next }

/-- `accrueLstTask`: the accrual, and the yield once its call has returned. -/
def accrueLstTask
    (venue : Venue) (blockIndex : ℕ) (accrual sending : Sending) : Venue :=
  match accrual with
  | .landed => stepLstApy settings venue blockIndex sending
  | .refused | .unanswered => venue

/-- A restart rebuilds the schedule and leaves the vault as it is. -/
def restart (venue : Venue) : Venue :=
  { venue with schedule := .opened settings }

inductive Label where
  | pass (blockIndex : ℕ) (accrual sending : Sending)
  | restart

/-- The passes of a run, at indices which increase. -/
inductive Step : Venue → Label → Venue → Prop where
  | pass {venue : Venue} {blockIndex : ℕ} (accrual sending : Sending)
      (later : ∀ passed, venue.passed = some passed → passed < blockIndex) :
      Step venue (.pass blockIndex accrual sending)
        { accrueLstTask settings venue blockIndex accrual sending with
          passed := some blockIndex }
  | restart (venue : Venue) : Step venue .restart (restart settings venue)

def passes : System Venue Label where
  initial venue := venue = .configured settings
  step := Step settings

/-- The vault is at the rate of the draw which is due at a block index. -/
def OnPath (venue : Venue) (blockIndex : ℕ) : Prop :=
  venue.rewardRate =
    settings.rate (settings.sample (settings.dueSteps blockIndex - 1))

/-- After every pass whose sends succeed, the vault is on the path. -/
def FollowsPath (allowed : Venue → Label → Prop) : Prop :=
  ∀ venue blockIndex next, (passes settings).Reachable allowed venue →
      allowed venue (.pass blockIndex .landed .landed) →
        (passes settings).step venue (.pass blockIndex .landed .landed) next →
          OnPath settings next blockIndex

/--
No write of a new yield is lost: where a pass draws a yield other than the
schedule's, its transaction is accepted, and where the first draw after a
restart is the configured yield, the vault is at that rate.
-/
def LosesNoWrite (venue : Venue) : Label → Prop
  | .restart => True
  | .pass blockIndex accrual sending =>
      let due := settings.sample (settings.dueSteps blockIndex - 1)
      accrual = .landed →
        (venue.schedule.stepsTaken < settings.dueSteps blockIndex →
            due ≠ venue.schedule.currentBps → sending ≠ .refused) ∧
          (venue.schedule.stepsTaken = 0 → due = venue.schedule.currentBps →
              venue.rewardRate = settings.rate venue.schedule.currentBps)

/-! ## One pass -/

/-- The vault is at the rate of the last draw, or no draw has been taken. -/
structure InStep (venue : Venue) : Prop where
  taken : ∀ passed, venue.passed = some passed →
      venue.schedule.stepsTaken ≤ settings.dueSteps passed
  unpassed : venue.passed = none → venue.schedule.stepsTaken = 0
  drawn : venue.schedule.stepsTaken ≠ 0 → venue.schedule.currentBps =
        settings.sample (venue.schedule.stepsTaken - 1) ∧
      venue.rewardRate = settings.rate venue.schedule.currentBps

variable {settings} {venue : Venue} {blockIndex : ℕ}

theorem drawSteps_succ (sampled : ℚ) (stepsTaken owed : ℕ) :
    drawSteps settings sampled stepsTaken (owed + 1) =
      (settings.sample (stepsTaken + owed), stepsTaken + (owed + 1)) := by
  induction owed generalizing sampled stepsTaken with
  | zero => rfl
  | succ owed ih =>
      rw [drawSteps, ih, Nat.succ_add_eq_add_succ, Nat.succ_add_eq_add_succ]

theorem nextAt_due
    {schedule : ApySchedule}
    (due : schedule.stepsTaken < settings.dueSteps blockIndex) :
    schedule.nextAt settings blockIndex =
      let sampled := settings.sample (settings.dueSteps blockIndex - 1)
      (if sampled = schedule.currentBps then none else some sampled,
        { stepsTaken := settings.dueSteps blockIndex
          currentBps := sampled }) := by
  rcases Nat.exists_eq_add_of_lt due with ⟨owed, whole⟩
  have taken : drawSteps settings schedule.currentBps schedule.stepsTaken
        (settings.dueSteps blockIndex - schedule.stepsTaken) =
      (settings.sample (settings.dueSteps blockIndex - 1),
        settings.dueSteps blockIndex) := by
    have owes :
        settings.dueSteps blockIndex - schedule.stepsTaken = owed + 1 := by
      omega
    have last :
        schedule.stepsTaken + owed = settings.dueSteps blockIndex - 1 := by
      omega
    rw [owes, drawSteps_succ, last]
    congr 1
    omega
  unfold ApySchedule.nextAt
  dsimp only
  rw [if_neg (not_le.mpr due), taken]
  dsimp only
  split
  · next same => rw [← same]
  · rfl

theorem inStep_configured : InStep settings (.configured settings) where
  taken passed none := by cases none
  unpassed _ := rfl
  drawn none := absurd rfl none

theorem InStep.taken_le
    (inStep : InStep settings venue)
    (later : ∀ passed, venue.passed = some passed → passed < blockIndex) :
    venue.schedule.stepsTaken ≤ settings.dueSteps blockIndex := by
  cases found : venue.passed with
  | none =>
      rw [inStep.unpassed found]
      exact Nat.zero_le _
  | some passed =>
      apply (inStep.taken passed found).trans
      unfold Settings.dueSteps
      exact Nat.succ_le_succ (Nat.div_le_div_right (later passed found).le)

theorem stepLstApy_onPath
    (inStep : InStep settings venue)
    (later : ∀ passed, venue.passed = some passed → passed < blockIndex)
    {sending : Sending}
    (kept : LosesNoWrite settings venue (.pass blockIndex .landed sending)) :
    OnPath settings (stepLstApy settings venue blockIndex sending) blockIndex ∧
      (stepLstApy settings venue blockIndex sending).schedule =
        { stepsTaken := settings.dueSteps blockIndex
          currentBps :=
            settings.sample (settings.dueSteps blockIndex - 1) } := by
  rcases kept rfl with ⟨accepted, fresh⟩
  by_cases due : venue.schedule.stepsTaken < settings.dueSteps blockIndex
  · unfold stepLstApy OnPath
    rw [nextAt_due due]
    dsimp only
    by_cases same : settings.sample (settings.dueSteps blockIndex - 1) =
        venue.schedule.currentBps
    · rw [if_pos same]
      refine ⟨?_, rfl⟩
      dsimp only
      rw [same]
      by_cases none : venue.schedule.stepsTaken = 0
      · exact fresh none same
      · exact (inStep.drawn none).2
    · rw [if_neg same]
      refine ⟨?_, rfl⟩
      have sent := accepted due same
      cases sending with
      | landed => rfl
      | refused => exact absurd rfl sent
      | unanswered => rfl
  · have taken : venue.schedule.stepsTaken = settings.dueSteps blockIndex :=
      Nat.le_antisymm (inStep.taken_le later) (not_lt.mp due)
    have some_ : venue.schedule.stepsTaken ≠ 0 := by
      rw [taken]
      exact Nat.succ_ne_zero _
    rcases inStep.drawn some_ with ⟨current, rate⟩
    rw [taken] at current
    have unmoved :
        venue.schedule.nextAt settings blockIndex = (none, venue.schedule) :=
      if_pos (not_lt.mp due)
    unfold stepLstApy OnPath
    rw [unmoved]
    refine ⟨?_, ?_⟩
    · dsimp only
      rw [rate, current]
    · rw [← current, ← taken]

theorem inStep_step
    {label : Label} {next : Venue} (inStep : InStep settings venue)
    (kept : LosesNoWrite settings venue label)
    (step : Step settings venue label next) :
    InStep settings next := by
  cases step with
  | restart =>
      exact
        { taken := fun _ _ => Nat.zero_le _
          unpassed := fun _ => rfl
          drawn := fun none => absurd rfl none }
  | @pass blockIndex accrual sending later =>
      have unsent : InStep settings { venue with passed := some blockIndex } :=
        { taken := by
            rintro _ ⟨⟩
            exact inStep.taken_le later
          unpassed := by
            intro none
            cases none
          drawn := inStep.drawn }
      cases accrual with
      | refused => exact unsent
      | unanswered => exact unsent
      | landed =>
          rcases stepLstApy_onPath inStep later kept with ⟨onPath, moved⟩
          constructor
          · rintro _ ⟨⟩
            change
              (stepLstApy settings venue blockIndex sending).schedule.stepsTaken
                ≤ _
            rw [moved]
          · intro none
            cases none
          · intro _
            change
              (stepLstApy settings venue blockIndex sending).schedule.currentBps
                  = settings.sample ((stepLstApy settings venue blockIndex
                      sending).schedule.stepsTaken - 1) ∧
                (stepLstApy settings venue blockIndex sending).rewardRate =
                  settings.rate (stepLstApy settings venue blockIndex
                      sending).schedule.currentBps
            rw [moved]
            exact ⟨rfl, onPath⟩

/-- Where no write is lost, the vault follows the seed's path. -/
theorem follows_of_losesNoWrite (settings : Settings) :
    FollowsPath settings (LosesNoWrite settings) := by
  intro venue blockIndex next reachable kept step
  have inStep : InStep settings venue := by
    apply @System.Reachable.invariant _ _ _ _ (InStep settings) _ _ _ reachable
    · rintro _ rfl
      exact inStep_configured
    · intro state label after held permitted moved
      exact inStep_step held permitted moved
  cases step with
  | pass _ _ later =>
      exact (stepLstApy_onPath inStep later kept).1

theorem stepLstApy_passed
    (passed : Option ℕ) (sending : Sending) :
    (stepLstApy settings { venue with passed := passed } blockIndex
        sending).rewardRate =
      (stepLstApy settings venue blockIndex sending).rewardRate := by
  unfold stepLstApy
  dsimp only
  rcases venue.schedule.nextAt settings blockIndex with ⟨_ | next, schedule⟩
  · rfl
  · rfl

theorem refused_stays
    (due : venue.schedule.stepsTaken < settings.dueSteps blockIndex)
    {later : ℕ} (sameStep : settings.dueSteps later = settings.dueSteps blockIndex)
    (sending : Sending) :
    (stepLstApy settings (stepLstApy settings venue blockIndex .refused) later
        sending).rewardRate =
      venue.rewardRate := by
  have refused : (stepLstApy settings venue blockIndex .refused).rewardRate =
        venue.rewardRate ∧
      (stepLstApy settings venue blockIndex .refused).schedule.stepsTaken =
        settings.dueSteps blockIndex := by
    unfold stepLstApy
    rw [nextAt_due due]
    dsimp only
    by_cases same : settings.sample (settings.dueSteps blockIndex - 1) =
        venue.schedule.currentBps
    · rw [if_pos same]
      exact ⟨rfl, rfl⟩
    · rw [if_neg same]
      exact ⟨rfl, rfl⟩
  have unmoved :
      (stepLstApy settings venue blockIndex .refused).schedule.nextAt settings
          later =
        (none, (stepLstApy settings venue blockIndex .refused).schedule) := by
    apply if_pos
    rw [refused.2, sameStep]
  rw [stepLstApy, unmoved]
  exact refused.1

/-- Draws of one half, from one hundred to nine hundred, every ten blocks. -/
def halves : Settings where
  next _ := 1 / 2
  lo := 100
  hi := 900
  stepBlocks := 10
  apyBps := 300
  simulatedSecondsPerBlock := 3600

/-- A run of one pass whose writes are accepted. -/
theorem follows_halves :
    OnPath halves
      { accrueLstTask halves (.configured halves) 0 .landed .landed with
        passed := some 0 } 0 := by
  apply follows_of_losesNoWrite halves (.configured halves) 0
  · exact ⟨_, rfl, Relation.ReflTransGen.refl⟩
  · intro _
    exact ⟨fun _ _ sent => (by cases sent), fun _ _ => rfl⟩
  · exact Step.pass .landed .landed (fun passed none => by cases none)

/-- After a refused write the vault stays at the configured rate. -/
theorem write_lost : ¬FollowsPath halves System.anything := by
  intro follows
  let refused : Venue :=
    { accrueLstTask halves (.configured halves) 0 .landed .refused with
      passed := some 0 }
  have run :
      (passes halves).Runs System.anything (.configured halves) refused :=
    @System.Runs.single _ _ _ _ _ _ (Label.pass 0 .landed .refused) trivial
      (Step.pass .landed .refused fun passed none => by cases none)
  have onPath := follows _ 1 _ ⟨_, rfl, run⟩ trivial
      (Step.pass .landed .landed (by rintro _ ⟨⟩; decide))
  have stays : (stepLstApy halves
          (stepLstApy halves (.configured halves) 0 .refused) 1
          .landed).rewardRate =
        halves.rate 300 :=
    refused_stays (by decide) rfl .landed
  have drawn : halves.sample 0 = 500 := by
    norm_num [Settings.sample, halves, mathRound]
  have configured : halves.rate 300 = 3424657534246575342465 := by
    norm_num [Settings.rate, rewardRatePerBlockRay, halves, mathRound, RAY,
      SECONDS_PER_YEAR]
    rfl
  have due : halves.rate 500 = 5707762557077625570776 := by
    norm_num [Settings.rate, rewardRatePerBlockRay, halves, mathRound, RAY,
      SECONDS_PER_YEAR]
    rfl
  have same : halves.rate 300 = halves.rate (halves.sample 0) :=
    ((stepLstApy_passed _ _).trans stays).symm.trans onPath
  rw [drawn, configured, due] at same
  omega

end Eris.Lst.YieldPath
