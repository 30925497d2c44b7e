import Eris.Foundation.Deviation
import Eris.Foundation.InsertionMap

/-!
# The deviation score of an epoch

`core/src/scoring/deviationScore.ts`, `scoreEpoch`.  The profits of the agents
other than the benchmarks are measured against their mean, in tenths of their
standard deviation, around fifty.  An epoch which is invalid, without such
agents, or in which all of them earned the same, is left out.

Numbers are those of an ordered field, with the square root as a parameter; so
every profit is a finite number.
-/

namespace Eris.Scoring.DeviationScore

open Foundation Foundation.Deviation

/-! ## The score -/

inductive Weighting where
  | linear
  | equal
  deriving DecidableEq

inductive EpochExclusion where
  | invalid
  | sigmaZero
  | empty
  deriving DecidableEq

structure EpochInput (Number : Type) where
  s : ℚ
  pnlByAgent : InsertionMap String Number
  benchmarkIds : Option (List String)
  invalid : Option String

@[ext]
structure EpochResult (Number : Type) where
  s : ℚ
  w : ℚ
  n : ℕ
  mu : Option Number
  sigma : Option Number
  excluded : Option EpochExclusion
  invalidReason : Option String
  tByAgent : List (String × Number)
  benchmarkPnl : List (String × Number)

inductive Failure where
  | badOrdinal (s : ℚ)
  | badCount (k : ℚ)
  | exceeds (s k : ℚ)
  deriving DecidableEq

def Failure.message (number : ℚ → String) : Failure → String
  | .badOrdinal s =>
      "epoch ordinal must be a positive integer (got " ++ number s ++ ")"
  | .badCount k => "k must be a positive integer (got " ++ number k ++ ")"
  | .exceeds s k =>
      "epoch ordinal " ++ number s ++ " exceeds k = " ++ number k ++
        ": every epoch, re-executions and additions included, " ++
        "carries a scheduled ordinal within k (rules §4.4.1, §4.7.1)"

def weightOf (s k : ℚ) : Except Failure ℚ :=
  if !s.isInt || s < 1 then
    .error (.badOrdinal s)
  else if !k.isInt || k < 1 then
    .error (.badCount k)
  else if s > k then
    .error (.exceeds s k)
  else
    .ok (if k = 1 then 1 else 1 + 1 / 2 * (s - 1) / (k - 1))

def weightFor (s k : ℚ) (weighting : Weighting) : Except Failure ℚ := do
  let linear ← weightOf s k
  return if weighting = .equal then 1 else linear

variable {Number : Type} [Field Number] [LinearOrder Number]
    [IsStrictOrderedRing Number]

def populationStd
    (sqrt : Number → Number) (values : List Number) (mu : Number) : Number :=
  sqrt (variance values mu)

def EpochInput.isBenchmark (epoch : EpochInput Number) (id : String) : Bool :=
  id ∈ epoch.benchmarkIds.getD []

/-- The agents which are scored, with their profits. -/
def EpochInput.population (epoch : EpochInput Number) :
    List (String × Number) :=
  epoch.pnlByAgent.entries.filter fun entry => !epoch.isBenchmark entry.1

def EpochInput.benchmarkPnl (epoch : EpochInput Number) :
    List (String × Number) :=
  epoch.pnlByAgent.entries.filter fun entry => epoch.isBenchmark entry.1

/-- The profits of the agents which are scored. -/
def EpochInput.profits (epoch : EpochInput Number) : List Number :=
  epoch.population.map Prod.snd

def EpochInput.leftOut
    (epoch : EpochInput Number) (w : ℚ) (mu sigma : Option Number)
    (excluded : EpochExclusion) : EpochResult Number where
  s := epoch.s
  w := w
  n := epoch.population.length
  mu := mu
  sigma := sigma
  excluded := some excluded
  invalidReason := epoch.invalid
  tByAgent := []
  benchmarkPnl := epoch.benchmarkPnl

/-- The scores around a mean, unless the standard deviation vanishes. -/
def EpochInput.standardise
    (epoch : EpochInput Number) (w : ℚ) (mu sigma : Number) :
    EpochResult Number :=
  if sigma = 0 then
    epoch.leftOut w (some mu) (some sigma) .sigmaZero
  else
    { s := epoch.s
      w := w
      n := epoch.population.length
      mu := some mu
      sigma := some sigma
      excluded := none
      invalidReason := none
      tByAgent := epoch.population.map fun entry =>
          (entry.1, 50 + 10 * (entry.2 - mu) / sigma)
      benchmarkPnl := epoch.benchmarkPnl }

/-- The scores of an epoch under its weight. -/
def scoreWith
    (sqrt : Number → Number) (epoch : EpochInput Number) (w : ℚ) :
    EpochResult Number :=
  if epoch.invalid ≠ none then
    epoch.leftOut w none none .invalid
  else if epoch.population.length = 0 then
    epoch.leftOut w none none .empty
  else
    epoch.standardise w (mean epoch.profits)
      (populationStd sqrt epoch.profits (mean epoch.profits))

def scoreEpoch
    (sqrt : Number → Number) (epoch : EpochInput Number) (k : ℚ)
    (weighting : Weighting) : Except Failure (EpochResult Number) := do
  let w ← weightFor epoch.s k weighting
  return scoreWith sqrt epoch w

/-! ## Other profits -/

def EpochInput.mapPnl
    (epoch : EpochInput Number) (change : Number → Number) :
    EpochInput Number :=
  { epoch with
    pnlByAgent :=
      { entries :=
          epoch.pnlByAgent.entries.map fun entry =>
            (entry.1, change entry.2)
        distinct := by
          rw [List.map_map]
          exact epoch.pnlByAgent.distinct } }

def EpochInput.setPnl
    (epoch : EpochInput Number) (id : String) (profit : Number) :
    EpochInput Number :=
  { epoch with pnlByAgent := epoch.pnlByAgent.alter id fun _ => profit }

/-- What a result says of the agents which are scored. -/
def EpochResult.scores (result : EpochResult Number) :
    ℕ × Option EpochExclusion × List (String × Number) :=
  (result.n, result.excluded, result.tByAgent)

def ExactRoot (sqrt : Number → Number) : Prop :=
  ∀ number, 0 ≤ number → 0 ≤ sqrt number ∧ sqrt number ^ 2 = number

/-- What holds of the scores of an epoch which is not left out. -/
structure Standardised
    (sqrt : Number → Number) (epoch : EpochInput Number)
    (result : EpochResult Number) : Prop where
  filled : 0 < result.n
  spread : ∃ sigma, result.sigma = some sigma ∧ 0 < sigma
  agents : result.tByAgent.map Prod.fst = epoch.population.map Prod.fst
  total : (result.tByAgent.map Prod.snd).sum = 50 * result.n
  deviations : ∃ mu, result.mu = some mu ∧ ∀ profit ∈ epoch.profits,
      (profit - mu) ^ 2 ≤ (result.n - 1) * variance epoch.profits mu
  bounded : ∀ entry ∈ result.tByAgent,
    |entry.2 - 50| ≤ 10 * sqrt (result.n - 1)

variable {sqrt : Number → Number} {epoch : EpochInput Number}
    {values : List Number} {mu : Number}

theorem populationStd_nonneg (exactRoot : ExactRoot sqrt) :
    0 ≤ populationStd sqrt values mu :=
  (exactRoot _ variance_nonneg).1

theorem populationStd_sq (exactRoot : ExactRoot sqrt) :
    populationStd sqrt values mu ^ 2 = variance values mu :=
  (exactRoot _ variance_nonneg).2

theorem populationStd_eq_zero
    (exactRoot : ExactRoot sqrt) (filled : values ≠ []) :
    populationStd sqrt values (mean values) = 0 ↔
      ∀ first ∈ values, ∀ second ∈ values, first = second := by
  rw [← variance_eq_zero filled, ← populationStd_sq exactRoot, sq_eq_zero_iff]

theorem populationStd_affine
    (exactRoot : ExactRoot sqrt) {scale : Number} (positive : 0 < scale)
    (shift : Number) :
    populationStd sqrt (values.map fun value => scale * value + shift)
        (scale * mu + shift) =
      scale * populationStd sqrt values mu := by
  rw [← sq_eq_sq₀ (populationStd_nonneg exactRoot)
      (mul_nonneg positive.le (populationStd_nonneg exactRoot)),
    populationStd_sq exactRoot, mul_pow, populationStd_sq exactRoot,
    variance_affine]

omit [Field Number] [LinearOrder Number] [IsStrictOrderedRing Number] in
theorem profits_length : epoch.profits.length = epoch.population.length :=
  List.length_map _

omit [Field Number] [LinearOrder Number] [IsStrictOrderedRing Number] in
theorem profits_ne_nil (filled : epoch.population.length ≠ 0) :
    epoch.profits ≠ [] := by
  intro empty
  apply filled
  rw [← profits_length, empty]
  rfl

/-- An epoch is left out exactly when it is invalid, without agents, or all of
them earned the same. -/
theorem scoreWith_excluded (exactRoot : ExactRoot sqrt) (w : ℚ) :
    (scoreWith sqrt epoch w).excluded ≠ none ↔
      epoch.invalid ≠ none ∨ epoch.population = [] ∨
        ∀ first ∈ epoch.profits, ∀ second ∈ epoch.profits, first = second := by
  rw [scoreWith]
  split_ifs with invalid empty
  · simp [EpochInput.leftOut, invalid]
  · simp [EpochInput.leftOut, List.length_eq_zero_iff.1 empty]
  · have filled : epoch.population ≠ [] := fun none =>
      empty (List.length_eq_zero_iff.2 none)
    have flat := populationStd_eq_zero exactRoot (profits_ne_nil empty)
    rw [EpochInput.standardise]
    split_ifs with zero
    · simp only [EpochInput.leftOut, ne_eq, reduceCtorEq,
        not_false_eq_true, true_iff]
      exact Or.inr (Or.inr (flat.1 zero))
    · constructor
      · intro excluded
        exact absurd rfl excluded
      · rintro (other | none | equal)
        · exact absurd other invalid
        · exact absurd none filled
        · exact absurd (flat.2 equal) zero

theorem score_bounded
    (exactRoot : ExactRoot sqrt) {value : Number} (listed : value ∈ values)
    (spread : 0 < populationStd sqrt values (mean values)) :
    |50 + 10 * (value - mean values) / populationStd sqrt values (mean values)
        - 50| ≤
      10 * sqrt (values.length - 1) := by
  have count : (0 : Number) ≤ values.length - 1 := by
    rw [sub_nonneg, Nat.one_le_cast]
    exact List.length_pos_of_mem listed
  have root := exactRoot _ count
  have squared : (value - mean values) ^ 2 ≤ (sqrt (values.length - 1) *
      populationStd sqrt values (mean values)) ^ 2 := by
    rw [mul_pow, root.2, populationStd_sq exactRoot]
    exact sq_deviation_le listed
  have deviation :
      |value - mean values| ≤ sqrt (values.length - 1) *
          populationStd sqrt values (mean values) :=
    abs_le_of_sq_le_sq squared (mul_nonneg root.1 spread.le)
  rw [add_sub_cancel_left, abs_div, abs_mul, abs_of_pos spread,
    div_le_iff₀ spread, mul_assoc]
  have ten : |(10 : Number)| = 10 := abs_of_pos (by norm_num)
  rw [ten]
  exact mul_le_mul_of_nonneg_left deviation (by norm_num)

omit [LinearOrder Number] [IsStrictOrderedRing Number] in
theorem sum_scores (values : List Number) (mu sigma : Number) :
    (values.map fun value => 50 + 10 * (value - mu) / sigma).sum =
      50 * values.length + 10 / sigma * (values.map (· - mu)).sum := by
  induction values with
  | nil => simp
  | cons value rest ih =>
      rw [List.map_cons, List.sum_cons, ih,
        List.map_cons, List.sum_cons, List.length_cons, Nat.cast_succ]
      ring

theorem scoreWith_standardised
    (exactRoot : ExactRoot sqrt) {w : ℚ}
    (included : (scoreWith sqrt epoch w).excluded = none) :
    Standardised sqrt epoch (scoreWith sqrt epoch w) := by
  rw [scoreWith] at included ⊢
  split_ifs at included ⊢ with invalid empty
  · cases included
  · cases included
  · have filled := profits_ne_nil empty
    rw [EpochInput.standardise] at included ⊢
    split_ifs at included ⊢ with zero
    · cases included
    · have spread : 0 < populationStd sqrt epoch.profits (mean epoch.profits) :=
        lt_of_le_of_ne (populationStd_nonneg exactRoot) (Ne.symm zero)
      constructor
      · exact Nat.pos_of_ne_zero empty
      · exact ⟨_, rfl, spread⟩
      · rw [List.map_map]
        rfl
      · rw [List.map_map]
        change (epoch.population.map fun entry =>
            50 + 10 * (entry.2 - mean epoch.profits) /
              populationStd sqrt epoch.profits (mean epoch.profits)).sum =
            50 * (epoch.population.length : Number)
        have total := sum_scores epoch.profits (mean epoch.profits)
            (populationStd sqrt epoch.profits (mean epoch.profits))
        rw [sum_deviations_mean filled, mul_zero, add_zero,
          profits_length] at total
        rw [← total, EpochInput.profits, List.map_map]
        rfl
      · refine ⟨_, rfl, fun profit listed => ?_⟩
        rw [← profits_length]
        exact sq_deviation_le listed
      · intro entry listed
        rcases List.mem_map.1 listed with ⟨member, inside, rfl⟩
        rw [← profits_length]
        exact score_bounded exactRoot (List.mem_map_of_mem inside) spread

/-! ## The same scores -/

omit [Field Number] [LinearOrder Number] [IsStrictOrderedRing Number] in
theorem population_mapPnl (change : Number → Number) :
    (epoch.mapPnl change).population =
      epoch.population.map fun entry => (entry.1, change entry.2) := by
  rw [EpochInput.population, EpochInput.mapPnl, List.filter_map]
  rfl

omit [Field Number] [LinearOrder Number] [IsStrictOrderedRing Number] in
theorem profits_mapPnl (change : Number → Number) :
    (epoch.mapPnl change).profits = epoch.profits.map change := by
  rw [EpochInput.profits, population_mapPnl, List.map_map,
    EpochInput.profits, List.map_map]
  rfl

theorem scores_affine
    (exactRoot : ExactRoot sqrt) {scale : Number} (positive : 0 < scale)
    (shift : Number) (w : ℚ) :
    (scoreWith sqrt
        (epoch.mapPnl fun profit => scale * profit + shift) w).scores =
      (scoreWith sqrt epoch w).scores := by
  have count :
      (epoch.mapPnl fun profit => scale * profit + shift).population.length =
        epoch.population.length := by
    rw [population_mapPnl, List.length_map]
  have sameInvalid :
      (epoch.mapPnl fun profit => scale * profit + shift).invalid =
        epoch.invalid :=
    rfl
  rw [scoreWith, scoreWith, sameInvalid, count]
  split_ifs with invalid empty
  · simp [EpochResult.scores, EpochInput.leftOut, count]
  · simp [EpochResult.scores, EpochInput.leftOut, count]
  · have filled := profits_ne_nil empty
    rw [profits_mapPnl, mean_affine filled,
      populationStd_affine exactRoot positive, EpochInput.standardise,
      EpochInput.standardise]
    by_cases zero : populationStd sqrt epoch.profits (mean epoch.profits) = 0
    · have scaledZero :
          scale * populationStd sqrt epoch.profits (mean epoch.profits) =
            0 := by
        rw [zero, mul_zero]
      rw [if_pos scaledZero, if_pos zero]
      simp [EpochResult.scores, EpochInput.leftOut, count]
    · have scaledNonzero :
          scale * populationStd sqrt epoch.profits (mean epoch.profits) ≠ 0 :=
        mul_ne_zero positive.ne' zero
      rw [if_neg scaledNonzero, if_neg zero]
      simp only [EpochResult.scores, population_mapPnl, List.map_map,
        List.length_map, Prod.mk.injEq, true_and]
      apply List.map_congr_left
      intro entry _
      rw [Function.comp_apply]
      have fraction : 10 * (scale * entry.2 + shift -
            (scale * mean epoch.profits + shift)) =
          scale * (10 * (entry.2 - mean epoch.profits)) := by
        ring
      rw [fraction, mul_div_mul_left _ _ positive.ne']

omit [Field Number] [LinearOrder Number] [IsStrictOrderedRing Number] in
theorem filter_alterEntries
    (test : String → Bool) {id : String} (silent : test id = false)
    (change : Option Number → Number) (entries : List (String × Number)) :
    (InsertionMap.alterEntries id change entries).filter
        (fun entry => test entry.1) =
      entries.filter fun entry => test entry.1 := by
  induction entries with
  | nil => simp [InsertionMap.alterEntries, silent]
  | cons entry rest ih =>
      rw [InsertionMap.alterEntries]
      by_cases same : entry.1 = id
      · rw [if_pos same, List.filter_cons_of_neg (by simp [silent]),
          List.filter_cons_of_neg (by simp [same, silent])]
      · rw [if_neg same, List.filter_cons, List.filter_cons, ih]

omit [Field Number] [LinearOrder Number] [IsStrictOrderedRing Number] in
theorem population_setPnl
    {id : String} (benchmark : epoch.isBenchmark id = true) (profit : Number) :
    (epoch.setPnl id profit).population = epoch.population :=
  filter_alterEntries (fun other => !epoch.isBenchmark other)
    (by rw [benchmark]; rfl) (fun _ => profit) epoch.pnlByAgent.entries

omit [IsStrictOrderedRing Number] in
theorem scores_setPnl
    {id : String} (benchmark : epoch.isBenchmark id = true)
    (profit : Number) (w : ℚ) :
    (scoreWith sqrt (epoch.setPnl id profit) w).scores =
      (scoreWith sqrt epoch w).scores := by
  have population := population_setPnl benchmark profit
  have profits : (epoch.setPnl id profit).profits = epoch.profits := by
    rw [EpochInput.profits, population]
    rfl
  have sameInvalid : (epoch.setPnl id profit).invalid = epoch.invalid := rfl
  rw [scoreWith, scoreWith, sameInvalid, population, profits]
  split_ifs with invalid empty
  · simp [EpochResult.scores, EpochInput.leftOut, population]
  · simp [EpochResult.scores, EpochInput.leftOut, population]
  · rw [EpochInput.standardise, EpochInput.standardise]
    split_ifs with zero
    · simp [EpochResult.scores, EpochInput.leftOut, population]
    · simp [EpochResult.scores, population]

omit [IsStrictOrderedRing Number] in
theorem scoreEpoch_of_weight
    {k w : ℚ} {weighting : Weighting}
    (weighted : weightFor epoch.s k weighting = .ok w) :
    scoreEpoch sqrt epoch k weighting = .ok (scoreWith sqrt epoch w) := by
  rw [scoreEpoch, weighted]
  rfl

/-- For every epoch with a scheduled ordinal: it is left out exactly when it
is invalid, without scored agents, or these all earned the same; otherwise the
scores sum up to fifty for each agent and none is further than ten times
`sqrt (n - 1)` from fifty; and the scores stay as they are when all profits
are moved or stretched alike, when they are taken as returns on a common
start, and when a benchmark has another profit. -/
theorem scoreEpoch_exact
    (exactRoot : ExactRoot sqrt) (epoch : EpochInput Number)
    {k w : ℚ} {weighting : Weighting}
    (weighted : weightFor epoch.s k weighting = .ok w) :
    ∃ result, scoreEpoch sqrt epoch k weighting = .ok result ∧
      (result.excluded ≠ none ↔ epoch.invalid ≠ none ∨ epoch.population = [] ∨
          ∀ first ∈ epoch.profits, ∀ second ∈ epoch.profits, first = second) ∧
      (result.excluded = none → Standardised sqrt epoch result) ∧
      (∀ shift, (scoreEpoch sqrt (epoch.mapPnl (· + shift)) k weighting).map
          EpochResult.scores = .ok result.scores) ∧
      (∀ scale, 0 < scale →
        (scoreEpoch sqrt (epoch.mapPnl (scale * ·)) k weighting).map
          EpochResult.scores = .ok result.scores) ∧
      (∀ start, 0 < start →
        (scoreEpoch sqrt (epoch.mapPnl (· - start)) k weighting).map
            EpochResult.scores =
          (scoreEpoch sqrt (epoch.mapPnl (· / start - 1)) k weighting).map
            EpochResult.scores) ∧
      ∀ id profit, epoch.isBenchmark id = true →
        (scoreEpoch sqrt (epoch.setPnl id profit) k weighting).map
          EpochResult.scores = .ok result.scores := by
  have mapped : ∀ change : Number → Number,
      (scoreEpoch sqrt (epoch.mapPnl change) k weighting).map
          EpochResult.scores =
        .ok (scoreWith sqrt (epoch.mapPnl change) w).scores := by
    intro change
    have sameOrdinal : (epoch.mapPnl change).s = epoch.s := rfl
    rw [scoreEpoch_of_weight (sameOrdinal ▸ weighted)]
    rfl
  have affine : ∀ scale shift : Number, 0 < scale → (scoreEpoch sqrt
        (epoch.mapPnl fun profit => scale * profit + shift) k
        weighting).map EpochResult.scores =
      .ok (scoreWith sqrt epoch w).scores := by
    intro scale shift positive
    rw [mapped, scores_affine exactRoot positive]
  refine ⟨scoreWith sqrt epoch w, scoreEpoch_of_weight weighted,
    scoreWith_excluded exactRoot w, scoreWith_standardised exactRoot,
    ?_, ?_, ?_, ?_⟩
  · intro shift
    have moved := affine 1 shift one_pos
    simpa only [one_mul] using moved
  · intro scale positive
    have stretched := affine scale 0 positive
    simpa only [add_zero] using stretched
  · intro start positive
    have difference := affine 1 (-start) one_pos
    have ratio := affine start⁻¹ (-1) (inv_pos.2 positive)
    simp only [one_mul, ← sub_eq_add_neg] at difference
    simp only [← sub_eq_add_neg] at ratio
    rw [difference, ← ratio]
    simp only [div_eq_inv_mul]
  · intro id profit benchmark
    have sameOrdinal : (epoch.setPnl id profit).s = epoch.s := rfl
    rw [scoreEpoch_of_weight (sameOrdinal ▸ weighted)]
    exact congrArg Except.ok (scores_setPnl benchmark profit w)

local instance twoAtLeastTwo : Nat.AtLeastTwo 2 := inferInstance

def exampleEpoch : EpochInput ℝ where
  s := 1
  pnlByAgent := ⟨[("a", 1), ("b", 2), ("c", 6), ("hold", 100)], by decide⟩
  benchmarkIds := some ["hold"]
  invalid := none

theorem scoreEpoch_exact_example :
    ∃ result, scoreEpoch Real.sqrt exampleEpoch 1 .linear = .ok result ∧
        result.excluded = none ∧
          (result.tByAgent.map Prod.snd).sum = 50 * (result.n : ℝ) := by
  have exactRoot : ExactRoot Real.sqrt := fun number nonneg =>
    ⟨Real.sqrt_nonneg number, Real.sq_sqrt nonneg⟩
  have weighted : weightFor exampleEpoch.s 1 .linear = .ok 1 := by
    decide
  rcases scoreEpoch_exact exactRoot exampleEpoch weighted with
    ⟨result, scored, excluded, standardised, -⟩
  have population :
      exampleEpoch.population = [("a", 1), ("b", 2), ("c", 6)] := by
    rfl
  have included : result.excluded = none := by
    by_contra outside
    rcases excluded.1 outside with invalid | empty | equal
    · exact invalid rfl
    · rw [population] at empty
      cases empty
    · rw [EpochInput.profits, population] at equal
      have same := equal 1 (by simp) 2 (by simp)
      norm_num at same
  exact ⟨result, scored, included, (standardised included).total⟩

end Eris.Scoring.DeviationScore
