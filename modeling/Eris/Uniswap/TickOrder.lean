import Eris.Uniswap.TickMath

/-!
# The order of the ratios

`sdk/src/tickMath.ts`, `getSqrtRatioAtTick`.  The ratio of a tick is a product
of constants, one for every bit of the tick, rounded down after each factor.
Two neighbours first differ where the lower one ends in ones; the gap which
they have there outlasts the rounding of the remaining factors.

So the ratios of two ticks are in the order of the ticks, and the depth of a
position between two ticks comes back in full exactly when the price lies at
or above its range, or rounding is harmless.
-/

namespace Eris.Uniswap.TickMath

/-! ## Scaling -/

/-- Multiply by a constant of 128 fractional bits. -/
def scaled (ratio constant : ℕ) : ℕ := (ratio * constant) >>> 128

theorem scaled_mono {first second : ℕ} (ordered : first ≤ second)
    (constant : ℕ) : scaled first constant ≤ scaled second constant := by
  rw [scaled, scaled, Nat.shiftRight_eq_div_pow, Nat.shiftRight_eq_div_pow]
  exact Nat.div_le_div_right (Nat.mul_le_mul_right constant ordered)

theorem scaled_add (ratio gap constant : ℕ) :
    scaled ratio constant + scaled gap constant ≤
      scaled (ratio + gap) constant := by
  rw [scaled, scaled, scaled, Nat.shiftRight_eq_div_pow,
    Nat.shiftRight_eq_div_pow, Nat.shiftRight_eq_div_pow, Nat.add_mul]
  exact Nat.div_add_div_le_add_div

theorem scaled_le {constant : ℕ} (proper : constant ≤ 2 ^ 128) (ratio : ℕ) :
    scaled ratio constant ≤ ratio := by
  rw [scaled, Nat.shiftRight_eq_div_pow]
  apply Nat.div_le_of_le_mul
  rw [Nat.mul_comm ratio constant]
  exact Nat.mul_le_mul_right ratio proper

/-- Multiply a ratio by the constants of the bits of a tick. -/
def scaleAt (absTick ratio : ℕ) (steps : List (ℕ × ℕ)) : ℕ :=
  steps.foldl (stepRatio absTick) ratio

def scaleAll (ratio : ℕ) (steps : List (ℕ × ℕ)) : ℕ :=
  (steps.map Prod.snd).foldl scaled ratio

theorem stepRatio_mono
    {first second : ℕ} (ordered : first ≤ second) (absTick : ℕ) (step : ℕ × ℕ) :
    stepRatio absTick first step ≤ stepRatio absTick second step := by
  rw [stepRatio, stepRatio]
  split_ifs
  · exact scaled_mono ordered step.2
  · exact ordered

theorem stepRatio_add (absTick ratio gap : ℕ) (step : ℕ × ℕ) :
    stepRatio absTick ratio step + stepRatio absTick gap step ≤
      stepRatio absTick (ratio + gap) step := by
  rw [stepRatio, stepRatio, stepRatio]
  split_ifs
  · exact scaled_add ratio gap step.2
  · exact le_rfl

theorem scaleAt_mono
    {first second : ℕ} (ordered : first ≤ second)
    (absTick : ℕ) (steps : List (ℕ × ℕ)) :
    scaleAt absTick first steps ≤ scaleAt absTick second steps := by
  induction steps generalizing first second with
  | nil => exact ordered
  | cons step rest ih =>
      exact ih (stepRatio_mono ordered absTick step)

theorem scaleAt_add (absTick ratio gap : ℕ) (steps : List (ℕ × ℕ)) :
    scaleAt absTick ratio steps + scaleAt absTick gap steps ≤
      scaleAt absTick (ratio + gap) steps := by
  induction steps generalizing ratio gap with
  | nil => exact le_rfl
  | cons step rest ih =>
      exact (ih _ _).trans (scaleAt_mono (stepRatio_add absTick ratio gap step)
        absTick rest)

theorem scaleAll_mono
    {first second : ℕ} (ordered : first ≤ second) (steps : List (ℕ × ℕ)) :
    scaleAll first steps ≤ scaleAll second steps := by
  induction steps generalizing first second with
  | nil => exact ordered
  | cons step rest ih =>
      exact ih (scaled_mono ordered step.2)

theorem scaleAll_le
    {steps : List (ℕ × ℕ)} (proper : ∀ step ∈ steps, step.2 ≤ 2 ^ 128)
    (absTick ratio : ℕ) :
    scaleAll ratio steps ≤ scaleAt absTick ratio steps := by
  induction steps generalizing ratio with
  | nil => exact le_rfl
  | cons step rest ih =>
      rw [List.forall_mem_cons] at proper
      have step_le : scaled ratio step.2 ≤ stepRatio absTick ratio step := by
        rw [stepRatio]
        split_ifs
        · exact le_rfl
        · exact scaled_le proper.1 ratio
      calc
        scaleAll ratio (step :: rest) =
            scaleAll (scaled ratio step.2) rest :=
          rfl
        _ ≤ scaleAll (stepRatio absTick ratio step) rest :=
          scaleAll_mono step_le rest
        _ ≤ scaleAt absTick (stepRatio absTick ratio step) rest := ih proper.2 _
        _ = scaleAt absTick ratio (step :: rest) := rfl

theorem scaleAt_congr
    {first second : ℕ} {steps : List (ℕ × ℕ)}
    (same : ∀ step ∈ steps, first &&& step.1 = second &&& step.1) (ratio : ℕ) :
    scaleAt first ratio steps = scaleAt second ratio steps := by
  induction steps generalizing ratio with
  | nil => rfl
  | cons step rest ih =>
      rw [List.forall_mem_cons] at same
      have equal :
          stepRatio first ratio step = stepRatio second ratio step := by
        rw [stepRatio, stepRatio, same.1]
      calc
        scaleAt first ratio (step :: rest) =
            scaleAt first (stepRatio first ratio step) rest :=
          rfl
        _ = scaleAt second (stepRatio second ratio step) rest := by
          rw [equal, ih same.2]
        _ = scaleAt second ratio (step :: rest) := rfl

/-- The masks of all bits with their constants. -/
def allSteps : List (ℕ × ℕ) :=
  (0x1, 0xfffcb933bd6fad37aa2d162d1a594001) :: tickSteps

theorem rawRatio_eq (absTick : ℕ) :
    rawRatio absTick = scaleAt absTick (2 ^ 128) allSteps := by
  have first : (if absTick &&& 0x1 ≠ 0 then
        0xfffcb933bd6fad37aa2d162d1a594001
      else
        0x100000000000000000000000000000000) =
        stepRatio absTick (2 ^ 128)
          (0x1, 0xfffcb933bd6fad37aa2d162d1a594001) := by
    rw [stepRatio]
    split_ifs
    · decide
    · decide
  rw [rawRatio, first]
  rfl

theorem allSteps_proper : ∀ step ∈ allSteps, step.2 ≤ 2 ^ 128 := by
  decide

theorem masks_take :
    ∀ bit < 20, ∀ step ∈ allSteps.take (bit + 1),
      ∃ place < 20, place ≤ bit ∧ step.1 = 2 ^ place := by
  decide

theorem masks_drop :
    ∀ bit < 20, ∀ step ∈ allSteps.drop (bit + 1),
      ∃ place < 20, bit < place ∧ step.1 = 2 ^ place := by
  decide

/-- The gap between the ratios of two neighbours which first differ at a
bit. -/
def gapAt (bit : ℕ) : ℕ :=
  scaleAt (2 ^ bit - 1) (2 ^ 128) (allSteps.take (bit + 1)) -
    scaleAt (2 ^ bit) (2 ^ 128) (allSteps.take (bit + 1))

theorem gapAt_lasts :
    ∀ bit < 20, scaleAt (2 ^ bit) (2 ^ 128) (allSteps.take (bit + 1)) ≤
          scaleAt (2 ^ bit - 1) (2 ^ 128) (allSteps.take (bit + 1)) ∧
        2 ^ 33 ≤ scaleAll (gapAt bit) (allSteps.drop (bit + 1)) := by
  decide

variable {bit place low other high : ℕ}

theorem mask_low (below : low < 2 ^ (bit + 1)) (within : place ≤ bit) :
    (2 ^ (bit + 1) * high + low) &&& 2 ^ place = low &&& 2 ^ place := by
  rw [Nat.and_two_pow, Nat.and_two_pow,
    Nat.testBit_two_pow_mul_add high below, if_pos (Nat.lt_succ_of_le within)]

theorem mask_high
    (below : low < 2 ^ (bit + 1)) (otherBelow : other < 2 ^ (bit + 1))
    (beyond : bit < place) :
    (2 ^ (bit + 1) * high + low) &&& 2 ^ place =
      (2 ^ (bit + 1) * high + other) &&& 2 ^ place := by
  rw [Nat.and_two_pow, Nat.and_two_pow, Nat.testBit_two_pow_mul_add high below,
    Nat.testBit_two_pow_mul_add high otherBelow,
    if_neg (not_lt.2 beyond), if_neg (not_lt.2 beyond)]

theorem scaleAt_allSteps (bit absTick : ℕ) :
    scaleAt absTick (2 ^ 128) allSteps = scaleAt absTick
        (scaleAt absTick (2 ^ 128) (allSteps.take (bit + 1)))
        (allSteps.drop (bit + 1)) := by
  unfold scaleAt
  rw [← List.foldl_append, List.take_append_drop]

theorem scaleAt_low (inside : bit < 20) (below : low < 2 ^ (bit + 1)) :
    scaleAt (2 ^ (bit + 1) * high + low) (2 ^ 128) (allSteps.take (bit + 1)) =
      scaleAt low (2 ^ 128) (allSteps.take (bit + 1)) := by
  apply scaleAt_congr
  intro step listed
  rcases masks_take bit inside step listed with ⟨place, _, within, mask⟩
  rw [mask]
  exact mask_low below within

theorem rawRatio_gap (few : bit < 20) (high : ℕ) :
    rawRatio (2 ^ (bit + 1) * high + 2 ^ bit) + 2 ^ 33 ≤
      rawRatio (2 ^ (bit + 1) * high + (2 ^ bit - 1)) := by
  have upperBelow : 2 ^ bit < 2 ^ (bit + 1) := Nat.pow_lt_pow_succ (by decide)
  have lowerBelow : 2 ^ bit - 1 < 2 ^ (bit + 1) :=
    (Nat.sub_le _ _).trans_lt upperBelow
  have rest : ∀ ratio, scaleAt (2 ^ (bit + 1) * high + 2 ^ bit) ratio
        (allSteps.drop (bit + 1)) =
      scaleAt (2 ^ (bit + 1) * high + (2 ^ bit - 1)) ratio
        (allSteps.drop (bit + 1)) := by
    intro ratio
    apply scaleAt_congr
    intro step listed
    rcases masks_drop bit few step listed with ⟨place, _, beyond, mask⟩
    rw [mask]
    exact mask_high upperBelow lowerBelow beyond
  rcases gapAt_lasts bit few with ⟨ordered, lasting⟩
  have remaining : 2 ^ 33 ≤
        scaleAt (2 ^ (bit + 1) * high + (2 ^ bit - 1)) (gapAt bit)
          (allSteps.drop (bit + 1)) :=
    lasting.trans (scaleAll_le (fun step listed =>
          allSteps_proper step (List.mem_of_mem_drop listed)) _ _)
  rw [rawRatio_eq, rawRatio_eq, scaleAt_allSteps bit, scaleAt_low few upperBelow,
    scaleAt_allSteps bit (2 ^ (bit + 1) * high + (2 ^ bit - 1)),
    scaleAt_low few lowerBelow, rest,
    ← Nat.add_sub_cancel' ordered]
  exact (Nat.add_le_add_left remaining _).trans (scaleAt_add _ _ _ _)

theorem rawRatio_succ {absTick : ℕ} (inside : absTick + 1 < 2 ^ 20) :
    rawRatio (absTick + 1) + 2 ^ 33 ≤ rawRatio absTick := by
  rcases Nat.exists_eq_two_pow_mul_odd (Nat.succ_ne_zero absTick) with
    ⟨bit, odd, ⟨high, rfl⟩, next⟩
  have few : bit < 20 := by
    have small : 2 ^ bit < 2 ^ 20 := by
      calc
        2 ^ bit ≤ 2 ^ bit * (2 * high + 1) :=
          Nat.le_mul_of_pos_right _ (Nat.succ_pos _)
        _ = absTick + 1 := next.symm
        _ < 2 ^ 20 := inside
    exact (Nat.pow_lt_pow_iff_right (by decide)).1 small
  have positive : 0 < 2 ^ bit := Nat.two_pow_pos bit
  have upper : absTick + 1 = 2 ^ (bit + 1) * high + 2 ^ bit := by
    calc
      absTick + 1 = 2 ^ bit * (2 * high + 1) := next
      _ = 2 ^ (bit + 1) * high + 2 ^ bit := by ring
  have lower : absTick = 2 ^ (bit + 1) * high + (2 ^ bit - 1) := by
    omega
  have gap := rawRatio_gap few high
  rwa [← upper, ← lower] at gap

theorem rawRatio_lt
    {first second : ℕ} (ordered : first < second) (inside : second < 2 ^ 20) :
    rawRatio second + 2 ^ 33 ≤ rawRatio first := by
  induction second, Nat.succ_le_of_lt ordered using Nat.le_induction with
  | base => exact rawRatio_succ inside
  | succ second later ih =>
      have before := ih (Nat.lt_of_succ_le later)
          ((Nat.lt_succ_self second).trans inside)
      calc
        rawRatio (second + 1) + 2 ^ 33 ≤ rawRatio second := rawRatio_succ inside
        _ ≤ rawRatio second + 2 ^ 33 := Nat.le_add_right _ _
        _ ≤ rawRatio first := before

theorem rawRatio_pos {absTick : ℕ} (inside : absTick + 1 < 2 ^ 20) :
    0 < rawRatio absTick :=
  lt_of_lt_of_le (by decide)
    ((Nat.le_add_left (2 ^ 33) _).trans (rawRatio_succ inside))

theorem rawRatio_zero : rawRatio 0 = 2 ^ 128 := by
  decide

theorem rawRatio_le {absTick : ℕ} (inside : absTick < 2 ^ 20) :
    rawRatio absTick ≤ 2 ^ 128 := by
  rcases Nat.eq_zero_or_pos absTick with rfl | positive
  · exact rawRatio_zero.le
  · have gap := rawRatio_lt positive inside
    rw [rawRatio_zero] at gap
    exact (Nat.le_add_right _ _).trans gap

/-! ## Ticks -/

/-- The ratio of 128 fractional bits of a tick. -/
def wideRatio (tick : ℤ) : ℕ :=
  if tick > 0 then
    maxUint256 / rawRatio tick.natAbs
  else
    rawRatio tick.natAbs

theorem ceilDiv_eq_shift (ratio : ℕ) :
    (ratio >>> 32) + (if ratio % (1 <<< 32) = 0 then 0 else 1) =
      ratio ⌈/⌉ 2 ^ 32 := by
  have positive : 0 < 2 ^ 32 := by decide
  have rounded : divRoundingUp ratio (2 ^ 32) = some (ratio ⌈/⌉ 2 ^ 32) :=
    divRoundingUp_of_pos positive
  rw [divRoundingUp, quotient_of_pos positive, Option.bind_eq_bind,
    Option.bind_some, Option.pure_def, Option.some.injEq] at rounded
  rw [← rounded, Nat.shiftRight_eq_div_pow]
  split_ifs with whole other other
  · rfl
  · exact absurd whole other
  · exact absurd other whole
  · rfl

theorem getSqrtRatioAtTick_eq_some {tick : ℤ} {ratio : ℕ} :
    getSqrtRatioAtTick tick = some ratio ↔
      minTick ≤ tick ∧ tick ≤ maxTick ∧ wideRatio tick ⌈/⌉ 2 ^ 32 = ratio := by
  rw [getSqrtRatioAtTick]
  by_cases outside : tick < minTick ∨ tick > maxTick
  · rw [if_pos outside]
    constructor
    · rintro ⟨⟩
    · rintro ⟨low, high, -⟩
      rcases outside with below | above
      · exact absurd low (not_le.2 below)
      · exact absurd high (not_le.2 above)
  · rw [if_neg outside]
    rw [not_or, not_lt, not_lt] at outside
    have rounded := ceilDiv_eq_shift (wideRatio tick)
    constructor
    · intro found
      exact ⟨outside.1, outside.2, rounded.symm.trans (Option.some.inj found)⟩
    · rintro ⟨-, -, equal⟩
      exact congrArg some (rounded.trans equal)

theorem inverse_gap
    {first second : ℕ} (positive : 0 < second)
    (bounded : first ≤ 2 ^ 128) (gap : second + 2 ^ 33 ≤ first) :
    maxUint256 / first + (2 ^ 32 + 1) ≤ maxUint256 / second := by
  have least : 2 ^ 128 - 1 ≤ maxUint256 / first := by
    calc
      2 ^ 128 - 1 = maxUint256 / 2 ^ 128 := by decide
      _ ≤ maxUint256 / first := Nat.div_le_div_left bounded (by omega)
  rw [Nat.le_div_iff_mul_le positive]
  have whole : maxUint256 / first * first ≤ maxUint256 :=
    Nat.div_mul_le_self _ _
  generalize maxUint256 / first = quotient at least whole ⊢
  have scaledGap : quotient * (second + 2 ^ 33) ≤ quotient * first :=
    Nat.mul_le_mul_left quotient gap
  have room : (2 ^ 32 + 1) * second ≤ quotient * 2 ^ 33 := by
    calc
      (2 ^ 32 + 1) * second ≤ (2 ^ 32 + 1) * 2 ^ 128 :=
        Nat.mul_le_mul_left _ (by omega)
      _ ≤ (2 ^ 128 - 1) * 2 ^ 33 := by decide
      _ ≤ quotient * 2 ^ 33 := Nat.mul_le_mul_right _ least
  calc
    (quotient + (2 ^ 32 + 1)) * second =
        quotient * second + (2 ^ 32 + 1) * second :=
      Nat.add_mul _ _ _
    _ ≤ quotient * second + quotient * 2 ^ 33 := Nat.add_le_add_left room _
    _ = quotient * (second + 2 ^ 33) := (Nat.mul_add _ _ _).symm
    _ ≤ maxUint256 := scaledGap.trans whole

theorem wideRatio_lt
    {first second : ℤ} (ordered : first < second)
    (low : minTick ≤ first) (high : second ≤ maxTick) :
    wideRatio first + 2 ^ 32 ≤ wideRatio second := by
  have lowest : -887272 ≤ first := low
  have highest : second ≤ 887272 := high
  rw [wideRatio, wideRatio]
  split_ifs with firstPositive secondPositive secondPositive
  · have gap : maxUint256 / rawRatio first.natAbs + (2 ^ 32 + 1) ≤
        maxUint256 / rawRatio second.natAbs := by
      apply inverse_gap
      · exact rawRatio_pos (by omega)
      · exact rawRatio_le (by omega)
      · exact rawRatio_lt (by omega) (by omega)
    omega
  · omega
  · have gap : maxUint256 / 2 ^ 128 + (2 ^ 32 + 1) ≤
        maxUint256 / rawRatio second.natAbs := by
      apply inverse_gap
      · exact rawRatio_pos (by omega)
      · exact le_rfl
      · rw [← rawRatio_zero]
        exact rawRatio_lt (by omega) (by omega)
    have unit : maxUint256 / 2 ^ 128 + 1 = 2 ^ 128 := by decide
    have small : rawRatio first.natAbs ≤ 2 ^ 128 := rawRatio_le (by omega)
    omega
  · have gap : rawRatio first.natAbs + 2 ^ 33 ≤ rawRatio second.natAbs :=
      rawRatio_lt (by omega) (by omega)
    omega

theorem getSqrtRatioAtTick_lt
    {first second : ℤ} {lower upper : ℕ} (ordered : first < second)
    (lowerRatio : getSqrtRatioAtTick first = some lower)
    (upperRatio : getSqrtRatioAtTick second = some upper) :
    lower < upper := by
  rcases getSqrtRatioAtTick_eq_some.1 lowerRatio with ⟨low, -, rfl⟩
  rcases getSqrtRatioAtTick_eq_some.1 upperRatio with ⟨-, high, rfl⟩
  have positive : 0 < 2 ^ 32 := by decide
  have room := wideRatio_lt ordered low high
  have covered : wideRatio second ≤ 2 ^ 32 * (wideRatio second ⌈/⌉ 2 ^ 32) :=
    (ceilDiv_le_iff_le_mul positive).1 le_rfl
  generalize wideRatio second ⌈/⌉ 2 ^ 32 = upper at covered ⊢
  have shorter : wideRatio first ≤ 2 ^ 32 * (upper - 1) := by
    rw [Nat.mul_sub_one]
    exact Nat.le_sub_of_add_le (room.trans covered)
  have within : wideRatio first ⌈/⌉ 2 ^ 32 ≤ upper - 1 :=
    (ceilDiv_le_iff_le_mul positive).2 shorter
  omega

theorem getSqrtRatioAtTick_pos
    {tick : ℤ} {ratio : ℕ} (found : getSqrtRatioAtTick tick = some ratio) :
    0 < ratio := by
  rcases getSqrtRatioAtTick_eq_some.1 found with ⟨low, high, rfl⟩
  have lowest : -887272 ≤ tick := low
  have highest : tick ≤ 887272 := high
  have raw : 0 < rawRatio tick.natAbs := rawRatio_pos (by omega)
  have wide : 0 < wideRatio tick := by
    rw [wideRatio]
    split_ifs
    · apply Nat.div_pos _ raw
      exact (rawRatio_le (by omega)).trans (by decide)
    · exact raw
  by_contra zero
  have covered :=
    (ceilDiv_le_iff_le_mul (by decide : 0 < 2 ^ 32)).1 (not_lt.1 zero)
  rw [Nat.mul_zero] at covered
  exact absurd wide (not_lt.2 covered)

end Eris.Uniswap.TickMath
