import Mathlib

/-!
# Restoring pulled depth

`sdk/src/tickMath.ts`.  Depth is withdrawn as an amount of liquidity but put
back as token amounts, from which the position manager derives the liquidity.
Both conversions are exact integer arithmetic with fixed-point ratios of 96
fractional bits.

The amounts are rounded up.  The conversion back also rounds the product of
the two ratios down, and no rounding of the amounts accounts for that: the
depth comes back in full exactly when every whole amount which is enough at
the exact product is enough at the rounded one.
-/

namespace Eris.Uniswap.TickMath

/-- One in fixed-point numbers of 96 fractional bits. -/
def Q96 : ℕ := 2 ^ 96

def maxUint256 : ℕ := 2 ^ 256 - 1

def minTick : ℤ := -887272

def maxTick : ℤ := 887272

/-! ## Ratios of ticks -/

/-- The masks of `getSqrtRatioAtTick` with their constants. -/
def tickSteps : List (ℕ × ℕ) :=
  [ (0x2, 0xfff97272373d413259a46990580e213a),
    (0x4, 0xfff2e50f5f656932ef12357cf3c7fdcc),
    (0x8, 0xffe5caca7e10e4e61c3624eaa0941cd0),
    (0x10, 0xffcb9843d60f6159c9db58835c926644),
    (0x20, 0xff973b41fa98c081472e6896dfb254c0),
    (0x40, 0xff2ea16466c96a3843ec78b326b52861),
    (0x80, 0xfe5dee046a99a2a811c461f1969c3053),
    (0x100, 0xfcbe86c7900a88aedcffc83b479aa3a4),
    (0x200, 0xf987a7253ac413176f2b074cf7815e54),
    (0x400, 0xf3392b0822b70005940c7a398e4b70f3),
    (0x800, 0xe7159475a2c29b7443b29c7fa6e889d9),
    (0x1000, 0xd097f3bdfd2022b8845ad8f792aa5825),
    (0x2000, 0xa9f746462d870fdf8a65dc1f90e061e5),
    (0x4000, 0x70d869a156d2a1b890bb3df62baf32f7),
    (0x8000, 0x31be135f97d08fd981231505542fcfa6),
    (0x10000, 0x9aa508b5b7a84e1c677de54f3e99bc9),
    (0x20000, 0x5d6af8dedb81196699c329225ee604),
    (0x40000, 0x2216e584f5fa1ea926041bedfe98),
    (0x80000, 0x48a170391f7dc42444e8fa2) ]

/-- Multiply a ratio by the constant of a mask which the tick has. -/
def stepRatio (absTick ratio : ℕ) (maskConstant : ℕ × ℕ) : ℕ :=
  if absTick &&& maskConstant.1 ≠ 0 then
    (ratio * maskConstant.2) >>> 128
  else
    ratio

/-- The ratio of 128 fractional bits which a tick and its negation share. -/
def rawRatio (absTick : ℕ) : ℕ :=
  tickSteps.foldl (stepRatio absTick) (if absTick &&& 0x1 ≠ 0 then
      0xfffcb933bd6fad37aa2d162d1a594001
    else
      0x100000000000000000000000000000000)

/-- The square root of `1.0001 ^ tick`, unless the tick is out of range. -/
def getSqrtRatioAtTick (tick : ℤ) : Option ℕ :=
  if tick < minTick ∨ tick > maxTick then
    none
  else
    let raw := rawRatio tick.natAbs
    let ratio := if tick > 0 then maxUint256 / raw else raw
    some ((ratio >>> 32) + if ratio % (1 <<< 32) = 0 then 0 else 1)

def quotient (a b : ℕ) : Option ℕ := if b = 0 then none else some (a / b)

def mulDiv (a b denominator : ℕ) : Option ℕ := quotient (a * b) denominator

def divRoundingUp (a b : ℕ) : Option ℕ := do
  let result ← quotient a b
  return if a % b = 0 then result else result + 1

def mulDivRoundingUp (a b denominator : ℕ) : Option ℕ :=
  divRoundingUp (a * b) denominator

/-- The smaller ratio and the larger one. -/
def sorted (sqrtRatioA sqrtRatioB : ℕ) : ℕ × ℕ :=
  if sqrtRatioA > sqrtRatioB then
    (sqrtRatioB, sqrtRatioA)
  else
    (sqrtRatioA, sqrtRatioB)

def getAmount0Delta
    (sqrtRatioA sqrtRatioB liquidity : ℕ) (roundUp : Bool) : Option ℕ := do
  let (lower, upper) := sorted sqrtRatioA sqrtRatioB
  let numerator1 := liquidity <<< 96
  let numerator2 := upper - lower
  if roundUp then
    divRoundingUp (← mulDivRoundingUp numerator1 numerator2 upper) lower
  else
    quotient (← mulDiv numerator1 numerator2 upper) lower

def getAmount1Delta
    (sqrtRatioA sqrtRatioB liquidity : ℕ) (roundUp : Bool) : Option ℕ :=
  let (lower, upper) := sorted sqrtRatioA sqrtRatioB
  if roundUp then
    mulDivRoundingUp liquidity (upper - lower) Q96
  else
    mulDiv liquidity (upper - lower) Q96

/-- The amounts of both tokens in a liquidity, rounded up. -/
def getAmountsForLiquidity
    (sqrtPrice sqrtRatioA sqrtRatioB liquidity : ℕ) : Option (ℕ × ℕ) := do
  let (lower, upper) := sorted sqrtRatioA sqrtRatioB
  if sqrtPrice ≤ lower then
    return (← getAmount0Delta lower upper liquidity true, 0)
  else if sqrtPrice < upper then
    let amount0 ← getAmount0Delta sqrtPrice upper liquidity true
    let amount1 ← getAmount1Delta lower sqrtPrice liquidity true
    return (amount0, amount1)
  else
    return (0, ← getAmount1Delta lower upper liquidity true)

/-- The liquidity for an amount of the first token. -/
def forAmount0 (lower upper amount : ℕ) : Option ℕ := do
  mulDiv amount (← mulDiv lower upper Q96) (upper - lower)

/-- The liquidity for an amount of the second token. -/
def forAmount1 (lower upper amount : ℕ) : Option ℕ :=
  mulDiv amount Q96 (upper - lower)

/-- The liquidity which amounts of both tokens make up. -/
def getLiquidityForAmounts
    (sqrtPrice sqrtRatioA sqrtRatioB amount0 amount1 : ℕ) : Option ℕ := do
  let (lower, upper) := sorted sqrtRatioA sqrtRatioB
  if sqrtPrice ≤ lower then
    forAmount0 lower upper amount0
  else if sqrtPrice < upper then
    let liquidity0 ← forAmount0 sqrtPrice upper amount0
    let liquidity1 ← forAmount1 lower sqrtPrice amount1
    return if liquidity0 < liquidity1 then liquidity0 else liquidity1
  else
    forAmount1 lower upper amount1

/-- The liquidity which the amounts of a liquidity make up. -/
def restored (sqrtPrice sqrtRatioA sqrtRatioB liquidity : ℕ) : Option ℕ := do
  let (amount0, amount1) ←
    getAmountsForLiquidity sqrtPrice sqrtRatioA sqrtRatioB liquidity
  getLiquidityForAmounts sqrtPrice sqrtRatioA sqrtRatioB amount0 amount1

def Restores (sqrtPrice sqrtRatioA sqrtRatioB liquidity : ℕ) : Prop :=
  ∃ result, restored sqrtPrice sqrtRatioA sqrtRatioB liquidity = some result ∧
      liquidity ≤ result

/-- Every whole amount which is enough at the product of the two ratios is
enough at the product rounded down. -/
def RoundingHarmless (lower upper liquidity : ℕ) : Prop :=
  ∀ amount, liquidity * (upper - lower) * Q96 ≤ amount * (lower * upper) →
      liquidity * (upper - lower) ≤ amount * (lower * upper / Q96)

def Restorable (sqrtPrice sqrtRatioA sqrtRatioB liquidity : ℕ) : Prop :=
  let lower := min sqrtRatioA sqrtRatioB
  let upper := max sqrtRatioA sqrtRatioB
  if sqrtPrice ≤ lower then
    0 < lower ∧ lower < upper ∧ RoundingHarmless lower upper liquidity
  else if sqrtPrice < upper then
    RoundingHarmless sqrtPrice upper liquidity
  else
    lower < upper

/-! ## What the divisions return -/

variable {a b lower upper liquidity amount : ℕ}

theorem quotient_of_pos (positive : 0 < b) : quotient a b = some (a / b) :=
  if_neg positive.ne'

theorem divRoundingUp_of_pos (positive : 0 < b) :
    divRoundingUp a b = some (a ⌈/⌉ b) := by
  rw [divRoundingUp, quotient_of_pos positive, Option.bind_eq_bind,
    Option.bind_some]
  congr 1
  apply eq_of_forall_ge_iff
  intro bound
  rw [ceilDiv_le_iff_le_mul positive]
  split_ifs with divisible
  · rw [← Nat.mul_le_mul_left_iff positive,
      Nat.mul_div_cancel' (Nat.dvd_of_mod_eq_zero divisible)]
  · rw [Nat.succ_le_iff, Nat.div_lt_iff_lt_mul positive, Nat.mul_comm bound b]
    constructor
    · exact le_of_lt
    · intro within
      apply lt_of_le_of_ne within
      rintro rfl
      exact divisible (Nat.mul_mod_right b bound)

theorem sorted_eq (sqrtRatioA sqrtRatioB : ℕ) :
    sorted sqrtRatioA sqrtRatioB =
      (min sqrtRatioA sqrtRatioB, max sqrtRatioA sqrtRatioB) := by
  rw [sorted]
  split_ifs with more
  · rw [min_eq_right more.le, max_eq_left more.le]
  · rw [min_eq_left (not_lt.1 more), max_eq_right (not_lt.1 more)]

theorem sorted_of_le (ordered : lower ≤ upper) :
    sorted lower upper = (lower, upper) :=
  if_neg (not_lt.2 ordered)

theorem getAmount0Delta_of_lt (positive : 0 < lower) (apart : lower < upper) :
    getAmount0Delta lower upper liquidity true = some
        (liquidity * Q96 * (upper - lower) ⌈/⌉ upper ⌈/⌉ lower) := by
  rw [getAmount0Delta, sorted_of_le apart.le]
  simp only [mulDivRoundingUp, if_true,
    divRoundingUp_of_pos (positive.trans apart),
    divRoundingUp_of_pos positive, Option.bind_eq_bind, Option.bind_some,
    Nat.shiftLeft_eq]
  rfl

theorem getAmount0Delta_zero :
    getAmount0Delta 0 upper liquidity true = none := by
  rw [getAmount0Delta, sorted_of_le (Nat.zero_le upper)]
  simp only [if_true]
  cases mulDivRoundingUp (liquidity <<< 96) (upper - 0) upper <;> rfl

/-- The amount of the first token is the least which is enough at the exact
product of the ratios. -/
theorem amount0_le_iff (positive : 0 < lower) (apart : lower < upper) :
    liquidity * Q96 * (upper - lower) ⌈/⌉ upper ⌈/⌉ lower ≤ amount ↔
      liquidity * (upper - lower) * Q96 ≤ amount * (lower * upper) := by
  rw [ceilDiv_le_iff_le_mul positive,
    ceilDiv_le_iff_le_mul (positive.trans apart), Nat.mul_right_comm,
    Nat.mul_left_comm upper lower amount, Nat.mul_comm upper amount,
    Nat.mul_left_comm lower amount upper]

theorem forAmount0_of_lt (apart : lower < upper) :
    forAmount0 lower upper amount =
      some (amount * (lower * upper / Q96) / (upper - lower)) := by
  have wide : 0 < upper - lower := Nat.sub_pos_of_lt apart
  have one : 0 < Q96 := by decide
  simp only [forAmount0, mulDiv, quotient_of_pos one, quotient_of_pos wide,
    Option.bind_eq_bind, Option.bind_some]

theorem forAmount0_self : forAmount0 lower lower amount = none := by
  have one : 0 < Q96 := by decide
  simp only [forAmount0, mulDiv, quotient_of_pos one, Option.bind_eq_bind,
    Option.bind_some, Nat.sub_self]
  rfl

/-- The amount of the first token makes up the liquidity exactly when rounding
the product of the ratios is harmless. -/
theorem amount0_returns
    (positive : 0 < lower) (apart : lower < upper) (liquidity : ℕ) :
    ∃ amount result, getAmount0Delta lower upper liquidity true = some amount ∧
        forAmount0 lower upper amount = some result ∧
          (liquidity ≤ result ↔ RoundingHarmless lower upper liquidity) := by
  refine
    ⟨_, _, getAmount0Delta_of_lt positive apart, forAmount0_of_lt apart, ?_⟩
  rw [Nat.le_div_iff_mul_le (Nat.sub_pos_of_lt apart)]
  constructor
  · intro enough amount covers
    have least := (amount0_le_iff positive apart).2 covers
    exact enough.trans (Nat.mul_le_mul_right _ least)
  · intro harmless
    exact harmless _ ((amount0_le_iff positive apart).1 le_rfl)

theorem getAmount1Delta_of_le (ordered : lower ≤ upper) :
    getAmount1Delta lower upper liquidity true =
      some (liquidity * (upper - lower) ⌈/⌉ Q96) := by
  have one : 0 < Q96 := by decide
  rw [getAmount1Delta, sorted_of_le ordered]
  exact divRoundingUp_of_pos one

theorem amount1_returns (apart : lower < upper) (liquidity : ℕ) :
    ∃ amount result, getAmount1Delta lower upper liquidity true = some amount ∧
        forAmount1 lower upper amount = some result ∧ liquidity ≤ result := by
  have wide : 0 < upper - lower := Nat.sub_pos_of_lt apart
  have one : 0 < Q96 := by decide
  refine ⟨_, _, getAmount1Delta_of_le apart.le, quotient_of_pos wide, ?_⟩
  rw [Nat.le_div_iff_mul_le wide, Nat.mul_comm _ Q96]
  exact (ceilDiv_le_iff_le_mul one).1 le_rfl

theorem forAmount1_self : forAmount1 lower lower amount = none := by
  rw [forAmount1, Nat.sub_self]
  rfl

theorem restored_of_below
    {sqrtPrice : ℕ} (ordered : lower ≤ upper) (below : sqrtPrice ≤ lower) :
    restored sqrtPrice lower upper liquidity =
      (getAmount0Delta lower upper liquidity true).bind
        (forAmount0 lower upper) := by
  simp only [restored, getAmountsForLiquidity, getLiquidityForAmounts,
    sorted_of_le ordered, if_pos below]
  cases getAmount0Delta lower upper liquidity true <;> rfl

theorem restored_of_above
    {sqrtPrice : ℕ} (ordered : lower ≤ upper) (above : ¬ sqrtPrice ≤ lower)
    (outside : ¬ sqrtPrice < upper) :
    restored sqrtPrice lower upper liquidity =
      (getAmount1Delta lower upper liquidity true).bind
        (forAmount1 lower upper) := by
  simp only [restored, getAmountsForLiquidity, getLiquidityForAmounts,
    sorted_of_le ordered, if_neg above, if_neg outside]
  cases getAmount1Delta lower upper liquidity true <;> rfl

theorem restored_of_inside
    {sqrtPrice amount0 amount1 result0 result1 : ℕ}
    (above : ¬ sqrtPrice ≤ lower) (inside : sqrtPrice < upper)
    (needed0 : getAmount0Delta sqrtPrice upper liquidity true = some amount0)
    (needed1 : getAmount1Delta lower sqrtPrice liquidity true = some amount1)
    (made0 : forAmount0 sqrtPrice upper amount0 = some result0)
    (made1 : forAmount1 lower sqrtPrice amount1 = some result1) :
    restored sqrtPrice lower upper liquidity = some (min result0 result1) := by
  have ordered : lower ≤ upper := ((not_le.1 above).trans inside).le
  simp only [restored, getAmountsForLiquidity, getLiquidityForAmounts,
    sorted_of_le ordered, if_neg above, if_pos inside, needed0, needed1,
    made0, made1, Option.bind_eq_bind, Option.bind_some, Option.pure_def,
    Option.some.injEq]
  split_ifs with less
  · exact (min_eq_left less.le).symm
  · exact (min_eq_right (not_lt.1 less)).symm

theorem restored_sorted (sqrtPrice sqrtRatioA sqrtRatioB liquidity : ℕ) :
    restored sqrtPrice sqrtRatioA sqrtRatioB liquidity =
      restored sqrtPrice (min sqrtRatioA sqrtRatioB)
        (max sqrtRatioA sqrtRatioB) liquidity := by
  simp only [restored, getAmountsForLiquidity, getLiquidityForAmounts,
    sorted_eq, min_eq_left min_le_max, max_eq_right min_le_max]

/-- The depth comes back in full exactly when the price lies on the side of
the second token, or rounding the product of the two ratios of the first
token is harmless. -/
theorem restores_iff (sqrtPrice sqrtRatioA sqrtRatioB liquidity : ℕ) :
    Restores sqrtPrice sqrtRatioA sqrtRatioB liquidity ↔
      Restorable sqrtPrice sqrtRatioA sqrtRatioB liquidity := by
  rw [Restores, restored_sorted, Restorable]
  have ordered : min sqrtRatioA sqrtRatioB ≤ max sqrtRatioA sqrtRatioB :=
    min_le_max
  generalize min sqrtRatioA sqrtRatioB = lower at ordered ⊢
  generalize max sqrtRatioA sqrtRatioB = upper at ordered ⊢
  split_ifs with below inside
  · rw [restored_of_below ordered below]
    rcases Nat.eq_zero_or_pos lower with rfl | positive
    · simp [getAmount0Delta_zero]
    · rcases ordered.eq_or_lt with rfl | apart
      · cases getAmount0Delta lower lower liquidity true <;>
          simp [forAmount0_self]
      · rcases amount0_returns positive apart liquidity with
          ⟨amount, result, needed, made, enough⟩
        simp [needed, made, enough, positive, apart]
  · have above : lower < sqrtPrice := not_le.1 below
    rcases amount0_returns (Nat.zero_lt_of_lt above) inside liquidity with
      ⟨amount0, result0, needed0, made0, enough0⟩
    rcases amount1_returns above liquidity with
      ⟨amount1, result1, needed1, made1, enough1⟩
    rw [restored_of_inside below inside needed0 needed1 made0 made1]
    simp [enough0, enough1]
  · rw [restored_of_above ordered below inside]
    rcases ordered.eq_or_lt with rfl | apart
    · cases getAmount1Delta lower lower liquidity true <;>
        simp [forAmount1_self]
    · rcases amount1_returns apart liquidity with
        ⟨amount, result, needed, made, enough⟩
      simp [needed, made, enough, apart]

theorem roundingHarmless_of_dvd (whole : Q96 ∣ lower * upper) :
    RoundingHarmless lower upper liquidity := by
  have one : 0 < Q96 := by decide
  intro amount covers
  rcases whole with ⟨product, equal⟩
  rw [equal, Nat.mul_div_cancel_left product one]
  rw [equal, Nat.mul_left_comm, Nat.mul_comm _ Q96] at covers
  exact Nat.le_of_mul_le_mul_left covers one

end Eris.Uniswap.TickMath
