import Mathlib

/-!
# What a wave should have bought

`core/src/realtime/events.ts` (`tokenLaunchTargetsAt`, `launchSellBackFrac`)
and `core/src/realtime/tokenLaunch.ts` (`waveUsdcUnits` to `waveTargets`): the
cumulative targets of one token's launch at a block, and the units they come
to.  Fractions are exact rationals.
-/

namespace Eris.Launch.WaveSchedule

/-- The launch of one token as the seed drew it.  A wave has a size per block
exactly when it has a length of its own. -/
structure ResolvedTokenLaunch where
  liquidityUsdc : Nat
  waveUsdcMult : ℚ
  waveBlockUsdcMult : Option ℚ
  rampBlocks : Option Nat
  dud : Bool
  sellBackFrac : ℚ
  priceCeilingMult : Option ℚ
  lengths : waveBlockUsdcMult.isSome = rampBlocks.isSome

structure ResolvedStressEvent where
  startBlock : Nat
  endBlock : Nat
  rampBlocks : Nat
  holdBlocks : Nat
  decayBlocks : Nat

/-- What the driver should have done by a block. -/
structure TokenLaunchTarget where
  listed : Bool
  buyFrac : ℚ
  buyBlocks : Nat
  rampIndex : Int
  sellBackFrac : ℚ
  justClosed : Bool

def tokenLaunchLeadBlocks : Nat := 2

def usdcUnit : Nat := 1000000

def mathRound (value : ℚ) : Int := ⌊value + 1 / 2⌋

def scaleUnits (amount : Nat) (frac : ℚ) : Nat :=
  if ¬0 < frac then 0
  else if 1 ≤ frac then amount
  else amount * (mathRound (frac * 1000000000)).toNat / 1000000000

def launchSellBackFrac (launch : ResolvedTokenLaunch)
    (t : Int) (ramp hold decay : Nat) : ℚ :=
  if launch.dud then 0
  else
    let decayT := t - (ramp + hold)
    let frac : ℚ := if decayT < 0 then 0
      else if decay = 0 then 1
      else min 1 ((decayT + 1) / decay)
    launch.sellBackFrac * frac

/-- `rampOf`: the blocks the wave buys for. -/
def rampOf (event : ResolvedStressEvent) (launch : ResolvedTokenLaunch) :
    Nat :=
  launch.rampBlocks.getD event.rampBlocks

/-- `tokenLaunchTargetsAt`, for one launch. -/
def tokenLaunchTargetAt (event : ResolvedStressEvent)
    (launch : ResolvedTokenLaunch) (blockIndex : Nat) : TokenLaunchTarget :=
  let t : Int := blockIndex - event.startBlock - tokenLaunchLeadBlocks
  let r := rampOf event launch
  let buyFrac : ℚ := if t < 0 then 0
    else if t < r then if r = 0 then 1 else (t + 1) / r
    else 1
  let buyBlocks := if t < 0 then 0 else min (t.toNat + 1) r
  { listed := event.startBlock ≤ blockIndex
    buyFrac := if launch.dud then 0 else buyFrac
    buyBlocks := if launch.dud then 0 else buyBlocks
    rampIndex := t
    sellBackFrac :=
      launchSellBackFrac launch t r event.holdBlocks event.decayBlocks
    justClosed := blockIndex = event.endBlock }

/-- The units of a multiple of the pool's side. -/
def multUnits (launch : ResolvedTokenLaunch) (mult : ℚ) : Nat :=
  if launch.dud ∨ mult ≤ 0 then 0
  else
    launch.liquidityUsdc * usdcUnit * (mathRound (mult * 1000000)).toNat /
      1000000

def waveBlockUsdcUnits (launch : ResolvedTokenLaunch) : Option Nat :=
  launch.waveBlockUsdcMult.map (multUnits launch)

def waveUsdcUnits (launch : ResolvedTokenLaunch) : Nat :=
  match waveBlockUsdcUnits launch, launch.rampBlocks with
  | some block, some rampBlocks => block * rampBlocks
  | _, _ => multUnits launch launch.waveUsdcMult

def waveBuyTargetUnits (launch : ResolvedTokenLaunch)
    (target : TokenLaunchTarget) : Nat :=
  match waveBlockUsdcUnits launch with
  | some block => block * target.buyBlocks
  | none => scaleUnits (waveUsdcUnits launch) target.buyFrac

def wavePriceCapMult : ℚ := 10

def waveCapUsdcPerToken (launch : ResolvedTokenLaunch) : ℚ :=
  match launch.priceCeilingMult with
  | none => wavePriceCapMult
  | some ceiling => min wavePriceCapMult ceiling

def waveBuyCapped (priceUsdcPerToken : ℚ) (launch : ResolvedTokenLaunch) :
    Bool :=
  !decide (priceUsdcPerToken ≤ waveCapUsdcPerToken launch)

def capStopRamp (event : ResolvedStressEvent) (launch : ResolvedTokenLaunch)
    (target : TokenLaunchTarget) : Nat :=
  (min (rampOf event launch : Int) target.rampIndex).toNat

theorem mathRound_grid_le {frac : ℚ} (below : frac < 1) :
    (mathRound (frac * 1000000000)).toNat ≤ 1000000000 := by
  have rounded : mathRound (frac * 1000000000) < 1000000001 := by
    rw [mathRound, Int.floor_lt]
    push_cast
    linarith
  omega

theorem scaleUnits_le (amount : Nat) (frac : ℚ) :
    scaleUnits amount frac ≤ amount := by
  rw [scaleUnits]
  split
  · exact Nat.zero_le amount
  split
  · exact le_rfl
  · rename_i below
    apply Nat.div_le_of_le_mul
    rw [Nat.mul_comm]
    exact Nat.mul_le_mul_right amount (mathRound_grid_le (not_le.mp below))

theorem buyBlocks_le (event : ResolvedStressEvent)
    (launch : ResolvedTokenLaunch) (blockIndex : Nat) :
    (tokenLaunchTargetAt event launch blockIndex).buyBlocks ≤
      rampOf event launch := by
  rw [tokenLaunchTargetAt]
  dsimp only
  split
  · exact Nat.zero_le _
  split
  · exact Nat.zero_le _
  · exact min_le_right _ _

theorem waveBuyTargetUnits_le (event : ResolvedStressEvent)
    (launch : ResolvedTokenLaunch) (blockIndex : Nat) :
    waveBuyTargetUnits launch (tokenLaunchTargetAt event launch blockIndex) ≤
      waveUsdcUnits launch := by
  rw [waveBuyTargetUnits, waveUsdcUnits]
  have blocks := buyBlocks_le event launch blockIndex
  have lengths := launch.lengths
  rw [waveBlockUsdcUnits]
  cases mult : launch.waveBlockUsdcMult with
  | none =>
      rw [Option.map_none]
      exact scaleUnits_le _ _
  | some mult =>
      rw [mult, Option.isSome_some] at lengths
      obtain ⟨ramp, own⟩ := Option.isSome_iff_exists.mp lengths.symm
      rw [rampOf, own, Option.getD_some] at blocks
      rw [own, Option.map_some]
      exact Nat.mul_le_mul_left _ blocks

end Eris.Launch.WaveSchedule
