import Eris.Events.Data

/-!
# Draws

What the seed decides about a window.  An entry draws from the stream of the
schedule, and how often it draws depends on its configuration alone; the
lengths and price ceilings of a token's wave come from streams which are
named by where the token sits.
-/

namespace Eris.Events.Draws

open Data

variable {Number Stream : Type} (platform : Platform Number Stream)

def pointEventSpan : Int := 1

def tokenLaunchLeadBlocks : Int := 2

def whaleVenues : List WhaleVenue := [.uniswap, .balancer, .curve]

/-- Integer-uniform on the inclusive range. -/
def drawInt (range : Int × Int) : StateM Stream Int := do
  let draw ← platform.next
  return min range.2 (max range.1 (platform.floor
      (platform.lerp (platform.ofInt range.1)
        (platform.ofInt (range.2 + 1)) draw)))

def drawBlockCount : BlockCount → StateM Stream Int
  | .fixed blocks => return blocks
  | .range least most => drawInt platform (least, most)

def blockCountMax : BlockCount → Int
  | .fixed blocks => blocks
  | .range _ most => most

def launchLead (type : StressEventType) : Int :=
  if type = .tokenLaunch then tokenLaunchLeadBlocks else 0

/-- The longest window an entry can draw. -/
def maxSpan (config : StressEventConfig Number) : Int :=
  if isPointEvent config.type then pointEventSpan
  else
    launchLead config.type + blockCountMax config.rampBlocks +
      blockCountMax config.holdBlocks + blockCountMax config.decayBlocks

/-- One token: always five draws, whichever tokens get demand. -/
def drawTokenLaunch
    (config : StressEventConfig Number) (index : Nat) :
    StateM Stream (ResolvedTokenLaunch Number) := do
  let none := (platform.zero, platform.zero)
  let liquidity := config.liquidityUsdc.getD none
  let wave := config.waveUsdcMult.getD none
  let dudP := config.dudProb.getD none
  let sellBack := config.sellBackFrac.getD none
  let liquidityDraw ← platform.next
  let dudProbDraw ← platform.next
  let dudDraw ← platform.next
  let waveDraw ← platform.next
  let sellBackDraw ← platform.next
  let dudProb := platform.lerp dudP.1 dudP.2 dudProbDraw
  let waveUsdcMult := platform.lerp wave.1 wave.2 waveDraw
  let dud := platform.less dudDraw dudProb ||
      !platform.less platform.zero waveUsdcMult
  return {
    index := index
    liquidityUsdc :=
      platform.round (platform.lerp liquidity.1 liquidity.2 liquidityDraw)
    waveUsdcMult := if dud then platform.zero else waveUsdcMult
    waveBlockUsdcMult := .none
    dud := dud
    sellBackFrac := platform.lerp sellBack.1 sellBack.2 sellBackDraw
    priceCeilingMult := .none
    rampBlocks := .none }

def drawTokenLaunches (config : StressEventConfig Number) :
    StateM Stream (List (ResolvedTokenLaunch Number)) := do
  let count ← drawInt platform (config.tokenCount.getD (1, 1))
  (List.range count.toNat).mapM (drawTokenLaunch platform config)

/-- A draw which is made only when its key is written. -/
def drawWhen (written : Bool) : StateM Stream (Option Number) :=
  if written then some <$> platform.next else return none

def hasSide (type : StressEventType) : Bool := type = .whale || type = .cexDrift

def resolveSide
    (config : StressEventConfig Number) (draw : Option Number) :
    Option Side :=
  match draw with
  | none => none
  | some draw =>
      match config.side with
      | some (.fixed side) => some side
      | _ =>
          if platform.less draw platform.half then some .buy
          else some .sell

def drawnVenue (draw : Number) : Option WhaleVenue :=
  whaleVenues[ (min (whaleVenues.length - 1 : Int) (platform.floor
      (platform.mul draw (platform.ofInt whaleVenues.length)))).toNat]?

def drawWindow (config : StressEventConfig Number) :
    StateM Stream (DrawnWindow Number) := do
  let magnitudeDraw ← platform.next
  let startU ← platform.next
  let sideDraw ← drawWhen platform (hasSide config.type)
  let kappaDraw ← drawWhen platform (config.type = .cexDrift)
  let launches ← if config.type = .tokenLaunch then
      some <$> drawTokenLaunches platform config
    else pure none
  let flipDraw ← drawWhen platform config.flipProb.isSome
  let recoverDraw ← drawWhen platform config.recoverFrac.isSome
  let venueDraw ← drawWhen platform (config.venue = some .random)
  let repriceDraw ← drawWhen platform config.repriceAnchorProb.isSome
  let rampBlocks ← drawBlockCount platform config.rampBlocks
  let holdBlocks ← drawBlockCount platform config.holdBlocks
  let decayBlocks ← drawBlockCount platform config.decayBlocks
  let between (range : Number × Number) (draw : Number) :=
    platform.lerp range.1 range.2 draw
  return {
    magnitude := between config.magnitudeRange magnitudeDraw
    startU := startU
    side := resolveSide platform config sideDraw
    kappaMult := Option.map₂ between config.kappaMultRange kappaDraw
    launches := launches
    flipped := (Option.map₂ platform.less flipDraw config.flipProb).getD false
    recoverFrac := Option.map₂ between config.recoverFrac recoverDraw
    venue := venueDraw.bind (drawnVenue platform)
    repriceAnchor := config.repriceAnchor = some true ||
        (Option.map₂ platform.less repriceDraw
          config.repriceAnchorProb).getD false
    rampBlocks := rampBlocks
    holdBlocks := holdBlocks
    decayBlocks := decayBlocks
    span := if isPointEvent config.type then pointEventSpan
      else
        launchLead config.type + rampBlocks + holdBlocks + decayBlocks }

def waveLengthMean (stopProb : Number) (cap : Int) : Number :=
  if platform.less platform.zero stopProb then
    platform.div (platform.sub (platform.ofInt 1)
        (platform.power (platform.sub (platform.ofInt 1) stopProb) cap))
      stopProb
  else platform.ofInt cap

def waveLengthFrom (draw stopProb : Number) (cap : Int) : Int :=
  if !platform.less stopProb (platform.ofInt 1) then min 1 cap
  else
    max 1 (min cap (1 + platform.floor (platform.div
        (platform.log (platform.sub (platform.ofInt 1) draw))
        (platform.log (platform.sub (platform.ofInt 1) stopProb)))))

/-- Give each token of a window its memoryless length. -/
def drawWaveLengths
    (stopProb : Number) (uniform : Nat → Number)
    (window : DrawnWindow Number) : DrawnWindow Number :=
  let cap := window.rampBlocks
  let mean := waveLengthMean platform stopProb cap
  let launches := (window.launches.getD []).zipIdx.map fun (launch, token) =>
      let rampBlocks := waveLengthFrom platform (uniform token) stopProb cap
      let blockMult := if launch.dud then platform.zero
        else platform.div launch.waveUsdcMult mean
      { launch with
        waveUsdcMult := platform.mul blockMult (platform.ofInt rampBlocks)
        waveBlockUsdcMult := some blockMult
        rampBlocks := some rampBlocks }
  let longest :=
    ((launches.filter (!·.dud)).filterMap (·.rampBlocks)).foldl max 0
  { window with
    launches := some launches
    span := window.span + (longest - window.rampBlocks)
    rampBlocks := longest }

/-- Give each token of a window its secret price ceiling. -/
def drawPriceCeilings
    (range : Number × Number) (uniform : Nat → Number)
    (window : DrawnWindow Number) : DrawnWindow Number :=
  { window with
    launches := some
        ((window.launches.getD []).zipIdx.map fun (launch, token) =>
          { launch with
            priceCeilingMult :=
              some (platform.lerp range.1 range.2 (uniform token)) }) }

end Eris.Events.Draws
