import Eris.Events.Draws
import Eris.Foundation.Traversal

/-!
# Which events are accepted

`parseOne`, over fields which have the right type already.  A key which does
not apply to the type of the event is refused, never ignored; a range has to
be ordered and within the bounds of its key.

`Sound` collects what every accepted event satisfies.
-/

namespace Eris.Events.Parsing

open Data Draws Foundation.Checked Foundation.Traversal

variable {Number Stream : Type}

/-- The keys of an event as they are written. -/
structure RawEvent (Number : Type) where
  type : StressEventType
  base : Option String
  magnitudeRange : Option (Number × Number)
  stable : Option String
  side : Option WhaleSide
  kappaMultRange : Option (Number × Number)
  persist : Option Bool
  repriceAnchor : Option Bool
  repriceAnchorProb : Option Number
  flipProb : Option Number
  recoverFrac : Option (Number × Number)
  trendCorrelation : Option Number
  persistBlocks : Option Int
  venue : Option VenueChoice
  tokenCount : Option (Int × Int)
  liquidityUsdc : Option (Number × Number)
  waveUsdcMult : Option (Number × Number)
  dudProb : Option (Number × Number)
  sellBackFrac : Option (Number × Number)
  waveStopProb : Option Number
  wavePriceCeiling : Option (Number × Number)
  windowFrac : Option (Number × Number)
  alignWith : Option StressEventType
  count : Option (Int × Int)
  minGapBlocks : Option Int
  rampBlocks : Option BlockCount
  holdBlocks : Option BlockCount
  decayBlocks : Option BlockCount

abbrev Parsed := Outcome String

/-- Refuse a key which is written where it does not apply. -/
def requireAbsent
    {Value : Type} (value : Option Value) (reason : String) : Parsed Unit :=
  require (value.isNone = true) reason

def whenWritten
    {Value : Type} (value : Option Value) (check : Value → Parsed Unit) :
    Parsed Unit :=
  match value with
  | none => .ok ()
  | some value => check value

section Ranges

variable (platform : Platform Number Stream)

/-- A bound of a range: its value, its text and whether it is exclusive. -/
structure Bound (Number : Type) where
  value : Number
  text : String
  exclusive : Bool

def Bound.above (bound : Bound Number) (number : Number) : Bool :=
  if bound.exclusive then platform.less bound.value number
  else !platform.less number bound.value

def Bound.below (bound : Bound Number) (number : Number) : Bool :=
  if bound.exclusive then platform.less number bound.value
  else !platform.less bound.value number

def Bound.sign (bound : Bound Number) : String :=
  if bound.exclusive then "<" else "<="

def parseRange
    (value : Option (Number × Number)) (label : String)
    (least most : Option (Bound Number)) : Parsed (Number × Number) :=
  match value with
  | none =>
      .error (.reason (label ++ " must be a [min, max] pair of finite numbers"))
  | some range => do
      require (platform.less range.2 range.1 = false)
        (label ++ " must have min <= max")
      whenWritten least fun bound =>
        require (bound.above platform range.1 = true)
          (label ++ " min must be >= " ++ bound.text)
      whenWritten most fun bound =>
        require (bound.below platform range.2 = true)
          (label ++ " max must be " ++ bound.sign ++ " " ++ bound.text)
      return range

/-- `parseRange` of an integer range which has a least value. -/
def parseIntRange (range : Int × Int) (label : String) (least : Int) :
    Parsed (Int × Int) := do
  require (range.1 ≤ range.2) (label ++ " must have min <= max")
  require (least ≤ range.1) (label ++ " min must be >= " ++ toString least)
  return range

def parseNonNegInt (value : Int) (label : String) : Parsed Int := do
  require (0 ≤ value) (label ++ " must be a non-negative integer")
  return value

def parseBlockCount (value : Option BlockCount) (label : String) :
    Parsed BlockCount :=
  match value with
  | none => .error (.reason (label ++ " must be a non-negative integer"))
  | some (.fixed blocks) => do
      let blocks ← parseNonNegInt blocks label
      return .fixed blocks
  | some (.range least most) => do
      let range ← parseIntRange (least, most) label 0
      return .range range.1 range.2

/-- `{ min: 0 }` -/
def atLeastZero : Bound Number := ⟨platform.ofInt 0, "0", false⟩

/-- `{ min: 0, exclusiveMin: true }` -/
def aboveZero : Bound Number := ⟨platform.ofInt 0, "0", true⟩

/-- `{ max: 1 }` -/
def atMostOne : Bound Number := ⟨platform.ofInt 1, "1", false⟩

/-- `{ max: 1, exclusiveMax: true }`, and as a bound from below. -/
def besideOne : Bound Number := ⟨platform.ofInt 1, "1", true⟩

def parseProbability (value : Number) (label : String) : Parsed Number := do
  require ((atLeastZero platform).above platform value = true ∧
      (atMostOne platform).below platform value = true)
    (label ++ " must be a probability between 0 and 1")
  return value

end Ranges

/-! ## The checks of the keys -/

section Keys

variable (platform : Platform Number Stream)

/-- The ranges of a launch, all of them or none. -/
structure LaunchRanges (Number : Type) where
  tokenCount : Int × Int
  liquidityUsdc : Number × Number
  waveUsdcMult : Number × Number
  dudProb : Number × Number
  sellBackFrac : Number × Number

/-- A launch needs all of its ranges and has no magnitude. -/
def checkLaunchKeys (label : String) (o : RawEvent Number) : Parsed Unit :=
  let needs (written : Bool) (key : String) := require (written = true)
      (label ++ "." ++ key ++ " is required for type \"tokenLaunch\"")
  let refuses (written : Bool) (key : String) := require (written = false)
      (label ++ "." ++ key ++ " only applies to type \"tokenLaunch\"")
  if o.type = .tokenLaunch then do
    requireAbsent o.magnitudeRange
      (label ++ ".magnitudeRange does not apply to type \"tokenLaunch\": " ++
        "the wave is drawn per token from waveUsdcMult")
    needs o.tokenCount.isSome "tokenCount"
    needs o.liquidityUsdc.isSome "liquidityUsdc"
    needs o.waveUsdcMult.isSome "waveUsdcMult"
    needs o.dudProb.isSome "dudProb"
    needs o.sellBackFrac.isSome "sellBackFrac"
  else do
    refuses o.tokenCount.isSome "tokenCount"
    refuses o.liquidityUsdc.isSome "liquidityUsdc"
    refuses o.waveUsdcMult.isSome "waveUsdcMult"
    refuses o.dudProb.isSome "dudProb"
    refuses o.sellBackFrac.isSome "sellBackFrac"

def parseLaunchRanges (label : String) (o : RawEvent Number) :
    Parsed (Option (LaunchRanges Number)) :=
  if o.type = .tokenLaunch then do
    let tokenCount ←
      parseIntRange (o.tokenCount.getD (0, 0)) (label ++ ".tokenCount") 1
    let liquidityUsdc ←
      parseRange platform o.liquidityUsdc (label ++ ".liquidityUsdc")
        (some (aboveZero platform)) none
    let waveUsdcMult ←
      parseRange platform o.waveUsdcMult (label ++ ".waveUsdcMult")
        (some (atLeastZero platform)) none
    let dudProb ← parseRange platform o.dudProb (label ++ ".dudProb")
        (some (atLeastZero platform)) (some (atMostOne platform))
    let sellBackFrac ←
      parseRange platform o.sellBackFrac (label ++ ".sellBackFrac")
        (some (atLeastZero platform)) (some (atMostOne platform))
    return some
      { tokenCount, liquidityUsdc, waveUsdcMult, dudProb, sellBackFrac }
  else return none

def isOnePositive : Option BlockCount → Bool
  | some (.fixed blocks) => decide (1 ≤ blocks)
  | _ => false

/-- With a stop probability the ramp is one number of blocks. -/
def checkWaveStop (label : String) (o : RawEvent Number) : Parsed Unit :=
  whenWritten o.waveStopProb fun stopProb => do
    require (o.type = .tokenLaunch)
      (label ++ ".waveStopProb only applies to type \"tokenLaunch\"")
    require ((aboveZero platform).above platform stopProb = true ∧
        (besideOne platform).below platform stopProb = true)
      (label ++ ".waveStopProb must be a probability strictly between 0 and 1")
    require (isOnePositive o.rampBlocks = true) (label ++
        ".rampBlocks must be one integer >= 1 with waveStopProb: it is the " ++
        "most blocks a wave can buy for, and each token draws its own " ++
        "length below it")

def parsePriceCeiling (label : String) (o : RawEvent Number) :
    Parsed (Option (Number × Number)) :=
  match o.wavePriceCeiling with
  | none => return none
  | some range => do
      require (o.type = .tokenLaunch)
        (label ++ ".wavePriceCeiling only applies to type \"tokenLaunch\"")
      let range ←
        parseRange platform (some range) (label ++ ".wavePriceCeiling")
          (some (besideOne platform)) none
      return some range

def checkStable (label : String) (o : RawEvent Number) : Parsed Unit :=
  if o.type = .depeg then
    require (o.stable.any (· ≠ "") = true)
      (label ++ ".stable is required for type \"depeg\" " ++
        "(the registry stable to push off par)")
  else
    requireAbsent o.stable (label ++ ".stable only applies to type \"depeg\"")

def checkAlign (label : String) (o : RawEvent Number) : Parsed Unit :=
  whenWritten o.alignWith fun anchor =>
    require (anchor ≠ o.type)
      (label ++ ".alignWith must name a different event type")

def checkSide (label : String) (o : RawEvent Number) : Parsed Unit :=
  whenWritten o.side fun _ =>
    require (o.type = .whale ∨ o.type = .cexDrift)
      (label ++ ".side only applies to types \"whale\" and \"cexDrift\"")

/-- A dislocation which does not close has no decay. -/
def checkPersist (label : String) (o : RawEvent Number) : Parsed Unit :=
  whenWritten o.persist fun persist => do
    require (o.type = .depeg ∨ o.type = .eusdDepeg)
      (label ++ ".persist only applies to types \"depeg\" and \"eusdDepeg\"")
    require (persist = false ∨ o.decayBlocks = some (.fixed 0))
      (label ++ ".persist requires decayBlocks: 0 " ++
        "(a dislocation that does not close has no decay)")

def checkReprice (label : String) (o : RawEvent Number) : Parsed Unit := do
  whenWritten o.repriceAnchor fun _ =>
    require (o.type = .cexDrift)
      (label ++ ".repriceAnchor only applies to type \"cexDrift\"")
  whenWritten o.repriceAnchorProb fun prob => do
    require (o.type = .cexDrift)
      (label ++ ".repriceAnchorProb only applies to type \"cexDrift\"")
    requireAbsent o.repriceAnchor
      (label ++ " sets both repriceAnchor and repriceAnchorProb: pick one")
    let _ ← parseProbability platform prob (label ++ ".repriceAnchorProb")

/-- Only a shock of the price turns around or recovers. -/
def checkShock (label : String) (o : RawEvent Number) : Parsed Unit := do
  whenWritten o.flipProb fun prob => do
    require (o.type = .crash ∨ o.type = .spike)
      (label ++ ".flipProb only applies to types \"crash\" and \"spike\"")
    let _ ← parseProbability platform prob (label ++ ".flipProb")
  whenWritten o.recoverFrac fun range => do
    require (o.type = .crash ∨ o.type = .spike)
      (label ++ ".recoverFrac only applies to types \"crash\" and \"spike\"")
    let _ ← parseRange platform (some range) (label ++ ".recoverFrac")
        (some (atLeastZero platform)) (some (atMostOne platform))

def checkCount (label : String) (o : RawEvent Number) : Parsed Unit := do
  whenWritten o.count fun count => do
    let _ ← parseIntRange count (label ++ ".count") 0
    requireAbsent o.alignWith
      (label ++ " sets both count and alignWith: a follower takes its " ++
        "anchor's count")
  whenWritten o.minGapBlocks fun gap => do
    require (o.count.isSome = true)
      (label ++ ".minGapBlocks only applies with count " ++
        "(it is the spacing between its windows)")
    let _ ← parseNonNegInt gap (label ++ ".minGapBlocks")

def checkKappa (label : String) (o : RawEvent Number) : Parsed Unit :=
  whenWritten o.kappaMultRange fun range => do
    require (o.type = .cexDrift)
      (label ++ ".kappaMultRange only applies to type \"cexDrift\"")
    require (platform.less range.1 (platform.ofInt 0) = false ∧
        platform.less range.2 range.1 = false)
      (label ++ ".kappaMultRange must be [min, max] with 0 <= min <= max")

def checkTrend (label : String) (o : RawEvent Number) : Parsed Unit := do
  whenWritten o.trendCorrelation fun correlation => do
    require (o.type = .flowTrend)
      (label ++ ".trendCorrelation only applies to type \"flowTrend\"")
    require ((atLeastZero platform).above platform correlation = true ∧
        (atMostOne platform).below platform correlation = true)
      (label ++ ".trendCorrelation must be between 0 and 1")
  whenWritten o.persistBlocks fun blocks => do
    require (o.type = .flowTrend)
      (label ++ ".persistBlocks only applies to type \"flowTrend\"")
    require (1 ≤ blocks) (label ++ ".persistBlocks must be an integer >= 1")

def checkVenue (label : String) (o : RawEvent Number) : Parsed Unit :=
  whenWritten o.venue fun venue => do
    require (o.type = .whale ∨ o.type = .liquidityPull)
      (label ++ ".venue only applies to types \"whale\" and \"liquidityPull\"")
    require (venue = .random → o.type = .whale)
      (label ++ ".venue \"random\" only applies to type \"whale\"")

/-- Whether wiping out all of its target would be an outage, not a stress. -/
def isFraction (type : StressEventType) : Bool :=
  type = .lstSlash || type = .liquidityPull || type = .eusdDepeg ||
    type = .depeg

def parseMagnitude (label : String) (o : RawEvent Number) :
    Parsed (Number × Number) :=
  if o.type = .tokenLaunch then
    return (platform.ofInt 0, platform.ofInt 0)
  else
    parseRange platform o.magnitudeRange (label ++ ".magnitudeRange")
      (some (aboveZero platform))
      (if isFraction o.type then some (besideOne platform) else none)

/-- `windowFracBeyondRun` leaves the end of the window unbounded. -/
def parseWindowFrac
    (label : String) (windowFracBeyondRun : Bool) (o : RawEvent Number) :
    Parsed (Number × Number) :=
  parseRange platform o.windowFrac (label ++ ".windowFrac")
    (some (atLeastZero platform))
    (if windowFracBeyondRun then none else some (atMostOne platform))

def writtenBlocks (type : StressEventType) (blocks : Option BlockCount) :
    Option BlockCount :=
  if isPointEvent type then some (blocks.getD (.fixed 0)) else blocks

def shortest : BlockCount → Int
  | .fixed blocks => blocks
  | .range least _ => least

structure Trapezoid where
  rampBlocks : BlockCount
  holdBlocks : BlockCount
  decayBlocks : BlockCount

def parseTrapezoid (label : String) (o : RawEvent Number) :
    Parsed Trapezoid := do
  let rampBlocks ← parseBlockCount (writtenBlocks o.type o.rampBlocks)
      (label ++ ".rampBlocks")
  let holdBlocks ← parseBlockCount (writtenBlocks o.type o.holdBlocks)
      (label ++ ".holdBlocks")
  let decayBlocks ← parseBlockCount (writtenBlocks o.type o.decayBlocks)
      (label ++ ".decayBlocks")
  require (isPointEvent o.type = true ∨
      0 < shortest rampBlocks + shortest holdBlocks + shortest decayBlocks)
    (label ++ " must have a positive total window (ramp+hold+decay)")
  return { rampBlocks, holdBlocks, decayBlocks }

/-- `parseOne`; the label names the event by its index. -/
def parseOne
    (label : String) (windowFracBeyondRun : Bool) (o : RawEvent Number) :
    Parsed (StressEventConfig Number) := do
  checkLaunchKeys label o
  let launchRanges ← parseLaunchRanges platform label o
  checkWaveStop platform label o
  let wavePriceCeiling ← parsePriceCeiling platform label o
  checkStable label o
  checkAlign label o
  checkSide label o
  checkPersist label o
  checkReprice platform label o
  checkShock platform label o
  checkCount label o
  checkKappa platform label o
  checkTrend platform label o
  checkVenue label o
  let magnitudeRange ← parseMagnitude platform label o
  let windowFrac ← parseWindowFrac platform label windowFracBeyondRun o
  let trapezoid ← parseTrapezoid label o
  return {
    type := o.type
    base := o.base
    stable := o.stable
    side := o.side
    venue := o.venue
    repriceAnchorProb := o.repriceAnchorProb
    flipProb := o.flipProb
    recoverFrac := o.recoverFrac
    count := o.count
    minGapBlocks := o.minGapBlocks
    alignWith := o.alignWith
    kappaMultRange := o.kappaMultRange
    persist := o.persist.filter (· = true)
    repriceAnchor := o.repriceAnchor.filter (· = true)
    trendCorrelation := o.trendCorrelation
    persistBlocks := o.persistBlocks
    tokenCount := launchRanges.map (·.tokenCount)
    liquidityUsdc := launchRanges.map (·.liquidityUsdc)
    waveUsdcMult := launchRanges.map (·.waveUsdcMult)
    dudProb := launchRanges.map (·.dudProb)
    sellBackFrac := launchRanges.map (·.sellBackFrac)
    waveStopProb := o.waveStopProb
    wavePriceCeiling := wavePriceCeiling
    magnitudeRange := magnitudeRange
    windowFrac := windowFrac
    rampBlocks := trapezoid.rampBlocks
    holdBlocks := trapezoid.holdBlocks
    decayBlocks := trapezoid.decayBlocks }

/-- `parseStressEvents`, on a list which was read from the JSON text. -/
def parseStressEvents
    (windowFracBeyondRun : Bool) (raws : List (RawEvent Number)) :
    Parsed (List (StressEventConfig Number)) :=
  each (fun index raw =>
    parseOne platform ("ERIS_STRESS_EVENTS[" ++ toString index ++ "]")
      windowFracBeyondRun raw) 0 raws

end Keys

/-! ## What every accepted event satisfies -/

/-- The lengths a segment can have are ordered and not negative. -/
def BlocksFit : BlockCount → Prop
  | .fixed blocks => 0 ≤ blocks
  | .range least most => 0 ≤ least ∧ least ≤ most

/-- A range is ordered, and its bounds hold at its ends. -/
structure Within
    (platform : Platform Number Stream) (least most : Option (Bound Number))
    (range : Number × Number) : Prop where
  ordered : platform.less range.2 range.1 = false
  above : ∀ bound ∈ least, bound.above platform range.1 = true
  below : ∀ bound ∈ most, bound.below platform range.2 = true

structure Sound
    (platform : Platform Number Stream) (config : StressEventConfig Number) :
    Prop where
  ramp : BlocksFit config.rampBlocks
  hold : BlocksFit config.holdBlocks
  decay : BlocksFit config.decayBlocks
  window : Within platform (some (atLeastZero platform)) none config.windowFrac
  count : ∀ range ∈ config.count, 0 ≤ range.1 ∧ range.1 ≤ range.2
  alone : config.count.isSome → config.alignWith = none
  gap : ∀ gap ∈ config.minGapBlocks, 0 ≤ gap
  wave : config.waveStopProb.isSome →
    ∃ blocks, config.rampBlocks = .fixed blocks ∧ 1 ≤ blocks
  tokens : config.type = .tokenLaunch →
    ∃ range, config.tokenCount = some range ∧ 1 ≤ range.1 ∧ range.1 ≤ range.2
  magnitude : config.type ≠ .tokenLaunch →
    Within platform (some (aboveZero platform))
      (if isFraction config.type then some (besideOne platform) else none)
      config.magnitudeRange
  turns : config.flipProb.isSome → config.type = .crash ∨ config.type = .spike
  recovers : ∀ range ∈ config.recoverFrac,
    Within platform (some (atLeastZero platform))
      (some (atMostOne platform)) range

section Soundness

variable {platform : Platform Number Stream} {label : String}
    {o : RawEvent Number} {config : StressEventConfig Number}

theorem whenWritten_ok
    {Value : Type} {value : Option Value} {check : Value → Parsed Unit}
    {done : Unit} :
    whenWritten value check = .ok done ↔
      ∀ written ∈ value, check written = .ok () := by
  cases value with
  | none => simp [whenWritten]
  | some written => simp [whenWritten]

theorem parseRange_ok
    {value : Option (Number × Number)} {least most : Option (Bound Number)}
    {range : Number × Number}
    (parsed : parseRange platform value label least most = .ok range) :
    value = some range ∧ Within platform least most range := by
  cases value with
  | none => cases parsed
  | some written =>
      simp only [parseRange, bind_eq_ok, require_eq_ok, pure_eq_ok,
        whenWritten_ok] at parsed
      rcases parsed with ⟨_, ordered, _, above, _, below, rfl⟩
      exact ⟨rfl, ordered, above, below⟩

theorem parseIntRange_ok
    {range result : Int × Int} {least : Int}
    (parsed : parseIntRange range label least = .ok result) :
    result = range ∧ least ≤ range.1 ∧ range.1 ≤ range.2 := by
  simp only [parseIntRange, bind_eq_ok, require_eq_ok, pure_eq_ok] at parsed
  rcases parsed with ⟨_, ordered, _, above, rfl⟩
  exact ⟨rfl, above, ordered⟩

theorem parseBlockCount_ok
    {value : Option BlockCount} {blocks : BlockCount}
    (parsed : parseBlockCount value label = .ok blocks) :
    value = some blocks ∧ BlocksFit blocks := by
  cases value with
  | none => cases parsed
  | some written =>
      cases written with
      | fixed number =>
          simp only [parseBlockCount, parseNonNegInt, bind_eq_ok,
            require_eq_ok, pure_eq_ok] at parsed
          rcases parsed with ⟨_, ⟨_, fits, rfl⟩, rfl⟩
          exact ⟨rfl, fits⟩
      | range least most =>
          simp only [parseBlockCount, bind_eq_ok, pure_eq_ok] at parsed
          rcases parsed with ⟨range, ranged, rfl⟩
          rcases parseIntRange_ok ranged with ⟨rfl, fits⟩
          exact ⟨rfl, fits⟩

theorem parseTrapezoid_ok
    {trapezoid : Trapezoid} (parsed : parseTrapezoid label o = .ok trapezoid) :
    writtenBlocks o.type o.rampBlocks = some trapezoid.rampBlocks ∧
      BlocksFit trapezoid.rampBlocks ∧ BlocksFit trapezoid.holdBlocks ∧
      BlocksFit trapezoid.decayBlocks := by
  simp only [parseTrapezoid, bind_eq_ok, require_eq_ok, pure_eq_ok] at parsed
  rcases parsed with ⟨ramp, rampOk, hold, holdOk, decay, decayOk, _, _, rfl⟩
  have first := parseBlockCount_ok rampOk
  exact ⟨first.1, first.2, (parseBlockCount_ok holdOk).2,
    (parseBlockCount_ok decayOk).2⟩

theorem parseLaunchRanges_ok
    {ranges : Option (LaunchRanges Number)}
    (parsed : parseLaunchRanges platform label o = .ok ranges) :
    o.type = .tokenLaunch → ∃ launch, ranges = some launch ∧
        1 ≤ launch.tokenCount.1 ∧
        launch.tokenCount.1 ≤ launch.tokenCount.2 := by
  intro isLaunch
  rw [parseLaunchRanges, if_pos isLaunch] at parsed
  simp only [bind_eq_ok, pure_eq_ok] at parsed
  rcases parsed with ⟨tokens, tokensOk, _, _, _, _, _, _, _, _, rfl⟩
  rcases parseIntRange_ok tokensOk with ⟨rfl, fits⟩
  exact ⟨_, rfl, fits⟩

theorem isOnePositive_iff {blocks : Option BlockCount} :
    isOnePositive blocks = true ↔
      ∃ number, blocks = some (.fixed number) ∧ 1 ≤ number := by
  cases blocks with
  | none => simp [isOnePositive]
  | some blocks => cases blocks <;> simp [isOnePositive]

theorem checkWaveStop_ok
    (checked : checkWaveStop platform label o = .ok ()) :
    o.waveStopProb.isSome → o.type = .tokenLaunch ∧
        ∃ blocks, o.rampBlocks = some (.fixed blocks) ∧ 1 ≤ blocks := by
  intro written
  rcases Option.isSome_iff_exists.mp written with ⟨stopProb, found⟩
  have here := whenWritten_ok.mp checked stopProb found
  simp only [bind_eq_ok, require_eq_ok] at here
  rcases here with ⟨_, isLaunch, _, _, positive⟩
  exact ⟨isLaunch, isOnePositive_iff.mp positive⟩

theorem checkShock_ok (checked : checkShock platform label o = .ok ()) :
    (o.flipProb.isSome → o.type = .crash ∨ o.type = .spike) ∧
      ∀ range ∈ o.recoverFrac, Within platform (some (atLeastZero platform))
          (some (atMostOne platform)) range := by
  simp only [checkShock, bind_eq_ok] at checked
  rcases checked with ⟨_, turning, recovering⟩
  constructor
  · intro written
    rcases Option.isSome_iff_exists.mp written with ⟨prob, found⟩
    have here := whenWritten_ok.mp turning prob found
    simp only [bind_eq_ok, require_eq_ok] at here
    exact here.choose_spec.1
  · intro range found
    have here := whenWritten_ok.mp recovering range found
    simp only [bind_eq_ok, require_eq_ok] at here
    rcases here with ⟨_, _, parsed, ranged, _⟩
    have within := parseRange_ok ranged
    rw [Option.some.inj within.1]
    exact within.2

theorem checkCount_ok (checked : checkCount label o = .ok ()) :
    (∀ range ∈ o.count,
        (0 ≤ range.1 ∧ range.1 ≤ range.2) ∧ o.alignWith = none) ∧
      ∀ gap ∈ o.minGapBlocks, 0 ≤ gap := by
  simp only [checkCount, bind_eq_ok] at checked
  rcases checked with ⟨_, counted, spaced⟩
  constructor
  · intro range found
    have here := whenWritten_ok.mp counted range found
    simp only [bind_eq_ok, requireAbsent, require_eq_ok] at here
    rcases here with ⟨_, ranged, alone⟩
    exact ⟨(parseIntRange_ok ranged).2, Option.isNone_iff_eq_none.mp alone⟩
  · intro gap found
    have here := whenWritten_ok.mp spaced gap found
    simp only [bind_eq_ok, require_eq_ok, parseNonNegInt] at here
    rcases here with ⟨_, _, _, ⟨_, fits, _⟩, _⟩
    exact fits

theorem parseMagnitude_ok
    {range : Number × Number}
    (parsed : parseMagnitude platform label o = .ok range) :
    o.type ≠ .tokenLaunch → Within platform (some (aboveZero platform))
        (if isFraction o.type then some (besideOne platform) else none)
        range := by
  intro other
  rw [parseMagnitude, if_neg other] at parsed
  exact (parseRange_ok parsed).2

theorem parseOne_sound
    {windowFracBeyondRun : Bool}
    (parsed : parseOne platform label windowFracBeyondRun o = .ok config) :
    Sound platform config := by
  simp only [parseOne, bind_eq_ok, pure_eq_ok] at parsed
  rcases parsed with
    ⟨_, _, launch, launchOk, _, waveOk, _, _, _, _, _, _, _, _, _, _, _, _,
      _, shockOk, _, countOk, _, _, _, _, _, _, magnitude, magnitudeOk,
      window, windowOk, trapezoid, trapezoidOk, rfl⟩
  have windowed := (parseRange_ok windowOk).2
  have shaped := parseTrapezoid_ok trapezoidOk
  have counted := checkCount_ok countOk
  have shock := checkShock_ok shockOk
  refine
    { ramp := shaped.2.1
      hold := shaped.2.2.1
      decay := shaped.2.2.2
      window := ⟨windowed.ordered, windowed.above, ?_⟩
      count := fun range found => (counted.1 range found).1
      alone := ?_
      gap := counted.2
      wave := ?_
      tokens := ?_
      magnitude := parseMagnitude_ok magnitudeOk
      turns := shock.1
      recovers := shock.2 }
  · intro bound impossible
    cases impossible
  · intro written
    rcases Option.isSome_iff_exists.mp written with ⟨range, found⟩
    exact (counted.1 range found).2
  · intro written
    rcases checkWaveStop_ok waveOk written with
      ⟨isLaunch, blocks, ramp, positive⟩
    have same := shaped.1
    rw [isLaunch, ramp] at same
    exact ⟨blocks, (Option.some.inj same).symm, positive⟩
  · intro isLaunch
    rcases parseLaunchRanges_ok launchOk isLaunch with
      ⟨ranges, rfl, fits⟩
    exact ⟨ranges.tokenCount, rfl, fits⟩

theorem parseStressEvents_sound
    {windowFracBeyondRun : Bool} {raws : List (RawEvent Number)}
    {configs : List (StressEventConfig Number)}
    (parsed :
      parseStressEvents platform windowFracBeyondRun raws = .ok configs) :
    ∀ config ∈ configs, Sound platform config := by
  intro config member
  rcases List.mem_iff_getElem?.mp member with ⟨place, found⟩
  have inside : place < raws.length := by
    rw [← each_length parsed]
    exact (List.getElem?_eq_some_iff.mp found).1
  rcases each_get parsed (List.getElem?_eq_getElem inside) with
    ⟨result, listed, resultOk⟩
  rw [found] at listed
  cases listed
  exact parseOne_sound resultOk

end Soundness

end Eris.Events.Parsing
