import Eris.Events.Draws
import Eris.Foundation.Traversal

/-!
# The event schedule

The constructor of the schedule in its passes: every follower is paired with
its anchor, every entry draws from one stream in list order, the entries
which follow nothing are placed, and followers take the starts of their
anchors.  The events are kept apart by entry; the schedule lists them one
entry after the other.
-/

namespace Eris.Events.Schedule

open Data Draws Foundation.Checked Foundation.Traversal

inductive Refusal where
  | noFixedLength
  | windowBase (windowBaseBlocks runBlocks : Int)
  | startsPastRun (index : Nat)
  | anchorMissing (index : Nat) (alignWith : StressEventType)
  | anchorAligned (index anchor : Nat)
  | countAndAlign (index : Nat)
  | startsTooNarrow (index : Nat) (most longest gap : Int)
  | runTooShort (index : Nat) (most longest gap : Int)
  | followerPastRun (index : Nat) (start span : Int)
  deriving DecidableEq, Repr

variable {Number Stream : Type}

/-! ## Anchors -/

/-- Whether the entry at an index has a type. -/
def hasType
    (configs : List (StressEventConfig Number)) (type : StressEventType)
    (index : Nat) : Bool :=
  (configs[index]?.map (·.type)) = some type

/-- The nearest entry of a type above an index, else the first below it. -/
def findAnchor
    (configs : List (StressEventConfig Number)) (index : Nat)
    (type : StressEventType) : Option Nat :=
  ((List.range index).reverse.find? (hasType configs type)).or
    (((List.range configs.length).filter (index < ·)).find?
      (hasType configs type))

/-- The entry which a follower pairs with. -/
def resolveAnchor
    (configs : List (StressEventConfig Number)) (index : Nat)
    (config : StressEventConfig Number) : Outcome Refusal (Option Nat) :=
  match config.alignWith with
  | none => return none
  | some type =>
      match findAnchor configs index type with
      | none => .error (.reason (.anchorMissing index type))
      | some anchor => do
          require ((configs[anchor]?.bind (·.alignWith)) = none)
            (.anchorAligned index anchor)
          require (config.count = none) (.countAndAlign index)
          return some anchor

/-- An entry with its anchor, and the entry whose count it draws for. -/
structure Paired (Number : Type) where
  config : StressEventConfig Number
  anchor : Option Nat
  lead : StressEventConfig Number

def pair
    (configs : List (StressEventConfig Number)) (index : Nat)
    (config : StressEventConfig Number) :
    Outcome Refusal (Paired Number) := do
  let anchor ← resolveAnchor configs index config
  return ⟨config, anchor, (anchor.bind (configs[·]?)).getD config⟩

def stressSeedSalt : Nat := 0x53545253

def BlockCount.drawn : BlockCount → Bool
  | .fixed _ => false
  | .range _ _ => true

def usesVariation (config : StressEventConfig Number) : Bool :=
  config.count.isSome || BlockCount.drawn config.rampBlocks ||
    BlockCount.drawn config.holdBlocks ||
    BlockCount.drawn config.decayBlocks || config.flipProb.isSome ||
    config.recoverFrac.isSome || config.venue = some .random ||
    config.repriceAnchorProb.isSome || config.waveStopProb.isSome ||
    config.wavePriceCeiling.isSome

/-- Whether the event list goes into the salt. -/
def isSalted
    (saltWithEventList : Option Bool)
    (configs : List (StressEventConfig Number)) : Bool :=
  saltWithEventList.getD (configs.any usesVariation)

structure Drawn (Number : Type) where
  config : StressEventConfig Number
  anchor : Option Nat
  count : Option Int
  windows : List (DrawnWindow Number)

variable (platform : Platform Number Stream)

def saltOf
    (saltWithEventList : Option Bool)
    (configs : List (StressEventConfig Number)) : Nat :=
  if isSalted saltWithEventList configs then
    (stressSeedSalt ^^^ platform.configDigest configs) % 2 ^ 32
  else stressSeedSalt

/-- The stream of one token of one window. -/
def tokenStream (name : String) (salt index window token : Nat) : String :=
  s!"{name}:{salt}:{index}:{window}:{token}"

/-- The lengths of a launch's waves, and their price ceilings. -/
def drawWaves
    (seed : Int) (salt index : Nat) (config : StressEventConfig Number)
    (place : Nat) (window : DrawnWindow Number) : DrawnWindow Number :=
  if config.type = .tokenLaunch then
    let timed := match config.waveStopProb with
      | none => window
      | some stopProb =>
          drawWaveLengths platform stopProb (fun token =>
              platform.keyed seed
                (tokenStream "launch-length" salt index place token))
            window
    match config.wavePriceCeiling with
    | none => timed
    | some range =>
        drawPriceCeilings platform range (fun token =>
            platform.keyed seed
              (tokenStream "launch-ceiling" salt index place token))
          timed
  else window

/-- How many windows an entry draws: as many as its lead can open. -/
def slotsOf (lead : StressEventConfig Number) : Nat :=
  match lead.count with
  | none => 1
  | some range => range.2.toNat

def drawEntry
    (seed : Int) (salt index : Nat) (paired : Paired Number) :
    StateM Stream (Drawn Number) := do
  let count ← match paired.config.count with
    | none => pure none
    | some range => some <$> drawInt platform range
  let windows ← (List.range (slotsOf paired.lead)).mapM
      fun _ => drawWindow platform paired.config
  return {
    config := paired.config
    anchor := paired.anchor
    count := count
    windows :=
      windows.mapIdx (drawWaves platform seed salt index paired.config) }

def drawEntries
    (seed : Int) (salt : Nat) (entries : List (Paired Number)) :
    List (Drawn Number) :=
  (each (drawEntry platform seed salt) 0 entries
    (platform.fromSeed seed (.number salt))).1

/-! ## Placement -/

/-- The windows which an entry that follows nothing opens. -/
def Drawn.opened (entry : Drawn Number) : List (DrawnWindow Number) :=
  entry.windows.take (entry.count.getD 1).toNat

/-- The entries which follow the one at an index. -/
def followersOf
    (entries : List (Drawn Number)) (index : Nat) : List (Drawn Number) :=
  entries.filter (·.anchor = some index)

/-- Where the only window of an entry starts, were the run endless. -/
def startOf
    (config : StressEventConfig Number) (windowBaseBlocks : Int)
    (window : DrawnWindow Number) : Int :=
  platform.round (platform.mul
      (platform.lerp config.windowFrac.1 config.windowFrac.2 window.startU)
      (platform.ofInt windowBaseBlocks))

/-- Clamp a start so that its window fits inside the run. -/
def clampStart (runBlocks start span : Int) : Int :=
  max 0 (min start (max 0 (runBlocks - span)))

/-- What a window occupies before the next one may start. -/
def stepsOf (gap : Int) : List Int → List Int
  | [] => []
  | [reach] => [reach]
  | reach :: rest => (reach + gap) :: stepsOf gap rest

/-- Spread sorted draws over the slack; each start with its step. -/
def layOut (low slack : Number) :
    Int → List Number → List Int → List (Int × Int)
  | laid, draw :: draws, step :: steps =>
      (platform.round (platform.add (platform.add low (platform.mul draw slack))
            (platform.ofInt laid)), step) ::
        layOut low slack (laid + step) draws steps
  | _, _, _ => []

/-- Pull the last window into the run, and the ones before it with it. -/
def pullIn (runBlocks : Int) : List (Int × Int) → List Int
  | [] => []
  | (start, step) :: later =>
      let placed := pullIn runBlocks later
      min start (placed.head?.getD runBlocks - step) :: placed

def sortDraws (draws : List Number) : List Number :=
  draws.mergeSort fun first second => !platform.less second first

/-- The starts of an entry with `count`, were the run endless. -/
def layWindows
    (config : StressEventConfig Number) (windowBaseBlocks : Int)
    (reach : List Int) (startUs : List Number) : List (Int × Int) :=
  let base := platform.ofInt windowBaseBlocks
  let low := platform.mul config.windowFrac.1 base
  let high := platform.mul config.windowFrac.2 base
  let steps := stepsOf (config.minGapBlocks.getD 0) reach
  let slack := platform.sub (platform.sub high low)
      (platform.ofInt steps.dropLast.sum)
  layOut platform low slack 0 (sortDraws platform startUs) steps

/-- The longest window which an entry or its followers can draw. -/
def longestOf
    (config : StressEventConfig Number)
    (followers : List (StressEventConfig Number)) : Int :=
  (followers.map maxSpan).foldl max (maxSpan config)

def placeWindows
    (index : Nat) (config : StressEventConfig Number) (most : Int)
    (followers : List (StressEventConfig Number))
    (runBlocks windowBaseBlocks : Int)
    (reach : List Int) (startUs : List Number) :
    Outcome Refusal (List Int) := do
  let gap := config.minGapBlocks.getD 0
  let longest := longestOf config followers
  let base := platform.ofInt windowBaseBlocks
  require (platform.less (platform.sub (platform.mul config.windowFrac.2 base)
          (platform.mul config.windowFrac.1 base))
        (platform.ofInt ((most - 1) * (longest + gap))) = false)
    (.startsTooNarrow index most longest gap)
  require (most * longest + (most - 1) * gap ≤ runBlocks)
    (.runTooShort index most longest gap)
  return pullIn runBlocks
    (layWindows platform config windowBaseBlocks reach startUs)

/-- Read a drawn window; there is one for every place that is read. -/
def windowAt
    (entry : Drawn Number) (place : Nat) :
    Outcome Refusal (DrawnWindow Number) :=
  match entry.windows[place]? with
  | none => .error .panic
  | some window => return window

/-- Each window claims the blocks of its longest member. -/
def reachOf
    (followers : List (Drawn Number)) (place : Nat)
    (window : DrawnWindow Number) : Outcome Refusal Int := do
  let members ← followers.mapM (windowAt · place)
  return (members.map (·.span)).foldl max window.span

/-- Place an entry which follows nothing. -/
def placeEntry
    (entries : List (Drawn Number)) (runBlocks windowBaseBlocks : Int)
    (index : Nat) (entry : Drawn Number) : Outcome Refusal (List Int) :=
  match entry.anchor, entry.config.count with
  | some _, _ => return []
  | none, none => do
      let window ← windowAt entry 0
      return [clampStart runBlocks
        (startOf platform entry.config windowBaseBlocks window) window.span]
  | none, some count => do
      let followers := followersOf entries index
      let reach ← each (reachOf followers) 0 entry.opened
      placeWindows platform index entry.config count.2
        (followers.map (·.config)) runBlocks windowBaseBlocks reach
        (entry.opened.map (·.startU))

/-- A follower starts where its anchor does, and has to fit there. -/
def alignStart
    (runBlocks : Int) (index : Nat) (entry : Drawn Number)
    (place : Nat) (start : Int) : Outcome Refusal Int := do
  let window ← windowAt entry place
  require (start + window.span ≤ runBlocks)
    (.followerPastRun index start window.span)
  return start

/-- Move a follower onto the starts of its anchor, which has none itself. -/
def alignEntry
    (starts : List (List Int)) (runBlocks : Int)
    (index : Nat) (placed : Drawn Number × List Int) :
    Outcome Refusal (List Int) :=
  match placed.1.anchor with
  | none => return placed.2
  | some anchor =>
      each (alignStart runBlocks index placed.1) 0 ((starts[anchor]?).getD [])

/-- The type of an event whose draw may have turned it around. -/
def resolvedType
    (config : StressEventConfig Number) (window : DrawnWindow Number) :
    StressEventType :=
  if window.flipped then
    if config.type = .crash then .spike else .crash
  else config.type

def resolvedVenue
    (config : StressEventConfig Number) (window : DrawnWindow Number) :
    Option VenueChoice :=
  match config.type with
  | .whale =>
      some (((window.venue.map .fixed).or config.venue).getD (.fixed .uniswap))
  | .liquidityPull => config.venue
  | _ => none

def resolveWindow
    (config : StressEventConfig Number) (window : DrawnWindow Number)
    (startBlock : Int) : ResolvedStressEvent Number where
  type := resolvedType config window
  base := config.base.getD "WETH"
  stable := config.stable
  magnitude := window.magnitude
  side := window.side
  kappaMult := window.kappaMult
  persist := config.persist = some true
  repriceAnchor := window.repriceAnchor
  trendCorrelation :=
    if config.type = .flowTrend then config.trendCorrelation else none
  persistBlocks :=
    if config.type = .flowTrend then config.persistBlocks else none
  venue := resolvedVenue config window
  launches := window.launches
  startBlock := startBlock
  rampBlocks := window.rampBlocks
  holdBlocks := window.holdBlocks
  decayBlocks := window.decayBlocks
  endBlock := startBlock + window.span
  flippedFrom := if window.flipped then some config.type else none
  recoverFrac := window.recoverFrac

/-- One resolved event for each window of an entry, in time order. -/
def resolveEntry (entry : Drawn Number) (starts : List Int) :
    List (ResolvedStressEvent Number) :=
  List.zipWith (resolveWindow entry.config) entry.windows starts

/-- The checks of the configuration against the length of the run. -/
def checkRun
    (configs : List (StressEventConfig Number))
    (runBlocks windowBaseBlocks : Int) : Outcome Refusal Unit := do
  require (configs = [] ∨ 0 < runBlocks) .noFixedLength
  require (0 < windowBaseBlocks ∧ windowBaseBlocks ≤ runBlocks)
    (.windowBase windowBaseBlocks runBlocks)
  let _ ← each (fun index config =>
      require (platform.less
            (platform.add (platform.ofInt runBlocks) platform.tolerance)
            (platform.mul config.windowFrac.2
              (platform.ofInt windowBaseBlocks)) = false)
        (.startsPastRun index))
    0 configs
  return ()

/-- The constructor: the events of every entry, in list order. -/
def eventSchedule
    (configs : List (StressEventConfig Number)) (seed : Int)
    (runBlocks windowBaseBlocks : Int) (saltWithEventList : Option Bool) :
    Outcome Refusal (List (List (ResolvedStressEvent Number))) := do
  checkRun platform configs runBlocks windowBaseBlocks
  let paired ← each (pair configs) 0 configs
  let entries := drawEntries platform seed
      (saltOf platform saltWithEventList configs) paired
  let starts ←
    each (placeEntry platform entries runBlocks windowBaseBlocks) 0 entries
  let aligned ← each (alignEntry starts runBlocks) 0 (entries.zip starts)
  return List.zipWith resolveEntry entries aligned

end Eris.Events.Schedule
