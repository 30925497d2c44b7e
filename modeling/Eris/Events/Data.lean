import Mathlib

/-!
# Stress events

The configuration of a stress event, what the seed draws for its windows, and
the event as it is resolved.  Ranges and fractions are numbers of the
platform; blocks and counts are integers.

A platform is the arithmetic of these numbers, the streams of draws which a
seed and a salt name, and the digest which enters a salted stream.
-/

namespace Eris.Events.Data

inductive StressEventType where
  | spike
  | crash
  | lstSlash
  | whale
  | liquidityPull
  | eusdDepeg
  | depeg
  | cexDrift
  | volBurst
  | flowTrend
  | tokenLaunch
  deriving DecidableEq, Repr

inductive EventKind where
  | overlay
  | point
  | state
  | process
  deriving DecidableEq, Repr

def eventKind : StressEventType → EventKind
  | .spike => .overlay
  | .crash => .overlay
  | .lstSlash => .point
  | .whale => .point
  | .liquidityPull => .state
  | .eusdDepeg => .state
  | .depeg => .state
  | .cexDrift => .process
  | .volBurst => .process
  | .flowTrend => .process
  | .tokenLaunch => .process

def isPointEvent (type : StressEventType) : Bool := eventKind type = .point

inductive Side where
  | buy
  | sell
  deriving DecidableEq, Repr

inductive WhaleSide where
  | fixed (side : Side)
  | random
  deriving DecidableEq, Repr

inductive WhaleVenue where
  | uniswap
  | balancer
  | curve
  deriving DecidableEq, Repr

inductive VenueChoice where
  | fixed (venue : WhaleVenue)
  | random
  deriving DecidableEq, Repr

/-- A trapezoid segment: fixed, or an inclusive range. -/
inductive BlockCount where
  | fixed (blocks : Int)
  | range (least most : Int)
  deriving DecidableEq, Repr

structure StressEventConfig (Number : Type) where
  type : StressEventType
  base : Option String
  magnitudeRange : Number × Number
  stable : Option String
  side : Option WhaleSide
  kappaMultRange : Option (Number × Number)
  persist : Option Bool
  repriceAnchor : Option Bool
  repriceAnchorProb : Option Number
  flipProb : Option Number
  recoverFrac : Option (Number × Number)
  trendCorrelation : Option Number
  persistBlocks : Option Int
  venue : Option VenueChoice
  tokenCount : Option (Int × Int)
  liquidityUsdc : Option (Number × Number)
  waveUsdcMult : Option (Number × Number)
  dudProb : Option (Number × Number)
  sellBackFrac : Option (Number × Number)
  waveStopProb : Option Number
  wavePriceCeiling : Option (Number × Number)
  windowFrac : Number × Number
  alignWith : Option StressEventType
  count : Option (Int × Int)
  minGapBlocks : Option Int
  rampBlocks : BlockCount
  holdBlocks : BlockCount
  decayBlocks : BlockCount

structure ResolvedTokenLaunch (Number : Type) where
  index : Nat
  liquidityUsdc : Int
  waveUsdcMult : Number
  waveBlockUsdcMult : Option Number
  dud : Bool
  sellBackFrac : Number
  priceCeilingMult : Option Number
  rampBlocks : Option Int

/-- Everything the seed decides about one window, before it is placed. -/
structure DrawnWindow (Number : Type) where
  magnitude : Number
  startU : Number
  side : Option Side
  kappaMult : Option Number
  launches : Option (List (ResolvedTokenLaunch Number))
  flipped : Bool
  recoverFrac : Option Number
  venue : Option WhaleVenue
  repriceAnchor : Bool
  rampBlocks : Int
  holdBlocks : Int
  decayBlocks : Int
  span : Int

structure ResolvedStressEvent (Number : Type) where
  type : StressEventType
  base : String
  stable : Option String
  magnitude : Number
  side : Option Side
  kappaMult : Option Number
  persist : Bool
  repriceAnchor : Bool
  trendCorrelation : Option Number
  persistBlocks : Option Int
  venue : Option VenueChoice
  launches : Option (List (ResolvedTokenLaunch Number))
  startBlock : Int
  rampBlocks : Int
  holdBlocks : Int
  decayBlocks : Int
  endBlock : Int
  flippedFrom : Option StressEventType
  recoverFrac : Option Number

/-- What a stream is named by, next to the seed. -/
inductive Salt where
  | number (salt : Nat)
  | text (salt : String)
  deriving DecidableEq, Repr

structure Platform (Number Stream : Type) where
  ofInt : Int → Number
  add : Number → Number → Number
  sub : Number → Number → Number
  mul : Number → Number → Number
  div : Number → Number → Number
  power : Number → Int → Number
  log : Number → Number
  less : Number → Number → Bool
  floor : Number → Int
  round : Number → Int
  half : Number
  tolerance : Number
  fromSeed : Int → Salt → Stream
  next : StateM Stream Number
  configDigest : List (StressEventConfig Number) → Nat

variable {Number Stream : Type} (platform : Platform Number Stream)

namespace Platform

def zero : Number := platform.ofInt 0

def lerp (low high fraction : Number) : Number :=
  platform.add low (platform.mul (platform.sub high low) fraction)

/-- The first draw of a stream of its own. -/
def keyed (seed : Int) (salt : String) : Number :=
  (platform.next (platform.fromSeed seed (.text salt))).1

end Platform

end Eris.Events.Data
