import Eris.Events.Data
import Eris.Foundation.PlainObject

/-!
# What the events do to the market

The envelope of an event, and the multipliers of the price, of the depth and
of the size of the flow which the events of a schedule make at a block.
Numbers are exact here.

A factor of the depth or of the flow is positive for every accepted event.
A crash takes off its magnitude times its envelope, and its magnitude is
bounded only from below.
-/

namespace Eris.Events.Multipliers

open Data Foundation.PlainObject

variable {Number : Type} [Field Number] [LinearOrder Number]
    [IsStrictOrderedRing Number]

/-! ## The multipliers -/

/-- What is left of the gap once the event is over. -/
def residual (event : ResolvedStressEvent Number) : Number :=
  match event.recoverFrac with
  | none => 0
  | some fraction => 1 - fraction

def stressEnvelope
    (event : ResolvedStressEvent Number) (blockIndex : Int) : Number :=
  let t := blockIndex - event.startBlock
  let r := event.rampBlocks
  let h := event.holdBlocks
  let d := event.decayBlocks
  if t < 0 then 0
  else if t < r then
    if r = 0 then 1 else ((t + 1 : Int) : Number) / (r : Number)
  else if t < r + h then 1
  else if event.persist then 1
  else if t < r + h + d then
    if d = 0 then 1
    else
      1 - (1 - residual event) * ((t - (r + h) + 1 : Int) : Number) /
        (d : Number)
  else residual event

/-- Multiply what some events make of a block into an object, by base. -/
def multipliers
    (acts : StressEventType → Bool)
    (factor : ResolvedStressEvent Number → Number → Number)
    (events : List (ResolvedStressEvent Number)) (blockIndex : Int) :
    Entries Number :=
  events.foldl (fun multiplied event =>
      if acts event.type = true then
        let envelope := stressEnvelope event blockIndex
        if envelope = 0 then multiplied
        else scale multiplied event.base (factor event envelope)
      else multiplied)
    noEntries

def isLiquidityPull (type : StressEventType) : Bool := type = .liquidityPull

def depthFactor
    (event : ResolvedStressEvent Number) (envelope : Number) : Number :=
  1 - event.magnitude * envelope

/-- The fraction of the seeded depth, by base. -/
def depthMultiplierAt
    (events : List (ResolvedStressEvent Number)) (blockIndex : Int) :
    Entries Number :=
  multipliers isLiquidityPull depthFactor events blockIndex

def isPriceOverlay (type : StressEventType) : Bool := eventKind type = .overlay

def priceFactor
    (event : ResolvedStressEvent Number) (envelope : Number) : Number :=
  let sign := if event.type = .crash then -1 else 1
  1 + sign * event.magnitude * envelope

structure OverlayState (Number : Type) where
  wethMult : Option Number
  usdcPx : Number
  baseMults : Entries Number

/-- `EventSchedule.at` -/
def overlayAt
    (events : List (ResolvedStressEvent Number)) (blockIndex : Int) :
    OverlayState Number :=
  let baseMults := multipliers isPriceOverlay priceFactor events blockIndex
  { wethMult := readOrOne baseMults "WETH"
    usdcPx := 1
    baseMults := baseMults }

/-- What the events do to the uninformed flow. -/
structure FlowTrendOverride (Number : Type) where
  sizeMult : Number
  trendCorrelation : Option Number
  persistBlocks : Option Int

def trendFactor
    (event : ResolvedStressEvent Number) (envelope : Number) : Number :=
  1 + (event.magnitude - 1) * envelope

/-- The larger of what was reached and what an event asks for. -/
def raise
    {Value : Type} [Max Value] [Zero Value]
    (reached asked : Option Value) : Option Value :=
  match asked with
  | none => reached
  | some value => some (max (reached.getD 0) value)

def flowTrendAt
    (events : List (ResolvedStressEvent Number)) (blockIndex : Int) :
    FlowTrendOverride Number :=
  events.foldl (fun trend event =>
      if event.type = .flowTrend then
        let envelope := stressEnvelope event blockIndex
        if envelope = 0 then trend
        else
          { sizeMult := trend.sizeMult * trendFactor event envelope
            trendCorrelation :=
              raise trend.trendCorrelation event.trendCorrelation
            persistBlocks := raise trend.persistBlocks event.persistBlocks }
      else trend)
    ⟨1, none, none⟩

/-- Every multiplier at a block is a number above zero. -/
structure MarketPositive
    (events : List (ResolvedStressEvent Number)) (blockIndex : Int) :
    Prop where
  price : Positive (overlayAt events blockIndex).baseMults
  weth : ∃ number,
    (overlayAt events blockIndex).wethMult = some number ∧ 0 < number
  depth : Positive (depthMultiplierAt events blockIndex)
  flow : 0 < (flowTrendAt events blockIndex).sizeMult

/-- How much of the price a crash takes off. -/
def takenOff
    (event : ResolvedStressEvent Number) (blockIndex : Int) : Number :=
  event.magnitude * stressEnvelope event blockIndex

/-- A crash of a base which takes off more than all of the price. -/
def Overturns
    (base : String) (blockIndex : Int)
    (event : ResolvedStressEvent Number) : Prop :=
  event.type = .crash ∧ event.base = base ∧ 1 < takenOff event blockIndex

instance
    (base : String) (blockIndex : Int) :
    DecidablePred
      (Overturns base blockIndex : ResolvedStressEvent Number → Prop) :=
  fun _ => inferInstanceAs (Decidable (_ ∧ _ ∧ _))

/--
No event at work at a block names what every object inherits, no crash takes
off exactly all of the price, and those which take off more come in pairs.
-/
structure Harmless
    (events : List (ResolvedStressEvent Number)) (blockIndex : Int) :
    Prop where
  named : ∀ event ∈ events,
    isPriceOverlay event.type = true ∨ isLiquidityPull event.type = true →
      stressEnvelope event blockIndex ≠ 0 → event.base ∉ inherited
  apart : ∀ event ∈ events, event.type = .crash →
    event.base ≠ prototype → takenOff event blockIndex ≠ 1
  paired : ∀ base, base ≠ prototype →
    Even (events.countP fun event => Overturns base blockIndex event)

/-- No crash, drawn as one or turned into one, can take off all of the
price, and no entry names what every object inherits. -/
def Mild (configs : List (StressEventConfig Number)) : Prop :=
  ∀ config ∈ configs, config.base.getD "WETH" ∉ inherited ∧
      (config.type = .crash ∨ config.flipProb.isSome →
        config.magnitudeRange.2 < 1)

/-- What holds of an event which was drawn for an accepted entry. -/
structure Accepted (event : ResolvedStressEvent Number) : Prop where
  ramp : 0 ≤ event.rampBlocks
  hold : 0 ≤ event.holdBlocks
  decay : 0 ≤ event.decayBlocks
  recovers : ∀ fraction ∈ event.recoverFrac, 0 ≤ fraction ∧ fraction ≤ 1
  magnitude : 0 < event.magnitude
  pulls : event.type = .liquidityPull → event.magnitude < 1

section Envelopes

variable {event : ResolvedStressEvent Number} {blockIndex : Int}

theorem residual_unit (accepted : Accepted event) :
    0 ≤ residual event ∧ residual event ≤ 1 := by
  have recovers := accepted.recovers
  rw [residual]
  cases found : event.recoverFrac with
  | none => exact ⟨le_refl 0, zero_le_one⟩
  | some fraction =>
      have within := recovers fraction found
      exact ⟨sub_nonneg.mpr within.2, sub_le_self 1 within.1⟩

theorem passed_unit
    {part whole : Int} (positive : 0 < part) (within : part ≤ whole) :
    (0 : Number) ≤ (part : Number) / (whole : Number) ∧
      (part : Number) / (whole : Number) ≤ 1 := by
  have above : (0 : Number) < (whole : Number) :=
    Int.cast_pos.mpr (lt_of_lt_of_le positive within)
  have bound : (part : Number) ≤ (whole : Number) := Int.cast_le.mpr within
  exact ⟨div_nonneg (le_of_lt (Int.cast_pos.mpr positive)) (le_of_lt above),
    (div_le_one above).mpr bound⟩

theorem stressEnvelope_unit (accepted : Accepted event) :
    0 ≤ stressEnvelope event blockIndex ∧
      stressEnvelope event blockIndex ≤ 1 := by
  have left := residual_unit accepted
  have whole : (0 : Number) ≤ 1 ∧ (1 : Number) ≤ 1 := ⟨zero_le_one, le_refl 1⟩
  have ramp := accepted.ramp
  rw [stressEnvelope]
  split_ifs with early rising flat holding stays falling short
  · exact ⟨le_refl 0, zero_le_one⟩
  · exact whole
  · exact passed_unit (by omega) (by omega)
  · exact whole
  · exact whole
  · exact whole
  · have gone := @passed_unit Number _ _ _ (blockIndex - event.startBlock -
          (event.rampBlocks + event.holdBlocks) + 1)
        event.decayBlocks (by omega) (by omega)
    have share := mul_le_mul_of_nonneg_left gone.2 (sub_nonneg.mpr left.2)
    have above := mul_nonneg (sub_nonneg.mpr left.2) gone.1
    rw [mul_div_assoc]
    constructor <;> linarith
  · exact left

theorem takenOff_nonneg (accepted : Accepted event) :
    0 ≤ takenOff event blockIndex :=
  mul_nonneg (le_of_lt accepted.magnitude) (stressEnvelope_unit accepted).1

theorem takenOff_le (accepted : Accepted event) :
    takenOff event blockIndex ≤ event.magnitude :=
  mul_le_of_le_one_right (le_of_lt accepted.magnitude)
    (stressEnvelope_unit accepted).2

theorem depthFactor_pos
    (accepted : Accepted event) (pulls : event.type = .liquidityPull) :
    0 < depthFactor event (stressEnvelope event blockIndex) :=
  sub_pos.mpr (lt_of_le_of_lt (takenOff_le accepted) (accepted.pulls pulls))

theorem trendFactor_pos (accepted : Accepted event) :
    0 < trendFactor event (stressEnvelope event blockIndex) := by
  have unit := @stressEnvelope_unit Number _ _ _ event blockIndex accepted
  rw [trendFactor]
  rcases eq_or_lt_of_le unit.2 with whole | less
  · rw [whole, mul_one, add_sub_cancel]
    exact accepted.magnitude
  · calc
      0 < (1 - stressEnvelope event blockIndex) +
            event.magnitude * stressEnvelope event blockIndex :=
        add_pos_of_pos_of_nonneg (sub_pos.mpr less)
          (mul_nonneg (le_of_lt accepted.magnitude) unit.1)
      _ = 1 + (event.magnitude - 1) * stressEnvelope event blockIndex := by
        ring

omit [LinearOrder Number] [IsStrictOrderedRing Number] in
theorem priceFactor_crash (crashes : event.type = .crash) :
    priceFactor event (stressEnvelope event blockIndex) =
      1 - takenOff event blockIndex := by
  rw [priceFactor, if_pos crashes, takenOff]
  ring

theorem priceFactor_other
    (accepted : Accepted event) (other : event.type ≠ .crash) :
    0 < priceFactor event (stressEnvelope event blockIndex) := by
  have above := @takenOff_nonneg Number _ _ _ event blockIndex accepted
  rw [takenOff] at above
  rw [priceFactor, if_neg other, one_mul]
  exact add_pos_of_pos_of_nonneg one_pos above

end Envelopes

/-! ## Products over the events -/

section Products

variable {acts : StressEventType → Bool}
    {factor : ResolvedStressEvent Number → Number → Number}
    {events : List (ResolvedStressEvent Number)} {blockIndex : Int}

/-- The event changes the entry of its base at a block. -/
def Works
    (acts : StressEventType → Bool) (blockIndex : Int)
    (event : ResolvedStressEvent Number) : Prop :=
  acts event.type = true ∧ stressEnvelope event blockIndex ≠ 0

instance
    (acts : StressEventType → Bool) (blockIndex : Int) :
    DecidablePred (Works acts blockIndex : ResolvedStressEvent Number → Prop) :=
  fun _ => inferInstanceAs (Decidable (_ ∧ _))

/-- The factors of a block, each with the base it goes to. -/
def touched
    (acts : StressEventType → Bool)
    (factor : ResolvedStressEvent Number → Number → Number)
    (events : List (ResolvedStressEvent Number)) (blockIndex : Int) :
    List (String × Number) :=
  (events.filter fun event => Works acts blockIndex event).map
    fun event => (event.base, factor event (stressEnvelope event blockIndex))

omit [IsStrictOrderedRing Number] in
theorem multipliers_eq :
    multipliers acts factor events blockIndex =
      scaleAll (touched acts factor events blockIndex) noEntries := by
  rw [multipliers]
  generalize (noEntries : Entries Number) = start
  induction events generalizing start with
  | nil => rfl
  | cons event rest ih =>
      rw [List.foldl_cons, ih, touched, touched, List.filter_cons]
      by_cases active : acts event.type = true
      · by_cases idle : stressEnvelope event blockIndex = 0
        · have rests : ¬ Works acts blockIndex event := fun works =>
            works.2 idle
          rw [if_pos active, if_pos idle, if_neg (by simpa using rests)]
        · have works : Works acts blockIndex event := ⟨active, idle⟩
          rw [if_pos active, if_neg idle, if_pos (by simpa using works)]
          rfl
      · have rests : ¬ Works acts blockIndex event := fun works =>
          active works.1
        rw [if_neg active, if_neg (by simpa using rests)]

omit [IsStrictOrderedRing Number] in
theorem factorsOf_touched (base : String) :
    factorsOf (touched acts factor events blockIndex) base =
      (events.filter fun event =>
        Works acts blockIndex event ∧ event.base = base).map
          fun event => factor event (stressEnvelope event blockIndex) := by
  rw [factorsOf, touched, List.filter_map, List.map_map, List.filter_filter]
  congr 1
  apply List.filter_congr
  intro event _
  simp [and_comm]

omit [IsStrictOrderedRing Number] in
theorem mem_factorsOf_touched {base : String} {number : Number} :
    number ∈ factorsOf (touched acts factor events blockIndex) base ↔
      ∃ event ∈ events, Works acts blockIndex event ∧ event.base = base ∧
        factor event (stressEnvelope event blockIndex) = number := by
  rw [factorsOf_touched, List.mem_map]
  constructor
  · rintro ⟨event, kept, same⟩
    rw [List.mem_filter, decide_eq_true_iff] at kept
    exact ⟨event, kept.1, kept.2.1, kept.2.2, same⟩
  · rintro ⟨event, member, works, based, same⟩
    refine ⟨event, ?_, same⟩
    rw [List.mem_filter, decide_eq_true_iff]
    exact ⟨member, works, based⟩

/-- What is returned is positive exactly if the products are, and no event
at work names what every object inherits. -/
theorem positive_multipliers :
    Positive (multipliers acts factor events blockIndex) ↔
      (∀ event ∈ events, Works acts blockIndex event → event.base ∉ inherited) ∧
        ∀ base, base ≠ prototype → 0 <
            (factorsOf (touched acts factor events blockIndex) base).prod := by
  rw [multipliers_eq, positive_scaleAll]
  constructor
  · intro each
    refine ⟨?_, fun base ordinary => (each base ordinary).2⟩
    intro event member works named
    have ordinary : event.base ≠ prototype := by
      rintro same
      rw [same] at named
      exact absurd named (by decide)
    refine (each event.base ordinary).1 ?_ named
    exact List.ne_nil_of_mem
      (mem_factorsOf_touched.mpr ⟨event, member, works, rfl, rfl⟩)
  · rintro ⟨named, products⟩ base ordinary
    refine ⟨?_, products base ordinary⟩
    intro some
    rcases List.exists_mem_of_ne_nil _ some with ⟨number, member⟩
    rcases mem_factorsOf_touched.mp member with
      ⟨event, listed, works, rfl, _⟩
    exact named event listed works

end Products

section Blocks

variable {events : List (ResolvedStressEvent Number)} {blockIndex : Int}

theorem not_launch_of_overlay
    {type : StressEventType} (overlay : isPriceOverlay type = true) :
    type ≠ .tokenLaunch := by
  rintro rfl
  cases overlay

theorem overlay_of_crash
    {type : StressEventType} (crashes : type = .crash) :
    isPriceOverlay type = true := by
  rw [crashes]
  rfl

theorem positive_depth
    (accepted : ∀ event ∈ events, event.type ≠ .tokenLaunch → Accepted event) :
    Positive (depthMultiplierAt events blockIndex) ↔
      ∀ event ∈ events, Works isLiquidityPull blockIndex event →
        event.base ∉ inherited := by
  rw [depthMultiplierAt, positive_multipliers]
  refine and_iff_left ?_
  intro base _
  refine List.prod_pos ?_
  intro number member
  rcases mem_factorsOf_touched.mp member with
    ⟨event, listed, works, _, rfl⟩
  have pulls : event.type = .liquidityPull := of_decide_eq_true works.1
  have other : event.type ≠ .tokenLaunch := by
    rw [pulls]
    decide
  exact depthFactor_pos (accepted event listed other) pulls

theorem priceFactor_eq_zero
    {event : ResolvedStressEvent Number} (accepted : Accepted event) :
    priceFactor event (stressEnvelope event blockIndex) = 0 ↔
      event.type = .crash ∧ takenOff event blockIndex = 1 := by
  by_cases crashes : event.type = .crash
  · rw [priceFactor_crash crashes, sub_eq_zero]
    exact ⟨fun same => ⟨crashes, same.symm⟩, fun both => both.2.symm⟩
  · have above := @priceFactor_other Number _ _ _ event blockIndex accepted
      crashes
    constructor
    · intro same
      exact absurd same (ne_of_gt above)
    · rintro ⟨same, _⟩
      exact absurd same crashes

theorem priceFactor_neg
    {event : ResolvedStressEvent Number} (accepted : Accepted event) :
    priceFactor event (stressEnvelope event blockIndex) < 0 ↔
      event.type = .crash ∧ 1 < takenOff event blockIndex := by
  by_cases crashes : event.type = .crash
  · rw [priceFactor_crash crashes, sub_neg]
    exact ⟨fun more => ⟨crashes, more⟩, fun both => both.2⟩
  · have above := @priceFactor_other Number _ _ _ event blockIndex accepted
      crashes
    constructor
    · intro below
      exact absurd below (not_lt_of_gt above)
    · rintro ⟨same, _⟩
      exact absurd same crashes

omit [LinearOrder Number] [IsStrictOrderedRing Number] in
theorem works_of_takenOff
    {event : ResolvedStressEvent Number} (crashes : event.type = .crash)
    (more : takenOff event blockIndex ≠ 0) :
    Works isPriceOverlay blockIndex event := by
  refine ⟨overlay_of_crash crashes, ?_⟩
  intro idle
  rw [takenOff, idle, mul_zero] at more
  exact more rfl

/-- The factors of a base which are negative are those of its crashes which
take off more than all of the price. -/
theorem countP_factorsOf_price
    (accepted : ∀ event ∈ events, event.type ≠ .tokenLaunch → Accepted event)
    (base : String) :
    (factorsOf (touched isPriceOverlay priceFactor events blockIndex)
        base).countP (fun factor => factor < 0) =
      events.countP fun event => Overturns base blockIndex event := by
  rw [factorsOf_touched, List.countP_map, List.countP_filter]
  refine List.countP_congr ?_
  intro event member
  simp only [Function.comp_apply, Bool.and_eq_true, decide_eq_true_eq]
  constructor
  · rintro ⟨below, works, based⟩
    have other := not_launch_of_overlay works.1
    have crashes := (priceFactor_neg (accepted event member other)).mp below
    exact ⟨crashes.1, based, crashes.2⟩
  · rintro ⟨crashes, based, more⟩
    have works := works_of_takenOff crashes (ne_of_gt (lt_trans one_pos more))
    have other := not_launch_of_overlay works.1
    exact ⟨(priceFactor_neg (accepted event member other)).mpr ⟨crashes, more⟩,
      works, based⟩

/-- The price stays positive if no crash takes off all of it, and those
which take off more come in pairs. -/
theorem positive_price
    (accepted : ∀ event ∈ events, event.type ≠ .tokenLaunch → Accepted event) :
    Positive (overlayAt events blockIndex).baseMults ↔
      (∀ event ∈ events, Works isPriceOverlay blockIndex event →
          event.base ∉ inherited) ∧
        (∀ event ∈ events, event.type = .crash → event.base ≠ prototype →
          takenOff event blockIndex ≠ 1) ∧
          ∀ base, base ≠ prototype → Even
              (events.countP fun event => Overturns base blockIndex event) := by
  rw [overlayAt, positive_multipliers]
  refine and_congr_right fun _ => ?_
  simp only [prod_pos_iff, countP_factorsOf_price accepted]
  constructor
  · intro each
    refine ⟨?_, fun base ordinary => (each base ordinary).2⟩
    intro event member crashes ordinary all
    have works : Works isPriceOverlay blockIndex event := by
      refine works_of_takenOff crashes ?_
      rw [all]
      exact one_ne_zero
    have other := not_launch_of_overlay works.1
    refine (each event.base ordinary).1 _
      (mem_factorsOf_touched.mpr ⟨event, member, works, rfl, rfl⟩) ?_
    exact (priceFactor_eq_zero (accepted event member other)).mpr ⟨crashes, all⟩
  · rintro ⟨apart, paired⟩ base ordinary
    refine ⟨?_, paired base ordinary⟩
    intro number member zero
    rcases mem_factorsOf_touched.mp member with
      ⟨event, listed, works, rfl, same⟩
    have other := not_launch_of_overlay works.1
    rw [← same, priceFactor_eq_zero (accepted event listed other)] at zero
    exact apart event listed zero.1 ordinary zero.2

theorem flowTrendAt_pos
    (accepted : ∀ event ∈ events, event.type ≠ .tokenLaunch → Accepted event) :
    0 < (flowTrendAt events blockIndex).sizeMult := by
  rw [flowTrendAt]
  have start : (0 : Number) < FlowTrendOverride.sizeMult ⟨1, none, none⟩ :=
    one_pos
  generalize (⟨1, none, none⟩ : FlowTrendOverride Number) = trend at start ⊢
  induction events generalizing trend with
  | nil => exact start
  | cons event rest ih =>
      rw [List.foldl_cons]
      refine ih
        (fun other member => accepted other (List.mem_cons_of_mem _ member))
        _ ?_
      split
      · next isTrend =>
          have other : event.type ≠ .tokenLaunch := by
            rw [isTrend]
            decide
          dsimp only
          split
          · exact start
          · exact mul_pos start
              (trendFactor_pos (accepted event List.mem_cons_self other))
      · exact start

theorem wethMult_pos
    (positive : Positive (overlayAt events blockIndex).baseMults) :
    ∃ number,
      (overlayAt events blockIndex).wethMult = some number ∧ 0 < number := by
  cases entry : (overlayAt events blockIndex).baseMults "WETH" with
  | none =>
      refine ⟨1, ?_, one_pos⟩
      show readOrOne (overlayAt events blockIndex).baseMults "WETH" = _
      rw [readOrOne, entry]
      rfl
  | some value =>
      rcases positive _ _ entry with ⟨number, rfl, above⟩
      refine ⟨number, ?_, above⟩
      show readOrOne (overlayAt events blockIndex).baseMults "WETH" = _
      rw [readOrOne, entry]

theorem marketPositive_iff
    (accepted : ∀ event ∈ events, event.type ≠ .tokenLaunch → Accepted event) :
    MarketPositive events blockIndex ↔ Harmless events blockIndex := by
  constructor
  · intro market
    have price := (positive_price accepted).mp market.price
    have depth := (positive_depth accepted).mp market.depth
    refine ⟨?_, price.2.1, price.2.2⟩
    rintro event member (overlay | pull) works
    · exact price.1 event member ⟨overlay, works⟩
    · exact depth event member ⟨pull, works⟩
  · intro harmless
    have price := (positive_price accepted).mpr ⟨fun event member works =>
            harmless.named event member (.inl works.1) works.2,
          harmless.apart, harmless.paired⟩
    exact
      { price := price
        weth := wethMult_pos price
        depth := (positive_depth accepted).mpr fun event member works =>
            harmless.named event member (.inr works.1) works.2
        flow := flowTrendAt_pos accepted }

end Blocks

end Eris.Events.Multipliers
