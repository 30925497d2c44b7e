import Eris.Flow.Orders

/-!
# The draws of a flow round

What the swaps of a round draw is set by the prices, the limits and the stream
alone: a schedule of slots, each with its kind and its fee, which is computed
without a look at the wallets.  The wallets decide which slots become orders
and of what size, so that two rounds over different wallets leave the stream
alike and pay the same fee where both fill a slot.
-/

namespace Eris.Flow.DrawSchedule

open Orders

/-! ## The schedule -/

/-- An order the draws propose. -/
structure Slot where
  protocol : ProtocolId
  kind : FlowKind
  priorityFeeWei : Nat
deriving DecidableEq

section Schedule

variable {Stream : Type} (streams : Streams Stream) (flow : AmmFlow)

/-- The stream after the direction of an arrival. -/
def afterDirection (rng : Stream) : Stream :=
  if (trendTokenIn streams flow).isSome then rng
  else (streams.bool rng).2

/-- The stream after the size of an arrival. -/
def afterSize (rng : Stream) : Stream :=
  if 0 < flow.uninformedArrivalRate then
    (streams.lognormal (1 / 2) flow.uninformedSizeSigma rng).2
  else
    (randomBigInt streams (flow.uninformedMaxWethWei / 20)
      flow.uninformedMaxWethWei rng).2

/-- A slot of a kind whose fee is drawn between two bounds. -/
def drawSlot
    (kind : FlowKind) (least most : Nat) (rng : Stream) : Slot × Stream :=
  let fee := streams.int least most rng
  (⟨flow.protocol, kind, flow.defaultPriorityFeeWei + fee.1 * 1000000⟩, fee.2)

def arrivalSlot (rng : Stream) : Slot × Stream :=
  drawSlot streams flow .uninformed 1 50
    (afterSize streams flow (afterDirection streams flow rng))

def arrivalSlots : Nat → List Slot × Stream → List Slot × Stream
  | 0, before => before
  | count + 1, before =>
      let drawn := arrivalSlot streams flow before.2
      arrivalSlots count (before.1 ++ [drawn.1], drawn.2)

/-- The informed flow keeps out of the band of the fee. -/
def inFeeBand : Prop :=
  0 < flow.informedArbFeeBps ∧
    |flow.fairPrice / flow.poolPrice - 1| * 10000 ≤ flow.informedArbFeeBps

instance : Decidable (inFeeBand flow) := inferInstanceAs (Decidable (_ ∧ _))

def informedSlots (before : List Slot × Stream) : List Slot × Stream :=
  if inFeeBand flow then before
  else
    let drawn := drawSlot streams flow .informed 50 100 before.2
    (before.1 ++ [drawn.1], drawn.2)

/-- The slots of one venue, after those before it. -/
def ammSlots (before : List Slot × Stream) : List Slot × Stream :=
  let count := arrivals streams flow before.2
  informedSlots streams flow
    (arrivalSlots streams flow count.1 (before.1, count.2))

end Schedule

/-- The swaps of a venue for the base of the run. -/
def venueFlow (ctx : FlowContext) : ProtocolId → Option AmmFlow
  | .gmx | .aave | .lst | .liquity | .lending => none
  | protocol =>
      some (ctx.ammFlow protocol "WETH"
          ((ctx.poolPrices protocol).getD ctx.fairPriceUsdcPerWeth)
          ctx.fairPriceUsdcPerWeth (ammMax ctx.limits protocol))

/-- The swaps of a venue for a further base, where it has any. -/
def extraFlow (ctx : FlowContext) (extra : ExtraBase) :
    ProtocolId → Option AmmFlow
  | .gmx | .aave | .lst | .liquity | .lending => none
  | protocol =>
      let max := extra.max protocol
      if max.1 = 0 ∧ max.2 = 0 then none
      else
        (extra.poolPrices protocol).bind fun poolPrice =>
          if poolPrice ≤ 0 then none
          else
            some (ctx.ammFlow protocol extra.base poolPrice extra.fairPriceUsd
                max)

/-- The venues' swaps of a round in their order. -/
def venueFlows (ctx : FlowContext) : List AmmFlow :=
  ctx.protocols.filterMap (venueFlow ctx) ++ ctx.extraBases.flatMap fun extra =>
      ctx.protocols.filterMap (extraFlow ctx extra)

/-- The slots of a round, and the stream they leave. -/
def roundSlots
    {Stream : Type} (streams : Streams Stream) (ctx : FlowContext)
    (rng : Stream) : List Slot × Stream :=
  (venueFlows ctx).foldl (fun before flow => ammSlots streams flow before)
    ([], rng)

/-- Each slot has at most one order, of its kind and its fee. -/
def Fills (slots : List Slot) (chosen : List (Option FlowOrderOut)) : Prop :=
  List.Forall₂ (fun slot choice =>
      ∀ order ∈ choice,
        (⟨order.protocol, order.kind, order.priorityFeeWei⟩ : Slot) = slot)
    slots chosen

/-- The orders of a round are those chosen for its slots. -/
def FillsWith (slots : List Slot) (out : List FlowOrderOut) : Prop :=
  ∃ chosen, Fills slots chosen ∧ chosen.reduceOption = out

/-- Two rounds leave the stream alike, fill the slots of one schedule, and pay
the same fee for a slot both fill. -/
def DrawAlike
    {Stream : Type} (slots : List Slot) (one two : Round Stream) : Prop :=
  one.rng = two.rng ∧ ∃ kept others : List (Option FlowOrderOut),
      (Fills slots kept ∧ kept.reduceOption = one.out) ∧
        (Fills slots others ∧ others.reduceOption = two.out) ∧
          ∀ (place : Nat) (order other : FlowOrderOut),
            kept[place]? = some (some order) →
              others[place]? = some (some other) →
                order.priorityFeeWei = other.priorityFeeWei

theorem fillsWith_nil : FillsWith [] [] := ⟨[], .nil, rfl⟩

theorem FillsWith.snoc
    {slots : List Slot} {out : List FlowOrderOut} {slot : Slot}
    {choice : Option FlowOrderOut} (fills : FillsWith slots out)
    (fits : ∀ order ∈ choice,
        (⟨order.protocol, order.kind, order.priorityFeeWei⟩ : Slot) = slot) :
    FillsWith (slots ++ [slot]) (out ++ choice.toList) := by
  rcases fills with ⟨chosen, filled, built⟩
  refine ⟨chosen ++ [choice], ?_, ?_⟩
  · exact List.rel_append filled (.cons fits .nil)
  · rw [List.reduceOption_append, built]
    cases choice <;> rfl

theorem same_fee
    {slots : List Slot} {kept others : List (Option FlowOrderOut)}
    (first : Fills slots kept) (second : Fills slots others)
    {place : Nat} {order other : FlowOrderOut}
    (here : kept[place]? = some (some order))
    (there : others[place]? = some (some other)) :
    order.priorityFeeWei = other.priorityFeeWei := by
  induction first generalizing others place with
  | nil => simp at here
  | cons fits _ ih =>
      cases second with
      | cons alsoFits rest =>
          cases place with
          | zero =>
              simp only [List.getElem?_cons_zero, Option.some.injEq] at here there
              have one := fits order here
              have two := alsoFits other there
              exact congrArg Slot.priorityFeeWei (one.trans two.symm)
          | succ place => exact ih rest here there

section Venue

variable {Stream : Type} {streams : Streams Stream}
    {decimals : TokenSymbol → Nat} {flow : AmmFlow}
    {out : List FlowOrderOut} {leg : Leg Stream}

/-- A leg stands where its schedule does. -/
def Follows
    (flow : AmmFlow) (out : List FlowOrderOut) (leg : Leg Stream)
    (drawn : List Slot × Stream) : Prop :=
  leg.rng = drawn.2 ∧
    FillsWith drawn.1 (out ++ leg.orders.map (tag flow.protocol))

theorem Follows.commit
    {drawn : List Slot × Stream} {kind : FlowKind} {tokenIn : TokenSymbol}
    {amount fee : Nat}
    (orders : FillsWith drawn.1 (out ++ leg.orders.map (tag flow.protocol))) :
    Follows flow out (Leg.commit flow leg kind tokenIn amount fee)
      (drawn.1 ++ [⟨flow.protocol, kind, fee⟩], leg.rng) := by
  unfold Leg.commit
  split
  · refine ⟨rfl, ?_⟩
    rw [List.map_append, ← List.append_assoc]
    refine @FillsWith.snoc _ _ _ (some _) orders ?_
    intro order same
    rw [← Option.some.inj same]
    rfl
  · refine ⟨rfl, ?_⟩
    have empty := @FillsWith.snoc _ _ ⟨flow.protocol, kind, fee⟩ none orders
    rw [Option.toList_none, List.append_nil] at empty
    exact empty (by simp)

theorem Follows.arrival
    {drawn : List Slot × Stream} (follows : Follows flow out leg drawn) :
    Follows flow out (uninformedArrival streams decimals flow leg)
      (drawn.1 ++ [(arrivalSlot streams flow drawn.2).1],
        (arrivalSlot streams flow drawn.2).2) := by
  rcases follows with ⟨same, orders⟩
  rw [← same]
  unfold uninformedArrival arrivalSlot drawSlot afterSize afterDirection
  by_cases sized : 0 < flow.uninformedArrivalRate
  · simp -zeta only [if_pos sized]
    cases trendTokenIn streams flow with
    | none => exact Follows.commit orders
    | some tokenIn => exact Follows.commit orders
  · simp -zeta only [if_neg sized]
    cases trendTokenIn streams flow with
    | none => exact Follows.commit orders
    | some tokenIn => exact Follows.commit orders

theorem Follows.arrivals
    {out : List FlowOrderOut} (count : Nat) {leg : Leg Stream}
    {drawn : List Slot × Stream} (follows : Follows flow out leg drawn) :
    Follows flow out ((uninformedArrival streams decimals flow)^[count] leg)
      (arrivalSlots streams flow count drawn) := by
  induction count generalizing leg drawn with
  | zero => exact follows
  | succ count ih =>
      rw [Function.iterate_succ_apply]
      exact ih follows.arrival

theorem Follows.informed
    {drawn : List Slot × Stream} (follows : Follows flow out leg drawn) :
    Follows flow out (informedOrder streams decimals flow leg)
      (informedSlots streams flow drawn) := by
  unfold informedOrder informedSlots
  by_cases band : inFeeBand flow
  · rw [if_pos band]
    exact (if_pos band).symm ▸ follows
  · rcases follows with ⟨same, orders⟩
    rw [if_neg band, ← same]
    exact (if_neg band).symm ▸ Follows.commit orders

/-- The two wallets of a venue change which slots are filled, and nothing of
the draws. -/
theorem follows_buildAmmFlow
    {out : List FlowOrderOut} {slots : List Slot} {rng : Stream}
    (uninformed informed : Option FlowBalance) (fills : FillsWith slots out) :
    let built := buildAmmFlow streams decimals flow rng uninformed informed
    built.rng = (ammSlots streams flow (slots, rng)).2 ∧
      FillsWith (ammSlots streams flow (slots, rng)).1
        (out ++ built.orders.map (tag flow.protocol)) := by
  have started : Follows flow out
        ⟨(Orders.arrivals streams flow rng).2, uninformed, [], []⟩
        (slots, (Orders.arrivals streams flow rng).2) :=
    ⟨rfl, by simpa using fills⟩
  have noise := @Follows.arrivals Stream streams decimals flow out
      (Orders.arrivals streams flow rng).1 _ _ started
  have pulled : Follows flow out
      { (uninformedArrival streams decimals flow)^[
          (Orders.arrivals streams flow rng).1]
          ⟨(Orders.arrivals streams flow rng).2, uninformed, [], []⟩ with
          balance := informed }
        (arrivalSlots streams flow (Orders.arrivals streams flow rng).1
          (slots, (Orders.arrivals streams flow rng).2)) :=
    noise
  exact pulled.informed

end Venue

/-! ## One round -/

section Round

variable {Stream : Type} (streams : Streams Stream)
    (decimals : TokenSymbol → Nat) (ctx : FlowContext)

/-- The venues of swaps. -/
def IsVenue (protocol : ProtocolId) : Prop :=
  protocol = .uniswap ∨ protocol = .balancer ∨ protocol = .curve

theorem foldl_protocol
    {protocols : List ProtocolId}
    (venues : ∀ protocol ∈ protocols, IsVenue protocol) (round : Round Stream) :
    protocols.foldl (Round.protocol streams decimals ctx) round =
      (protocols.filterMap (venueFlow ctx)).foldl
        (Round.amm streams decimals) round := by
  rw [List.foldl_filterMap]
  apply List.foldl_ext
  intro round protocol listed
  rcases venues protocol listed with rfl | rfl | rfl <;> rfl

theorem foldl_extra
    (extra : ExtraBase) (protocols : List ProtocolId) (round : Round Stream) :
    protocols.foldl (Round.extra streams decimals ctx extra) round =
      (protocols.filterMap (extraFlow ctx extra)).foldl
        (Round.amm streams decimals) round := by
  rw [List.foldl_filterMap]
  apply List.foldl_ext
  intro round protocol _
  cases protocol
  case uniswap | balancer | curve =>
    simp only [Round.extra, extraFlow]
    split
    · rfl
    · cases extra.poolPrices _ with
      | none => rfl
      | some poolPrice =>
          dsimp only [Option.bind_some]
          split <;> rfl
  all_goals rfl

theorem buildFlowOrders_eq
    (venues : ∀ protocol ∈ ctx.protocols, IsVenue protocol) (rng : Stream) :
    buildFlowOrders streams decimals ctx rng =
      (venueFlows ctx).foldl (Round.amm streams decimals)
        (.opened ctx rng) := by
  unfold buildFlowOrders venueFlows
  rw [foldl_protocol streams decimals ctx venues, List.foldl_append,
    List.foldl_flatMap]
  apply List.foldl_ext
  intro round extra _
  exact foldl_extra streams decimals ctx extra ctx.protocols round

theorem follows_amm
    (flows : List AmmFlow) {round : Round Stream}
    {drawn : List Slot × Stream} (same : round.rng = drawn.2)
    (fills : FillsWith drawn.1 round.out) :
    let built := flows.foldl (Round.amm streams decimals) round
    let slots :=
      flows.foldl (fun before flow => ammSlots streams flow before) drawn
    built.rng = slots.2 ∧ FillsWith slots.1 built.out := by
  induction flows generalizing round drawn with
  | nil => exact ⟨same, fills⟩
  | cons flow flows ih =>
      have next :=
        @follows_buildAmmFlow Stream streams decimals flow round.out drawn.1
          round.rng (round.book (walletKeyOf flow.protocol .uninformed))
          (round.book (walletKeyOf flow.protocol .informed)) fills
      have whole : (drawn.1, round.rng) = drawn := by rw [same]
      rw [whole] at next
      exact ih next.1 next.2

/-- The orders of a round fill the slots of its schedule, and the stream ends
where the schedule leaves it. -/
theorem buildFlowOrders_follows
    (venues : ∀ protocol ∈ ctx.protocols, IsVenue protocol) (rng : Stream) :
    let built := buildFlowOrders streams decimals ctx rng
    built.rng = (roundSlots streams ctx rng).2 ∧
      FillsWith (roundSlots streams ctx rng).1 built.out := by
  dsimp only
  rw [buildFlowOrders_eq streams decimals ctx venues rng]
  exact follows_amm streams decimals (venueFlows ctx) rfl fillsWith_nil

end Round

/-- A stream which counts its draws. -/
def counting : Streams Nat where
  next drawn := (1 / 2, drawn + 1)
  lognormal mean _ drawn := (mean, drawn + 1)
  poisson _ drawn := (2, drawn + 1)
  trendBit _ _ _ := true
  trendNext _ _ _ := 0
  actorLognormal _ _ _ := 1

def exampleContext : FlowContext where
  round := 1
  fairPriceUsdcPerWeth := 3000
  flowSeed := none
  protocols := [.uniswap, .curve]
  poolPrices _ := some 2900
  aaveReserves := none
  aaveActors := none
  flowBalances _ := none
  usdcOnlyFlow := false
  gmxFlowExposure := none
  extraBases := []
  limits :=
    { uninformedFlowMaxWethWei := 1000000000000000000
      uninformedFlowCountPerBlock := 2
      uninformedFlowPersistBlocks := 1
      uninformedFlowTrendCorrelation := 0
      informedFlowMaxWethWei := 1000000000000000000
      balancerFlowMaxWethWei := 0
      curveFlowMaxWethWei := 1000000000000000000
      balancerUninformedFlowMaxWethWei := 0
      curveUninformedFlowMaxWethWei := 1000000000000000000
      gmxFlowMaxSizeUsd := 0
      gmxFlowActivityProb := 0
      gmxFlowMaxBurst := 0
      aaveFlowMaxWethWei := 0
      aaveFlowBorrowUsdcUnits := 0
      aaveFlowActivityProb := 0
      informedArbFeeBps := 0
      uninformedArrivalRate := 0
      uninformedSizeSigma := 1
      uninformedSizeClampMult := 3
      gmxArrivalRate := 0
      gmxSizeSigma := 0
      gmxOiTargetFrac := 0
      aaveActorSizeSigma := 0
      defaultPriorityFeeWei := 1000000000 }

end Eris.Flow.DrawSchedule
