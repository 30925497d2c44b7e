import Eris.Foundation.Median
import Eris.Lending.Valuation

/-!
# Marks of market-priced stables

`sdk/src/stables.ts`: `stableQuoteFrom`, `decodeStableProbes`, `median`,
`medianStablePrices`.  A stable's mark is the median over the blocks in which
its pool quoted it.  An address stands for its text in lower case, and prices
are exact; of `Math.sqrt` only its sign matters.
-/

namespace Eris.Valuation.MedianMarks

open Evm.Word Foundation.Median

/-! ## Quotes and prices -/

structure StableMarket where
  symbol : String
  token : Address
  decimals : ℕ
  probeStableUnits : ℕ
  probeQuoteUnits : ℕ
deriving DecidableEq

structure StableQuote where
  symbol : String
  token : Address
  priceUsdc : ℚ≥0
  sellPriceUsdc : ℚ≥0
  buyPriceUsdc : ℚ≥0
  quoted : Bool
deriving DecidableEq

structure StablePrices where
  byToken : Address → Option ℚ≥0
  unquoted : List StableMarket
  quotes : List StableQuote

def PAR_STABLE_PRICES : StablePrices := ⟨fun _ => none, [], []⟩

structure Root where
  sqrt : ℚ≥0 → ℚ≥0
  positive : ∀ number, 0 < number → 0 < sqrt number

local instance tenAtLeastTwo : Nat.AtLeastTwo 10 := inferInstance

def ratio (numerator numDecimals denominator denDecimals : ℕ) : ℚ≥0 :=
  if denominator = 0 then 0
  else
    let d : ℚ≥0 := denominator / 10 ^ denDecimals
    if 0 < d then numerator / 10 ^ numDecimals / d else 0

def stableQuoteFrom
    (root : Root) (market : StableMarket) (sellOut buyOut : Option ℕ)
    (quoteDecimals : ℕ) : StableQuote :=
  let sellPriceUsdc := sellOut.elim 0 fun out =>
      ratio out quoteDecimals market.probeStableUnits market.decimals
  let buyPriceUsdc := buyOut.elim 0 fun out =>
      ratio market.probeQuoteUnits quoteDecimals out market.decimals
  let priceUsdc := if 0 < sellPriceUsdc ∧ 0 < buyPriceUsdc then
      root.sqrt (sellPriceUsdc * buyPriceUsdc)
    else if 0 < sellPriceUsdc then sellPriceUsdc
    else buyPriceUsdc
  { symbol := market.symbol
    token := market.token
    priceUsdc := if 0 < priceUsdc then priceUsdc else 1
    sellPriceUsdc
    buyPriceUsdc
    quoted := 0 < priceUsdc }

def written (byToken : Address → Option ℚ≥0) (quote : StableQuote) :
    Address → Option ℚ≥0 :=
  Function.update byToken quote.token (some quote.priceUsdc)

/-- One more quote, with its market where it is reported as unquoted. -/
def StablePrices.push
    (prices : StablePrices) (entry : StableQuote × Option StableMarket) :
    StablePrices where
  byToken := written prices.byToken entry.1
  unquoted := prices.unquoted ++ entry.2.toList
  quotes := prices.quotes ++ [entry.1]

def pushed (entries : List (StableQuote × Option StableMarket)) :
    StablePrices :=
  entries.foldl StablePrices.push ⟨fun _ => none, [], []⟩

/-- The results of the probes, two of a market, absent where no pool
answered. -/
def decodeStableProbes
    (root : Root) (quoteDecimals : ℕ) (markets : List StableMarket)
    (results : List (Option ℕ)) : StablePrices :=
  pushed <| markets.mapIdx fun i market =>
    let quote := stableQuoteFrom root market results[i * 2]?.join
        results[i * 2 + 1]?.join quoteDecimals
    (quote, if quote.quoted then none else some market)

/-- The quotes of the blocks in which a stable was quoted. -/
def observedAt (samples : List StablePrices) (i : ℕ) : List StableQuote :=
  samples.filterMap fun s => s.quotes[i]?.filter (·.quoted)

def collapsed
    (samples : List StablePrices) (i : ℕ) (first : StableQuote) :
    StableQuote × Option StableMarket :=
  let observed := observedAt samples i
  if observed = [] then
    ({ first with priceUsdc := 1, quoted := false },
      (samples.flatMap (·.unquoted)).find? (·.token = first.token))
  else
    ({ first with
        priceUsdc := median (observed.map (·.priceUsdc))
        sellPriceUsdc := median (observed.map (·.sellPriceUsdc))
        buyPriceUsdc := median (observed.map (·.buyPriceUsdc))
        quoted := true },
      none)

def medianStablePrices : List StablePrices → StablePrices
  | [] => PAR_STABLE_PRICES
  | [sample] => sample
  | first :: second :: rest =>
      pushed (first.quotes.mapIdx (collapsed (first :: second :: rest)))

def byTokenOf (quotes : List StableQuote) : Address → Option ℚ≥0 :=
  quotes.foldl written fun _ => none

theorem pushed_eq (entries : List (StableQuote × Option StableMarket)) :
    pushed entries = ⟨byTokenOf (entries.map (·.1)), entries.filterMap (·.2),
        entries.map (·.1)⟩ := by
  induction entries using List.reverseRecOn with
  | nil => rfl
  | append_singleton entries entry ih =>
      rw [pushed, List.foldl_append]
      change (pushed entries).push entry = _
      rw [ih, StablePrices.push]
      cases held : entry.2 <;> simp [byTokenOf, held]

theorem foldl_written_other
    {quotes : List StableQuote} {token : Address}
    (others : ∀ quote ∈ quotes, quote.token ≠ token)
    (byToken : Address → Option ℚ≥0) :
    quotes.foldl written byToken token = byToken token := by
  induction quotes generalizing byToken with
  | nil => rfl
  | cons quote rest ih =>
      have different := others quote List.mem_cons_self
      rw [List.foldl_cons, ih
        fun later listed => others later (List.mem_cons_of_mem _ listed)]
      exact Function.update_of_ne different.symm _ _

theorem byTokenOf_last
    {quotes : List StableQuote} {quote : StableQuote} {place : ℕ}
    (known : quotes[place]? = some quote)
    (last : ∀ later, place < later → ∀ other, quotes[later]? = some other →
        other.token ≠ quote.token) :
    byTokenOf quotes quote.token = some quote.priceUsdc := by
  rcases List.getElem?_eq_some_iff.1 known with ⟨bound, same⟩
  have split := quotes.take_append_drop place
  rw [List.drop_eq_getElem_cons bound, same] at split
  rw [byTokenOf, ← split, List.foldl_append, List.foldl_cons,
    foldl_written_other]
  · exact Function.update_self ..
  · intro other listed
    rcases List.getElem?_of_mem listed with ⟨index, found⟩
    rw [List.getElem?_drop] at found
    exact last _ (by omega) other found

/-! ## Samples over the same markets -/

/-- A quote of a market, which is at par where there is none. -/
structure Quotes (market : StableMarket) (quote : StableQuote) : Prop where
  symbol : quote.symbol = market.symbol
  token : quote.token = market.token
  par : quote.quoted = false →
      quote.priceUsdc = 1 ∧ quote.sellPriceUsdc = 0 ∧ quote.buyPriceUsdc = 0

def entryOf (market : StableMarket) (quote : StableQuote) :
    StableQuote × Option StableMarket :=
  (quote, if quote.quoted then none else some market)

def told
    (markets : List StableMarket) (answers : ℕ → StableMarket → StableQuote) :
    StablePrices :=
  pushed (markets.mapIdx fun i market => entryOf market (answers i market))

/-- The prices of a block, whatever its pools quoted. -/
def Sample (markets : List StableMarket) (prices : StablePrices) : Prop :=
  ∃ answers, (∀ i market, Quotes market (answers i market)) ∧
    prices = told markets answers

def Samples (markets : List StableMarket) (samples : List StablePrices) : Prop :=
  ∀ sample ∈ samples, Sample markets sample

variable {markets : List StableMarket} {market : StableMarket}
    {samples others : List StablePrices} {sample : StablePrices}
    {answers : ℕ → StableMarket → StableQuote} {quote : StableQuote} {place : ℕ}

theorem quotes_stableQuoteFrom
    (root : Root) (sellOut buyOut : Option ℕ) (quoteDecimals : ℕ) :
    Quotes market
      (stableQuoteFrom root market sellOut buyOut quoteDecimals) := by
  refine ⟨rfl, rfl, ?_⟩
  intro unquoted
  simp only [stableQuoteFrom, decide_eq_false_iff_not] at unquoted ⊢
  split at unquoted
  · next both => exact absurd (root.positive _ (mul_pos both.1 both.2)) unquoted
  · split at unquoted
    · next sold => exact absurd sold unquoted
    · next unsold =>
        have sell := nonpos_iff_eq_zero.1 (not_lt.1 unsold)
        have buy := nonpos_iff_eq_zero.1 (not_lt.1 unquoted)
        simp [sell, buy]

theorem sample_decodeStableProbes
    (root : Root) (quoteDecimals : ℕ) (results : List (Option ℕ)) :
    Sample markets (decodeStableProbes root quoteDecimals markets results) :=
  ⟨_, fun _ _ => quotes_stableQuoteFrom root _ _ quoteDecimals, rfl⟩

theorem map_mapIdx
    {Item Value : Type} (f : ℕ → StableMarket → Item) (g : Item → Value) :
    (markets.mapIdx f).map g = markets.mapIdx fun i market => g (f i market) :=
  (List.mapIdx_eq_iff.2 fun i => by simp [Function.comp_def]).symm

theorem told_eq :
    told markets answers = ⟨byTokenOf (markets.mapIdx answers),
        (markets.mapIdx fun i market =>
          entryOf market (answers i market)).filterMap (·.2),
        markets.mapIdx answers⟩ := by
  rw [told, pushed_eq, map_mapIdx]
  rfl

theorem quotes_told : (told markets answers).quotes = markets.mapIdx answers := by
  rw [told_eq]

theorem quoteAt_told
    (same : sample = told markets answers)
    (found : markets[place]? = some market) :
    sample.quotes[place]? = some (answers place market) := by
  rw [same, quotes_told, List.getElem?_mapIdx, found]
  rfl

/-- The price of a token is that of the last of its markets. -/
theorem byTokenOf_answers
    (quotes : ∀ i market, Quotes market (answers i market))
    (found : markets[place]? = some market)
    (last : ∀ later, place < later → ∀ other, markets[later]? = some other →
        other.token ≠ market.token) :
    byTokenOf (markets.mapIdx answers) market.token =
      some (answers place market).priceUsdc := by
  have known : (markets.mapIdx answers)[place]? = some (answers place market) :=
    quotes_told ▸ quoteAt_told rfl found
  rw [← (quotes place market).token]
  refine byTokenOf_last known fun later beyond other otherKnown => ?_
  rw [List.getElem?_mapIdx, Option.map_eq_some_iff] at otherKnown
  rcases otherKnown with ⟨listed, otherFound, rfl⟩
  rw [(quotes later listed).token, (quotes place market).token]
  exact last later beyond listed otherFound

theorem mem_unquoted_told :
    market ∈ (told markets answers).unquoted ↔
      ∃ place, markets[place]? = some market ∧
        (answers place market).quoted = false := by
  rw [told_eq]
  simp only [List.mem_filterMap, List.mem_mapIdx, entryOf]
  constructor
  · rintro ⟨_, ⟨place, bound, rfl⟩, reported⟩
    split at reported
    · cases reported
    · next unquoted =>
        cases reported
        exact ⟨place, List.getElem?_eq_getElem bound,
          Bool.eq_false_of_not_eq_true unquoted⟩
  · rintro ⟨place, found, unquoted⟩
    rcases List.getElem?_eq_some_iff.1 found with ⟨bound, rfl⟩
    exact ⟨_, ⟨place, bound, rfl⟩, by simp [unquoted]⟩

def quoteOf (market : StableMarket) (observed : List StableQuote) :
    StableQuote :=
  if observed = [] then ⟨market.symbol, market.token, 1, 0, 0, false⟩
  else
    ⟨market.symbol, market.token, median (observed.map (·.priceUsdc)),
      median (observed.map (·.sellPriceUsdc)),
      median (observed.map (·.buyPriceUsdc)), true⟩

theorem quotes_quoteOf (observed : List StableQuote) :
    Quotes market (quoteOf market observed) := by
  unfold quoteOf
  split
  · exact ⟨rfl, rfl, fun _ => ⟨rfl, rfl, rfl⟩⟩
  · exact ⟨rfl, rfl, nofun⟩

theorem quoteOf_perm
    {observed others : List StableQuote} (same : observed.Perm others) :
    quoteOf market observed = quoteOf market others := by
  by_cases silent : observed = []
  · subst silent
    rw [same.symm.eq_nil]
  · have speaks : others ≠ [] := fun none => silent (none ▸ same).eq_nil
    simp [quoteOf, silent, speaks, median_eq_of_perm (same.map _)]

theorem quoted_of_silent
    (silent : observedAt samples place = []) (listed : sample ∈ samples)
    (known : sample.quotes[place]? = some quote) : quote.quoted = false := by
  have absent := List.filterMap_eq_nil_iff.1 silent sample listed
  simpa [known] using absent

theorem collapsed_quote
    (listed : sample ∈ samples) (known : sample.quotes[place]? = some quote)
    (quotes : Quotes market quote) :
    (collapsed samples place quote).1 =
      quoteOf market (observedAt samples place) := by
  by_cases silent : observedAt samples place = []
  · have par := quotes.par (quoted_of_silent silent listed known)
    simp [collapsed, quoteOf, silent, quotes.symbol, quotes.token, par]
  · simp [collapsed, quoteOf, silent, quotes.symbol, quotes.token]

/-- A single sample is collapsed to itself. -/
theorem quoteOf_single
    (known : sample.quotes[place]? = some quote)
    (quotes : Quotes market quote) :
    quoteOf market (observedAt [sample] place) = quote := by
  rw [← collapsed_quote List.mem_cons_self known quotes]
  cases quoted : quote.quoted with
  | true =>
      have observed : observedAt [sample] place = [quote] := by
        rw [observedAt, List.filterMap_cons, known,
          Option.filter_some_pos quoted]
        rfl
      simp [collapsed, observed, median_singleton, ← quoted]
  | false =>
      have observed : observedAt [sample] place = [] := by
        simp [observedAt, known, quoted]
      simp [collapsed, observed, ← (quotes.par quoted).1, ← quoted]

/-- The market found for a stable unquoted in all blocks is its own. -/
theorem collapsed_entry
    (distinct : (markets.map (·.token)).Nodup)
    (sampled : Samples markets samples) (listed : sample ∈ samples)
    (same : sample = told markets answers)
    (quotes : Quotes market (answers place market))
    (found : markets[place]? = some market) :
    collapsed samples place (answers place market) =
      entryOf market (quoteOf market (observedAt samples place)) := by
  have known := quoteAt_told same found
  refine Prod.ext (collapsed_quote listed known quotes) ?_
  by_cases silent : observedAt samples place = []
  · have reported : market ∈ samples.flatMap (·.unquoted) := by
      refine List.mem_flatMap.2 ⟨sample, listed, ?_⟩
      rw [same, mem_unquoted_told]
      exact ⟨place, found, quoted_of_silent silent listed known⟩
    simp only [collapsed, if_pos silent, entryOf, quoteOf, Bool.false_eq_true,
      if_false]
    cases search : (samples.flatMap (·.unquoted)).find?
      (·.token = (answers place market).token) with
    | none =>
        have missed := List.find?_eq_none.1 search market reported
        exact absurd (decide_eq_true quotes.token.symm) missed
    | some other =>
        rcases List.mem_flatMap.1 (List.mem_of_find?_eq_some search) with
          ⟨block, blockListed, named⟩
        rcases sampled block blockListed with ⟨_, _, rfl⟩
        rcases mem_unquoted_told.1 named with ⟨_, otherFound, _⟩
        have token : other.token = (answers place market).token := by
          simpa using List.find?_some search
        rw [List.inj_on_of_nodup_map distinct (List.mem_of_getElem? otherFound)
          (List.mem_of_getElem? found) (token.trans quotes.token)]
  · simp [collapsed, entryOf, quoteOf, silent]

def answersOf
    (samples : List StablePrices) (place : ℕ) (market : StableMarket) :
    StableQuote :=
  quoteOf market (observedAt samples place)

/-- The samples of some blocks are collapsed to that of one. -/
theorem medianStablePrices_eq
    (sampled : Samples markets samples) (filled : samples ≠ []) :
    (medianStablePrices samples).quotes = markets.mapIdx (answersOf samples) ∧
      (medianStablePrices samples).byToken =
        byTokenOf (markets.mapIdx (answersOf samples)) ∧
      ((markets.map (·.token)).Nodup →
        medianStablePrices samples = told markets (answersOf samples)) := by
  match samples with
  | [] => exact absurd rfl filled
  | [sample] =>
      rcases sampled sample List.mem_cons_self with ⟨answers, quotes, same⟩
      have collapses : medianStablePrices [sample] =
          told markets (answersOf [sample]) := by
        rw [medianStablePrices]
        refine same.trans (congrArg pushed ?_)
        refine List.mapIdx_eq_mapIdx_iff.2 fun i bound => ?_
        have known := quoteAt_told same (List.getElem?_eq_getElem bound)
        rw [answersOf, quoteOf_single known (quotes _ _)]
      rw [collapses, told_eq]
      exact ⟨rfl, rfl, fun _ => rfl⟩
  | first :: second :: rest =>
      rcases sampled first List.mem_cons_self with ⟨answers, quotes, same⟩
      have collapses : medianStablePrices (first :: second :: rest) =
          pushed (markets.mapIdx fun i market =>
              collapsed (first :: second :: rest) i (answers i market)) := by
        rw [medianStablePrices, same, quotes_told, List.mapIdx_mapIdx]
        rfl
      have firsts : (markets.mapIdx fun i market =>
              (collapsed (first :: second :: rest) i (answers i market)).1) =
            markets.mapIdx (answersOf (first :: second :: rest)) := by
        refine List.mapIdx_eq_mapIdx_iff.2 fun i bound => ?_
        have known := quoteAt_told same (List.getElem?_eq_getElem bound)
        exact collapsed_quote List.mem_cons_self known (quotes _ _)
      refine ⟨?_, ?_, fun distinct => ?_⟩
      · rw [collapses, pushed_eq, map_mapIdx, firsts]
      · rw [collapses, pushed_eq, map_mapIdx, firsts]
      · rw [collapses]
        refine congrArg pushed (List.mapIdx_eq_mapIdx_iff.2 fun i bound => ?_)
        exact collapsed_entry distinct sampled List.mem_cons_self same
          (quotes _ _) (List.getElem?_eq_getElem bound)

/-! ## The mark -/

/-- What the pool of a stable quoted in a block, if it did. -/
def quotedPrice (place : ℕ) (sample : StablePrices) : Option ℚ≥0 :=
  (sample.quotes[place]?.filter (·.quoted)).map (·.priceUsdc)

def pricesAt (samples : List StablePrices) (place : ℕ) : List (Option ℚ≥0) :=
  samples.map (quotedPrice place)

def mark (samples : List StablePrices) (place : ℕ) : ℚ≥0 :=
  ((medianStablePrices samples).quotes[place]?.map (·.priceUsdc)).getD 1

theorem mark_eq
    (sampled : Samples markets samples) (found : markets[place]? = some market) :
    mark samples place = if (pricesAt samples place).reduceOption = [] then 1
      else median (pricesAt samples place).reduceOption := by
  have prices : (pricesAt samples place).reduceOption =
      (observedAt samples place).map (·.priceUsdc) := by
    rw [observedAt, pricesAt, List.reduceOption, List.filterMap_map,
      List.map_filterMap]
    rfl
  rcases eq_or_ne samples [] with rfl | filled
  · rfl
  · rw [mark, (medianStablePrices_eq sampled filled).1, List.getElem?_mapIdx,
      found, prices]
    by_cases silent : observedAt samples place = [] <;>
      simp [answersOf, quoteOf, silent]

/-- What holds of the mark of a market over some blocks. -/
structure Robust
    (markets : List StableMarket) (samples : List StablePrices) (place : ℕ)
    (market : StableMarket) : Prop where
  marked : (∀ later, place < later → ∀ other, markets[later]? = some other →
        other.token ≠ market.token) →
      Lending.Valuation.stablePriceUsdc
          (some (medianStablePrices samples).byToken) market.token =
        mark samples place
  resists : ∀ (unpushed : List StablePrices) (changed : Finset ℕ),
      2 * changed.card < (pricesAt unpushed place).reduceOption.length →
        (∀ block ∉ changed,
          (pricesAt samples place)[block]? = (pricesAt unpushed place)[block]?) →
        Between (pricesAt unpushed place) changed (mark samples place)
  silent : ∀ earlier sample later, samples = earlier ++ sample :: later →
      quotedPrice place sample = none →
        mark samples place = mark (earlier ++ later) place
  unordered : ∀ others, samples.Perm others →
      (medianStablePrices samples).quotes = (medianStablePrices others).quotes ∧
        (medianStablePrices samples).byToken =
          (medianStablePrices others).byToken ∧
        ((markets.map (·.token)).Nodup →
          medianStablePrices samples = medianStablePrices others)

/-- Samples are what is decoded, and their marks resist a short push. -/
theorem robust_of_samples
    (root : Root) (quoteDecimals : ℕ) (sampled : Samples markets samples)
    (found : markets[place]? = some market) :
    (∀ results,
        Sample markets (decodeStableProbes root quoteDecimals markets results)) ∧
      Robust markets samples place market := by
  refine ⟨sample_decodeStableProbes root quoteDecimals, ?_, ?_, ?_, ?_⟩
  · intro last
    rcases eq_or_ne samples [] with rfl | filled
    · rfl
    · rcases medianStablePrices_eq sampled filled with ⟨quotes, byToken, _⟩
      have each : ∀ i market, Quotes market (answersOf samples i market) :=
        fun _ _ => quotes_quoteOf _
      rw [mark, quotes, List.getElem?_mapIdx, found, byToken,
        Lending.Valuation.stablePriceUsdc, Option.bind_some,
        byTokenOf_answers each found last]
      rfl
  · intro unpushed changed few kept
    rcases between_median few kept with ⟨quoted, between⟩
    rwa [mark_eq sampled found, if_neg quoted]
  · rintro earlier sample later rfl unquoted
    have others : Samples markets (earlier ++ later) := by
      intro other listed
      refine sampled other (List.mem_append.2 ?_)
      exact (List.mem_append.1 listed).imp_right (List.mem_cons_of_mem _)
    rw [mark_eq sampled found, mark_eq others found]
    simp only [pricesAt, List.map_append, List.map_cons, unquoted,
      List.reduceOption_append, List.reduceOption_cons_of_none]
  · intro others same
    rcases eq_or_ne samples [] with rfl | filled
    · rw [same.symm.eq_nil]
      exact ⟨rfl, rfl, fun _ => rfl⟩
    · have sampledToo : Samples markets others :=
        fun sample listed => sampled sample (same.mem_iff.2 listed)
      have filledToo : others ≠ [] := fun none => filled (none ▸ same).eq_nil
      have answers : answersOf samples = answersOf others := by
        funext place market
        exact quoteOf_perm (same.filterMap _)
      rcases medianStablePrices_eq sampled filled with ⟨quotes, byToken, whole⟩
      rcases medianStablePrices_eq sampledToo filledToo with
        ⟨quotesToo, byTokenToo, wholeToo⟩
      rw [answers] at quotes byToken whole
      exact ⟨quotes.trans quotesToo.symm, byToken.trans byTokenToo.symm,
        fun distinct => (whole distinct).trans (wholeToo distinct).symm⟩

def usdt : StableMarket := ⟨"USDT", 1, 6, 1000000000, 1000000000⟩

def quotedAt (price : ℚ≥0) (_ : ℕ) (market : StableMarket) : StableQuote :=
  ⟨market.symbol, market.token, price, price, price, true⟩

def blockAt (price : ℚ≥0) : StablePrices := told [usdt] (quotedAt price)

/-- A stable is pushed to five dollars in one block of three. -/
theorem robust_pushed : mark [blockAt 1, blockAt 5, blockAt 1] 0 = 1 := by
  have sampled : Samples [usdt] [blockAt 1, blockAt 5, blockAt 1] := by
    have each (price : ℚ≥0) : Sample [usdt] (blockAt price) :=
      ⟨quotedAt price, fun _ _ => ⟨rfl, rfl, nofun⟩, rfl⟩
    simp [Samples, each]
  have kept : ∀ block ∉ ({1} : Finset ℕ),
      (pricesAt [blockAt 1, blockAt 5, blockAt 1] 0)[block]? =
        (pricesAt [blockAt 1, blockAt 1, blockAt 1] 0)[block]? := by
    intro block unchanged
    rcases block with _ | _ | _
    · rfl
    · exact absurd (Finset.mem_singleton_self 1) unchanged
    · rfl
  have found : [usdt][0]? = some usdt := rfl
  have robust := (robust_of_samples ⟨id, fun _ => id⟩ 6 sampled found).2
  rcases robust.resists [blockAt 1, blockAt 1, blockAt 1] {1} (by decide) kept
    with ⟨⟨low, _, price, known, below⟩, high, _, other, knownToo, above⟩
  have par : pricesAt [blockAt 1, blockAt 1, blockAt 1] 0 =
      List.replicate 3 (some 1) := rfl
  rw [par, List.getElem?_replicate, Option.ite_none_right_eq_some]
    at known knownToo
  cases known.2
  cases knownToo.2
  exact le_antisymm above below

end Eris.Valuation.MedianMarks
