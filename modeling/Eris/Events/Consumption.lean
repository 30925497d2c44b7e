import Eris.Events.Fitting

/-!
# How many draws an entry makes

A keyed stream is in counter mode: the draw at a position is a word of its
own, and the stream is the words together with a position.  An entry makes
as many draws as its configuration says, except that each token of a launch
makes five, and how many tokens a launch lists is drawn itself.
-/

namespace Eris.Events.Consumption

open Data Draws Extension Fitting Parsing Schedule Windows Foundation.Checked
  Foundation.Stateful Foundation.Traversal

variable {Number Stream : Type}

/-! ## Keyed streams -/

/-- What decides the draws of a schedule, next to its configuration: the
words of every stream, under the key of the scenario, and the seed. -/
structure Randomness (Number : Type) where
  word : Int → Salt → Nat → Number
  seed : Int
  salt : Nat

/-- The platform whose streams are made of such words. -/
def keyedBy
    (platform : Platform Number Stream) (word : Int → Salt → Nat → Number) :
    Platform Number (Tape Number) where
  ofInt := platform.ofInt
  add := platform.add
  sub := platform.sub
  mul := platform.mul
  div := platform.div
  power := platform.power
  log := platform.log
  less := platform.less
  floor := platform.floor
  round := platform.round
  half := platform.half
  tolerance := platform.tolerance
  fromSeed seed salt := ⟨word seed salt, 0⟩
  next := Tape.next
  configDigest := platform.configDigest

section Runs

variable (platform : Platform Number Stream)

/-- A draw is at least zero and below one. -/
def InUnit (draw : Number) : Prop :=
  platform.less draw platform.zero = false ∧
    platform.less draw (platform.ofInt 1) = true

def Randomness.Uniform (randomness : Randomness Number) : Prop :=
  ∀ seed salt place, InUnit platform (randomness.word seed salt place)

/-- The position of the schedule's stream once some entries are drawn. -/
def positionAfter
    (randomness : Randomness Number) (entries : List (Paired Number)) : Nat :=
  let drawing := keyedBy platform randomness.word
  (each (drawEntry drawing randomness.seed randomness.salt) 0 entries
    (drawing.fromSeed randomness.seed (.number randomness.salt))).2.position

/-- The position at which the draws of an entry begin. -/
def begins
    (randomness : Randomness Number) (entries : List (Paired Number))
    (index : Nat) : Nat :=
  positionAfter platform randomness (entries.take index)

def consumes
    (randomness : Randomness Number) (entries : List (Paired Number))
    (index : Nat) : Nat :=
  begins platform randomness entries (index + 1) -
    begins platform randomness entries index

/-- In any two runs an entry begins at the same draw, and makes as many. -/
def DrawsFixed (entries : List (Paired Number)) : Prop :=
  ∀ first second : Randomness Number,
    first.Uniform platform → second.Uniform platform → ∀ index,
        begins platform first entries index =
            begins platform second entries index ∧
          consumes platform first entries index =
            consumes platform second entries index

/-- Every launch which draws a window lists a fixed number of tokens. -/
def LaunchesFixed (entries : List (Paired Number)) : Prop :=
  ∀ entry ∈ entries, entry.config.type = .tokenLaunch → slotsOf entry.lead ≠ 0 →
      ∀ range ∈ entry.config.tokenCount, range.1 = range.2

/-- The integer of a range which a draw picks. -/
def pickedInt (range : Int × Int) (draw : Number) : Int :=
  min range.2 (max range.1 (platform.floor
      (platform.lerp (platform.ofInt range.1)
        (platform.ofInt (range.2 + 1)) draw)))

/-- Of two integers some draws pick different ones. -/
def Spreads : Prop :=
  ∀ range : Int × Int, range.1 < range.2 →
    ∃ low high, InUnit platform low ∧ InUnit platform high ∧
      pickedInt platform range low ≠ pickedInt platform range high

end Runs

section Costs

variable {platform : Platform Number Stream}
    {word : Int → Salt → Nat → Number} {taken : Set Number}
    {config : StressEventConfig Number} {tokens : Nat}

/-- How many tokens a draw makes a launch list. -/
def tokensFrom
    (platform : Platform Number Stream) (config : StressEventConfig Number)
    (draw : Number) : Nat :=
  (pickedInt platform (config.tokenCount.getD (1, 1)) draw).toNat

/-- A length which is a range costs a draw. -/
def blocksCost (blocks : BlockCount) : Nat := (BlockCount.drawn blocks).toNat

def windowCost (config : StressEventConfig Number) (tokens : Nat) : Nat :=
  1 + (1 + ((hasSide config.type).toNat +
    ((decide (config.type = .cexDrift)).toNat +
      ((if config.type = .tokenLaunch then 1 + tokens * 5 else 0) +
        (config.flipProb.isSome.toNat + (config.recoverFrac.isSome.toNat +
          ((decide (config.venue = some .random)).toNat +
            (config.repriceAnchorProb.isSome.toNat +
              (blocksCost config.rampBlocks + (blocksCost config.holdBlocks +
                  (blocksCost config.decayBlocks + 0)))))))))))

def entryCost (paired : Paired Number) (tokens : Nat) : Nat :=
  paired.config.count.isSome.toNat +
    slotsOf paired.lead * windowCost paired.config tokens

theorem next_costs :
    Costs taken (keyedBy platform word).next 1
      fun draw : Number => draw ∈ taken :=
  Costs.draw

theorem drawInt_costs (range : Int × Int) :
    Costs taken (drawInt (keyedBy platform word) range) 1
      fun drawn => ∃ draw ∈ taken, drawn = pickedInt platform range draw :=
  .bind next_costs fun draw here => .pure ⟨draw, here, rfl⟩

theorem drawBlockCount_costs (blocks : BlockCount) :
    Costs taken (drawBlockCount (keyedBy platform word) blocks)
      (blocksCost blocks) fun _ => True := by
  cases blocks with
  | fixed number => exact .pure trivial
  | range least most => exact (drawInt_costs (least, most)).forget

theorem drawWhen_costs (written : Bool) :
    Costs taken (drawWhen (keyedBy platform word) written) written.toNat
      fun _ => True := by
  cases written with
  | false => exact .pure trivial
  | true => exact .map next_costs.forget

theorem drawTokenLaunch_costs (index : Nat) :
    Costs taken (drawTokenLaunch (keyedBy platform word) config index) 5
      fun _ => True :=
  .bind next_costs fun _ _ =>
    .bind next_costs fun _ _ =>
      .bind next_costs fun _ _ =>
        .bind next_costs fun _ _ =>
          .bind next_costs fun _ _ => .pure trivial

theorem drawTokenLaunches_costs
    (listed : ∀ draw ∈ taken, tokensFrom platform config draw = tokens) :
    Costs taken (drawTokenLaunches (keyedBy platform word) config)
      (1 + tokens * 5) fun _ => True := by
  refine .bind (drawInt_costs _) ?_
  rintro count ⟨draw, here, rfl⟩
  have each := @Costs.mapM Number (ResolvedTokenLaunch Number) taken 5 Nat
      (drawTokenLaunch (keyedBy platform word) config)
      (List.range (tokensFrom platform config draw))
      fun index _ => drawTokenLaunch_costs index
  rw [List.length_range, listed draw here] at each
  rw [← listed draw here] at each ⊢
  exact each

theorem drawWindow_costs
    (listed : config.type = .tokenLaunch →
      ∀ draw ∈ taken, tokensFrom platform config draw = tokens) :
    Costs taken (drawWindow (keyedBy platform word) config)
      (windowCost config tokens) fun _ => True := by
  refine .bind next_costs fun magnitudeDraw _ => ?_
  refine .bind next_costs fun startU _ => ?_
  refine .bind (drawWhen_costs _) fun sideDraw _ => ?_
  refine .bind (drawWhen_costs _) fun kappaDraw _ => ?_
  refine .choice
    (fun launches => .map (drawTokenLaunches_costs (listed launches)).forget)
    (fun _ => .pure trivial) fun launches => ?_
  refine .bind (drawWhen_costs _) fun flipDraw _ => ?_
  refine .bind (drawWhen_costs _) fun recoverDraw _ => ?_
  refine .bind (drawWhen_costs _) fun venueDraw _ => ?_
  refine .bind (drawWhen_costs _) fun repriceDraw _ => ?_
  refine .bind (drawBlockCount_costs _) fun ramp _ => ?_
  refine .bind (drawBlockCount_costs _) fun hold _ => ?_
  exact .bind (drawBlockCount_costs _) fun decay _ => .pure trivial

theorem drawEntry_costs
    {seed : Int} {salt index : Nat} {paired : Paired Number}
    (listed : paired.config.type = .tokenLaunch → slotsOf paired.lead ≠ 0 →
      ∀ draw ∈ taken, tokensFrom platform paired.config draw = tokens) :
    Costs taken (drawEntry (keyedBy platform word) seed salt index paired)
      (entryCost paired tokens) fun _ => True := by
  have windows : Costs taken ((List.range (slotsOf paired.lead)).mapM
        fun _ => drawWindow (keyedBy platform word) paired.config)
      (slotsOf paired.lead * windowCost paired.config tokens)
      fun _ => True := by
    have each := @Costs.mapM Number (DrawnWindow Number) taken
        (windowCost paired.config tokens) Nat
        (fun _ => drawWindow (keyedBy platform word) paired.config)
        (List.range (slotsOf paired.lead))
        fun place member =>
          drawWindow_costs fun launches =>
            listed launches (Nat.ne_of_gt
                (Nat.lt_of_le_of_lt (Nat.zero_le place)
                  (List.mem_range.mp member)))
    rw [List.length_range] at each
    exact each
  rw [drawEntry, entryCost]
  cases paired.config.count with
  | none =>
      exact .bind (@Costs.pure _ _ taken (fun _ => True) none trivial)
          fun _ _ => .bind windows fun _ _ => .pure trivial
  | some range =>
      have counted :
          Costs taken (some <$> drawInt (keyedBy platform word) range) 1
            fun _ => True :=
        .map (drawInt_costs range).forget
      exact .bind counted fun _ _ => .bind windows fun _ _ => .pure trivial

end Costs

/-! ## Runs -/

section Runs

variable {platform : Platform Number Stream}
    {randomness : Randomness Number} {entries : List (Paired Number)}

theorem positionAfter_eq_sum
    {taken : Set Number} {tokens : Paired Number → Nat}
    (drawn : ∀ seed salt place, randomness.word seed salt place ∈ taken)
    (listed : ∀ entry ∈ entries, entry.config.type = .tokenLaunch →
      slotsOf entry.lead ≠ 0 →
        ∀ draw ∈ taken, tokensFrom platform entry.config draw = tokens entry) :
    positionAfter platform randomness entries =
      (entries.map fun entry => entryCost entry (tokens entry)).sum := by
  have costs := @Costs.each Number (Drawn Number) taken (Paired Number)
      (drawEntry (keyedBy platform randomness.word) randomness.seed
        randomness.salt)
      (fun entry => entryCost entry (tokens entry)) entries 0
      fun index entry member => drawEntry_costs (listed entry member)
  have whole :=
    (costs ⟨randomness.word randomness.seed (.number randomness.salt), 0⟩
      fun place => drawn _ _ _).2
  have position := congrArg Tape.position whole
  rw [Nat.zero_add] at position
  exact position

theorem cost_eq
    {Input : Type} {inputs : List Input} {first second : Input → Nat}
    (same : ∀ index, ((inputs.take index).map first).sum =
        ((inputs.take index).map second).sum) :
    ∀ input ∈ inputs, first input = second input := by
  intro input member
  rcases List.mem_iff_getElem.mp member with ⟨index, inside, rfl⟩
  have before := same index
  have after := same (index + 1)
  rw [List.take_succ_eq_append_getElem inside, List.map_append,
    List.map_append, List.sum_append, List.sum_append, before] at after
  simpa using after

def constantly (draw : Number) : Randomness Number where
  word _ _ _ := draw
  seed := 0
  salt := 0

theorem begins_constantly (draw : Number) (index : Nat) :
    begins platform (constantly draw) entries index =
      ((entries.take index).map fun entry =>
        entryCost entry (tokensFrom platform entry.config draw)).sum :=
  @positionAfter_eq_sum Number Stream platform (constantly draw)
    (entries.take index) {draw}
    (fun entry => tokensFrom platform entry.config draw)
    (fun _ _ _ => rfl)
    fun _ _ _ _ other same => by rw [Set.mem_singleton_iff.mp same]

theorem tokensFrom_fixed
    {config : StressEventConfig Number} {range : Int × Int} (draw : Number)
    (listed : config.tokenCount = some range) (fixed : range.1 = range.2) :
    tokensFrom platform config draw = range.1.toNat := by
  rw [tokensFrom, listed, Option.getD_some, pickedInt, ← fixed,
    min_eq_left (le_max_left _ _)]

theorem tokensFrom_ne
    {config : StressEventConfig Number} {range : Int × Int} {low high : Number}
    (listed : config.tokenCount = some range) (positive : 1 ≤ range.1)
    (ordered : range.1 ≤ range.2)
    (different : pickedInt platform range low ≠ pickedInt platform range high) :
    tokensFrom platform config low ≠ tokensFrom platform config high := by
  have above (draw : Number) : range.1 ≤ pickedInt platform range draw :=
    le_min ordered (le_max_left _ _)
  have lowest := above low
  have highest := above high
  rw [tokensFrom, tokensFrom, listed, Option.getD_some]
  omega

theorem tokens_of_entryCost
    {paired : Paired Number} {first second : Nat}
    (launches : paired.config.type = .tokenLaunch)
    (draws : slotsOf paired.lead ≠ 0)
    (same : entryCost paired first = entryCost paired second) :
    first = second := by
  have windows := Nat.add_left_cancel same
  have window := Nat.eq_of_mul_eq_mul_left (Nat.pos_of_ne_zero draws) windows
  rw [windowCost, windowCost, if_pos launches, if_pos launches] at window
  omega

theorem drawsFixed_of_launchesFixed
    (sound : ∀ entry ∈ entries, Sound platform entry.config)
    (fixed : LaunchesFixed entries) :
    DrawsFixed platform entries := by
  have position (randomness : Randomness Number) (index : Nat) :
      begins platform randomness entries index =
        ((entries.take index).map fun entry =>
          entryCost entry
            (entry.config.tokenCount.getD (1, 1)).1.toNat).sum := by
    refine @positionAfter_eq_sum Number Stream platform randomness
      (entries.take index) Set.univ
      (fun entry => (entry.config.tokenCount.getD (1, 1)).1.toNat)
      (fun _ _ _ => Set.mem_univ _) ?_
    intro entry member launches draws draw _
    have here := List.mem_of_mem_take member
    rcases (sound entry here).tokens launches with ⟨range, listed, _⟩
    rw [tokensFrom_fixed draw listed
      (fixed entry here launches draws range listed), listed,
      Option.getD_some]
  intro first second _ _ index
  rw [consumes, consumes, position first, position second, position first,
    position second]
  exact ⟨rfl, rfl⟩

theorem launchesFixed_of_drawsFixed
    (spreads : Spreads platform)
    (sound : ∀ entry ∈ entries, Sound platform entry.config)
    (fixed : DrawsFixed platform entries) :
    LaunchesFixed entries := by
  intro entry member launches draws range listed
  rcases (sound entry member).tokens launches with
    ⟨written, found, positive, ordered⟩
  rw [Option.mem_def.mp listed] at found
  cases found
  by_contra apart
  rcases spreads range (lt_of_le_of_ne ordered apart) with
    ⟨low, high, lowUnit, highUnit, different⟩
  have same (index : Nat) :=
    (fixed (constantly low) (constantly high) (fun _ _ _ => lowUnit)
      (fun _ _ _ => highUnit) index).1
  simp only [begins_constantly] at same
  have cost := cost_eq same entry member
  exact tokensFrom_ne listed positive ordered different
    (tokens_of_entryCost launches draws cost)

/--
The draws of an accepted configuration are fixed by it exactly if every
launch which draws a window lists a fixed number of tokens.
-/
theorem draws_fixed
    {raws : List (RawEvent Number)} {windowFracBeyondRun : Bool}
    {configs : List (StressEventConfig Number)} (spreads : Spreads platform)
    (parsed : parseStressEvents platform windowFracBeyondRun raws = .ok configs)
    (resolved : each (pair configs) 0 configs = .ok entries) :
    DrawsFixed platform entries ↔ LaunchesFixed entries := by
  have sound : ∀ entry ∈ entries, Sound platform entry.config := by
    intro entry member
    exact parseStressEvents_sound parsed _ (pair_config resolved entry member)
  exact ⟨launchesFixed_of_drawsFixed spreads sound,
    drawsFixed_of_launchesFixed sound⟩

end Runs

/-! ## A launch before a spike -/

theorem rawState_spreads : Spreads rawState := by
  intro range ordered
  have wide : (0 : ℚ) < ((range.2 + 1 : Int) : ℚ) - range.1 := by
    have below : (range.1 : ℚ) < ((range.2 + 1 : Int) : ℚ) := by
      exact_mod_cast lt_trans ordered (Int.lt_succ range.2)
    linarith
  have picked (draw : ℚ) : pickedInt rawState range draw = min range.2
          (max range.1
            ⌊(range.1 : ℚ) + (((range.2 + 1 : Int) : ℚ) - range.1) * draw⌋) :=
    rfl
  have unit (draw : ℚ) (above : 0 ≤ draw) (below : draw < 1) :
      InUnit rawState draw := by
    refine ⟨?_, ?_⟩
    · rw [rawState_less, rawState_zero]
      exact above
    · show decide (draw < ((1 : Int) : ℚ)) = true
      rw [Int.cast_one]
      exact decide_eq_true below
  have least : (0 : ℚ) ≤ (range.2 : ℚ) - range.1 := by
    rw [sub_nonneg]
    exact_mod_cast le_of_lt ordered
  refine ⟨0, ((range.2 : ℚ) - range.1) / (((range.2 + 1 : Int) : ℚ) - range.1),
    unit 0 (le_refl 0) one_pos,
    unit _ (div_nonneg least (le_of_lt wide)) ?_, ?_⟩
  · rw [div_lt_one wide, Int.cast_add, Int.cast_one]
    linarith
  · rw [picked, picked, mul_zero, add_zero, Int.floor_intCast,
      mul_div_cancel₀ _ (ne_of_gt wide), add_sub_cancel, Int.floor_intCast]
    omega

/-- The words which the generator yields from its first state on. -/
def generatedWord (seed : Int) (salt : Salt) (place : Nat) : ℚ :=
  (rawState.next
    ((fun state => (rawState.next state).2)^[place]
      (rawState.fromSeed seed salt))).1

def generated (seed : Int) : Randomness ℚ where
  word := generatedWord
  seed := seed
  salt := stressSeedSalt

theorem generated_uniform (seed : Int) :
    (generated seed).Uniform rawState := by
  intro named salt place
  refine ⟨?_, ?_⟩
  · exact rawState_lawful.drawn _
  · show decide (_ / (2 : ℚ) ^ 32 < ((1 : Int) : ℚ)) = true
    rw [Int.cast_one, decide_eq_true_iff, div_lt_one (by norm_num)]
    exact_mod_cast Nat.mod_lt _ (by norm_num)

/-- A launch of some tokens, as it is written. -/
def launchRaw (tokenCount : Int × Int) : RawEvent ℚ :=
  { plainRaw .tokenLaunch 1 with
    magnitudeRange := none
    tokenCount := some tokenCount
    liquidityUsdc := some (1000, 2000)
    waveUsdcMult := some (1, 2)
    dudProb := some (0, 1 / 2)
    sellBackFrac := some (1 / 2, 1) }

/-- What is drawn for a launch and a spike, which are scheduled as well. -/
def launchAndSpike (tokenCount : Int × Int) (seed : Int) :
    Outcome Refusal (List (StressEventConfig ℚ) × List (Paired ℚ) ×
        List (List (ResolvedStressEvent ℚ))) :=
  match parseStressEvents rawState false
      [launchRaw tokenCount, plainRaw .spike 1] with
  | .error _ => .error .panic
  | .ok configs => do
      let entries ← each (pair configs) 0 configs
      let events ←
        eventSchedule (keyedBy rawState generatedWord) configs seed 20 20 none
      return (configs, entries, events)

theorem launchAndSpike_ok
    {tokenCount : Int × Int} {seed : Int}
    {configs : List (StressEventConfig ℚ)} {entries : List (Paired ℚ)}
    {events : List (List (ResolvedStressEvent ℚ))}
    (done : launchAndSpike tokenCount seed = .ok (configs, entries, events)) :
    parseStressEvents rawState false
          [launchRaw tokenCount, plainRaw .spike 1] = .ok configs ∧
      each (pair configs) 0 configs = .ok entries ∧
      eventSchedule (keyedBy rawState generatedWord) configs seed 20 20
          none = .ok events := by
  rw [launchAndSpike] at done
  split at done
  · cases done
  · next configs parsed =>
      simp only [bind_eq_ok, pure_eq_ok] at done
      rcases done with ⟨entries, resolved, events, scheduled, same⟩
      cases same
      exact ⟨parsed, resolved, scheduled⟩

theorem draws_fixed_for_launch :
    ∃ configs entries, each (pair configs) 0 configs = .ok entries ∧
        (DrawsFixed rawState entries ↔ LaunchesFixed entries) := by
  have computed : (launchAndSpike (2, 2) 0).toOption.isSome = true := by
    decide +kernel
  rcases Option.isSome_iff_exists.mp computed with ⟨built, done⟩
  rw [toOption_eq_some] at done
  rcases launchAndSpike_ok done with ⟨parsed, resolved, _⟩
  exact
    ⟨built.1, built.2.1, resolved, draws_fixed rawState_spreads parsed resolved⟩

/-- Where a spike begins depends on how many tokens the launch before it
lists, which the seed decides. -/
theorem launch_shifts_spike :
    ∃ configs entries, parseStressEvents rawState false
            [launchRaw (1, 3), plainRaw .spike 1] = .ok configs ∧
        each (pair configs) 0 configs = .ok entries ∧
        (∃ events,
          eventSchedule (keyedBy rawState generatedWord) configs 0 20 20
            none = .ok events) ∧
        (∃ events,
          eventSchedule (keyedBy rawState generatedWord) configs 1 20 20
            none = .ok events) ∧
        begins rawState (generated 0) entries 1 = 18 ∧
        begins rawState (generated 1) entries 1 = 8 ∧
        ¬ DrawsFixed rawState entries := by
  have computed : ((launchAndSpike (1, 3) 0).toOption.any fun built =>
        decide (begins rawState (generated 0) built.2.1 1 = 18) &&
          decide (begins rawState (generated 1) built.2.1 1 = 8)) = true := by
    decide +kernel
  have again : (launchAndSpike (1, 3) 1).toOption.isSome = true := by
    decide +kernel
  rcases (Option.any_eq_true _ _).mp computed with ⟨first, done, shifted⟩
  rcases Option.isSome_iff_exists.mp again with ⟨second, redone⟩
  rw [toOption_eq_some] at done redone
  rcases launchAndSpike_ok done with ⟨parsed, resolved, scheduled⟩
  rcases launchAndSpike_ok redone with ⟨reparsed, _, rescheduled⟩
  rw [parsed] at reparsed
  rw [← Except.ok.inj reparsed] at rescheduled
  simp only [Bool.and_eq_true, decide_eq_true_eq] at shifted
  refine
    ⟨first.1, first.2.1, parsed, resolved, ⟨_, scheduled⟩, ⟨_, rescheduled⟩,
      shifted.1, shifted.2, ?_⟩
  intro fixed
  have same := (fixed (generated 0) (generated 1) (generated_uniform 0)
      (generated_uniform 1) 1).1
  rw [shifted.1, shifted.2] at same
  cases same

end Eris.Events.Consumption
