import Eris.Events.Fitting
import Eris.Events.Multipliers

/-!
# Whether the market stays positive

The events of an accepted configuration, whatever is drawn for them, keep the
depth and the flow positive.  They keep the price positive exactly if no
crash at work takes off all of it and those which take off more are paired,
which magnitudes below one make sure of.
-/

namespace Eris.Events.Positivity

open Data Draws Extension Fitting Multipliers Parsing Schedule Windows
  Foundation.Checked Foundation.PlainObject Foundation.Stateful
  Foundation.Traversal

variable {Number Stream : Type} [Field Number] [LinearOrder Number]

/-! ## What is drawn for an accepted entry -/

/-- The arithmetic of the platform is that of the numbers, and its draws are
at least zero and below one. -/
structure Exact (platform : Platform Number Stream) : Prop where
  ofInt : ∀ integer, platform.ofInt integer = integer
  add : ∀ first second, platform.add first second = first + second
  sub : ∀ first second, platform.sub first second = first - second
  mul : ∀ first second, platform.mul first second = first * second
  less : ∀ first second, platform.less first second = decide (first < second)
  drawn : ∀ stream, 0 ≤ (platform.next stream).1 ∧ (platform.next stream).1 < 1

section Drawing

variable {platform : Platform Number Stream} {config : StressEventConfig Number}

theorem lerp_within
    [IsStrictOrderedRing Number]
    {low high fraction : Number} (exact : Exact platform)
    (ordered : low ≤ high) (unit : 0 ≤ fraction ∧ fraction < 1) :
    low ≤ platform.lerp low high fraction ∧
      platform.lerp low high fraction ≤ high := by
  have width := sub_nonneg.mpr ordered
  have most := mul_le_of_le_one_right width (le_of_lt unit.2)
  have least := mul_nonneg width unit.1
  rw [Platform.lerp, exact.add, exact.mul, exact.sub]
  constructor <;> linarith

theorem less_eq_false
    (exact : Exact platform) {first second : Number} :
    platform.less first second = false ↔ second ≤ first := by
  rw [exact.less, decide_eq_false_iff_not, not_lt]

theorem less_eq_true
    (exact : Exact platform) {first second : Number} :
    platform.less first second = true ↔ first < second := by
  rw [exact.less, decide_eq_true_iff]

/-- What the draws of a window are bounded by. -/
structure WindowAccepted
    (config : StressEventConfig Number) (window : DrawnWindow Number) :
    Prop where
  ramp : 0 ≤ window.rampBlocks
  hold : 0 ≤ window.holdBlocks
  decay : 0 ≤ window.decayBlocks
  recovers : ∀ fraction ∈ window.recoverFrac, 0 ≤ fraction ∧ fraction ≤ 1
  magnitude : config.type ≠ .tokenLaunch →
    0 < window.magnitude ∧ window.magnitude ≤ config.magnitudeRange.2
  turned : window.flipped = true → config.flipProb.isSome

theorem drawWhen_always (exact : Exact platform) (written : Bool) :
    Always (drawWhen platform written) fun drawn =>
      ∀ draw ∈ drawn, 0 ≤ draw ∧ draw < 1 := by
  cases written with
  | false =>
      refine .pure ?_
      intro draw impossible
      cases impossible
  | true =>
      refine .map fun stream => ?_
      intro draw same
      cases same
      exact exact.drawn stream

theorem magnitude_within
    (exact : Exact platform) (sound : Sound platform config)
    (other : config.type ≠ .tokenLaunch) :
    0 < config.magnitudeRange.1 ∧
      config.magnitudeRange.1 ≤ config.magnitudeRange.2 ∧
      (isFraction config.type = true → config.magnitudeRange.2 < 1) := by
  have within := sound.magnitude other
  refine ⟨?_, (less_eq_false exact).mp within.ordered, ?_⟩
  · have above :
        platform.less (platform.ofInt 0) config.magnitudeRange.1 = true :=
      within.above _ rfl
    rw [less_eq_true exact, exact.ofInt, Int.cast_zero] at above
    exact above
  · intro fraction
    have bounds := within.below (besideOne platform)
    rw [if_pos fraction] at bounds
    have below :
        platform.less config.magnitudeRange.2 (platform.ofInt 1) = true :=
      bounds rfl
    rw [less_eq_true exact, exact.ofInt, Int.cast_one] at below
    exact below

theorem recoverFrac_within
    (exact : Exact platform) (sound : Sound platform config)
    {range : Number × Number} (written : range ∈ config.recoverFrac) :
    0 ≤ range.1 ∧ range.1 ≤ range.2 ∧ range.2 ≤ 1 := by
  have within := sound.recovers range written
  refine ⟨?_, (less_eq_false exact).mp within.ordered, ?_⟩
  · have above : (!platform.less range.1 (platform.ofInt 0)) = true :=
      within.above _ rfl
    rw [Bool.not_eq_true', less_eq_false exact, exact.ofInt,
      Int.cast_zero] at above
    exact above
  · have below : (!platform.less (platform.ofInt 1) range.2) = true :=
      within.below _ rfl
    rw [Bool.not_eq_true', less_eq_false exact, exact.ofInt,
      Int.cast_one] at below
    exact below

theorem drawWindow_accepted
    [IsStrictOrderedRing Number]
    (exact : Exact platform) (sound : Sound platform config) :
    Always (drawWindow platform config) (WindowAccepted config) := by
  have unit : Always platform.next fun draw => 0 ≤ draw ∧ draw < 1 :=
    exact.drawn
  refine .bind unit fun magnitudeDraw magnitudeUnit => ?_
  refine .bind .trivial fun startU _ => ?_
  refine .bind .trivial fun sideDraw _ => ?_
  refine .bind .trivial fun kappaDraw _ => ?_
  refine .choice fun launches => ?_
  refine .bind .trivial fun flipDraw _ => ?_
  refine .bind (drawWhen_always exact _) fun recoverDraw recoverUnit => ?_
  refine .bind .trivial fun venueDraw _ => ?_
  refine .bind .trivial fun repriceDraw _ => ?_
  refine .bind (drawBlockCount_always sound.ramp) fun ramp rampFits => ?_
  refine .bind (drawBlockCount_always sound.hold) fun hold holdFits => ?_
  refine .bind (drawBlockCount_always sound.decay) fun decay decayFits => ?_
  refine .pure ⟨rampFits.1.1, holdFits.1.1, decayFits.1.1, ?_, ?_, ?_⟩
  · intro fraction drawn
    rcases Option.mem_map₂_iff.mp drawn with
      ⟨range, draw, written, made, rfl⟩
    have bounds := recoverFrac_within exact sound written
    have between := lerp_within exact bounds.2.1 (recoverUnit draw made)
    exact ⟨le_trans bounds.1 between.1, le_trans between.2 bounds.2.2⟩
  · intro other
    have bounds := magnitude_within exact sound other
    have between := lerp_within exact bounds.2.1 magnitudeUnit
    exact ⟨lt_of_lt_of_le bounds.1 between.1, between.2⟩
  · intro turned
    dsimp only at turned
    cases written : config.flipProb with
    | none =>
        rw [written] at turned
        cases flipDraw <;> cases turned
    | some prob => rfl

end Drawing

/-! ## The events of a schedule -/

section Schedules

variable [IsStrictOrderedRing Number] {platform : Platform Number Stream}
    {configs : List (StressEventConfig Number)}
    {seed : Int} {window : DrawnWindow Number}

omit [Field Number] [LinearOrder Number] [IsStrictOrderedRing Number] in
theorem drawWaves_flipped
    {salt index place : Nat} {config : StressEventConfig Number} :
    (drawWaves platform seed salt index config place window).flipped =
      window.flipped := by
  rw [drawWaves]
  split
  · cases config.waveStopProb <;> cases config.wavePriceCeiling <;> rfl
  · rfl

/-- What is drawn for an entry; the waves of a launch may shorten it. -/
structure EntryAccepted
    (paired : Paired Number) (entry : Drawn Number) : Prop where
  config : entry.config = paired.config
  turned : ∀ window ∈ entry.windows,
    window.flipped = true → paired.config.flipProb.isSome
  windows : paired.config.type ≠ .tokenLaunch →
    ∀ window ∈ entry.windows, WindowAccepted paired.config window

theorem drawEntry_accepted
    {salt index : Nat} {paired : Paired Number}
    (exact : Exact platform) (sound : Sound platform paired.config) :
    Always (drawEntry platform seed salt index paired)
      (EntryAccepted paired) := by
  have windows := @Always.mapM _ _ (WindowAccepted paired.config) Nat
      (fun _ => drawWindow platform paired.config)
      (List.range (slotsOf paired.lead))
      fun _ _ => drawWindow_accepted exact sound
  have finish : ∀ count : Option Int, Always (do
          let windows ← (List.range (slotsOf paired.lead)).mapM
              fun _ => drawWindow platform paired.config
          return (⟨paired.config, paired.anchor, count, windows.mapIdx
              (drawWaves platform seed salt index paired.config)⟩ :
            Drawn Number))
        (EntryAccepted paired) := by
    intro count
    refine .bind windows fun drawn fits => .pure ⟨rfl, ?_, ?_⟩
    · intro window member
      rcases List.mem_mapIdx.mp member with ⟨place, inside, rfl⟩
      rw [drawWaves_flipped]
      exact (fits.2 _ (List.getElem_mem inside)).turned
    · intro other window member
      rcases List.mem_mapIdx.mp member with ⟨place, inside, rfl⟩
      rw [drawWaves, if_neg other]
      exact fits.2 _ (List.getElem_mem inside)
  rw [drawEntry]
  cases paired.config.count with
  | none => exact .bind .trivial fun count _ => finish count
  | some range => exact .bind .trivial fun count _ => finish count

theorem drawEntries_accepted
    {seed : Int} {salt : Nat} {paired : List (Paired Number)}
    (exact : Exact platform) (sound : ∀ config ∈ configs, Sound platform config)
    (resolved : each (pair configs) 0 configs = .ok paired) :
    ∀ entry ∈ drawEntries platform seed salt paired,
      entry.config ∈ configs ∧ ∃ paired, EntryAccepted paired entry := by
  have listed := pair_config resolved
  have always :=
    @Always.each _ _ _ (drawEntry platform seed salt) EntryAccepted paired 0
      fun _ entry member =>
        drawEntry_accepted exact (sound _ (listed entry member))
  have related : List.Forall₂ EntryAccepted paired
      (drawEntries platform seed salt paired) := always _
  rcases List.forall₂_iff_get.mp related with ⟨lengths, each⟩
  intro entry member
  rcases List.mem_iff_getElem.mp member with ⟨place, inside, rfl⟩
  have here := each place (lengths ▸ inside) inside
  simp only [List.get_eq_getElem] at here
  refine ⟨?_, _, here⟩
  rw [here.config]
  exact listed _ (List.getElem_mem _)

omit [IsStrictOrderedRing Number] in
theorem resolveWindow_accepted
    {config : StressEventConfig Number} {start : Int}
    (exact : Exact platform) (sound : Sound platform config)
    (other : config.type ≠ .tokenLaunch)
    (accepted : WindowAccepted config window) :
    Accepted (resolveWindow config window start) := by
  refine
    { ramp := accepted.ramp
      hold := accepted.hold
      decay := accepted.decay
      recovers := accepted.recovers
      magnitude := (accepted.magnitude other).1
      pulls := ?_ }
  intro pulls
  have unturned : resolvedType config window = .liquidityPull := pulls
  rw [resolvedType] at unturned
  split at unturned
  · split at unturned <;> cases unturned
  · have bounds := magnitude_within exact sound other
    refine lt_of_le_of_lt (accepted.magnitude other).2 (bounds.2.2 ?_)
    rw [unturned]
    rfl

omit [Field Number] [LinearOrder Number] [IsStrictOrderedRing Number] in
theorem resolvedType_launch
    {config : StressEventConfig Number}
    (isLaunch : config.type = .tokenLaunch) (sound : Sound platform config)
    (turned : window.flipped = true → config.flipProb.isSome) :
    resolvedType config window = .tokenLaunch := by
  rw [resolvedType, if_neg, isLaunch]
  intro flipped
  rcases sound.turns (turned flipped) with crash | spike
  · rw [isLaunch] at crash
    cases crash
  · rw [isLaunch] at spike
    cases spike

/-- Where an event of the schedule comes from. -/
structure Origin
    (configs : List (StressEventConfig Number))
    (event : ResolvedStressEvent Number) where
  config : StressEventConfig Number
  window : DrawnWindow Number
  start : Int
  listed : config ∈ configs
  resolved : event = resolveWindow config window start
  turned : window.flipped = true → config.flipProb.isSome
  windows : config.type ≠ .tokenLaunch → WindowAccepted config window

theorem events_origin
    {runBlocks windowBaseBlocks : Int} {saltWithEventList : Option Bool}
    {events : List (List (ResolvedStressEvent Number))} (exact : Exact platform)
    (sound : ∀ config ∈ configs, Sound platform config)
    (built : eventSchedule platform configs seed runBlocks windowBaseBlocks
          saltWithEventList =
        .ok events) :
    ∀ event ∈ events.flatten, Nonempty (Origin configs event) := by
  rcases eventSchedule_eq_ok built with
    ⟨paired, starts, aligned, resolved, _, _, rfl⟩
  have accepted :=
    @drawEntries_accepted Number Stream _ _ _ platform configs seed
      (saltOf platform saltWithEventList configs) paired exact sound resolved
  intro event member
  rcases List.mem_flatten.mp member with ⟨entryEvents, listed, here⟩
  rcases List.mem_iff_getElem?.mp listed with ⟨index, found⟩
  rcases List.mem_iff_getElem?.mp here with ⟨place, isEvent⟩
  rcases List.getElem?_zipWith_eq_some.mp found with
    ⟨entry, moved, isEntry, _, rfl⟩
  rcases List.getElem?_zipWith_eq_some.mp isEvent with
    ⟨window, start, isWindow, _, rfl⟩
  rcases accepted entry (List.mem_of_getElem? isEntry) with
    ⟨isConfig, paired, fits⟩
  have inside := List.mem_of_getElem? isWindow
  have config := fits.config
  exact
    ⟨{ config := entry.config
       window := window
       start := start
       listed := isConfig
       resolved := rfl
       turned := by
         rw [config]
         exact fits.turned window inside
       windows := by
         rw [config]
         exact fun other => fits.windows other window inside }⟩

omit [IsStrictOrderedRing Number] in
theorem Origin.accepted
    {event : ResolvedStressEvent Number} (origin : Origin configs event)
    (exact : Exact platform) (sound : ∀ config ∈ configs, Sound platform config)
    (other : event.type ≠ .tokenLaunch) :
    Accepted event := by
  rcases origin with ⟨config, window, start, listed, rfl, turned, windows⟩
  have kept : config.type ≠ .tokenLaunch := by
    intro isLaunch
    exact other (resolvedType_launch isLaunch (sound config listed) turned)
  exact resolveWindow_accepted exact (sound config listed) kept (windows kept)

omit [IsStrictOrderedRing Number] in
theorem Origin.magnitude_lt_one
    {event : ResolvedStressEvent Number} (origin : Origin configs event)
    (sound : ∀ config ∈ configs, Sound platform config)
    (mild : Mild configs) (crashes : event.type = .crash) :
    event.magnitude < 1 := by
  rcases origin with ⟨config, window, start, listed, rfl, turned, windows⟩
  have kept : config.type ≠ .tokenLaunch := by
    intro isLaunch
    have same := resolvedType_launch isLaunch (sound config listed) turned
    have crashed : resolvedType config window = .crash := crashes
    rw [same] at crashed
    cases crashed
  refine lt_of_le_of_lt ((windows kept).magnitude kept).2 ?_
  refine (mild config listed).2 ?_
  have crashed : resolvedType config window = .crash := crashes
  rw [resolvedType] at crashed
  split at crashed
  · next flipped => exact .inr (turned flipped)
  · exact .inl crashed

theorem harmless_of_mild
    {events : List (ResolvedStressEvent Number)} {blockIndex : Int}
    (exact : Exact platform) (sound : ∀ config ∈ configs, Sound platform config)
    (origins : ∀ event ∈ events, Nonempty (Origin configs event))
    (mild : Mild configs) :
    Harmless events blockIndex := by
  have below : ∀ event ∈ events, event.type = .crash →
      takenOff event blockIndex < 1 := by
    intro event member crashes
    rcases origins event member with ⟨origin⟩
    have other : event.type ≠ .tokenLaunch := by
      rw [crashes]
      decide
    exact lt_of_le_of_lt (takenOff_le (origin.accepted exact sound other))
      (origin.magnitude_lt_one sound mild crashes)
  refine ⟨?_, ?_, ?_⟩
  · intro event member _ _
    rcases origins event member with
      ⟨⟨config, window, start, listed, rfl, _, _⟩⟩
    exact (mild config listed).1
  · intro event member crashes _
    exact ne_of_lt (below event member crashes)
  · intro base _
    rw [List.countP_eq_zero.mpr]
    · exact Even.zero
    · intro event member
      rw [decide_eq_true_iff]
      rintro ⟨crashes, _, more⟩
      exact lt_asymm more (below event member crashes)

end Schedules

theorem rawState_exact : Exact rawState := by
  refine
    { ofInt := fun _ => rfl
      add := fun _ _ => rfl
      sub := fun _ _ => rfl
      mul := fun _ _ => rfl
      less := fun _ _ => rfl
      drawn := ?_ }
  intro stream
  refine ⟨?_, ?_⟩
  · exact div_nonneg (Nat.cast_nonneg _) (by norm_num)
  · show _ / (2 : ℚ) ^ 32 < 1
    rw [div_lt_one (by norm_num)]
    exact_mod_cast Nat.mod_lt _ (by norm_num)

/-- A crash by two to three times the price, as it is written. -/
def deepCrash : RawEvent ℚ :=
  { plainRaw .crash 3 with magnitudeRange := some (2, 3) }

/-- The crash, parsed and scheduled in a run of twenty blocks. -/
def scheduledCrash :
    Parsed (List (StressEventConfig ℚ) × List (List (ResolvedStressEvent ℚ))) :=
  match parseStressEvents rawState false [deepCrash] with
  | .error failure => .error failure
  | .ok configs =>
      match eventSchedule rawState configs 7 20 20 none with
      | .error _ => .error .panic
      | .ok events => .ok (configs, events)

theorem scheduledCrash_ok
    {built : List (StressEventConfig ℚ) × List (List (ResolvedStressEvent ℚ))}
    (done : scheduledCrash = .ok built) :
    parseStressEvents rawState false [deepCrash] = .ok built.1 ∧
      eventSchedule rawState built.1 7 20 20 none = .ok built.2 := by
  rw [scheduledCrash] at done
  split at done
  · cases done
  · next configs parsed =>
      split at done
      · cases done
      · next events scheduled =>
          cases done
          exact ⟨parsed, scheduled⟩

end Eris.Events.Positivity
