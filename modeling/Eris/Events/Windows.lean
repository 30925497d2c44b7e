import Eris.Events.Extension
import Eris.Events.Parsing
import Eris.Foundation.Stateful

/-!
# Where the windows of a schedule lie

A window is drawn before it is placed.  Windows of an entry with a count are
laid out one after the other and pulled into the run; a follower takes the
start of its anchor and is refused where it does not fit; a single window is
clamped into the run, which makes room for it only if it is no longer than
the run.
-/

namespace Eris.Events.Windows

open Data Draws Parsing Schedule Extension Foundation.Checked
  Foundation.Stateful Foundation.Traversal

variable {Number Stream : Type} {start step : Int} {index place : Nat}

/--
What placement needs of the numbers: draws are not negative, sums, products
and differences keep their signs, and rounding up an integer by a number
which is not negative never goes below it.  Integers stand for the integers
which the numbers represent exactly.
-/
structure Lawful (platform : Platform Number Stream) : Prop where
  drawn : ∀ stream, platform.less (platform.next stream).1 platform.zero = false
  ofInt : ∀ integer : Int, 0 ≤ integer →
    platform.less (platform.ofInt integer) platform.zero = false
  mul : ∀ first second, platform.less first platform.zero = false →
    platform.less second platform.zero = false →
      platform.less (platform.mul first second) platform.zero = false
  add : ∀ first second, platform.less first platform.zero = false →
    platform.less second platform.zero = false →
      platform.less (platform.add first second) platform.zero = false
  sub : ∀ first second, platform.less first second = false →
    platform.less (platform.sub first second) platform.zero = false
  lower : ∀ number (least most : Int), least ≤ most →
    platform.less number (platform.ofInt most) = false →
      platform.less number (platform.ofInt least) = false
  round : ∀ number (integer : Int), platform.less number platform.zero = false →
      integer ≤ platform.round (platform.add number (platform.ofInt integer))

/-! ## The length of a drawn window -/

section Drawing

variable {platform : Platform Number Stream}
    {config : StressEventConfig Number} {window : DrawnWindow Number}

theorem drawInt_always
    {range : Int × Int} (ordered : range.1 ≤ range.2) :
    Always (drawInt platform range) fun drawn =>
      range.1 ≤ drawn ∧ drawn ≤ range.2 := by
  refine .bind .trivial fun draw _ => .pure ⟨?_, min_le_left _ _⟩
  exact le_min ordered (le_max_left _ _)

theorem drawBlockCount_always
    {blocks : BlockCount} (fits : BlocksFit blocks) :
    Always (drawBlockCount platform blocks) fun drawn =>
      (0 ≤ drawn ∧ drawn ≤ blockCountMax blocks) ∧
        ∀ fixed, blocks = .fixed fixed → drawn = fixed := by
  cases blocks with
  | fixed number =>
      refine .pure ⟨⟨fits, le_refl _⟩, ?_⟩
      rintro fixed same
      cases same
      rfl
  | range least most =>
      refine (drawInt_always fits.2).mono ?_
      rintro drawn ⟨above, below⟩
      refine ⟨⟨le_trans fits.1 above, below⟩, ?_⟩
      intro fixed impossible
      cases impossible

theorem launchLead_nonneg (type : StressEventType) : 0 ≤ launchLead type := by
  rw [launchLead]
  split <;> decide

structure WindowFits
    (platform : Platform Number Stream) (config : StressEventConfig Number)
    (window : DrawnWindow Number) : Prop where
  uniform : platform.less window.startU platform.zero = false
  nonneg : 0 ≤ window.span
  longest : window.span ≤ maxSpan config

/-- A window before the lengths of its waves are drawn. -/
structure DrawnFits
    (platform : Platform Number Stream) (config : StressEventConfig Number)
    (window : DrawnWindow Number) : Prop
    extends WindowFits platform config window where
  ramp : config.type = .tokenLaunch → window.rampBlocks ≤ window.span
  fixed : ∀ blocks, config.rampBlocks = .fixed blocks →
    window.rampBlocks = blocks

theorem drawWindow_always
    (lawful : Lawful platform) (sound : Sound platform config) :
    Always (drawWindow platform config) (DrawnFits platform config) := by
  have drawn : Always platform.next fun draw =>
        platform.less draw platform.zero = false :=
    lawful.drawn
  refine .bind .trivial fun magnitudeDraw _ => ?_
  refine .bind drawn fun startU uniform => ?_
  refine .bind .trivial fun sideDraw _ => ?_
  refine .bind .trivial fun kappaDraw _ => ?_
  refine .choice fun launches => ?_
  refine .bind .trivial fun flipDraw _ => ?_
  refine .bind .trivial fun recoverDraw _ => ?_
  refine .bind .trivial fun venueDraw _ => ?_
  refine .bind .trivial fun repriceDraw _ => ?_
  refine .bind (drawBlockCount_always sound.ramp) fun ramp rampFits => ?_
  refine .bind (drawBlockCount_always sound.hold) fun hold holdFits => ?_
  refine .bind (drawBlockCount_always sound.decay) fun decay decayFits => ?_
  have lead := launchLead_nonneg config.type
  refine .pure ⟨⟨uniform, ?_, ?_⟩, ?_, rampFits.2⟩
  · dsimp only
    split
    · decide
    · omega
  · dsimp only
    rw [maxSpan]
    split
    · exact le_refl _
    · omega
  · intro isLaunch
    dsimp only
    have notPoint : isPointEvent config.type = false := by
      rw [isLaunch]
      rfl
    rw [notPoint]
    simp only [Bool.false_eq_true, if_false]
    omega

theorem waveLengthFrom_le
    {draw stopProb : Number} {cap : Int} (positive : 1 ≤ cap) :
    waveLengthFrom platform draw stopProb cap ≤ cap := by
  rw [waveLengthFrom]
  split
  · exact min_le_right _ _
  · exact max_le positive (min_le_left _ _)

theorem foldl_max_bounds
    {bound : Int} {lengths : List Int}
    (first : start ≤ bound) (below : ∀ length ∈ lengths, length ≤ bound) :
    start ≤ lengths.foldl max start ∧ lengths.foldl max start ≤ bound := by
  induction lengths generalizing start with
  | nil => exact ⟨le_refl _, first⟩
  | cons length rest ih =>
      have later := ih (max_le first (below length List.mem_cons_self))
          fun other member => below other (List.mem_cons_of_mem _ member)
      exact ⟨le_trans (le_max_left _ _) later.1, later.2⟩

theorem drawWaveLengths_fits
    {stopProb : Number} {uniform : Nat → Number} {blocks : Int}
    (fits : DrawnFits platform config window)
    (isLaunch : config.type = .tokenLaunch)
    (fixed : config.rampBlocks = .fixed blocks) (positive : 1 ≤ blocks) :
    WindowFits platform config
      (drawWaveLengths platform stopProb uniform window) := by
  have cap : window.rampBlocks = blocks := fits.fixed blocks fixed
  have inside := fits.ramp isLaunch
  rw [drawWaveLengths]
  dsimp only
  generalize long :
    List.foldl max (0 : Int) (List.filterMap _ (List.filter _ _)) = longest
  have bounds : 0 ≤ longest ∧ longest ≤ window.rampBlocks := by
    rw [← long]
    refine foldl_max_bounds (by omega) ?_
    intro length member
    rcases List.mem_filterMap.mp member with ⟨launch, kept, found⟩
    rcases List.mem_map.mp (List.mem_filter.mp kept).1 with
      ⟨token, _, rfl⟩
    cases found
    exact waveLengthFrom_le (by omega)
  have longest' := fits.longest
  exact ⟨fits.uniform, by dsimp only; omega, by dsimp only; omega⟩

theorem drawPriceCeilings_fits
    {range : Number × Number} {uniform : Nat → Number}
    (fits : WindowFits platform config window) :
    WindowFits platform config
      (drawPriceCeilings platform range uniform window) :=
  ⟨fits.uniform, fits.nonneg, fits.longest⟩

theorem drawWaves_fits
    {seed : Int} {salt : Nat} (sound : Sound platform config)
    (fits : DrawnFits platform config window) :
    WindowFits platform config
      (drawWaves platform seed salt index config place window) := by
  rw [drawWaves]
  split
  · next isLaunch =>
      dsimp only
      cases stops : config.waveStopProb with
      | none =>
          have timed := fits.toWindowFits
          cases config.wavePriceCeiling with
          | none => exact timed
          | some range => exact drawPriceCeilings_fits timed
      | some stopProb =>
          rcases sound.wave (by rw [stops]; rfl) with
            ⟨blocks, fixed, positive⟩
          have timed : ∀ uniform, WindowFits platform config
              (drawWaveLengths platform stopProb uniform window) :=
            fun _ => drawWaveLengths_fits fits isLaunch fixed positive
          cases config.wavePriceCeiling with
          | none => exact timed _
          | some range => exact drawPriceCeilings_fits (timed _)
  · exact fits.toWindowFits

structure EntryFits
    (platform : Platform Number Stream) (paired : Paired Number)
    (entry : Drawn Number) : Prop where
  config : entry.config = paired.config
  anchor : entry.anchor = paired.anchor
  slots : entry.windows.length = slotsOf paired.lead
  windows : ∀ window ∈ entry.windows, WindowFits platform paired.config window
  uncounted : paired.config.count = none → entry.count = none
  counted : ∀ range ∈ paired.config.count,
    ∃ count, entry.count = some count ∧ 0 ≤ count ∧ count ≤ range.2

theorem drawEntry_always
    {seed : Int} {salt : Nat} {paired : Paired Number}
    (lawful : Lawful platform) (sound : Sound platform paired.config) :
    Always (drawEntry platform seed salt index paired)
      (EntryFits platform paired) := by
  have windows := @Always.mapM _ _ (DrawnFits platform paired.config) Nat
      (fun _ => drawWindow platform paired.config)
      (List.range (slotsOf paired.lead))
      fun _ _ => drawWindow_always lawful sound
  have finish : ∀ count : Option Int,
      (paired.config.count = none → count = none) →
      (∀ range ∈ paired.config.count,
        ∃ drawn, count = some drawn ∧ 0 ≤ drawn ∧ drawn ≤ range.2) →
      Always (do
          let windows ← (List.range (slotsOf paired.lead)).mapM
              fun _ => drawWindow platform paired.config
          return (⟨paired.config, paired.anchor, count, windows.mapIdx
              (drawWaves platform seed salt index paired.config)⟩ :
            Drawn Number))
        (EntryFits platform paired) := by
    intro count uncounted counted
    refine .bind windows fun drawn fits => .pure ?_
    refine ⟨rfl, rfl, ?_, ?_, uncounted, counted⟩
    · rw [List.length_mapIdx, fits.1, List.length_range]
    · intro window member
      rcases List.mem_mapIdx.mp member with ⟨place, inside, rfl⟩
      exact drawWaves_fits sound (fits.2 _ (List.getElem_mem inside))
  rw [drawEntry]
  cases counting : paired.config.count with
  | none =>
      have nothing : Always (pure none : StateM Stream (Option Int))
            fun count => count = none :=
        .pure rfl
      refine .bind nothing fun count same => finish count (fun _ => same) ?_
      intro range found
      rw [counting] at found
      cases found
  | some range =>
      have ordered := sound.count range counting
      have some : Always (some <$> drawInt platform range) fun count =>
            ∃ drawn, count = some drawn ∧ 0 ≤ drawn ∧ drawn ≤ range.2 :=
        .map ((drawInt_always ordered.2).mono fun drawn within =>
          ⟨drawn, rfl, le_trans ordered.1 within.1, within.2⟩)
      refine .bind some fun count drawn => finish count ?_ ?_
      · intro missing
        rw [counting] at missing
        cases missing
      · intro other found
        rw [counting] at found
        cases found
        exact drawn

theorem drawEntries_fit
    {seed : Int} {salt : Nat} {entries : List (Paired Number)}
    (lawful : Lawful platform)
    (sound : ∀ paired ∈ entries, Sound platform paired.config) :
    List.Forall₂ (EntryFits platform) entries
      (drawEntries platform seed salt entries) := by
  have always :=
    @Always.each _ _ _ (drawEntry platform seed salt) (EntryFits platform)
      entries 0 fun _ paired member =>
        drawEntry_always lawful (sound paired member)
  exact always _

end Drawing

/-! ## Placing the windows of one entry -/

/-- Windows which end in time can be laid from here on. -/
def RoomFrom (runBlocks : Int) : Int → List (Int × Int) → Prop
  | laid, [] => laid ≤ runBlocks
  | laid, (start, step) :: later =>
      laid ≤ start ∧ 0 ≤ step ∧ RoomFrom runBlocks (laid + step) later

theorem pullIn_length (runBlocks : Int) (windows : List (Int × Int)) :
    (pullIn runBlocks windows).length = windows.length := by
  induction windows with
  | nil => rfl
  | cons window later ih =>
      rw [pullIn_cons runBlocks window.1 window.2, List.length_cons,
        List.length_cons, ih]

theorem le_pullIn
    {runBlocks laid : Int} {windows : List (Int × Int)}
    (room : RoomFrom runBlocks laid windows) :
    laid ≤ (pullIn runBlocks windows).head?.getD runBlocks ∧
      ∀ start ∈ pullIn runBlocks windows, laid ≤ start := by
  induction windows generalizing laid with
  | nil => exact ⟨room, fun _ member => absurd member List.not_mem_nil⟩
  | cons window later ih =>
      rcases window with ⟨start, step⟩
      rcases room with ⟨above, positive, rest⟩
      have after := ih rest
      have here : laid ≤ min start
            ((pullIn runBlocks later).head?.getD runBlocks - step) :=
        le_min above (by omega)
      rw [pullIn_cons]
      refine ⟨here, ?_⟩
      intro other member
      rcases List.mem_cons.mp member with rfl | old
      · exact here
      · exact le_trans (by omega) (after.2 other old)

/-- A window which ends before some others and before the run does. -/
def EndsBefore (runBlocks finish : Int) (others : List Int) : Prop :=
  finish ≤ runBlocks ∧ ∀ other ∈ others, finish ≤ other

theorem pullIn_spaced
    {runBlocks laid : Int} {windows : List (Int × Int)}
    (room : RoomFrom runBlocks laid windows) {placed : Int}
    (listed : windows[place]? = some (start, step))
    (found : (pullIn runBlocks windows)[place]? = some placed) :
    0 ≤ step ∧ EndsBefore runBlocks (placed + step)
        ((pullIn runBlocks windows).drop (place + 1)) := by
  induction windows generalizing laid place start step placed with
  | nil => cases listed
  | cons window later ih =>
      rcases window with ⟨first, length⟩
      rcases room with ⟨above, positive, rest⟩
      rw [pullIn_cons] at found ⊢
      rw [List.drop_succ_cons]
      cases place with
      | succ place => exact ih rest listed found
      | zero =>
          cases listed
          cases found
          rw [List.drop_zero]
          refine ⟨positive, ?_⟩
          have ends :
              min start ((pullIn runBlocks later).head?.getD runBlocks - step) +
                  step ≤
                (pullIn runBlocks later).head?.getD runBlocks := by
            omega
          cases later with
          | nil => exact ⟨ends, fun _ member => absurd member List.not_mem_nil⟩
          | cons next others =>
              rcases next with ⟨soon, lasting⟩
              have head : (pullIn runBlocks ((soon, lasting) :: others))[0]? =
                    some (min soon
                        ((pullIn runBlocks others).head?.getD runBlocks -
                          lasting)) :=
                rfl
              rcases ih rest rfl head with
                ⟨lasts, inside, before⟩
              rw [pullIn_cons, List.head?_cons, Option.getD_some] at ends
              rw [pullIn_cons] at before ⊢
              refine ⟨?_, ?_⟩
              · refine le_trans ends (le_trans ?_ inside)
                exact le_add_of_nonneg_right lasts
              · intro other member
                refine le_trans ends ?_
                rcases List.mem_cons.mp member with rfl | later
                · exact le_refl _
                · exact le_trans (le_add_of_nonneg_right lasts)
                    (before other later)

theorem stepsOf_cons_cons (gap first second : Int) (others : List Int) :
    stepsOf gap (first :: second :: others) =
      (first + gap) :: stepsOf gap (second :: others) :=
  rfl

theorem stepsOf_length (gap : Int) (reach : List Int) :
    (stepsOf gap reach).length = reach.length := by
  induction reach with
  | nil => rfl
  | cons first rest ih =>
      cases rest with
      | nil => rfl
      | cons second others =>
          rw [stepsOf_cons_cons, List.length_cons, ih,
            List.length_cons, List.length_cons, List.length_cons]

theorem stepsOf_get
    {gap : Int} {reach : List Int}
    (found : (stepsOf gap reach)[place]? = some step) :
    ∃ length, reach[place]? = some length ∧
      step = if place + 1 < reach.length then length + gap else length := by
  induction reach generalizing place with
  | nil => cases found
  | cons first rest ih =>
      cases rest with
      | nil =>
          cases place with
          | zero =>
              cases found
              exact ⟨_, rfl, by simp⟩
          | succ place => cases found
      | cons second others =>
          cases place with
          | zero =>
              cases found
              refine ⟨_, rfl, ?_⟩
              rw [if_pos (by simp)]
          | succ place =>
              rcases ih found with ⟨length, listed, same⟩
              refine ⟨length, listed, ?_⟩
              rw [same]
              simp only [List.length_cons, Nat.add_lt_add_iff_right]

section Occupying

variable {gap longest : Int} {reach : List Int}

theorem stepsOf_nonneg
    (spaced : 0 ≤ gap) (within : ∀ length ∈ reach, 0 ≤ length) :
    ∀ step ∈ stepsOf gap reach, 0 ≤ step := by
  intro step member
  rcases List.mem_iff_getElem?.mp member with ⟨place, found⟩
  rcases stepsOf_get found with ⟨length, listed, rfl⟩
  have above := within length (List.mem_of_getElem? listed)
  split <;> omega

theorem stepsOf_sum_le
    (within : ∀ length ∈ reach, length ≤ longest) (some : reach ≠ []) :
    (stepsOf gap reach).sum ≤
        reach.length * longest + (reach.length - 1) * gap ∧
      (stepsOf gap reach).dropLast.sum ≤
        (reach.length - 1) * (longest + gap) := by
  induction reach with
  | nil => exact absurd rfl some
  | cons first rest ih =>
      have here := within first List.mem_cons_self
      cases rest with
      | nil => simpa [stepsOf] using here
      | cons second others =>
          have later := ih (fun length member =>
                within length (List.mem_cons_of_mem _ member))
              (List.cons_ne_nil _ _)
          have more : stepsOf gap (second :: others) ≠ [] := by
            rw [← List.length_pos_iff, stepsOf_length]
            exact Nat.succ_pos _
          rw [stepsOf_cons_cons, List.dropLast_cons_of_ne_nil more,
            List.sum_cons, List.sum_cons]
          simp only [List.length_cons] at later ⊢
          push_cast at later ⊢
          constructor
          · linarith [later.1]
          · linarith [later.2]

end Occupying

section Laying

variable {platform : Platform Number Stream} {low slack : Number}
    {laid runBlocks : Int} {draws : List Number} {steps : List Int}

theorem layOut_get
    (listed : (layOut platform low slack laid draws steps)[place]? =
        some (start, step)) :
    steps[place]? = some step := by
  induction draws generalizing laid steps place with
  | nil => cases listed
  | cons draw draws ih =>
      cases steps with
      | nil => cases listed
      | cons first rest =>
          cases place with
          | zero =>
              cases listed
              rfl
          | succ place =>
              show rest[place]? = some step
              exact ih listed

theorem layOut_no_steps :
    layOut platform low slack laid draws [] = [] := by
  cases draws <;> rfl

theorem layOut_length :
    (layOut platform low slack laid draws steps).length =
      min draws.length steps.length := by
  induction draws generalizing laid steps with
  | nil =>
      rw [List.length_nil, Nat.zero_min]
      rfl
  | cons draw draws ih =>
      cases steps with
      | nil => rfl
      | cons first rest =>
          rw [layOut, List.length_cons, ih,
            List.length_cons, List.length_cons, Nat.succ_min_succ]

theorem layOut_room
    (lawful : Lawful platform) (above : platform.less low platform.zero = false)
    (loose : platform.less slack platform.zero = false)
    (drawn : ∀ draw ∈ draws, platform.less draw platform.zero = false)
    (positive : ∀ step ∈ steps, 0 ≤ step)
    (fits : laid + steps.sum ≤ runBlocks) :
    RoomFrom runBlocks laid (layOut platform low slack laid draws steps) := by
  have whole : ∀ {rest : List Int}, (∀ step ∈ rest, 0 ≤ step) → 0 ≤ rest.sum :=
    List.sum_nonneg
  induction draws generalizing laid steps with
  | nil =>
      show laid ≤ runBlocks
      have total := whole positive
      omega
  | cons draw draws ih =>
      cases steps with
      | nil =>
          show laid ≤ runBlocks
          simpa using fits
      | cons first rest =>
          rw [List.sum_cons] at fits
          refine ⟨?_, positive first List.mem_cons_self, ?_⟩
          · exact lawful.round _ laid (lawful.add _ _ above
              (lawful.mul _ _ (drawn draw List.mem_cons_self) loose))
          · exact ih (fun other member =>
                  drawn other (List.mem_cons_of_mem _ member))
                (fun step member =>
                  positive step (List.mem_cons_of_mem _ member))
                (by omega)

end Laying

/-! ### An entry with a count -/

/--
A window of a counted entry: it starts within the run, whatever starts with
it and is no longer than its reach ends within the run, and before every
later window, by the gap at least.
-/
structure PlacedWell
    (runBlocks gap : Int) (reach starts : List Int) (place : Nat)
    (placed : Int) : Prop where
  nonneg : 0 ≤ placed
  reached : ∃ length, reach[place]? = some length
  ends : ∀ length ∈ reach[place]?, placed + length ≤ runBlocks
  spaced : ∀ length ∈ reach[place]?, ∀ later other, place < later →
    starts[later]? = some other → placed + length + gap ≤ other

variable {platform : Platform Number Stream}

theorem sortDraws_nonneg
    {draws : List Number}
    (drawn : ∀ draw ∈ draws, platform.less draw platform.zero = false) :
    ∀ draw ∈ sortDraws platform draws,
      platform.less draw platform.zero = false :=
  fun draw member => drawn draw (List.mem_mergeSort.mp member)

/-- What a counted entry needs for its windows to be placed well. -/
structure Placeable
    (platform : Platform Number Stream) (config : StressEventConfig Number)
    (most longest : Int) (reach : List Int) (startUs : List Number) :
    Prop where
  gap : 0 ≤ config.minGapBlocks.getD 0
  window : platform.less config.windowFrac.1 platform.zero = false
  within : ∀ length ∈ reach, 0 ≤ length ∧ length ≤ longest
  few : (reach.length : Int) ≤ most
  uniform : ∀ draw ∈ startUs, platform.less draw platform.zero = false
  lengths : startUs.length = reach.length

theorem layWindows_room
    {config : StressEventConfig Number}
    {most longest runBlocks windowBaseBlocks : Int}
    {reach : List Int} {startUs : List Number}
    (lawful : Lawful platform) (based : 0 < windowBaseBlocks)
    (inside : 0 < runBlocks)
    (placeable : Placeable platform config most longest reach startUs)
    (wide : platform.less (platform.sub (platform.mul config.windowFrac.2
              (platform.ofInt windowBaseBlocks))
            (platform.mul config.windowFrac.1
              (platform.ofInt windowBaseBlocks)))
          (platform.ofInt
            ((most - 1) * (longest + config.minGapBlocks.getD 0))) =
        false)
    (enough :
      most * longest + (most - 1) * config.minGapBlocks.getD 0 ≤ runBlocks) :
    RoomFrom runBlocks 0
      (layWindows platform config windowBaseBlocks reach startUs) := by
  rcases placeable with ⟨spaced, window, within, few, uniform, lengths⟩
  rw [layWindows]
  generalize config.minGapBlocks.getD 0 = gap at *
  by_cases some : reach = []
  · subst some
    rw [stepsOf, layOut_no_steps]
    exact inside.le
  · have one : 1 ≤ (reach.length : Int) := by
      have positive := List.length_pos_iff.mpr some
      omega
    have longestNonneg : 0 ≤ longest := by
      rcases List.exists_mem_of_ne_nil reach some with ⟨length, member⟩
      exact le_trans (within length member).1 (within length member).2
    rcases @stepsOf_sum_le gap longest reach
      (fun length member => (within length member).2) some with
      ⟨occupied, spread⟩
    refine layOut_room lawful
      (lawful.mul _ _ window (lawful.ofInt _ based.le)) ?_
      (sortDraws_nonneg uniform)
      (stepsOf_nonneg spaced fun length member => (within length member).1)
      ?_
    · refine lawful.sub _ _ (lawful.lower _ _ _ ?_ wide)
      refine le_trans spread ?_
      exact mul_le_mul_of_nonneg_right (by omega) (by omega)
    · rw [Int.zero_add]
      refine le_trans occupied (le_trans ?_ enough)
      exact add_le_add (mul_le_mul_of_nonneg_right few longestNonneg)
        (mul_le_mul_of_nonneg_right (by omega) spaced)

theorem placeWindows_ok
    {config : StressEventConfig Number}
    {followers : List (StressEventConfig Number)}
    {most runBlocks windowBaseBlocks : Int}
    {reach starts : List Int} {startUs : List Number}
    (lawful : Lawful platform) (based : 0 < windowBaseBlocks)
    (inside : 0 < runBlocks)
    (placeable :
      Placeable platform config most (longestOf config followers) reach startUs)
    (done : placeWindows platform index config most followers runBlocks
          windowBaseBlocks reach startUs =
        .ok starts) :
    ∀ place placed, starts[place]? = some placed →
      PlacedWell runBlocks (config.minGapBlocks.getD 0) reach starts place
        placed := by
  simp only [placeWindows, bind_eq_ok, require_eq_ok, pure_eq_ok] at done
  rcases done with ⟨_, wide, _, enough, rfl⟩
  have room := layWindows_room lawful based inside placeable wide enough
  intro place placed found
  have listed : ∃ window,
      (layWindows platform config windowBaseBlocks reach startUs)[place]? =
        some window := by
    have shorter := (List.getElem?_eq_some_iff.mp found).1
    rw [pullIn_length] at shorter
    exact ⟨_, List.getElem?_eq_getElem shorter⟩
  rcases listed with ⟨⟨start, step⟩, listed⟩
  rcases pullIn_spaced room listed found with ⟨_, ends, before⟩
  rcases stepsOf_get (layOut_get listed) with ⟨length, reached, occupied⟩
  have gap := placeable.gap
  have covered : length ≤ step := by
    rw [occupied]
    split <;> omega
  refine ⟨(le_pullIn room).2 placed (List.mem_of_getElem? found),
    ⟨length, reached⟩, ?_, ?_⟩
  · intro other same
    rw [Option.mem_def, reached, Option.some.injEq] at same
    subst same
    omega
  · intro other same later next after foundNext
    rw [Option.mem_def, reached, Option.some.injEq] at same
    subst same
    have notLast : place + 1 < reach.length := by
      have shorter := (List.getElem?_eq_some_iff.mp foundNext).1
      rw [pullIn_length, layWindows, layOut_length, stepsOf_length] at shorter
      omega
    rw [if_pos notLast] at occupied
    have member : next ∈ (pullIn runBlocks
        (layWindows platform config windowBaseBlocks reach
          startUs)).drop (place + 1) := by
      refine List.mem_of_getElem? (i := later - (place + 1)) ?_
      rw [List.getElem?_drop, Nat.add_sub_of_le after]
      exact foundNext
    have finished := before next member
    omega

theorem le_foldl_max (start : Int) (lengths : List Int) :
    start ≤ lengths.foldl max start ∧
      ∀ length ∈ lengths, length ≤ lengths.foldl max start := by
  induction lengths generalizing start with
  | nil => exact ⟨le_refl _, fun _ member => absurd member List.not_mem_nil⟩
  | cons first rest ih =>
      have later := ih (max start first)
      refine ⟨le_trans (le_max_left _ _) later.1, ?_⟩
      intro length member
      rcases List.mem_cons.mp member with rfl | old
      · exact le_trans (le_max_right _ _) later.1
      · exact later.2 length old

theorem windowAt_ok
    {entry : Drawn Number} {window : DrawnWindow Number}
    (read : windowAt entry place = .ok window) :
    entry.windows[place]? = some window := by
  rw [windowAt] at read
  split at read
  · cases read
  · next found =>
      cases read
      exact found

theorem reachOf_ok
    {followers : List (Drawn Number)}
    {window : DrawnWindow Number} {length : Int}
    (done : reachOf followers place window = .ok length) :
    window.span ≤ length ∧
      (∀ follower ∈ followers, ∀ other ∈ follower.windows[place]?,
        other.span ≤ length) ∧
      ∀ longest, window.span ≤ longest →
        (∀ follower ∈ followers, ∀ other ∈ follower.windows,
          other.span ≤ longest) →
        length ≤ longest := by
  simp only [reachOf, bind_eq_ok, pure_eq_ok, mapM_eq_ok] at done
  rcases done with ⟨members, read, rfl⟩
  have covers :=
    le_foldl_max window.span (members.map fun member => member.span)
  refine ⟨covers.1, ?_, ?_⟩
  · intro follower member other found
    rcases List.mem_iff_getElem?.mp member with ⟨index, listed⟩
    rcases List.forall₂_iff_get.mp read with ⟨lengths, each⟩
    rcases List.getElem?_eq_some_iff.mp listed with ⟨inside, rfl⟩
    have here := windowAt_ok (each index inside (lengths ▸ inside))
    simp only [List.get_eq_getElem] at here
    rw [Option.mem_def, here, Option.some.injEq] at found
    refine covers.2 other.span (List.mem_map.mpr ⟨other, ?_, rfl⟩)
    rw [← found]
    exact List.getElem_mem _
  · intro longest first others
    refine (foldl_max_bounds first ?_).2
    intro span member
    rcases List.mem_map.mp member with ⟨other, listed, rfl⟩
    rcases List.mem_iff_getElem?.mp listed with ⟨index, found⟩
    rcases List.getElem?_eq_some_iff.mp found with ⟨inside, rfl⟩
    rcases List.forall₂_iff_get.mp read with ⟨lengths, each⟩
    have here := windowAt_ok (each index (lengths ▸ inside) inside)
    exact others _ (List.getElem_mem (lengths ▸ inside)) _
      (List.mem_of_getElem? here)

theorem maxSpan_le_longestOf
    {config : StressEventConfig Number}
    {followers : List (StressEventConfig Number)} :
    maxSpan config ≤ longestOf config followers ∧ ∀ follower ∈ followers,
        maxSpan follower ≤ longestOf config followers := by
  have covers := le_foldl_max (maxSpan config) (followers.map maxSpan)
  exact ⟨covers.1, fun follower member =>
      covers.2 _ (List.mem_map.mpr ⟨follower, member, rfl⟩)⟩

/-- The windows which a drawn entry has, and their configuration. -/
structure Ready (platform : Platform Number Stream) (entry : Drawn Number) :
    Prop where
  sound : Sound platform entry.config
  windows : ∀ window ∈ entry.windows, WindowFits platform entry.config window
  counted : ∀ range ∈ entry.config.count,
    ∃ count, entry.count = some count ∧ 0 ≤ count ∧ count ≤ range.2

theorem placeable_of_ready
    {entries : List (Drawn Number)} {entry : Drawn Number}
    {range : Int × Int} {reach : List Int} (ready : Ready platform entry)
    (others : ∀ other ∈ entries, Ready platform other)
    (counted : entry.config.count = some range)
    (reached :
      each (reachOf (followersOf entries index)) 0 entry.opened = .ok reach) :
    Placeable platform entry.config range.2 (longestOf entry.config
        ((followersOf entries index).map (·.config)))
      reach (entry.opened.map (·.startU)) := by
  have opened : ∀ window ∈ entry.opened,
      WindowFits platform entry.config window :=
    fun window member => ready.windows window (List.mem_of_mem_take member)
  have lengths := each_length reached
  refine ⟨?_, ?_, ?_, ?_, ?_, ?_⟩
  · cases spacing : entry.config.minGapBlocks with
    | none => exact le_refl _
    | some gap => exact ready.sound.gap gap spacing
  · have above := ready.sound.window.above _ rfl
    simpa [Bound.above, atLeastZero, Platform.zero] using above
  · intro length member
    rcases List.mem_iff_getElem?.mp member with ⟨place, found⟩
    have inside : place < entry.opened.length := by
      rw [← lengths]
      exact (List.getElem?_eq_some_iff.mp found).1
    rcases each_get reached (List.getElem?_eq_getElem inside) with
      ⟨result, listed, computed⟩
    rw [found] at listed
    cases listed
    have fits := opened _ (List.getElem_mem inside)
    rcases reachOf_ok computed with ⟨covers, _, bounded⟩
    refine ⟨le_trans fits.nonneg covers, bounded _ ?_ ?_⟩
    · exact le_trans fits.longest maxSpan_le_longestOf.1
    · intro follower follows other member
      have listed := List.mem_filter.mp follows
      exact le_trans ((others follower listed.1).windows other member).longest
        (maxSpan_le_longestOf.2 _ (List.mem_map.mpr ⟨_, follows, rfl⟩))
  · rcases ready.counted range counted with ⟨count, drawn, nonneg, few⟩
    rw [lengths, Drawn.opened, drawn, Option.getD_some, List.length_take]
    omega
  · intro draw member
    rcases List.mem_map.mp member with ⟨window, listed, rfl⟩
    exact (opened window listed).uniform
  · rw [List.length_map, lengths]

end Eris.Events.Windows
