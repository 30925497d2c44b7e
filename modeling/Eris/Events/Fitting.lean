import Eris.Events.Windows

/-!
# Windows fit the run

The windows of a schedule lie within the run and keep their distance, for
every accepted configuration and whatever is drawn, as long as no single
window is drawn longer than the run.
-/

namespace Eris.Events.Fitting

open Data Draws Extension Parsing Schedule Windows Foundation.Checked
  Foundation.Stateful Foundation.Traversal

variable {Number Stream : Type} {place : Nat}

/-! ## The claims about windows -/

def InsideRun
    (runBlocks : Int) (events : List (List (ResolvedStressEvent Number))) :
    Prop :=
  ∀ entry ∈ events, ∀ event ∈ entry,
    0 ≤ event.startBlock ∧ event.endBlock ≤ runBlocks

def eventAt
    (events : List (List (ResolvedStressEvent Number)))
    (index place : Nat) : Option (ResolvedStressEvent Number) :=
  events[index]?.bind (·[place]?)

def StartsWith
    (configs : List (StressEventConfig Number)) (index member : Nat) : Prop :=
  member = index ∨ ∃ other, configs[member]? = some other ∧
      resolveAnchor configs member other = .ok (some index)

/-- Windows of a counted entry, and those which start with them, end before
the next ones of the entry start, by the configured gap. -/
def KeepGap
    (configs : List (StressEventConfig Number))
    (events : List (List (ResolvedStressEvent Number))) : Prop :=
  ∀ index config, configs[index]? = some config → config.count.isSome →
    ∀ member, StartsWith configs index member →
      ∀ place later first second, place < later →
        eventAt events member place = some first →
        eventAt events index later = some second →
        first.endBlock + config.minGapBlocks.getD 0 ≤ second.startBlock

/-- No window which is neither counted nor aligned is drawn longer than the
run. -/
def SinglesFit
    (platform : Platform Number Stream)
    (configs : List (StressEventConfig Number)) (seed : Int)
    (saltWithEventList : Option Bool) (runBlocks : Int) : Prop :=
  ∀ paired, each (pair configs) 0 configs = .ok paired → ∀ entry ∈
        drawEntries platform seed
          (saltOf platform saltWithEventList configs) paired,
      entry.anchor = none → entry.config.count = none →
        ∀ window ∈ entry.windows[0]?, window.span ≤ runBlocks

section Passes

variable {platform : Platform Number Stream}
    {configs : List (StressEventConfig Number)}
    {paired : List (Paired Number)} {entries : List (Drawn Number)}
    {starts aligned : List (List Int)} {runBlocks windowBaseBlocks : Int}

theorem pair_config
    (resolved : each (pair configs) 0 configs = .ok paired) :
    ∀ entry ∈ paired, entry.config ∈ configs := by
  intro entry member
  rcases List.mem_iff_getElem?.mp member with ⟨place, found⟩
  have inside : place < configs.length := by
    rw [← each_length resolved]
    exact (List.getElem?_eq_some_iff.mp found).1
  rcases each_get resolved (List.getElem?_eq_getElem inside) with
    ⟨result, listed, computed⟩
  rw [found] at listed
  cases listed
  simp only [pair, bind_eq_ok, pure_eq_ok] at computed
  rcases computed with ⟨anchor, _, rfl⟩
  exact List.getElem_mem inside

theorem drawEntries_ready
    {seed : Int} {salt : Nat} (lawful : Lawful platform)
    (sound : ∀ config ∈ configs, Sound platform config)
    (resolved : each (pair configs) 0 configs = .ok paired) :
    ∀ entry ∈ drawEntries platform seed salt paired, Ready platform entry := by
  have listed := pair_config resolved
  have fits := @drawEntries_fit _ _ platform seed salt paired lawful
      fun entry member => sound _ (listed entry member)
  rcases List.forall₂_iff_get.mp fits with ⟨lengths, each⟩
  intro entry member
  rcases List.mem_iff_getElem?.mp member with ⟨place, found⟩
  rcases List.getElem?_eq_some_iff.mp found with ⟨inside, rfl⟩
  have here := each place (lengths ▸ inside) inside
  simp only [List.get_eq_getElem] at here
  have config := here.config
  refine ⟨?_, ?_, ?_⟩
  · rw [config]
    exact sound _ (listed _ (List.getElem_mem _))
  · intro window member
    rw [config]
    exact here.windows window member
  · intro range counted
    rw [config] at counted
    exact here.counted range counted

theorem placeEntry_single
    {index : Nat} {entry : Drawn Number} {placed : List Int}
    (alone : entry.anchor = none) (single : entry.config.count = none)
    (done : placeEntry platform entries runBlocks windowBaseBlocks index entry =
        .ok placed) :
    ∃ window start, entry.windows[0]? = some window ∧
      placed = [clampStart runBlocks start window.span] := by
  simp only [placeEntry, alone, single, bind_eq_ok, pure_eq_ok] at done
  rcases done with ⟨window, read, rfl⟩
  exact ⟨window, _, windowAt_ok read, rfl⟩

theorem placeEntry_counted
    {index : Nat} {entry : Drawn Number} {placed : List Int} {range : Int × Int}
    (lawful : Lawful platform) (based : 0 < windowBaseBlocks)
    (inside : 0 < runBlocks) (ready : ∀ other ∈ entries, Ready platform other)
    (listed : entry ∈ entries) (alone : entry.anchor = none)
    (counted : entry.config.count = some range)
    (done : placeEntry platform entries runBlocks windowBaseBlocks index entry =
        .ok placed) :
    ∃ reach,
      each (reachOf (followersOf entries index)) 0 entry.opened = .ok reach ∧
      ∀ place start, placed[place]? = some start →
        PlacedWell runBlocks (entry.config.minGapBlocks.getD 0) reach placed
          place start := by
  simp only [placeEntry, alone, counted, bind_eq_ok] at done
  rcases done with ⟨reach, reached, placedOk⟩
  exact ⟨reach, reached, placeWindows_ok lawful based inside
    (placeable_of_ready (ready entry listed) ready counted reached)
    placedOk⟩

theorem placeEntry_nonneg
    {index : Nat} {entry : Drawn Number} {placed : List Int}
    (lawful : Lawful platform) (based : 0 < windowBaseBlocks)
    (inside : 0 < runBlocks) (ready : ∀ other ∈ entries, Ready platform other)
    (listed : entry ∈ entries)
    (done : placeEntry platform entries runBlocks windowBaseBlocks index entry =
        .ok placed) :
    ∀ start ∈ placed, 0 ≤ start := by
  intro start member
  cases anchored : entry.anchor with
  | some anchor =>
      simp only [placeEntry, anchored, pure_eq_ok] at done
      subst done
      cases member
  | none =>
      cases counting : entry.config.count with
      | none =>
          rcases placeEntry_single anchored counting done with
            ⟨window, block, _, rfl⟩
          rw [List.mem_singleton.mp member]
          exact le_max_left _ _
      | some range =>
          rcases placeEntry_counted lawful based inside ready listed anchored
            counting done with
            ⟨reach, _, well⟩
          rcases List.mem_iff_getElem?.mp member with ⟨place, found⟩
          exact (well place start found).nonneg

theorem alignEntry_follower
    {index anchor : Nat} {placed : Drawn Number × List Int} {moved : List Int}
    (anchored : placed.1.anchor = some anchor)
    (done : alignEntry starts runBlocks index placed = .ok moved) :
    moved = (starts[anchor]?).getD [] ∧
      ∀ (place : Nat) (start : Int), moved[place]? = some start →
        ∀ window ∈ placed.1.windows[place]?,
          start + DrawnWindow.span window ≤ runBlocks := by
  have checks : ∀ place start result,
      alignStart runBlocks index placed.1 place start = .ok result →
        result = start ∧ ∀ window ∈ placed.1.windows[place]?,
            start + DrawnWindow.span window ≤ runBlocks := by
    intro place start result computed
    simp only [alignStart, bind_eq_ok, require_eq_ok, pure_eq_ok] at computed
    rcases computed with ⟨window, read, _, fits, rfl⟩
    refine ⟨rfl, fun other found => ?_⟩
    rw [Option.mem_def, windowAt_ok read, Option.some.injEq] at found
    rw [← found]
    exact fits
  simp only [alignEntry, anchored] at done
  have same := each_eq_self (fun place start result computed =>
      (checks place start result computed).1) done
  refine ⟨same, ?_⟩
  intro place start found
  rw [same] at found
  rcases each_get done found with ⟨result, _, computed⟩
  rw [Nat.zero_add] at computed
  exact (checks place start result computed).2

/-- What the passes of the constructor computed for one entry. -/
structure EntryPassed
    (platform : Platform Number Stream) (entries : List (Drawn Number))
    (starts : List (List Int)) (runBlocks windowBaseBlocks : Int)
    (index : Nat) (entry : Drawn Number) (moved : List Int) : Prop where
  listed : entries[index]? = some entry
  placed : ∃ placed, starts[index]? = some placed ∧
    placeEntry platform entries runBlocks windowBaseBlocks index entry =
      .ok placed ∧
    alignEntry starts runBlocks index (entry, placed) = .ok moved

theorem entryPassed
    {index : Nat} {entry : Drawn Number} {moved : List Int}
    (places : each (placeEntry platform entries runBlocks windowBaseBlocks) 0
          entries =
        .ok starts)
    (aligns :
      each (alignEntry starts runBlocks) 0 (entries.zip starts) = .ok aligned)
    (listed : entries[index]? = some entry)
    (found : aligned[index]? = some moved) :
    EntryPassed platform entries starts runBlocks windowBaseBlocks index
      entry moved := by
  rcases each_get places listed with ⟨placed, here, placedOk⟩
  have both : (entries.zip starts)[index]? = some (entry, placed) := by
    rw [List.getElem?_zip_eq_some]
    exact ⟨listed, here⟩
  rcases each_get aligns both with ⟨result, there, alignedOk⟩
  rw [found] at there
  cases there
  rw [Nat.zero_add] at placedOk alignedOk
  exact ⟨listed, placed, here, placedOk, alignedOk⟩

theorem EntryPassed.unmoved
    {index : Nat} {entry : Drawn Number} {moved : List Int}
    (passed :
      EntryPassed platform entries starts runBlocks windowBaseBlocks index
        entry moved)
    (alone : entry.anchor = none) :
    starts[index]? = some moved ∧
      placeEntry platform entries runBlocks windowBaseBlocks index entry =
        .ok moved := by
  rcases passed.placed with ⟨placed, here, placedOk, alignedOk⟩
  simp only [alignEntry, alone, pure_eq_ok] at alignedOk
  rw [← alignedOk]
  exact ⟨here, placedOk⟩

theorem EntryPassed.followed
    {index anchor : Nat} {entry : Drawn Number} {moved : List Int}
    (passed :
      EntryPassed platform entries starts runBlocks windowBaseBlocks index
        entry moved)
    (anchored : entry.anchor = some anchor) :
    moved = (starts[anchor]?).getD [] ∧
      ∀ (place : Nat) (start : Int), moved[place]? = some start →
        ∀ window ∈ entry.windows[place]?,
          start + DrawnWindow.span window ≤ runBlocks := by
  rcases passed.placed with ⟨placed, _, _, alignedOk⟩
  exact alignEntry_follower anchored alignedOk

theorem EntryPassed.nonneg
    {index : Nat} {entry : Drawn Number} {moved : List Int}
    (lawful : Lawful platform) (based : 0 < windowBaseBlocks)
    (inside : 0 < runBlocks) (ready : ∀ other ∈ entries, Ready platform other)
    (places : each (placeEntry platform entries runBlocks windowBaseBlocks) 0
          entries =
        .ok starts)
    (passed :
      EntryPassed platform entries starts runBlocks windowBaseBlocks index
        entry moved) :
    ∀ start ∈ moved, 0 ≤ start := by
  cases anchored : entry.anchor with
  | none =>
      exact placeEntry_nonneg lawful based inside ready
        (List.mem_of_getElem? passed.listed) (passed.unmoved anchored).2
  | some anchor =>
      rw [(passed.followed anchored).1]
      cases found : starts[anchor]? with
      | none => exact fun _ member => absurd member List.not_mem_nil
      | some placed =>
          have shorter : anchor < entries.length := by
            rw [← each_length places]
            exact (List.getElem?_eq_some_iff.mp found).1
          rcases each_get places (List.getElem?_eq_getElem shorter) with
            ⟨result, here, placedOk⟩
          rw [found] at here
          cases here
          exact placeEntry_nonneg lawful based inside ready
            (List.getElem_mem shorter) placedOk

theorem eventAt_resolved
    {index : Nat} {event : ResolvedStressEvent Number}
    (found : eventAt (List.zipWith resolveEntry entries aligned) index place =
        some event) :
    ∃ entry moved window start,
      entries[index]? = some entry ∧ aligned[index]? = some moved ∧
        entry.windows[place]? = some window ∧
        moved[place]? = some start ∧
        event.startBlock = start ∧ event.endBlock = start + window.span := by
  rcases Option.bind_eq_some_iff.mp found with ⟨events, listed, here⟩
  rcases List.getElem?_zipWith_eq_some.mp listed with
    ⟨entry, moved, isEntry, isMoved, rfl⟩
  rcases List.getElem?_zipWith_eq_some.mp here with
    ⟨window, start, isWindow, isStart, rfl⟩
  exact
    ⟨entry, moved, window, start, isEntry, isMoved, isWindow, isStart, rfl, rfl⟩

end Passes

/-! ## Whole schedules -/

section Schedules

variable {platform : Platform Number Stream}
    {configs : List (StressEventConfig Number)}
    {seed runBlocks windowBaseBlocks : Int} {saltWithEventList : Option Bool}
    {events : List (List (ResolvedStressEvent Number))}
    {paired : List (Paired Number)} {entries : List (Drawn Number)}
    {starts : List (List Int)}
    {index : Nat} {entry : Drawn Number} {moved : List Int}
    {window : DrawnWindow Number}

theorem run_of_schedule
    (built : eventSchedule platform configs seed runBlocks windowBaseBlocks
          saltWithEventList =
        .ok events) :
    0 < windowBaseBlocks ∧ 0 < runBlocks := by
  simp only [eventSchedule, checkRun, bind_eq_ok, require_eq_ok] at built
  rcases built with ⟨_, ⟨_, _, _, based, _⟩, _⟩
  exact ⟨based.1, lt_of_lt_of_le based.1 based.2⟩

theorem clampStart_add_le_iff {start span : Int} :
    clampStart runBlocks start span + span ≤ runBlocks ↔ span ≤ runBlocks := by
  rw [clampStart]
  constructor
  · intro ends
    have above := le_max_left 0 (min start (max 0 (runBlocks - span)))
    omega
  · intro fits
    omega

theorem reach_covers
    {reach : List Int} {length : Int}
    (reached :
      each (reachOf (followersOf entries index)) 0 entry.opened = .ok reach)
    (found : reach[place]? = some length) :
    (∀ window ∈ entry.windows[place]?, DrawnWindow.span window ≤ length) ∧
      ∀ follower ∈ entries, follower.anchor = some index →
        ∀ window ∈ follower.windows[place]?,
          DrawnWindow.span window ≤ length := by
  have inside : place < entry.opened.length := by
    rw [← each_length reached]
    exact (List.getElem?_eq_some_iff.mp found).1
  have listed : entry.opened[place]? = some entry.opened[place] :=
    List.getElem?_eq_getElem inside
  rcases each_get reached listed with ⟨result, here, computed⟩
  rw [found] at here
  cases here
  rw [Nat.zero_add] at computed
  rcases reachOf_ok computed with ⟨covers, others, _⟩
  constructor
  · intro window isWindow
    have same : entry.windows[place]? = some entry.opened[place] := by
      rw [← listed, Drawn.opened, List.getElem?_take_of_lt]
      rw [Drawn.opened, List.length_take] at inside
      exact lt_of_lt_of_le inside (min_le_left _ _)
    rw [Option.mem_def, same, Option.some.injEq] at isWindow
    rw [← isWindow]
    exact covers
  · intro follower member follows window isWindow
    refine others follower ?_ window isWindow
    exact List.mem_filter.mpr ⟨member, decide_eq_true follows⟩

/-- A window ends within the run, unless it is a single one which is too
long. -/
theorem EntryPassed.ends
    {start : Int} (lawful : Lawful platform) (based : 0 < windowBaseBlocks)
    (inside : 0 < runBlocks) (ready : ∀ other ∈ entries, Ready platform other)
    (passed :
      EntryPassed platform entries starts runBlocks windowBaseBlocks index
        entry moved)
    (single : entry.anchor = none → entry.config.count = none →
      ∀ window ∈ entry.windows[0]?, DrawnWindow.span window ≤ runBlocks)
    (isWindow : entry.windows[place]? = some window)
    (isStart : moved[place]? = some start) :
    start + window.span ≤ runBlocks := by
  cases anchored : entry.anchor with
  | some anchor =>
      exact (passed.followed anchored).2 place start isStart window isWindow
  | none =>
      have placedOk := (passed.unmoved anchored).2
      have member := List.mem_of_getElem? passed.listed
      cases counting : entry.config.count with
      | none =>
          rcases placeEntry_single anchored counting placedOk with
            ⟨first, block, isFirst, rfl⟩
          cases place with
          | succ place => cases isStart
          | zero =>
              cases isStart
              rw [isFirst, Option.some.injEq] at isWindow
              subst isWindow
              rw [clampStart_add_le_iff]
              exact single anchored counting first isFirst
      | some range =>
          rcases placeEntry_counted lawful based inside ready member anchored
            counting placedOk with
            ⟨reach, reached, well⟩
          have here := well place start isStart
          rcases here.reached with ⟨length, found⟩
          have covers := (reach_covers reached found).1 window isWindow
          have ends := here.ends length found
          omega

theorem EntryPassed.spaced
    {member later : Nat} {first second : Int}
    {other : Drawn Number} {moved' : List Int} {range : Int × Int}
    (lawful : Lawful platform) (based : 0 < windowBaseBlocks)
    (inside : 0 < runBlocks) (ready : ∀ other ∈ entries, Ready platform other)
    (passed :
      EntryPassed platform entries starts runBlocks windowBaseBlocks index
        entry moved)
    (alone : entry.anchor = none) (counted : entry.config.count = some range)
    (passed' :
      EntryPassed platform entries starts runBlocks windowBaseBlocks member
        other moved')
    (starting : member = index ∨ other.anchor = some index)
    (isWindow : other.windows[place]? = some window)
    (isFirst : moved'[place]? = some first)
    (isSecond : moved[later]? = some second) (ordered : place < later) :
    first + window.span + entry.config.minGapBlocks.getD 0 ≤ second := by
  have unmoved := passed.unmoved alone
  rcases placeEntry_counted lawful based inside ready
    (List.mem_of_getElem? passed.listed) alone counted unmoved.2 with
    ⟨reach, reached, well⟩
  have together : moved[place]? = some first ∧
      ∀ length, reach[place]? = some length → window.span ≤ length := by
    rcases starting with rfl | follows
    · have sameEntry := passed.listed.symm.trans passed'.listed
      cases sameEntry
      have sameStarts := unmoved.1.symm.trans (passed'.unmoved alone).1
      cases sameStarts
      exact ⟨isFirst, fun length found =>
          (reach_covers reached found).1 window isWindow⟩
    · have followed := (passed'.followed follows).1
      rw [unmoved.1, Option.getD_some] at followed
      subst followed
      exact ⟨isFirst, fun length found =>
          (reach_covers reached found).2 other
            (List.mem_of_getElem? passed'.listed) follows window isWindow⟩
  have here := well place first together.1
  rcases here.reached with ⟨length, found⟩
  have covers := together.2 length found
  have gapped := here.spaced length found later second ordered isSecond
  omega

theorem alone_of_counted
    (sound : Sound platform entry.config)
    (resolved : resolveAnchor configs index entry.config = .ok entry.anchor)
    (counted : entry.config.count.isSome) :
    entry.anchor = none := by
  rw [resolveAnchor, sound.alone counted] at resolved
  exact (Except.ok.inj resolved).symm

/-- A schedule which was built, with what its passes computed. -/
structure Built
    (platform : Platform Number Stream)
    (configs : List (StressEventConfig Number))
    (runBlocks windowBaseBlocks : Int) (entries : List (Drawn Number))
    (starts aligned : List (List Int)) : Prop where
  lawful : Lawful platform
  based : 0 < windowBaseBlocks
  inside : 0 < runBlocks
  ready : ∀ entry ∈ entries, Ready platform entry
  entered : ∀ index entry, entries[index]? = some entry →
    configs[index]? = some entry.config ∧
      resolveAnchor configs index entry.config = .ok entry.anchor
  places :
    each (placeEntry platform entries runBlocks windowBaseBlocks) 0 entries =
      .ok starts
  aligns :
    each (alignEntry starts runBlocks) 0 (entries.zip starts) = .ok aligned

section Whole

variable
    {aligned : List (List Int)}
    (built : Built platform configs runBlocks windowBaseBlocks entries starts
        aligned)
include built

theorem Built.passed
    (listed : entries[index]? = some entry)
    (found : aligned[index]? = some moved) :
    EntryPassed platform entries starts runBlocks windowBaseBlocks index
      entry moved :=
  entryPassed built.places built.aligns listed found

theorem Built.keepGap :
    KeepGap configs (List.zipWith resolveEntry entries aligned) := by
  intro index config listed counted member starting place later first second
    ordered isFirst isSecond
  rcases eventAt_resolved isFirst with
    ⟨other, moved', window, start, isOther, isMoved', isWindow, isStart, _,
      ends⟩
  rcases eventAt_resolved isSecond with
    ⟨entry, moved, _, next, isEntry, isMoved, _, isNext, begins, _⟩
  have drawn := built.entered index entry isEntry
  rw [listed, Option.some.injEq] at drawn
  rcases drawn with ⟨rfl, resolved⟩
  have alone := alone_of_counted
      (built.ready entry (List.mem_of_getElem? isEntry)).sound resolved
      counted
  rcases Option.isSome_iff_exists.mp counted with ⟨range, isRange⟩
  have follows : member = index ∨ other.anchor = some index := by
    rcases starting with same | ⟨config, isConfig, anchored⟩
    · exact .inl same
    · have drawn' := built.entered member other isOther
      rw [isConfig, Option.some.injEq] at drawn'
      rcases drawn' with ⟨rfl, resolved'⟩
      rw [anchored] at resolved'
      exact .inr (Except.ok.inj resolved').symm
  rw [ends, begins]
  exact (built.passed isEntry isMoved).spaced built.lawful built.based
    built.inside built.ready alone isRange
    (built.passed isOther isMoved') follows isWindow isStart isNext ordered

theorem Built.insideRun
    (singles : ∀ entry ∈ entries, entry.anchor = none →
      entry.config.count = none →
        ∀ window ∈ entry.windows[0]?, DrawnWindow.span window ≤ runBlocks) :
    InsideRun runBlocks (List.zipWith resolveEntry entries aligned) := by
  intro events member event isEvent
  rcases List.mem_iff_getElem?.mp member with ⟨index, listed⟩
  rcases List.mem_iff_getElem?.mp isEvent with ⟨place, found⟩
  have here : eventAt (List.zipWith resolveEntry entries aligned) index place =
      some event := by
    rw [eventAt, listed]
    exact found
  rcases eventAt_resolved here with
    ⟨entry, moved, window, start, isEntry, isMoved, isWindow, isStart,
      begins, ends⟩
  have passed := built.passed isEntry isMoved
  rw [begins, ends]
  exact ⟨passed.nonneg built.lawful built.based built.inside built.ready
      built.places start (List.mem_of_getElem? isStart),
    passed.ends built.lawful built.based built.inside built.ready
      (singles entry (List.mem_of_getElem? isEntry)) isWindow isStart⟩

theorem Built.single_fits
    (within : InsideRun runBlocks (List.zipWith resolveEntry entries aligned))
    (member : entry ∈ entries) (alone : entry.anchor = none)
    (single : entry.config.count = none)
    (isWindow : entry.windows[0]? = some window) :
    window.span ≤ runBlocks := by
  rcases List.mem_iff_getElem?.mp member with ⟨index, listed⟩
  have shorter : index < aligned.length := by
    rw [each_length built.aligns, List.length_zip,
      each_length built.places, min_self]
    exact (List.getElem?_eq_some_iff.mp listed).1
  have found : aligned[index]? = some aligned[index] :=
    List.getElem?_eq_getElem shorter
  have placedOk := ((built.passed listed found).unmoved alone).2
  rcases placeEntry_single alone single placedOk with
    ⟨first, block, isFirst, placed⟩
  rw [isWindow, Option.some.injEq] at isFirst
  subst isFirst
  have resolved : (List.zipWith resolveEntry entries aligned)[index]? =
        some (resolveEntry entry aligned[index]) :=
    List.getElem?_zipWith_eq_some.mpr ⟨_, _, listed, found, rfl⟩
  have event : resolveWindow entry.config window
        (clampStart runBlocks block window.span) ∈
      resolveEntry entry aligned[index] := by
    refine List.mem_of_getElem? (i := 0) ?_
    rw [placed]
    exact List.getElem?_zipWith_eq_some.mpr ⟨_, _, isWindow, rfl, rfl⟩
  have ends := (within _ (List.mem_of_getElem? resolved) _ event).2
  exact clampStart_add_le_iff.mp ends

end Whole

/--
For every accepted list of events, every stream of draws and every run: the
windows of counted entries keep their gap, and all windows lie within the run
exactly when no single window is drawn longer than the run.
-/
theorem windows_fit
    {raws : List (RawEvent Number)} {windowFracBeyondRun : Bool}
    (lawful : Lawful platform)
    (parsed : parseStressEvents platform windowFracBeyondRun raws = .ok configs)
    (built : eventSchedule platform configs seed runBlocks windowBaseBlocks
          saltWithEventList =
        .ok events) :
    (InsideRun runBlocks events ∧ KeepGap configs events) ↔
      SinglesFit platform configs seed saltWithEventList runBlocks := by
  rcases run_of_schedule built with ⟨based, inside⟩
  rcases eventSchedule_eq_ok built with
    ⟨paired, starts, aligned, pairs, places, aligns, rfl⟩
  have whole : Built platform configs runBlocks windowBaseBlocks
        (drawEntries platform seed
          (saltOf platform saltWithEventList configs) paired)
        starts aligned :=
    { lawful, based, inside, places, aligns
      ready := drawEntries_ready lawful (parseStressEvents_sound parsed) pairs
      entered := fun _ _ found => drawEntries_get pairs found }
  constructor
  · rintro ⟨within, _⟩ again repaired entry member alone single window isWindow
    rw [pairs, Except.ok.injEq] at repaired
    subst repaired
    exact whole.single_fits within member alone single isWindow
  · intro singles
    exact ⟨whole.insideRun (singles paired pairs), whole.keepGap⟩

end Schedules

instance
    (runBlocks : Int) (events : List (List (ResolvedStressEvent Number))) :
    Decidable (InsideRun runBlocks events) :=
  inferInstanceAs (Decidable (∀ entry ∈ events, ∀ event ∈ entry,
      0 ≤ event.startBlock ∧ event.endBlock ≤ runBlocks))

theorem rawState_less {first second : ℚ} :
    rawState.less first second = false ↔ second ≤ first := by
  show decide (first < second) = false ↔ _
  rw [decide_eq_false_iff_not, not_lt]

theorem rawState_zero : rawState.zero = 0 := Int.cast_zero

theorem rawState_lawful : Lawful rawState := by
  refine ⟨?_, ?_, ?_, ?_, ?_, ?_, ?_⟩
  · intro stream
    rw [rawState_less, rawState_zero]
    exact div_nonneg (Nat.cast_nonneg _) (by norm_num)
  · intro integer above
    rw [rawState_less, rawState_zero]
    exact Int.cast_nonneg above
  · intro first second
    rw [rawState_less, rawState_less, rawState_less, rawState_zero]
    exact mul_nonneg
  · intro first second
    rw [rawState_less, rawState_less, rawState_less, rawState_zero]
    exact add_nonneg
  · intro first second ordered
    rw [rawState_less] at ordered ⊢
    rw [rawState_zero]
    exact sub_nonneg.mpr ordered
  · intro number least most ordered above
    rw [rawState_less] at above ⊢
    exact le_trans (Int.cast_le.mpr ordered) above
  · intro number integer above
    rw [rawState_less, rawState_zero] at above
    refine Int.le_floor.mpr ?_
    show (integer : ℚ) ≤ number + integer + 1 / 2
    linarith

/-- An event as it is written, a trapezoid and nothing optional. -/
def plainRaw (type : StressEventType) (hold : Int) : RawEvent ℚ where
  type := type
  base := none
  magnitudeRange := some (1 / 10, 3 / 10)
  stable := none
  side := none
  kappaMultRange := none
  persist := none
  repriceAnchor := none
  repriceAnchorProb := none
  flipProb := none
  recoverFrac := none
  trendCorrelation := none
  persistBlocks := none
  venue := none
  tokenCount := none
  liquidityUsdc := none
  waveUsdcMult := none
  dudProb := none
  sellBackFrac := none
  waveStopProb := none
  wavePriceCeiling := none
  windowFrac := some (1 / 10, 1 / 2)
  alignWith := none
  count := none
  minGapBlocks := none
  rampBlocks := some (.fixed 2)
  holdBlocks := some (.fixed hold)
  decayBlocks := some (.fixed 2)

/-- The events of a run of ten blocks, with one spike. -/
def spikeOf (hold : Int) :
    Outcome String
      (List (StressEventConfig ℚ) × List (List (ResolvedStressEvent ℚ))) :=
  match parseStressEvents rawState false [plainRaw .spike hold] with
  | .error failure => .error failure
  | .ok configs =>
      match eventSchedule rawState configs 7 10 10 none with
      | .error _ => .error .panic
      | .ok events => .ok (configs, events)

theorem spikeOf_ok
    {hold : Int}
    {built : List (StressEventConfig ℚ) × List (List (ResolvedStressEvent ℚ))}
    (done : spikeOf hold = .ok built) :
    parseStressEvents rawState false [plainRaw .spike hold] = .ok built.1 ∧
      eventSchedule rawState built.1 7 10 10 none = .ok built.2 := by
  rw [spikeOf] at done
  split at done
  · cases done
  · next configs parsed =>
      split at done
      · cases done
      · next events scheduled =>
          cases done
          exact ⟨parsed, scheduled⟩

theorem windows_fit_for_spike :
    ∃ configs events, eventSchedule rawState configs 7 10 10 none = .ok events ∧
        ((InsideRun 10 events ∧ KeepGap configs events) ↔
          SinglesFit rawState configs 7 none 10) := by
  have computed : (spikeOf 3).toOption.isSome = true := by
    decide +kernel
  rcases Option.isSome_iff_exists.mp computed with ⟨built, done⟩
  rw [toOption_eq_some] at done
  rcases spikeOf_ok done with ⟨parsed, scheduled⟩
  exact
    ⟨built.1, built.2, scheduled, windows_fit rawState_lawful parsed scheduled⟩

/-- A spike of 24 blocks in a run of ten is accepted, and outlasts the run. -/
theorem long_spike_outlasts_run :
    ∃ configs events,
      parseStressEvents rawState false [plainRaw .spike 20] = .ok configs ∧
        eventSchedule rawState configs 7 10 10 none = .ok events ∧
        ¬ InsideRun 10 events := by
  have computed : ((spikeOf 20).toOption.any fun built =>
        decide (¬ InsideRun 10 built.2)) = true := by
    decide +kernel
  rcases (Option.any_eq_true _ _).mp computed with ⟨built, done, outside⟩
  rw [toOption_eq_some] at done
  rcases spikeOf_ok done with ⟨parsed, scheduled⟩
  exact ⟨built.1, built.2, parsed, scheduled, of_decide_eq_true outside⟩

end Eris.Events.Fitting
