import Eris.Events.Schedule

/-!
# Extending a schedule

A schedule whose list of entries and whose run grow keeps the events of the
entries it had, on an unsalted stream and on the same window base, unless
the end of the shorter run held a window back or an appended entry follows
a counted one which was there before.
-/

namespace Eris.Events.Extension

open Data Draws Schedule Foundation.Checked Foundation.Traversal

variable {Number Stream : Type}
  {saved appended : List (StressEventConfig Number)}
  {config : StressEventConfig Number} {index : Nat}
    {type : StressEventType} {seed runBlocks : Int} {salt : Nat}
    {entries : List (Drawn Number)}

/-! ## Anchors -/

theorem hasType_append
    (appended : List (StressEventConfig Number)) (type : StressEventType)
    (listed : index < saved.length) :
    hasType (saved ++ appended) type index = hasType saved type index := by
  unfold hasType
  rw [List.getElem?_append_left listed]

theorem lt_of_hasType
    (typed : hasType saved type index = true) :
    index < saved.length := by
  by_contra beyond
  rw [hasType, List.getElem?_eq_none (not_lt.1 beyond)] at typed
  cases typed

theorem findAnchor_lt
    {anchor : Nat} (found : findAnchor saved index type = some anchor) :
    anchor < saved.length := by
  unfold findAnchor at found
  rcases Option.or_eq_some_iff.1 found with above | ⟨_, below⟩
  · exact lt_of_hasType (List.find?_some above)
  · exact lt_of_hasType (List.find?_some below)

theorem findAnchor_append
    (appended : List (StressEventConfig Number)) {anchor : Nat}
    (listed : index < saved.length)
    (found : findAnchor saved index type = some anchor) :
    findAnchor (saved ++ appended) index type = some anchor := by
  unfold findAnchor at found ⊢
  have above : (List.range index).reverse.find?
        (hasType (saved ++ appended) type) =
      (List.range index).reverse.find? (hasType saved type) := by
    apply List.find?_congr
    intro place member
    apply hasType_append
    rw [List.mem_reverse, List.mem_range] at member
    exact lt_trans member listed
  have below : ((List.range saved.length).filter (index < ·)).find?
        (hasType (saved ++ appended) type) =
      ((List.range saved.length).filter (index < ·)).find?
        (hasType saved type) := by
    apply List.find?_congr
    intro place member
    apply hasType_append
    exact List.mem_range.1 (List.mem_filter.1 member).1
  rw [above, List.length_append, List.range_add, List.filter_append,
    List.find?_append, below]
  rcases Option.or_eq_some_iff.1 found with here | ⟨nothing, here⟩
  · rw [here]
    rfl
  · rw [nothing, here]
    rfl

theorem resolveAnchor_lt
    {anchor : Nat}
    (resolved : resolveAnchor saved index config = .ok (some anchor)) :
    anchor < saved.length := by
  unfold resolveAnchor at resolved
  split at resolved
  · cases resolved
  · split at resolved
    · cases resolved
    · next found =>
        simp only [bind_eq_ok, pure_eq_ok] at resolved
        rcases resolved with ⟨_, _, _, _, same⟩
        cases same
        exact findAnchor_lt found

theorem resolveAnchor_append
    (appended : List (StressEventConfig Number)) {anchor : Option Nat}
    (listed : index < saved.length)
    (resolved : resolveAnchor saved index config = .ok anchor) :
    resolveAnchor (saved ++ appended) index config = .ok anchor := by
  unfold resolveAnchor at resolved ⊢
  split at resolved
  · exact resolved
  · next type aligned =>
      split at resolved
      · cases resolved
      · next place found =>
          rw [findAnchor_append appended listed found]
          dsimp only
          rw [List.getElem?_append_left (findAnchor_lt found)]
          exact resolved

theorem pair_append
    {paired : Paired Number} (listed : index < saved.length)
    (resolved : pair saved index config = .ok paired) :
    pair (saved ++ appended) index config = .ok paired := by
  simp only [pair, bind_eq_ok, pure_eq_ok] at resolved ⊢
  rcases resolved with ⟨anchor, anchorOk, rfl⟩
  refine ⟨anchor, resolveAnchor_append appended listed anchorOk, ?_⟩
  cases anchor with
  | none => rfl
  | some place =>
      rw [Option.bind_some, Option.bind_some,
        List.getElem?_append_left (resolveAnchor_lt anchorOk)]

variable (platform : Platform Number Stream)

/-- The end of the run leaves the windows of an entry where they are. -/
def EndsInside
    (entries : List (Drawn Number)) (runBlocks windowBaseBlocks : Int)
    (index : Nat) (entry : Drawn Number) : Prop :=
  match entry.anchor, entry.config.count with
  | some _, _ => True
  | none, none =>
      ∀ window ∈ entry.windows[0]?,
        startOf platform entry.config windowBaseBlocks window ≤
          max 0 (runBlocks - window.span)
  | none, some _ =>
      ∀ reach, each (reachOf (followersOf entries index)) 0 entry.opened =
            .ok reach →
          ∀ last ∈ (layWindows platform entry.config windowBaseBlocks reach
                (entry.opened.map (·.startU))).getLast?,
            last.1 ≤ runBlocks - last.2

/-- No window of a list is clamped by the end of the run. -/
def NoWindowClamped
    (configs : List (StressEventConfig Number)) (seed : Int)
    (saltWithEventList : Option Bool)
    (runBlocks windowBaseBlocks : Int) : Prop :=
  ∀ paired, each (pair configs) 0 configs = .ok paired → ∀ place ∈
        (drawEntries platform seed
          (saltOf platform saltWithEventList configs) paired).zipIdx,
      EndsInside platform (drawEntries platform seed
          (saltOf platform saltWithEventList configs) paired)
        runBlocks windowBaseBlocks place.2 place.1

/-- No appended entry follows a counted one which was there before. -/
def NoFollowerOfCounted
    (saved appended : List (StressEventConfig Number)) : Prop :=
  ∀ place ∈ appended.zipIdx saved.length, ∀ anchor,
      resolveAnchor (saved ++ appended) place.2 place.1 = .ok anchor →
        ∀ index ∈ anchor, ∀ lead ∈ saved[index]?, lead.count = none

instance
    (entries : List (Drawn Number)) (runBlocks windowBaseBlocks : Int)
    (index : Nat) (entry : Drawn Number) :
    Decidable (EndsInside platform entries runBlocks windowBaseBlocks index
        entry) := by
  unfold EndsInside
  split <;> infer_instance

instance
    (configs : List (StressEventConfig Number)) (seed : Int)
    (saltWithEventList : Option Bool) (runBlocks windowBaseBlocks : Int) :
    Decidable (NoWindowClamped platform configs seed saltWithEventList runBlocks
        windowBaseBlocks) :=
  decidableOfOk _ _

instance (saved appended : List (StressEventConfig Number)) :
    Decidable (NoFollowerOfCounted saved appended) :=
  List.decidableBAll _ _

variable {platform}

theorem drawEntries_map
    (platform : Platform Number Stream) (seed : Int) (salt : Nat) (paired : List (Paired Number)) :
    (drawEntries platform seed salt paired).map
        (fun entry => (entry.config, entry.anchor)) =
      paired.map (fun entry => (entry.config, entry.anchor)) := by
  have keeps : ∀ index entry (stream : Stream),
      (fun drawn : Drawn Number => (drawn.config, drawn.anchor))
          (drawEntry platform seed salt index entry stream).1 =
        (entry.config, entry.anchor) := by
    intro index entry stream
    unfold drawEntry
    cases entry.config.count <;> rfl
  exact each_state_map keeps 0 paired _

theorem drawEntries_get
    {place : Nat} {paired : List (Paired Number)} {entry : Drawn Number}
    (resolved : each (pair saved) 0 saved = .ok paired)
    (drawn : (drawEntries platform seed salt paired)[place]? = some entry) :
    saved[place]? = some entry.config ∧
      resolveAnchor saved place entry.config = .ok entry.anchor := by
  have kept := congrArg (·[place]?) (drawEntries_map platform seed salt paired)
  simp only [List.getElem?_map, drawn, Option.map_some] at kept
  rcases Option.map_eq_some_iff.1 kept.symm with ⟨entered, found, same⟩
  have within : place < saved.length := by
    rw [← each_length resolved]
    exact List.getElem?_eq_some_iff.1 found |>.1
  have listed : saved[place]? = some saved[place] :=
    List.getElem?_eq_getElem within
  rcases each_get resolved listed with ⟨result, here, computed⟩
  rw [found] at here
  cases here
  simp only [pair, bind_eq_ok, pure_eq_ok, Nat.zero_add] at computed
  rcases computed with ⟨anchor, anchored, rfl⟩
  rcases Prod.mk.inj same with ⟨config, anchorSame⟩
  rw [← config, ← anchorSame]
  exact ⟨listed, anchored⟩

theorem drawEntries_append
    {paired longer : List (Paired Number)}
    (resolved : each (pair saved) 0 saved = .ok paired)
    (extended :
      each (pair (saved ++ appended)) 0 (saved ++ appended) = .ok longer) :
    ∃ others, drawEntries platform seed salt longer =
        drawEntries platform seed salt paired ++ others := by
  have agree : ∀ place config result, saved[place]? = some config →
      pair saved (0 + place) config = .ok result → ∀ changed,
          pair (saved ++ appended) (0 + place) config = .ok changed →
            changed = result := by
    intro place config result listed computed changed recomputed
    rw [Nat.zero_add] at computed recomputed
    have within := (List.getElem?_eq_some_iff.1 listed).1
    rw [pair_append within computed] at recomputed
    exact (Except.ok.inj recomputed).symm
  rcases each_prefix agree resolved extended with ⟨others, rfl⟩
  exact each_state_prefix _ _ _ _ _

theorem pullIn_cons
    (runBlocks start step : Int) (later : List (Int × Int)) :
    pullIn runBlocks ((start, step) :: later) =
      min start ((pullIn runBlocks later).head?.getD runBlocks - step) ::
        pullIn runBlocks later :=
  rfl

theorem pullIn_longer
    {longer : Int} {windows : List (Int × Int)}
    (inside : ∀ last ∈ windows.getLast?, last.1 ≤ runBlocks - last.2)
    (grows : runBlocks ≤ longer) :
    pullIn longer windows = pullIn runBlocks windows := by
  induction windows with
  | nil => rfl
  | cons window later ih =>
      rcases window with ⟨start, step⟩
      cases later with
      | nil =>
          have fits : start ≤ runBlocks - step := inside (start, step) rfl
          simp only [pullIn, List.head?_nil, Option.getD_none,
            List.cons.injEq, and_true]
          rw [min_eq_left fits, min_eq_left]
          exact le_trans fits (sub_le_sub_right grows step)
      | cons next rest =>
          have same := ih inside
          rw [pullIn_cons longer start step, same,
            pullIn_cons runBlocks start step]
          rfl

theorem clampStart_longer
    {longer start span : Int} (inside : start ≤ max 0 (runBlocks - span))
    (grows : runBlocks ≤ longer) :
    clampStart longer start span = clampStart runBlocks start span := by
  unfold clampStart
  rw [min_eq_left inside, min_eq_left]
  exact le_trans inside (max_le_max_left 0 (sub_le_sub_right grows span))

theorem followersOf_append
    {others : List (Drawn Number)}
    (unfollowed : ∀ other ∈ others, other.anchor ≠ some index) :
    followersOf (entries ++ others) index = followersOf entries index := by
  unfold followersOf
  rw [List.filter_append, List.append_right_eq_self, List.filter_eq_nil_iff]
  intro other member follows
  exact unfollowed other member (of_decide_eq_true follows)

theorem placeEntry_append
    {others : List (Drawn Number)} {entry : Drawn Number}
    {longer windowBaseBlocks : Int} {starts changed : List Int}
    (grows : runBlocks ≤ longer)
    (inside :
      EndsInside platform entries runBlocks windowBaseBlocks index entry)
    (unfollowed :
      entry.config.count ≠ none → ∀ other ∈ others, other.anchor ≠ some index)
    (placed :
      placeEntry platform entries runBlocks windowBaseBlocks index entry =
        .ok starts)
    (replaced :
      placeEntry platform (entries ++ others) longer windowBaseBlocks index
          entry =
        .ok changed) :
    changed = starts := by
  cases anchored : entry.anchor with
  | some anchor =>
      simp only [placeEntry, anchored, pure_eq_ok] at placed replaced
      rw [← placed, ← replaced]
  | none =>
      cases counted : entry.config.count with
      | none =>
          simp only [placeEntry, anchored, counted, bind_eq_ok,
            pure_eq_ok] at placed replaced
          simp only [EndsInside, anchored, counted] at inside
          rcases placed with ⟨window, read, rfl⟩
          rcases replaced with ⟨again, reread, rfl⟩
          rw [read] at reread
          cases reread
          unfold windowAt at read
          split at read
          · cases read
          · next found =>
              cases read
              rw [clampStart_longer (inside window found) grows]
      | some count =>
          have keeps : entry.config.count ≠ none := by
            rw [counted]
            exact Option.some_ne_none count
          simp only [placeEntry, anchored, counted, placeWindows,
            followersOf_append (unfollowed keeps), bind_eq_ok,
            pure_eq_ok] at placed replaced
          simp only [EndsInside, anchored, counted] at inside
          rcases placed with ⟨reach, reached, _, _, _, _, rfl⟩
          rcases replaced with ⟨again, reagain, _, _, _, _, rfl⟩
          rw [reached] at reagain
          cases reagain
          exact pullIn_longer (inside reach reached) grows

theorem alignEntry_append
    {starts others : List (List Int)} {placed : Drawn Number × List Int}
    {longer : Int} {aligned changed : List Int}
    (anchored : ∀ anchor ∈ placed.1.anchor, anchor < starts.length)
    (moved : alignEntry starts runBlocks index placed = .ok aligned)
    (removed :
      alignEntry (starts ++ others) longer index placed = .ok changed) :
    changed = aligned := by
  have checks : ∀ (blocks : Int) place start result,
      alignStart blocks index placed.1 place start = .ok result →
        result = start := by
    intro blocks place start result computed
    simp only [alignStart, bind_eq_ok, pure_eq_ok] at computed
    rcases computed with ⟨_, _, _, _, same⟩
    exact same.symm
  cases found : placed.1.anchor with
  | none =>
      simp only [alignEntry, found, pure_eq_ok] at moved removed
      rw [← moved, ← removed]
  | some anchor =>
      simp only [alignEntry, found,
        List.getElem?_append_left (anchored anchor found)]
        at moved removed
      rw [each_eq_self (checks runBlocks) moved,
        each_eq_self (checks longer) removed]

/-! ## The extension -/

theorem saltOf_unsalted
    {saltWithEventList : Option Bool}
    (unsalted : isSalted saltWithEventList saved = false) :
    saltOf platform saltWithEventList saved = stressSeedSalt := by
  unfold saltOf
  rw [unsalted]
  rfl

theorem eventSchedule_eq_ok
    {windowBaseBlocks : Int} {saltWithEventList : Option Bool}
    {events : List (List (ResolvedStressEvent Number))}
    (built : eventSchedule platform saved seed runBlocks windowBaseBlocks
          saltWithEventList =
        .ok events) :
    ∃ paired starts aligned, each (pair saved) 0 saved = .ok paired ∧ each
          (placeEntry platform (drawEntries platform seed
              (saltOf platform saltWithEventList saved) paired)
            runBlocks windowBaseBlocks)
          0
          (drawEntries platform seed
            (saltOf platform saltWithEventList saved) paired) =
        .ok starts ∧
      each (alignEntry starts runBlocks) 0 ((drawEntries platform seed
            (saltOf platform saltWithEventList saved) paired).zip starts) =
        .ok aligned ∧
      events = List.zipWith resolveEntry (drawEntries platform seed
            (saltOf platform saltWithEventList saved) paired)
          aligned := by
  simp only [eventSchedule, bind_eq_ok, pure_eq_ok] at built
  rcases built with
    ⟨_, _, paired, pairs, starts, places, aligned, aligns, rfl⟩
  exact ⟨paired, starts, aligned, pairs, places, aligns, rfl⟩

theorem unfollowed_of_noFollower
    {longer : List (Paired Number)} {others : List (Drawn Number)}
    (extended :
      each (pair (saved ++ appended)) 0 (saved ++ appended) = .ok longer)
    (split : drawEntries platform seed salt longer = entries ++ others)
    (sameLength : entries.length = saved.length)
    (unpaired : NoFollowerOfCounted saved appended)
    (listed : saved[index]? = some config) (counted : config.count ≠ none) :
    ∀ other ∈ others, other.anchor ≠ some index := by
  intro other member follows
  rcases List.mem_iff_getElem?.1 member with ⟨offset, found⟩
  have drawn : (drawEntries platform seed salt longer)[saved.length + offset]? =
      some other := by
    rw [split, List.getElem?_append_right (by omega),
      sameLength, Nat.add_sub_cancel_left]
    exact found
  rcases drawEntries_get extended drawn with ⟨entered, resolved⟩
  rw [List.getElem?_append_right (Nat.le_add_right _ _),
    Nat.add_sub_cancel_left] at entered
  have place : (other.config, saved.length + offset) ∈
      appended.zipIdx saved.length := by
    rw [List.mk_mem_zipIdx_iff_le_and_getElem?_sub, Nat.add_sub_cancel_left]
    exact ⟨Nat.le_add_right _ _, entered⟩
  exact counted
    (unpaired _ place _ resolved index (by rw [follows]; rfl) config
      listed)

/--
Appending entries and lengthening the run keeps every event which was
resolved before.
-/
theorem extension_keeps_events
    {seed runBlocks longerBlocks windowBaseBlocks : Int}
    {savedSalting salting : Option Bool}
    {events longer : List (List (ResolvedStressEvent Number))}
    (unsalted : isSalted savedSalting saved = false)
    (stillUnsalted : isSalted salting (saved ++ appended) = false)
    (grows : runBlocks ≤ longerBlocks)
    (inside : NoWindowClamped platform saved seed savedSalting runBlocks
        windowBaseBlocks)
    (unpaired : NoFollowerOfCounted saved appended)
    (built : eventSchedule platform saved seed runBlocks windowBaseBlocks
          savedSalting =
        .ok events)
    (extended : eventSchedule platform (saved ++ appended) seed longerBlocks
          windowBaseBlocks salting =
        .ok longer) :
    events <+: longer ∧ events.flatten <+: longer.flatten := by
  have prefixed : ∃ later, longer = events ++ later := by
    rcases eventSchedule_eq_ok built with
      ⟨paired, starts, aligned, pairs, places, aligns, rfl⟩
    rcases eventSchedule_eq_ok extended with
      ⟨longerPairs, longerStarts, longerAligned, longerPaired, longerPlaces,
        longerAligns, rfl⟩
    have clamped := inside paired pairs
    rw [saltOf_unsalted unsalted] at places aligns clamped ⊢
    rw [saltOf_unsalted stillUnsalted] at longerPlaces longerAligns ⊢
    have grown : ∃ others,
          drawEntries platform seed stressSeedSalt longerPairs =
            drawEntries platform seed stressSeedSalt paired ++ others :=
      drawEntries_append pairs longerPaired
    rcases grown with ⟨others, draws⟩
    have sameLength : (drawEntries platform seed stressSeedSalt paired).length =
        saved.length := by
      have lengths := congrArg List.length
          (drawEntries_map platform seed stressSeedSalt paired)
      rw [List.length_map, List.length_map, each_length pairs] at lengths
      exact lengths
    have placesAgree : ∀ place entry result,
        (drawEntries platform seed stressSeedSalt paired)[place]? = some entry →
          placeEntry platform (drawEntries platform seed stressSeedSalt paired)
              runBlocks windowBaseBlocks (0 + place) entry =
            .ok result →
            ∀ changed, placeEntry platform
                  (drawEntries platform seed stressSeedSalt longerPairs)
                  longerBlocks windowBaseBlocks (0 + place) entry =
                .ok changed →
              changed = result := by
      intro place entry result listed placed changed replaced
      rw [Nat.zero_add] at placed replaced
      rw [draws] at replaced
      have entered := (drawEntries_get pairs listed).1
      refine placeEntry_append grows ?_ ?_ placed replaced
      · exact clamped (entry, place) (List.mk_mem_zipIdx_iff_getElem?.2 listed)
      · intro counted
        exact unfollowed_of_noFollower longerPaired draws sameLength unpaired
          entered counted
    rw [draws] at longerPlaces
    rw [draws] at placesAgree
    rcases each_prefix placesAgree places longerPlaces with
      ⟨moreStarts, rfl⟩
    have alignsAgree : ∀ place entry result,
        ((drawEntries platform seed stressSeedSalt paired).zip
            starts)[place]? = some entry →
          alignEntry starts runBlocks (0 + place) entry = .ok result →
            ∀ changed,
              alignEntry (starts ++ moreStarts) longerBlocks (0 + place) entry =
                .ok changed →
              changed = result := by
      intro place entry result listed moved changed removed
      refine alignEntry_append ?_ moved removed
      intro anchor follows
      have drawn := (List.getElem?_zip_eq_some.1 listed).1
      have resolved := (drawEntries_get pairs drawn).2
      rw [Option.mem_def.1 follows] at resolved
      rw [each_length places, sameLength]
      exact resolveAnchor_lt resolved
    rw [draws, List.zip_append (each_length places).symm] at longerAligns
    rcases each_prefix alignsAgree aligns longerAligns with
      ⟨moreAligned, rfl⟩
    rw [draws, List.zipWith_append]
    · exact ⟨_, rfl⟩
    · rw [each_length aligns, List.length_zip, each_length places, min_self]
  rcases prefixed with ⟨later, rfl⟩
  rw [List.flatten_append]
  exact ⟨List.prefix_append _ _, List.prefix_append _ _⟩

/-- The generator of a raw state over fractions, for lists without waves. -/
def rawState : Platform ℚ Nat where
  ofInt value := value
  add := (· + ·)
  sub := (· - ·)
  mul := (· * ·)
  div := (· / ·)
  power base exponent := base ^ exponent.toNat
  log value := value - 1
  less first second := decide (first < second)
  floor value := ⌊value⌋
  round value := ⌊value + 1 / 2⌋
  half := 1 / 2
  tolerance := 1 / 1000000
  fromSeed seed salt := match salt with
    | .number salt => (seed.toNat ^^^ salt) % 2 ^ 32
    | .text salt => (seed.toNat ^^^ salt.length) % 2 ^ 32
  next (state : Nat) :=
    let drawn : Nat := (1664525 * state + 1013904223) % 2 ^ 32
    ((drawn : ℚ) / 2 ^ 32, drawn)
  configDigest _ := 0

/-- An entry with a drawn hold, and nothing else that is optional. -/
def plainEvent (type : StressEventType) : StressEventConfig ℚ where
  type := type
  base := none
  magnitudeRange := (1 / 10, 3 / 10)
  stable := none
  side := none
  kappaMultRange := none
  persist := none
  repriceAnchor := none
  repriceAnchorProb := none
  flipProb := none
  recoverFrac := none
  trendCorrelation := none
  persistBlocks := none
  venue := none
  tokenCount := none
  liquidityUsdc := none
  waveUsdcMult := none
  dudProb := none
  sellBackFrac := none
  waveStopProb := none
  wavePriceCeiling := none
  windowFrac := (1 / 10, 1 / 2)
  alignWith := none
  count := none
  minGapBlocks := none
  rampBlocks := .fixed 2
  holdBlocks := .range 1 3
  decayBlocks := .fixed 2

/-- One or two whale orders, and a crash. -/
def savedDay : List (StressEventConfig ℚ) :=
  [{ plainEvent .whale with
      count := some (1, 2)
      windowFrac := (1 / 10, 8 / 10) },
    plainEvent .crash]

/-- A pull of liquidity which follows the crash. -/
def appendedDay : List (StressEventConfig ℚ) :=
  [{ plainEvent .liquidityPull with alignWith := some .crash }]

/-- The day keeps its events when its run doubles and the pull joins it. -/
theorem savedDay_keeps_events :
    ∃ events longer, eventSchedule rawState savedDay 7 100 100 (some false) =
          .ok events ∧
        eventSchedule rawState (savedDay ++ appendedDay) 7 200 100
            (some false) =
          .ok longer ∧
        events <+: longer ∧ events.flatten <+: longer.flatten := by
  have built : (eventSchedule rawState savedDay 7 100 100
      (some false)).toOption.isSome = true := by
    decide +kernel
  have extended : (eventSchedule rawState (savedDay ++ appendedDay) 7 200 100
      (some false)).toOption.isSome = true := by
    decide +kernel
  rcases Option.isSome_iff_exists.1 built with ⟨events, builtOk⟩
  rcases Option.isSome_iff_exists.1 extended with ⟨longer, extendedOk⟩
  rw [toOption_eq_some] at builtOk extendedOk
  refine ⟨events, longer, builtOk, extendedOk, ?_⟩
  exact extension_keeps_events (by decide) (by decide) (by decide)
      (by decide +kernel) (by decide +kernel) builtOk extendedOk

end Eris.Events.Extension
