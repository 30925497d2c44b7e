import Eris.Competition.CanonicalJson
import Eris.Competition.LotteryStream
import Eris.Foundation.InsertionMap

/-!
# The schedule of a competition

`core/src/competition/schedule.ts`, `deriveSchedule`.  The hidden set gives
every regime a list of seeds.  The lists are shuffled in the order of the
names of the regimes; then each epoch draws its regime and takes the next
unused seed of it.

Names are elements of a linear order and seeds are rational numbers, of which
a hidden set must use integers only.
-/

namespace Eris.Competition.Schedule

open Foundation Foundation.Json CanonicalJson LotteryStream

variable {Name Stream : Type} [LinearOrder Name]

/-- The seeds of every regime; an object lists each of its keys once. -/
structure HiddenSet (Name : Type) where
  regimes : List (Name × List ℚ)
  distinct : (regimes.map Prod.fst).Nodup

/-- What an epoch replays; no seed is a seed that is undefined. -/
structure EpochPlan (Name : Type) where
  s : ℕ
  regime : Name
  seed : Option ℚ
  deriving DecidableEq

def seedsUnder (entries : List (Name × List ℚ)) (regime : Name) : List ℚ :=
  ((entries.find? (·.1 = regime)).map Prod.snd).getD []

def HiddenSet.names (hidden : HiddenSet Name) : List Name :=
  (hidden.regimes.map Prod.fst).insertionSort (· ≤ ·)

/-- The seeds of a regime are integers, do not repeat and are enough. -/
def checkRegime (seedsOf : Name → List ℚ) (k : ℚ) (regime : Name) :
    Except (Failure Name) Unit :=
  if (seedsOf regime).any (fun seed => !seed.isInt) then
    .error (.notIntegers regime)
  else if (seedsOf regime).toFinset.card ≠ (seedsOf regime).length then
    .error (.repeated regime)
  else if ((seedsOf regime).length : ℚ) < k then
    .error (.tooFew regime (seedsOf regime).length k)
  else
    .ok ()

def checkRegimes (seedsOf : Name → List ℚ) (k : ℚ) :
    List Name → Except (Failure Name) Unit
  | [] => .ok ()
  | regime :: rest => do
      checkRegime seedsOf k regime
      checkRegimes seedsOf k rest

/-- One shuffle per regime, in name order. -/
def shuffleRegimes
    (draw : Draw (Failure Name) Stream) (seedsOf : Name → List ℚ) :
    List Name → Stream → Except (Failure Name) (List (Name × List ℚ) × Stream)
  | [], stream => .ok ([], stream)
  | regime :: rest, stream => do
      let (seeds, stream) ← shuffle draw (seedsOf regime) stream
      let (order, stream) ← shuffleRegimes draw seedsOf rest stream
      .ok ((regime, seeds) :: order, stream)

/-- One draw per epoch; its seed is the next unused one of its regime. -/
def drawEpochs
    (draw : Draw (Failure Name) Stream) (regimes : List Name)
    (order : List (Name × List ℚ)) :
    ℕ → ℕ → (Name → ℕ) → Stream → Except (Failure Name) (List (EpochPlan Name))
  | 0, _, _, _ => .ok []
  | count + 1, s, used, stream => do
      let (place, stream) ← draw regimes.length stream
      let regime := regimes.get place
      let epochs ← drawEpochs draw regimes order count (s + 1)
          (Function.update used regime (used regime + 1)) stream
      .ok (⟨s, regime, (seedsUnder order regime)[used regime]?⟩ :: epochs)

/-- Shuffle the seeds of every regime and draw the epochs. -/
def drawSchedule
    (draw : Draw (Failure Name) Stream) (seedsOf : Name → List ℚ)
    (regimes : List Name) (count : ℕ) (start : Stream) :
    Except (Failure Name) (List (EpochPlan Name)) := do
  let (order, stream) ← shuffleRegimes draw seedsOf regimes start
  drawEpochs draw regimes order count 1 (fun _ => 0) stream

/-- The schedule of a hidden set and a lottery seed, each draw in at most so
many rounds. -/
def deriveSchedule
    (sha256 : Digest) (rounds : ℕ)
    (hidden : HiddenSet Name) (lotterySeed : String) (k : ℚ) :
    Except (Failure Name) (List (EpochPlan Name)) :=
  if hidden.names.length = 0 then
    .error .noRegimes
  else if ¬ (k.isInt ∧ 1 ≤ k) then
    .error (.badCount k)
  else if lotterySeed.length = 0 then
    .error .emptySeed
  else do
    checkRegimes (seedsUnder hidden.regimes) k hidden.names
    drawSchedule (uniformInt sha256 lotterySeed rounds)
      (seedsUnder hidden.regimes) hidden.names k.num.toNat .start

/-! ## The checks -/

variable
  {draw : Draw (Failure Name) Stream} {seedsOf : Name → List ℚ}
  {regimes : List Name} {order : List (Name × List ℚ)}
    {regime : Name} {start stream : Stream} {s : ℕ} {used : Name → ℕ}
    {late : Draw (Failure Name) Stream}

/-- A regime has seeds for so many epochs. -/
structure Supplied (seeds : List ℚ) (k : ℚ) : Prop where
  integers : ∀ seed ∈ seeds, seed.isInt
  distinct : seeds.Nodup
  enough : k ≤ seeds.length

omit [LinearOrder Name] in
theorem checkRegime_ok {k : ℚ} :
    checkRegime seedsOf k regime = .ok () ↔ Supplied (seedsOf regime) k := by
  unfold checkRegime
  have size : (seedsOf regime).toFinset.card = (seedsOf regime).length ↔
      (seedsOf regime).Nodup := by
    rw [List.card_toFinset]
    constructor
    · intro same
      rw [← (List.dedup_sublist _).eq_of_length same]
      exact List.nodup_dedup _
    · intro distinct
      rw [distinct.dedup]
  split
  · rename_i fraction
    simp only [reduceCtorEq, false_iff]
    intro supplied
    rcases List.any_eq_true.1 fraction with ⟨seed, listed, noInteger⟩
    simp [supplied.integers seed listed] at noInteger
  · rename_i integers
    split
    · rename_i repeated
      simp only [reduceCtorEq, false_iff]
      exact fun supplied => repeated (size.2 supplied.distinct)
    · rename_i distinct
      split
      · rename_i short
        simp only [reduceCtorEq, false_iff]
        exact fun supplied => absurd supplied.enough (not_le.2 short)
      · rename_i enough
        simp only [true_iff]
        refine ⟨?_, size.1 (not_not.1 distinct), not_lt.1 enough⟩
        intro seed listed
        by_contra noInteger
        exact integers
          (List.any_eq_true.2 ⟨seed, listed, by simpa using noInteger⟩)

omit [LinearOrder Name] in
theorem checkRegimes_ok {k : ℚ} :
    checkRegimes seedsOf k regimes = .ok () ↔
      ∀ regime ∈ regimes, Supplied (seedsOf regime) k := by
  induction regimes with
  | nil => simp [checkRegimes]
  | cons regime rest ih =>
      rw [List.forall_mem_cons, ← ih, ← checkRegime_ok, checkRegimes]
      cases checkRegime seedsOf k regime with
      | error failure => simp [Bind.bind, Except.bind]
      | ok checked => simp [Bind.bind, Except.bind]

theorem seedsUnder_cons_self
    (regime : Name) (seeds : List ℚ) (rest : List (Name × List ℚ)) :
    seedsUnder ((regime, seeds) :: rest) regime = seeds := by
  simp [seedsUnder]

theorem seedsUnder_cons_other
    {other : Name} (different : other ≠ regime)
    (seeds : List ℚ) (rest : List (Name × List ℚ)) :
    seedsUnder ((other, seeds) :: rest) regime = seedsUnder rest regime := by
  simp [seedsUnder, different]

theorem shuffleRegimes_perm
    (done : shuffleRegimes draw seedsOf regimes start = .ok (order, stream)) :
    ∀ regime ∈ regimes, (seedsUnder order regime).Perm (seedsOf regime) := by
  induction regimes generalizing start order with
  | nil => exact List.forall_mem_nil _
  | cons head rest ih =>
      rcases ok_of_bind done with ⟨⟨seeds, between⟩, shuffled, doneRest⟩
      rcases ok_of_bind doneRest with ⟨⟨orderRest, after⟩, others, last⟩
      cases last
      intro regime listed
      by_cases same : head = regime
      · subst same
        rw [seedsUnder_cons_self]
        exact shuffle_perm shuffled
      · rw [seedsUnder_cons_other same]
        rcases List.mem_cons.1 listed with equal | later
        · exact (same equal.symm).elim
        · exact ih others regime later

theorem drawEpochs_succ
    {count : ℕ} {epochs : List (EpochPlan Name)}
    (done :
      drawEpochs draw regimes order (count + 1) s used stream = .ok epochs) :
    ∃ regime ∈ regimes, ∃ between rest,
      drawEpochs draw regimes order count (s + 1)
          (Function.update used regime (used regime + 1)) between =
        .ok rest ∧
      epochs =
        ⟨s, regime, (seedsUnder order regime)[used regime]?⟩ :: rest := by
  rcases ok_of_bind done with ⟨⟨place, between⟩, -, doneRest⟩
  rcases ok_of_bind doneRest with ⟨rest, others, last⟩
  cases last
  exact ⟨regimes.get place, List.get_mem _ _, between, rest, others, rfl⟩

theorem drawEpochs_numbered
    {count : ℕ} {epochs : List (EpochPlan Name)}
    (done : drawEpochs draw regimes order count s used stream = .ok epochs) :
    epochs.map EpochPlan.s = List.range' s count := by
  induction count generalizing s used stream epochs with
  | zero =>
      cases done
      rfl
  | succ count ih =>
      rcases drawEpochs_succ done with
        ⟨regime, -, between, rest, others, rfl⟩
      rw [List.map_cons, ih others, List.range'_succ]

/-- The seed of an epoch stands in the list of its regime, at a place which
was not used before. -/
theorem drawEpochs_indexed
    {count : ℕ} {epochs : List (EpochPlan Name)}
    (done : drawEpochs draw regimes order count s used stream = .ok epochs) :
    ∀ epoch ∈ epochs, epoch.regime ∈ regimes ∧ ∃ index,
        used epoch.regime ≤ index ∧ index < used epoch.regime + count ∧
          epoch.seed = (seedsUnder order epoch.regime)[index]? := by
  induction count generalizing s used stream epochs with
  | zero =>
      cases done
      exact List.forall_mem_nil _
  | succ count ih =>
      rcases drawEpochs_succ done with
        ⟨regime, known, between, rest, others, rfl⟩
      intro epoch listed
      rcases List.mem_cons.1 listed with rfl | later
      · exact ⟨known, used regime, le_rfl,
          Nat.lt_add_of_pos_right (Nat.succ_pos count), rfl⟩
      · rcases ih others epoch later with
          ⟨knownEpoch, index, unused, bounded, isSeed⟩
        refine ⟨knownEpoch, index, ?_, ?_, isSeed⟩
        · by_cases same : epoch.regime = regime
          · rw [same, Function.update_self] at unused
            rw [same]
            exact (Nat.le_succ _).trans unused
          · rw [Function.update_of_ne same] at unused
            exact unused
        · by_cases same : epoch.regime = regime
          · rw [same, Function.update_self] at bounded
            rw [same]
            omega
          · rw [Function.update_of_ne same] at bounded
            omega

theorem drawEpochs_distinct
    {count : ℕ} {epochs : List (EpochPlan Name)}
    (distinct : ∀ regime ∈ regimes, (seedsUnder order regime).Nodup)
    (enough : ∀ regime ∈ regimes,
        used regime + count ≤ (seedsUnder order regime).length)
    (done : drawEpochs draw regimes order count s used stream = .ok epochs) :
    (epochs.map fun epoch => (epoch.regime, epoch.seed)).Nodup := by
  induction count generalizing s used stream epochs with
  | zero =>
      cases done
      exact List.nodup_nil
  | succ count ih =>
      rcases drawEpochs_succ done with
        ⟨regime, known, between, rest, others, rfl⟩
      rw [List.map_cons, List.nodup_cons]
      constructor
      · intro again
        rcases List.mem_map.1 again with ⟨epoch, listed, equal⟩
        rcases drawEpochs_indexed others epoch listed with
          ⟨-, index, unused, bounded, isSeed⟩
        rw [Prod.mk.injEq] at equal
        rcases equal with ⟨sameRegime, sameSeed⟩
        rw [sameRegime, Function.update_self] at unused bounded
        rw [isSeed, sameRegime] at sameSeed
        have room := enough regime known
        have inside : index < (seedsUnder order regime).length := by
          omega
        have sameIndex :=
          (List.getElem?_inj inside (distinct regime known)).1 sameSeed
        omega
      · apply ih _ others
        intro other listed
        have room := enough other listed
        by_cases same : other = regime
        · rw [same, Function.update_self]
          rw [same] at room
          omega
        · rw [Function.update_of_ne same]
          omega

theorem drawEpochs_initial
    {count larger : ℕ} {short long : List (EpochPlan Name)}
    (fewer : count ≤ larger)
    (done : drawEpochs draw regimes order count s used stream = .ok short)
    (doneLarger :
      drawEpochs draw regimes order larger s used stream = .ok long) :
    short <+: long := by
  induction count generalizing larger s used stream short long with
  | zero =>
      cases done
      exact List.nil_prefix
  | succ count ih =>
      cases larger with
      | zero => cases fewer
      | succ larger =>
          rcases ok_of_bind done with ⟨⟨place, between⟩, drawn, doneRest⟩
          rcases ok_of_bind doneLarger with
            ⟨⟨other, after⟩, drawnLarger, doneLargerRest⟩
          rw [drawn] at drawnLarger
          cases drawnLarger
          rcases ok_of_bind doneRest with ⟨rest, others, last⟩
          rcases ok_of_bind doneLargerRest with
            ⟨restLarger, othersLarger, lastLarger⟩
          cases last
          cases lastLarger
          rw [List.cons_prefix_cons]
          exact ⟨rfl, ih (Nat.le_of_succ_le_succ fewer) others othersLarger⟩

omit [LinearOrder Name] in
theorem shuffleRegimes_extends
    (extension : ∀ bound stream, Extends (Failure.unfinished : Failure Name)
        (draw bound stream) (late bound stream))
    (stream : Stream) :
    Extends (Failure.unfinished : Failure Name)
      (shuffleRegimes draw seedsOf regimes stream)
      (shuffleRegimes late seedsOf regimes stream) := by
  induction regimes generalizing stream with
  | nil => exact Extends.refl _
  | cons regime rest ih =>
      apply Extends.bind
      · exact shuffleDown_extends extension _ _ stream
      · intro shuffled
        apply Extends.bind
        · exact ih shuffled.2
        · exact fun result => Extends.refl _

theorem drawEpochs_extends
    (extension : ∀ bound stream, Extends (Failure.unfinished : Failure Name)
        (draw bound stream) (late bound stream))
    (count s : ℕ) (used : Name → ℕ) (stream : Stream) :
    Extends (Failure.unfinished : Failure Name)
      (drawEpochs draw regimes order count s used stream)
      (drawEpochs late regimes order count s used stream) := by
  induction count generalizing s used stream with
  | zero => exact Extends.refl _
  | succ count ih =>
      apply Extends.bind
      · exact extension regimes.length stream
      · intro drawn
        apply Extends.bind
        · exact ih _ _ drawn.2
        · exact fun epochs => Extends.refl _

theorem drawSchedule_extends
    (extension : ∀ bound stream, Extends (Failure.unfinished : Failure Name)
        (draw bound stream) (late bound stream))
    (count : ℕ) (start : Stream) :
    Extends (Failure.unfinished : Failure Name)
      (drawSchedule draw seedsOf regimes count start)
      (drawSchedule late seedsOf regimes count start) := by
  apply Extends.bind
  · exact shuffleRegimes_extends extension start
  · exact fun shuffled => drawEpochs_extends extension _ _ _ _

/-! ## Draws end -/

omit [LinearOrder Name] in
theorem shuffleRegimes_cutOnly
    (cutOnly : ∀ bound stream, 0 < bound →
        CutOnly (Failure.unfinished : Failure Name) (draw bound stream))
    (stream : Stream) :
    CutOnly (Failure.unfinished : Failure Name)
      (shuffleRegimes draw seedsOf regimes stream) := by
  induction regimes generalizing stream with
  | nil => exact CutOnly.of_ok _
  | cons regime rest ih =>
      apply CutOnly.bind
      · exact shuffleDown_cutOnly cutOnly _ _ stream
      · intro shuffled
        apply CutOnly.bind
        · exact ih shuffled.2
        · exact fun result => CutOnly.of_ok _

theorem drawEpochs_cutOnly
    (cutOnly : ∀ bound stream, 0 < bound →
        CutOnly (Failure.unfinished : Failure Name) (draw bound stream))
    (some : regimes ≠ []) (count s : ℕ) (used : Name → ℕ) (stream : Stream) :
    CutOnly (Failure.unfinished : Failure Name)
      (drawEpochs draw regimes order count s used stream) := by
  induction count generalizing s used stream with
  | zero => exact CutOnly.of_ok _
  | succ count ih =>
      apply CutOnly.bind
      · exact cutOnly _ stream (List.length_pos_iff.2 some)
      · intro drawn
        apply CutOnly.bind
        · exact ih _ _ drawn.2
        · exact fun epochs => CutOnly.of_ok _

theorem drawSchedule_cutOnly
    (cutOnly : ∀ bound stream, 0 < bound →
        CutOnly (Failure.unfinished : Failure Name) (draw bound stream))
    (some : regimes ≠ []) (count : ℕ) (start : Stream) :
    CutOnly (Failure.unfinished : Failure Name)
      (drawSchedule draw seedsOf regimes count start) := by
  apply CutOnly.bind
  · exact shuffleRegimes_cutOnly cutOnly start
  · exact fun shuffled => drawEpochs_cutOnly cutOnly some _ _ _ _

section Finishes

variable {draws : ℕ → Draw (Failure Name) Stream} {property : Stream → Prop}

omit [LinearOrder Name] in
theorem shuffleRegimes_keeps
    (keeps : ∀ bound stream drawn rest,
        property stream → draw bound stream = .ok (drawn, rest) → property rest)
    (holds : property start)
    (done : shuffleRegimes draw seedsOf regimes start = .ok (order, stream)) :
    property stream := by
  induction regimes generalizing start order with
  | nil =>
      cases done
      exact holds
  | cons regime rest ih =>
      rcases ok_of_bind done with ⟨⟨seeds, between⟩, shuffled, doneRest⟩
      rcases ok_of_bind doneRest with ⟨⟨orderRest, after⟩, others, last⟩
      cases last
      exact ih (shuffleDown_keeps keeps holds shuffled) others

variable
  (grows : ∀ rounds more, rounds ≤ more → ∀ bound stream,
      Extends (Failure.unfinished : Failure Name)
        (draws rounds bound stream) (draws more bound stream))
  (finishes : ∀ bound stream, 0 < bound → bound ≤ 2 ^ 32 → property stream →
      Finishes (Failure.unfinished : Failure Name) (draws · bound stream))
  (keeps : ∀ rounds bound stream drawn rest, property stream →
      draws rounds bound stream = .ok (drawn, rest) → property rest)

include grows finishes keeps

omit [LinearOrder Name] in
theorem shuffleRegimes_finishes
    (small : ∀ regime ∈ regimes, (seedsOf regime).length ≤ 2 ^ 32)
    (holds : property start) :
    Finishes (Failure.unfinished : Failure Name)
      (fun rounds => shuffleRegimes (draws rounds) seedsOf regimes start) := by
  induction regimes generalizing start with
  | nil =>
      apply Finishes.of_const
      exact fun equal => nomatch equal
  | cons regime rest ih =>
      rw [List.forall_mem_cons] at small
      apply Finishes.bind
      · apply shuffleDown_finishes grows finishes keeps _ _ holds
        have one : 1 ≤ 2 ^ 32 := Nat.one_le_two_pow
        omega
      · exact fun rounds more later =>
          shuffleDown_extends (grows rounds more later) _ _ _
      · rintro ⟨seeds, between⟩ ⟨rounds, shuffled⟩
        apply Finishes.bind
        · exact ih small.2 (shuffleDown_keeps (keeps rounds) holds shuffled)
        · exact fun rounds more later =>
            shuffleRegimes_extends (grows rounds more later) _
        · intro result reached
          apply Finishes.of_const
          exact fun equal => nomatch equal

theorem drawEpochs_finishes
    (some : regimes ≠ []) (small : regimes.length ≤ 2 ^ 32)
    (count s : ℕ) (used : Name → ℕ) (holds : property stream) :
    Finishes (Failure.unfinished : Failure Name) (fun rounds =>
        drawEpochs (draws rounds) regimes order count s used stream) := by
  induction count generalizing s used stream with
  | zero =>
      apply Finishes.of_const
      exact fun equal => nomatch equal
  | succ count ih =>
      apply Finishes.bind
      · exact finishes regimes.length stream (List.length_pos_iff.2 some) small
          holds
      · exact fun rounds more later => grows rounds more later _ _
      · rintro ⟨place, between⟩ ⟨rounds, drawn⟩
        apply Finishes.bind
        · exact ih _ _ (keeps rounds _ stream place between holds drawn)
        · exact fun rounds more later =>
            drawEpochs_extends (grows rounds more later) _ _ _ _
        · intro result reached
          apply Finishes.of_const
          exact fun equal => nomatch equal

theorem drawSchedule_finishes
    (some : regimes ≠ []) (small : regimes.length ≤ 2 ^ 32)
    (smallSeeds : ∀ regime ∈ regimes, (seedsOf regime).length ≤ 2 ^ 32)
    (count : ℕ) (holds : property start) :
    Finishes (Failure.unfinished : Failure Name) (fun rounds =>
        drawSchedule (draws rounds) seedsOf regimes count start) := by
  apply Finishes.bind
  · exact shuffleRegimes_finishes grows finishes keeps smallSeeds holds
  · exact fun rounds more later =>
      shuffleRegimes_extends (grows rounds more later) _
  · rintro ⟨order, stream⟩ ⟨rounds, shuffled⟩
    exact drawEpochs_finishes grows finishes keeps some small count 1 _
      (shuffleRegimes_keeps (keeps rounds) holds shuffled)

end Finishes

variable
  {sha256 : Digest} {rounds : ℕ} {hidden : HiddenSet Name}
  {lotterySeed : String} {k : ℚ} {epochs : List (EpochPlan Name)}

/-- The checks of a hidden set, a lottery seed and a number of epochs. -/
structure Accepted
    (hidden : HiddenSet Name) (lotterySeed : String) (k : ℚ) : Prop where
  regimes : hidden.names ≠ []
  integer : k.isInt
  positive : 1 ≤ k
  seed : lotterySeed.length ≠ 0
  supplied :
    ∀ regime ∈ hidden.names, Supplied (seedsUnder hidden.regimes regime) k

theorem deriveSchedule_of_accepted
    (accepted : Accepted hidden lotterySeed k) (sha256 : Digest) (rounds : ℕ) :
    deriveSchedule sha256 rounds hidden lotterySeed k =
      drawSchedule (uniformInt sha256 lotterySeed rounds)
        (seedsUnder hidden.regimes) hidden.names k.num.toNat .start := by
  have checked := checkRegimes_ok.2 accepted.supplied
  have listed : ¬ hidden.names.length = 0 :=
    fun empty => accepted.regimes (List.length_eq_zero_iff.1 empty)
  rw [deriveSchedule, if_neg listed,
    if_neg (not_not.2 ⟨accepted.integer, accepted.positive⟩),
    if_neg accepted.seed, checked]
  rfl

theorem accepted_of_ok
    (done : deriveSchedule sha256 rounds hidden lotterySeed k = .ok epochs) :
    Accepted hidden lotterySeed k := by
  rw [deriveSchedule] at done
  split at done
  · cases done
  · rename_i listed
    split at done
    · cases done
    · rename_i count
      split at done
      · cases done
      · rename_i seed
        rcases ok_of_bind done with ⟨checked, supplied, -⟩
        rcases not_not.1 count with ⟨integer, positive⟩
        refine ⟨?_, integer, positive, seed, checkRegimes_ok.1 supplied⟩
        intro empty
        exact listed (List.length_eq_zero_iff.2 empty)

theorem Accepted.count (accepted : Accepted hidden lotterySeed k) :
    (k.num.toNat : ℚ) = k := by
  have positive : 0 ≤ k.num :=
    Rat.num_nonneg.2 (zero_le_one.trans accepted.positive)
  have whole : ((k.num : ℤ) : ℚ) = k := by
    rw [← Rat.den_eq_one_iff]
    simpa [Rat.isInt] using accepted.integer
  calc
    (k.num.toNat : ℚ) = ((k.num.toNat : ℤ) : ℚ) := by push_cast; rfl
    _ = ((k.num : ℤ) : ℚ) := by rw [Int.toNat_of_nonneg positive]
    _ = k := whole

theorem seedsUnder_perm
    {entries others : List (Name × List ℚ)} (perm : others.Perm entries)
    (distinct : (entries.map Prod.fst).Nodup) :
    seedsUnder others = seedsUnder entries := by
  have distinctOthers : (others.map Prod.fst).Nodup :=
    (perm.map Prod.fst).nodup_iff.2 distinct
  have found :
      ∀ regime, others.find? (·.1 = regime) = entries.find? (·.1 = regime) := by
    intro regime
    ext entry
    rw [InsertionMap.find_eq_some distinctOthers,
      InsertionMap.find_eq_some distinct, perm.mem_iff]
  ext regime
  rw [seedsUnder, seedsUnder, found]

theorem names_perm
    {other : HiddenSet Name} (perm : other.regimes.Perm hidden.regimes) :
    other.names = hidden.names := by
  apply List.Perm.eq_of_pairwise
  · exact fun first second _ _ => le_antisymm
  · exact List.pairwise_insertionSort (· ≤ ·) _
  · exact List.pairwise_insertionSort (· ≤ ·) _
  · exact (List.perm_insertionSort _ _).trans
      ((perm.map Prod.fst).trans (List.perm_insertionSort _ _).symm)

theorem deriveSchedule_perm
    {other : HiddenSet Name} (perm : other.regimes.Perm hidden.regimes) :
    deriveSchedule sha256 rounds other lotterySeed k =
      deriveSchedule sha256 rounds hidden lotterySeed k := by
  unfold deriveSchedule
  rw [names_perm perm, seedsUnder_perm perm hidden.distinct]

/-! ## The law of schedules -/

/-- The epochs of a schedule: numbered from one, as many as asked for, each
with a seed of its own regime, and none replayed twice. -/
structure Planned
    (hidden : HiddenSet Name) (k : ℚ) (epochs : List (EpochPlan Name)) :
    Prop where
  count : (epochs.length : ℚ) = k
  numbered : epochs.map EpochPlan.s = List.range' 1 epochs.length
  member : ∀ epoch ∈ epochs, ∃ seeds seed,
      (epoch.regime, seeds) ∈ hidden.regimes ∧ seed ∈ seeds ∧
        epoch.seed = some seed
  distinct : (epochs.map fun epoch => (epoch.regime, epoch.seed)).Nodup

theorem mem_names :
    regime ∈ hidden.names ↔ ∃ seeds, (regime, seeds) ∈ hidden.regimes := by
  rw [HiddenSet.names, List.mem_insertionSort, List.mem_map]
  constructor
  · rintro ⟨entry, listed, rfl⟩
    exact ⟨entry.2, listed⟩
  · rintro ⟨seeds, listed⟩
    exact ⟨(regime, seeds), listed, rfl⟩

theorem seedsUnder_of_mem
    {seeds : List ℚ} (listed : (regime, seeds) ∈ hidden.regimes) :
    seedsUnder hidden.regimes regime = seeds := by
  have found := (InsertionMap.find_eq_some hidden.distinct).2 ⟨listed, rfl⟩
  rw [seedsUnder, found]
  rfl

theorem planned_of_ok
    (done : deriveSchedule sha256 rounds hidden lotterySeed k = .ok epochs) :
    Planned hidden k epochs := by
  have accepted := accepted_of_ok done
  rw [deriveSchedule_of_accepted accepted] at done
  rcases ok_of_bind done with ⟨⟨order, stream⟩, shuffled, drawn⟩
  have shuffledSeeds := shuffleRegimes_perm shuffled
  have numbered := drawEpochs_numbered drawn
  have length : epochs.length = k.num.toNat := by
    have sizes := congrArg List.length numbered
    rw [List.length_map, List.length_range'] at sizes
    exact sizes
  have room : ∀ regime ∈ hidden.names,
      k.num.toNat ≤ (seedsUnder order regime).length := by
    intro regime known
    rw [(shuffledSeeds regime known).length_eq]
    have enough := (accepted.supplied regime known).enough
    rw [← accepted.count] at enough
    exact_mod_cast enough
  refine ⟨?_, ?_, ?_, ?_⟩
  · rw [length]
    exact accepted.count
  · rw [numbered, length]
  · intro epoch listed
    rcases drawEpochs_indexed drawn epoch listed with
      ⟨known, index, -, bounded, isSeed⟩
    rcases mem_names.1 known with ⟨seeds, given⟩
    have inside : index < (seedsUnder order epoch.regime).length := by
      have enough := room epoch.regime known
      omega
    rw [List.getElem?_eq_getElem inside] at isSeed
    refine ⟨seeds, _, given, ?_, isSeed⟩
    rw [← seedsUnder_of_mem given]
    exact (shuffledSeeds epoch.regime known).subset (List.getElem_mem inside)
  · apply drawEpochs_distinct _ _ drawn
    · intro regime known
      exact (shuffledSeeds regime known).nodup_iff.2
        (accepted.supplied regime known).distinct
    · intro regime known
      have enough := room regime known
      omega

example :
    deriveSchedule (fun text => Vector.replicate 32 text.length.toUInt8) 1
        (⟨[(2, [7, 8]), (1, [5, 6])], by decide⟩ : HiddenSet ℕ) "lot" 2 =
      .ok [⟨1, 2, some 7⟩, ⟨2, 2, some 8⟩] := by
  decide

theorem deriveSchedule_extends
    {more : ℕ} (later : rounds ≤ more) :
    Extends (Failure.unfinished : Failure Name)
      (deriveSchedule sha256 rounds hidden lotterySeed k)
      (deriveSchedule sha256 more hidden lotterySeed k) := by
  rw [deriveSchedule, deriveSchedule]
  split
  · exact Extends.refl _
  · split
    · exact Extends.refl _
    · split
      · exact Extends.refl _
      · apply Extends.bind
        · exact Extends.refl _
        · exact fun checked =>
            drawSchedule_extends (uniformInt_extends later) _ _

theorem deriveSchedule_initial
    {more : ℕ} {larger : ℚ} {short long : List (EpochPlan Name)}
    (fewer : k ≤ larger)
    (done : deriveSchedule sha256 rounds hidden lotterySeed k = .ok short)
    (doneLarger :
      deriveSchedule sha256 more hidden lotterySeed larger = .ok long) :
    short <+: long := by
  have accepted := accepted_of_ok done
  have acceptedLarger := accepted_of_ok doneLarger
  have lifted := (deriveSchedule_extends (le_max_left rounds more)).of_ok done
  have liftedLarger :=
    (deriveSchedule_extends (le_max_right rounds more)).of_ok doneLarger
  rw [deriveSchedule_of_accepted accepted] at lifted
  rw [deriveSchedule_of_accepted acceptedLarger] at liftedLarger
  rcases ok_of_bind lifted with ⟨⟨order, stream⟩, shuffled, drawn⟩
  rcases ok_of_bind liftedLarger with
    ⟨⟨orderLarger, streamLarger⟩, shuffledLarger, drawnLarger⟩
  rw [shuffled] at shuffledLarger
  cases shuffledLarger
  apply drawEpochs_initial _ drawn drawnLarger
  have counts : (k.num.toNat : ℚ) ≤ larger.num.toNat := by
    rw [accepted.count, acceptedLarger.count]
    exact fewer
  exact_mod_cast counts

theorem deriveSchedule_cutOnly
    (accepted : Accepted hidden lotterySeed k) :
    CutOnly (Failure.unfinished : Failure Name)
      (deriveSchedule sha256 rounds hidden lotterySeed k) := by
  rw [deriveSchedule_of_accepted accepted]
  exact drawSchedule_cutOnly (uniformInt_cutOnly rounds) accepted.regimes _ _

theorem deriveSchedule_finishes
    (accepted : Accepted hidden lotterySeed k)
    (lively : Lively sha256 lotterySeed)
    (small : hidden.regimes.length ≤ 2 ^ 32)
    (smallSeeds : ∀ entry ∈ hidden.regimes, entry.2.length ≤ 2 ^ 32) :
    Finishes (Failure.unfinished : Failure Name)
      (deriveSchedule sha256 · hidden lotterySeed k) := by
  have drawn : Finishes (Failure.unfinished : Failure Name) (fun rounds =>
          drawSchedule (uniformInt sha256 lotterySeed rounds)
            (seedsUnder hidden.regimes) hidden.names k.num.toNat
            HashStream.start) := by
    apply drawSchedule_finishes
    · exact fun rounds more later => uniformInt_extends later
    · exact uniformInt_finishes lively
    · exact uniformInt_stands
    · exact accepted.regimes
    · rw [HiddenSet.names, List.length_insertionSort, List.length_map]
      exact small
    · intro regime known
      rcases mem_names.1 known with ⟨seeds, given⟩
      rw [seedsUnder_of_mem given]
      exact smallSeeds (regime, seeds) given
    · exact ⟨0, stands_start⟩
  rcases drawn with ⟨rounds, finished⟩
  refine ⟨rounds, ?_⟩
  intro more later
  show deriveSchedule sha256 more hidden lotterySeed k ≠ _
  rw [deriveSchedule_of_accepted accepted]
  exact finished more later

/-- What a schedule is derived as: the plan of every accepted number of
epochs, whatever the order of the keys and whatever the bound on rounds. -/
structure ScheduleLaw
    (sha256 : Digest) (hidden : HiddenSet Name) (lotterySeed : String) :
    Prop where
  planned : ∀ rounds k epochs,
      deriveSchedule sha256 rounds hidden lotterySeed k = .ok epochs →
        Planned hidden k epochs
  initial : ∀ rounds more k larger short long, k ≤ larger →
      deriveSchedule sha256 rounds hidden lotterySeed k = .ok short →
        deriveSchedule sha256 more hidden lotterySeed larger = .ok long →
          short <+: long
  keyOrder : ∀ (other : HiddenSet Name) rounds k,
      other.regimes.Perm hidden.regimes →
        deriveSchedule sha256 rounds other lotterySeed k =
          deriveSchedule sha256 rounds hidden lotterySeed k
  canonical : ∀ (Scalar : Type) (stringify : Stringify Name Scalar)
      (document other : Json Name Scalar),
      Reordered document other →
        canonicalJson stringify document = canonicalJson stringify other
  derived : Lively sha256 lotterySeed → hidden.regimes.length ≤ 2 ^ 32 →
      (∀ entry ∈ hidden.regimes, entry.2.length ≤ 2 ^ 32) → ∀ k,
          Accepted hidden lotterySeed k ↔ ∃ rounds epochs, ∀ more,
              rounds ≤ more →
                deriveSchedule sha256 more hidden lotterySeed k = .ok epochs

/-- Every hidden set and lottery seed has its schedule: exactly the accepted
numbers of epochs are planned, each plan begins the larger ones, and neither
the order of the keys nor the bound on rounds matters. -/
theorem deriveSchedule_law
    (sha256 : Digest) (hidden : HiddenSet Name) (lotterySeed : String) :
    ScheduleLaw sha256 hidden lotterySeed where
  planned rounds k epochs done := planned_of_ok done
  initial rounds more k larger short long fewer done doneLarger :=
    deriveSchedule_initial fewer done doneLarger
  keyOrder other rounds k perm := deriveSchedule_perm perm
  canonical Scalar stringify document other reordered :=
    canonicalJson_reordered stringify reordered
  derived lively small smallSeeds k := by
    constructor
    · intro accepted
      exact (deriveSchedule_finishes accepted lively small smallSeeds).result
        (fun rounds more later => deriveSchedule_extends later)
        (fun rounds => deriveSchedule_cutOnly accepted)
    · rintro ⟨rounds, epochs, done⟩
      exact accepted_of_ok (done rounds le_rfl)

end Eris.Competition.Schedule
