import Eris.Foundation.WaterFill
import Eris.Registry.Capacity

/-!
# How the cap of a backlog is shared

What every creator keeps of a backlog: all it may keep, or what a common
level leaves it, with one more for the earlier creators.  The level is the
highest whose sum fits, so what is kept hits the total.
-/

namespace Eris.Registry.CreatorCap

open Foundation Foundation.WaterFill Capacity

variable {Item : Type} {creatorKey : Item → String} {exempt : Item → Bool}
    {items : List Item} {perCreator total : Nat} {creator : String}

/-! ## Shares -/

/-- The items of a creator which count against the bounds. -/
def ownItems
    (creatorKey : Item → String) (exempt : Item → Bool) (creator : String)
    (items : List Item) : List Item :=
  items.filter fun item => !exempt item && creatorKey item == creator

/-- The creators of the items which count, each of them once. -/
def creatorsOf
    (creatorKey : Item → String) (exempt : Item → Bool)
    (items : List Item) : List String :=
  ((items.filter fun item => !exempt item).map creatorKey).eraseDups

/-- The sum over the creators of what each may keep. -/
def allowedSum
    (perCreator : Nat) (creatorKey : Item → String) (exempt : Item → Bool)
    (items : List Item) : Nat :=
  ((creatorsOf creatorKey exempt items).map fun creator =>
    min (ownItems creatorKey exempt creator items).length perCreator).sum

/-- What is kept of a backlog, with respect to what it was. -/
structure FairlyCapped
    (perCreator total : Nat) (creatorKey : Item → String)
    (exempt : Item → Bool) (items kept : List Item) : Prop where
  inOrder : kept.Sublist items
  exempted : kept.filter exempt = items.filter exempt
  amount : (kept.filter fun item => !exempt item).length =
      min total (allowedSum perCreator creatorKey exempt items)
  first : ∀ creator, (ownItems creatorKey exempt creator kept).IsPrefix
      (ownItems creatorKey exempt creator items)
  fair : ∀ creator other, (ownItems creatorKey exempt creator kept).length <
        min (ownItems creatorKey exempt creator items).length perCreator →
      (ownItems creatorKey exempt other kept).length ≤
        (ownItems creatorKey exempt creator kept).length + 1

section Levels

variable {levelSum : Nat → Nat} {lo hi rounds : Nat}

theorem level_eq_iterate (ordered : lo ≤ hi) (enough : hi - lo ≤ rounds) :
    (narrow (fun level => levelSum level ≤ total))^[rounds] (lo, hi) =
      (level levelSum total lo hi, level levelSum total lo hi) := by
  induction rounds generalizing lo hi with
  | zero =>
      have same : lo = hi := by omega
      subst same
      rw [Function.iterate_zero, id_eq, level, if_neg (lt_irrefl lo)]
  | succ rounds ih =>
      rw [Function.iterate_succ_apply, narrow, level]
      dsimp only
      split
      · split
        · exact ih (by omega) (by omega)
        · exact ih (by omega) (by omega)
      · have same : lo = hi := by omega
        subst same
        rw [ih le_rfl (by omega), level, if_neg (lt_irrefl lo)]

theorem level_enclosed
    (mono : Monotone levelSum)
    (enclosing :
      Enclosing (fun level => levelSum level ≤ total) perCreator lo hi) :
    Enclosing (fun level => levelSum level ≤ total) perCreator
      (level levelSum total lo hi) (level levelSum total lo hi) := by
  have downward : ∀ low high, low ≤ high →
      levelSum high ≤ total → levelSum low ≤ total :=
    fun low high below fitting => le_trans (mono below) fitting
  have kept : ∀ rounds range,
      Enclosing (fun level => levelSum level ≤ total) perCreator range.1
          range.2 →
        Enclosing (fun level => levelSum level ≤ total) perCreator
          ((narrow (fun level => levelSum level ≤ total))^[rounds] range).1
          ((narrow (fun level => levelSum level ≤ total))^[rounds]
            range).2 := by
    intro rounds
    induction rounds with
    | zero => exact fun range here => here
    | succ rounds ih =>
        intro range here
        rw [Function.iterate_succ_apply]
        exact ih _ (here.narrow downward)
  have last := kept (hi - lo) (lo, hi) enclosing
  rw [level_eq_iterate enclosing.ordered le_rfl] at last
  exact last

end Levels

section Spread

variable {level spare : Nat} {entries : List (String × Nat)}

theorem spread_keys :
    (spread level spare entries).map Prod.fst = entries.map Prod.fst := by
  induction entries generalizing spare with
  | nil => rfl
  | cons entry rest ih =>
      rcases entry with ⟨creator, count⟩
      rw [spread]
      split
      · rw [List.map_cons, ih, List.map_cons]
      · rw [List.map_cons, ih, List.map_cons]

theorem spread_sum :
    ((spread level spare entries).map Prod.snd).sum =
      filled (entries.map Prod.snd) level +
        min spare (higher (entries.map Prod.snd) level) := by
  induction entries generalizing spare with
  | nil => simp [spread, filled, higher]
  | cons entry rest ih =>
      rcases entry with ⟨creator, count⟩
      rw [spread, filled, higher, List.map_cons, List.map_cons,
        List.sum_cons, List.countP_cons]
      simp only [filled, higher] at ih
      by_cases above : level < count
      · rw [if_pos (decide_eq_true above)]
        split
        · next given =>
            rw [List.map_cons, List.sum_cons, ih]
            dsimp only
            omega
        · next nothing =>
            rw [List.map_cons, List.sum_cons, ih]
            dsimp only
            omega
      · rw [if_neg (fun same => above (of_decide_eq_true same)),
          if_neg (fun both => above both.1), List.map_cons, List.sum_cons,
          ih, Nat.add_zero, Nat.add_assoc]

theorem spread_between
    {kept : Nat} (listed : (creator, kept) ∈ spread level spare entries) :
    ∃ count, (creator, count) ∈ entries ∧
      min count level ≤ kept ∧ kept ≤ min count (level + 1) := by
  induction entries generalizing spare with
  | nil => cases listed
  | cons entry rest ih =>
      rcases entry with ⟨name, count⟩
      rw [spread] at listed
      split at listed
      · next given =>
          rcases List.mem_cons.mp listed with same | later
          · cases same
            exact ⟨count, List.mem_cons_self, by omega, by omega⟩
          · rcases ih later with ⟨found, inside, bounds⟩
            exact ⟨found, List.mem_cons_of_mem _ inside, bounds⟩
      · next nothing =>
          rcases List.mem_cons.mp listed with same | later
          · cases same
            exact ⟨count, List.mem_cons_self, le_rfl, by omega⟩
          · rcases ih later with ⟨found, inside, bounds⟩
            exact ⟨found, List.mem_cons_of_mem _ inside, bounds⟩

end Spread

/-! ## Allowances -/

section Allowances

variable {counts : List (String × Nat)}

/-- What creators may keep, with respect to what they have. -/
structure Shared
    (perCreator total : Nat) (counts shares : List (String × Nat)) :
    Prop where
  keys : shares.map Prod.fst = counts.map Prod.fst
  amount : (shares.map Prod.snd).sum =
      min total (counts.map fun entry => min entry.2 perCreator).sum
  bounded : ∀ creator share, (creator, share) ∈ shares →
    ∃ count, (creator, count) ∈ counts ∧ share ≤ min count perCreator
  fair : ∀ creator share, (creator, share) ∈ shares →
    ∀ count, (creator, count) ∈ counts → share < min count perCreator →
      ∀ other otherShare, (other, otherShare) ∈ shares → otherShare ≤ share + 1

/-- Each creator may keep up to its own bound. -/
def capped (perCreator : Nat) (counts : List (String × Nat)) :
    List (String × Nat) :=
  counts.map fun entry => (entry.1, min entry.2 perCreator)

theorem capped_keys :
    (capped perCreator counts).map Prod.fst = counts.map Prod.fst := by
  rw [capped, List.map_map]
  rfl

theorem capped_values :
    (capped perCreator counts).map Prod.snd =
      counts.map fun entry => min entry.2 perCreator := by
  rw [capped, List.map_map]
  rfl

theorem mem_capped {share : Nat} :
    (creator, share) ∈ capped perCreator counts ↔
      ∃ count, (creator, count) ∈ counts ∧ min count perCreator = share := by
  rw [capped, List.mem_map]
  constructor
  · rintro ⟨⟨name, count⟩, listed, same⟩
    cases same
    exact ⟨count, listed, rfl⟩
  · rintro ⟨count, listed, rfl⟩
    exact ⟨(creator, count), listed, rfl⟩

theorem value_unique
    (distinct : (counts.map Prod.fst).Nodup)
    {count other : Nat} (first : (creator, count) ∈ counts)
    (second : (creator, other) ∈ counts) :
    count = other := by
  have same := List.inj_on_of_nodup_map distinct first second rfl
  exact congrArg Prod.snd same

/-- The level of a backlog which has to be cut leaves less than a slot for
every creator above it. -/
theorem level_cut
    (cut : total < filled ((capped perCreator counts).map Prod.snd) perCreator) :
    let heights := (capped perCreator counts).map Prod.snd
    let found := level (filled heights) total 0 perCreator
    filled heights found ≤ total ∧
      total < filled heights found + higher heights found := by
  intro heights found
  have start :
      Enclosing (fun level => filled heights level ≤ total) perCreator 0
        perCreator := by
    refine ⟨Nat.zero_le _, ?_, ?_⟩
    · show filled heights 0 ≤ total
      rw [filled_zero]
      exact Nat.zero_le _
    · intro level above below
      exact absurd below (not_le.mpr above)
  have enclosed := level_enclosed filled_mono start
  refine ⟨enclosed.fitting, ?_⟩
  have below : found < perCreator := by
    by_contra reaches
    have least : perCreator ≤ found := not_lt.mp reaches
    have fitting : filled heights found ≤ total := enclosed.fitting
    exact absurd (lt_of_lt_of_le cut (filled_mono least)) (not_lt.mpr fitting)
  have beyond : ¬ filled heights (found + 1) ≤ total :=
    enclosed.beyond (found + 1) (Nat.lt_succ_self _) below
  rw [filled_succ] at beyond
  exact not_le.mp beyond

theorem capped_filled :
    filled ((capped perCreator counts).map Prod.snd) perCreator =
      (counts.map fun entry => min entry.2 perCreator).sum := by
  rw [capped_values]
  refine filled_eq_sum ?_
  intro height member
  rcases List.mem_map.mp member with ⟨entry, _, rfl⟩
  exact min_le_right _ _

theorem allowances_shared (distinct : (counts.map Prod.fst).Nodup) :
    Shared perCreator total counts (allowances perCreator total counts) := by
  have sums := @capped_filled perCreator counts
  have values := @capped_values perCreator counts
  rw [allowances]
  dsimp only
  rw [← capped]
  split
  · next more =>
      have cut : total <
          filled ((capped perCreator counts).map Prod.snd) perCreator := by
        rw [sums, ← values]
        exact more
      have same : (fun level =>
              ((capped perCreator counts).map fun entry =>
                min entry.2 level).sum) =
            filled ((capped perCreator counts).map Prod.snd) := by
        funext level
        rw [filled, List.map_map]
        rfl
      have found := level_cut cut
      rw [same]
      dsimp only at found
      generalize level (filled ((capped perCreator counts).map Prod.snd)) total
        0 perCreator = lo at found ⊢
      refine ⟨?_, ?_, ?_, ?_⟩
      · rw [spread_keys, capped_keys]
      · have below := congrFun same lo
        rw [spread_sum, ← sums, below]
        omega
      · intro creator share listed
        rcases spread_between listed with ⟨most, inside, _, below⟩
        rcases mem_capped.mp inside with ⟨count, has, rfl⟩
        exact ⟨count, has, by omega⟩
      · intro creator share listed count has lost other otherShare others
        rcases spread_between listed with ⟨most, inside, above, _⟩
        rcases spread_between others with ⟨_, _, _, below⟩
        rcases mem_capped.mp inside with ⟨again, hasAgain, rfl⟩
        have same := value_unique distinct has hasAgain
        omega
  · next fits =>
      refine ⟨capped_keys, ?_, ?_, ?_⟩
      · rw [values] at fits ⊢
        omega
      · intro creator share listed
        rcases mem_capped.mp listed with ⟨count, has, rfl⟩
        exact ⟨count, has, le_rfl⟩
      · intro creator share listed count has lost
        rcases mem_capped.mp listed with ⟨again, hasAgain, rfl⟩
        have same := value_unique distinct has hasAgain
        omega

end Allowances

/-! ## What is kept -/

section Keeping

variable {left : String → Nat} {item : Item} {rest : List Item}

theorem ownItems_cons_own
    (counts : exempt item = false) :
    ownItems creatorKey exempt (creatorKey item) (item :: rest) =
      item :: ownItems creatorKey exempt (creatorKey item) rest := by
  rw [ownItems, List.filter_cons_of_pos]
  · rfl
  · simp [counts]

theorem ownItems_cons_other
    (different : creatorKey item ≠ creator) :
    ownItems creatorKey exempt creator (item :: rest) =
      ownItems creatorKey exempt creator rest := by
  rw [ownItems, List.filter_cons_of_neg]
  · rfl
  · simp [different]

theorem ownItems_cons_exempt
    (free : exempt item = true) :
    ownItems creatorKey exempt creator (item :: rest) =
      ownItems creatorKey exempt creator rest := by
  rw [ownItems, List.filter_cons_of_neg]
  · rfl
  · simp [free]

theorem keepAllowed_own (creator : String) :
    ownItems creatorKey exempt creator
        (keepAllowed creatorKey exempt left items).1 =
      (ownItems creatorKey exempt creator items).take (left creator) := by
  induction items generalizing left with
  | nil => simp [keepAllowed, ownItems]
  | cons item rest ih =>
      rw [keepAllowed]
      by_cases free : exempt item = true
      · rw [if_pos free, ownItems_cons_exempt free, ownItems_cons_exempt free]
        exact ih
      · have counts : exempt item = false := by simpa using free
        rw [if_neg free]
        by_cases own : creatorKey item = creator
        · subst own
          rw [ownItems_cons_own counts]
          split
          · next room =>
              rw [ownItems_cons_own counts, ih, Function.update_self]
              rcases Nat.exists_eq_succ_of_ne_zero (Nat.ne_of_gt room) with
                ⟨more, equal⟩
              rw [equal]
              rfl
          · next full =>
              have nothing : left (creatorKey item) = 0 := by omega
              rw [ih, nothing, List.take_zero, List.take_zero]
        · rw [ownItems_cons_other own]
          split
          · rw [ownItems_cons_other own, ih,
              Function.update_of_ne (Ne.symm own)]
          · exact ih

theorem keepAllowed_exempt :
    (keepAllowed creatorKey exempt left items).1.filter exempt =
      items.filter exempt := by
  induction items generalizing left with
  | nil => rfl
  | cons item rest ih =>
      rw [keepAllowed]
      by_cases free : exempt item = true
      · rw [if_pos free, List.filter_cons_of_pos free,
          List.filter_cons_of_pos free, ih]
      · rw [if_neg free, List.filter_cons_of_neg free]
        split
        · rw [List.filter_cons_of_neg free, ih]
        · exact ih

end Keeping

section Counting

theorem length_eq_sum_own
    {creators : List String} (distinct : creators.Nodup)
    (covered : ∀ item ∈ items, exempt item = false →
      creatorKey item ∈ creators) :
    (items.filter fun item => !exempt item).length =
      (creators.map fun creator =>
        (ownItems creatorKey exempt creator items).length).sum := by
  induction creators generalizing items with
  | nil =>
      have none : items.filter (fun item => !exempt item) = [] := by
        rw [List.filter_eq_nil_iff]
        intro item member counts
        rw [Bool.not_eq_true'] at counts
        cases covered item member counts
      rw [none]
      rfl
  | cons creator rest ih =>
      rw [List.nodup_cons] at distinct
      have split := @ih
          (items.filter fun item => creatorKey item != creator) distinct.2 ?_
      · rw [List.map_cons, List.sum_cons]
        have others : (rest.map fun other =>
                (ownItems creatorKey exempt other (items.filter fun item =>
                    creatorKey item != creator)).length) =
              rest.map fun other =>
                (ownItems creatorKey exempt other items).length := by
          refine List.map_congr_left ?_
          intro other member
          have different : other ≠ creator := by
            rintro rfl
            exact distinct.1 member
          rw [ownItems, ownItems, List.filter_filter]
          congr 2
          funext item
          by_cases same : creatorKey item = other
          · simp [same, different]
          · simp [same]
        rw [← others, ← split, List.filter_filter, ownItems]
        have whole := List.length_eq_length_filter_add
            (l := items.filter fun item => !exempt item)
            fun item => creatorKey item == creator
        rw [whole, List.filter_filter, List.filter_filter]
        congr 2
        · refine List.filter_congr ?_
          intro item _
          exact Bool.and_comm _ _
        · refine List.filter_congr ?_
          intro item _
          rw [Bool.and_comm]
          rfl
      · intro item member counts
        rcases List.mem_filter.mp member with ⟨inside, other⟩
        rcases List.mem_cons.mp (covered item inside counts) with same | later
        · simp [same] at other
        · exact later

theorem accumulate_count (items : List Item) :
    InsertionMap.accumulate
        (fun (_ : Item) (count : Option Nat) => count.getD 0 + 1) items =
      if items = [] then none else some items.length := by
  induction items using List.reverseRecOn with
  | nil => rfl
  | append_singleton items item ih =>
      have more : items ++ [item] ≠ [] := by simp
      rw [InsertionMap.accumulate_snoc, ih, List.length_append, if_neg more]
      split
      · next nothing =>
          rw [nothing]
          rfl
      · rfl

theorem filter_own (creator : String) :
    (items.filter fun item => !exempt item).filter
        (fun item => creatorKey item = creator) =
      ownItems creatorKey exempt creator items := by
  rw [List.filter_filter, ownItems]
  refine List.filter_congr ?_
  intro item _
  exact Bool.and_comm _ _

theorem mem_countByCreator {count : Nat} :
    (creator, count) ∈ (countByCreator creatorKey
          (items.filter fun item => !exempt item)).entries ↔
      creator ∈ creatorsOf creatorKey exempt items ∧
        count = (ownItems creatorKey exempt creator items).length := by
  rw [← InsertionMap.get_eq_some, countByCreator, InsertionMap.get_gather,
    accumulate_count, filter_own, creatorsOf, List.mem_eraseDups,
    List.mem_map]
  have inhabited : ownItems creatorKey exempt creator items ≠ [] ↔
      ∃ item ∈ items.filter fun item => !exempt item,
        creatorKey item = creator := by
    rw [← filter_own, Ne, List.filter_eq_nil_iff]
    simp only [decide_eq_true_eq, not_forall, not_not, exists_prop]
  rw [← inhabited]
  constructor
  · intro found
    split at found
    · cases found
    · next some =>
        cases found
        exact ⟨some, rfl⟩
  · rintro ⟨some, rfl⟩
    rw [if_neg some]

theorem keys_countByCreator :
    (countByCreator creatorKey
        (items.filter fun item => !exempt item)).entries.map Prod.fst =
      creatorsOf creatorKey exempt items :=
  InsertionMap.keys_gather

theorem ownItems_of_absent
    (absent : creator ∉ creatorsOf creatorKey exempt items) :
    ownItems creatorKey exempt creator items = [] := by
  by_contra some
  rcases List.exists_mem_of_ne_nil _ some with ⟨item, member⟩
  rw [ownItems, List.mem_filter, Bool.and_eq_true, beq_iff_eq] at member
  refine absent ?_
  rw [creatorsOf, List.mem_eraseDups, List.mem_map]
  exact ⟨item, List.mem_filter.mpr ⟨member.1, member.2.1⟩, member.2.2⟩

theorem lookup_mem
    {entries : List (String × Nat)} (listed : creator ∈ entries.map Prod.fst) :
    (creator, (entries.lookup creator).getD 0) ∈ entries := by
  induction entries with
  | nil => cases listed
  | cons entry rest ih =>
      rcases entry with ⟨name, count⟩
      rw [List.lookup_cons]
      by_cases same : creator = name
      · subst same
        rw [beq_self_eq_true]
        exact List.mem_cons_self
      · rw [beq_false_of_ne same]
        rcases List.mem_cons.mp listed with equal | later
        · exact absurd equal same
        · exact List.mem_cons_of_mem _ (ih later)

end Counting

/-! ## The cap -/

/-- The shares of the creators of a backlog. -/
def shareOf
    (perCreator total : Nat) (creatorKey : Item → String)
    (exempt : Item → Bool) (items : List Item) (creator : String) : Nat :=
  ((allowances perCreator total (countByCreator creatorKey
        (items.filter fun item => !exempt item)).entries).lookup
    creator).getD 0

theorem values_eq_lookup
    {entries : List (String × Nat)} (distinct : (entries.map Prod.fst).Nodup) :
    entries.map Prod.snd = (entries.map Prod.fst).map fun creator =>
        (entries.lookup creator).getD 0 := by
  rw [List.map_map]
  refine List.map_congr_left ?_
  intro entry member
  have found := lookup_mem (List.mem_map_of_mem member)
  exact value_unique distinct member found

section Cap

variable (perCreator total creatorKey exempt items)

theorem shares_fair :
    Shared perCreator total (countByCreator creatorKey
        (items.filter fun item => !exempt item)).entries
      (allowances perCreator total (countByCreator creatorKey
          (items.filter fun item => !exempt item)).entries) :=
  allowances_shared (InsertionMap.distinct _)

theorem shareOf_mem
    (listed : creator ∈ creatorsOf creatorKey exempt items) :
    (creator, shareOf perCreator total creatorKey exempt items creator) ∈
      allowances perCreator total (countByCreator creatorKey
          (items.filter fun item => !exempt item)).entries := by
  refine lookup_mem ?_
  rw [(shares_fair creatorKey exempt items perCreator total).keys,
    keys_countByCreator]
  exact listed

theorem shareOf_le
    (listed : creator ∈ creatorsOf creatorKey exempt items) :
    shareOf perCreator total creatorKey exempt items creator ≤
      min (ownItems creatorKey exempt creator items).length perCreator := by
  have shared := shares_fair creatorKey exempt items perCreator total
  rcases shared.bounded _ _
    (shareOf_mem creatorKey exempt items perCreator total listed) with
    ⟨count, has, below⟩
  rw [(mem_countByCreator.mp has).2] at below
  exact below

theorem kept_length (creator : String) :
    (ownItems creatorKey exempt creator
        (capByCreator perCreator total creatorKey exempt items).1).length =
      if creator ∈ creatorsOf creatorKey exempt items then
        shareOf perCreator total creatorKey exempt items creator
      else 0 := by
  have kept := @keepAllowed_own Item creatorKey exempt items
      (shareOf perCreator total creatorKey exempt items) creator
  have own : ownItems creatorKey exempt creator
          (capByCreator perCreator total creatorKey exempt items).1 =
        (ownItems creatorKey exempt creator items).take
          (shareOf perCreator total creatorKey exempt items creator) :=
    kept
  rw [own, List.length_take]
  split
  · next listed =>
      have below := shareOf_le creatorKey exempt items perCreator total listed
      omega
  · next absent =>
      rw [ownItems_of_absent absent]
      exact Nat.min_zero _

theorem kept_amount :
    ((capByCreator perCreator total creatorKey exempt items).1.filter
        fun item => !exempt item).length =
      min total (allowedSum perCreator creatorKey exempt items) := by
  have shared := shares_fair creatorKey exempt items perCreator total
  have covered :
      ∀ item ∈ (capByCreator perCreator total creatorKey exempt items).1,
        exempt item = false →
          creatorKey item ∈ creatorsOf creatorKey exempt items := by
    intro item member counts
    rw [creatorsOf, List.mem_eraseDups]
    refine List.mem_map_of_mem (List.mem_filter.mpr ⟨?_, ?_⟩)
    · exact (capByCreator_sublist perCreator total).subset member
    · rw [counts]
      rfl
  have distinct : (creatorsOf creatorKey exempt items).Nodup :=
    InsertionMap.nodup_eraseDups
  have keys := shared.keys
  rw [keys_countByCreator] at keys
  have values := values_eq_lookup (show ((allowances perCreator total
      (countByCreator creatorKey
        (items.filter fun item => !exempt item)).entries).map
          Prod.fst).Nodup by
        rw [keys]
        exact distinct)
  rw [keys] at values
  have allowed : (countByCreator creatorKey
        (items.filter fun item => !exempt item)).entries.map
        (fun entry => min entry.2 perCreator) =
      (creatorsOf creatorKey exempt items).map fun creator =>
          min (ownItems creatorKey exempt creator items).length perCreator := by
    rw [← keys_countByCreator, List.map_map]
    refine List.map_congr_left ?_
    intro entry member
    rw [(mem_countByCreator.mp member).2]
    rfl
  rw [length_eq_sum_own distinct covered, allowedSum, ← allowed,
    ← shared.amount, values]
  congr 1
  refine List.map_congr_left ?_
  intro creator listed
  rw [kept_length, if_pos listed]
  rfl

theorem kept_fair
    {other : String}
    (lost : (ownItems creatorKey exempt creator
          (capByCreator perCreator total creatorKey exempt items).1).length <
        min (ownItems creatorKey exempt creator items).length perCreator) :
    (ownItems creatorKey exempt other
        (capByCreator perCreator total creatorKey exempt items).1).length ≤
      (ownItems creatorKey exempt creator
          (capByCreator perCreator total creatorKey exempt
            items).1).length + 1 := by
  have shared := shares_fair creatorKey exempt items perCreator total
  rw [kept_length] at lost ⊢
  rw [kept_length]
  by_cases isOther : other ∈ creatorsOf creatorKey exempt items
  · by_cases listed : creator ∈ creatorsOf creatorKey exempt items
    · rw [if_pos listed] at lost ⊢
      rw [if_pos isOther]
      exact shared.fair _ _
        (shareOf_mem creatorKey exempt items perCreator total listed) _
        (mem_countByCreator.mpr ⟨listed, rfl⟩) lost _ _
        (shareOf_mem creatorKey exempt items perCreator total isOther)
    · rw [ownItems_of_absent listed] at lost
      simp at lost
  · rw [if_neg isOther]
    exact Nat.zero_le _

/--
A capped backlog keeps what is exempt and the first items of every creator,
as many as the bounds allow in all, and no creator loses an item to one which
keeps two more; the search for the level ends.
-/
theorem capByCreator_fair :
    FairlyCapped perCreator total creatorKey exempt items
        (capByCreator perCreator total creatorKey exempt items).1 ∧
      ∀ levelSum : Nat → Nat,
        (narrow (fun level => levelSum level ≤ total))^[perCreator]
            (0, perCreator) =
          (level levelSum total 0 perCreator,
            level levelSum total 0 perCreator) := by
  refine ⟨?_, fun levelSum =>
    level_eq_iterate (Nat.zero_le _) (Nat.sub_le _ _)⟩
  refine
    { inOrder := capByCreator_sublist perCreator total
      exempted := keepAllowed_exempt
      amount := kept_amount creatorKey exempt items perCreator total
      first := ?_
      fair := fun creator other lost =>
        kept_fair creatorKey exempt items perCreator total lost }
  intro creator
  have own := @keepAllowed_own Item creatorKey exempt items
      (shareOf perCreator total creatorKey exempt items) creator
  have taken : ownItems creatorKey exempt creator
          (capByCreator perCreator total creatorKey exempt items).1 =
        (ownItems creatorKey exempt creator items).take
          (shareOf perCreator total creatorKey exempt items creator) :=
    own
  rw [taken]
  exact List.take_prefix _ _

end Cap

end Eris.Registry.CreatorCap
