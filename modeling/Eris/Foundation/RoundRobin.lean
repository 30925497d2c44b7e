import Eris.Foundation.InsertionMap

/-!
# Round-robin service of queues

Queues are served in rounds: round after round, one element of each queue
which still has one.  Serving one element rotates the queues, so what is left
after any number of elements is again a round-robin of queues.  Gathering the
served elements by the names of their queues gives the queues back.
-/

namespace Eris.Foundation.RoundRobin

variable {Item Name : Type}

def row (queues : List (List Item)) (round : Nat) : List Item :=
  queues.filterMap (·[round]?)

def depth (queues : List (List Item)) : Nat :=
  queues.foldl (fun longest queue => max longest queue.length) 0

def rounds (queues : List (List Item)) : List Item :=
  (List.range (depth queues)).flatMap (row queues)

variable {queues others : List (List Item)} {queue : List Item} {item : Item}

theorem depth_append :
    depth (queues ++ [queue]) = max (depth queues) queue.length := by
  simp [depth, List.foldl_append]

theorem length_le_depth (listed : queue ∈ queues) :
    queue.length ≤ depth queues := by
  induction queues using List.reverseRecOn with
  | nil => cases listed
  | append_singleton queues last ih =>
      rw [depth_append]
      rcases List.mem_append.1 listed with earlier | here
      · exact (ih earlier).trans (le_max_left _ _)
      · rw [List.mem_singleton.1 here]
        exact le_max_right _ _

theorem row_of_depth_le {round : Nat} (deep : depth queues ≤ round) :
    row queues round = [] := by
  apply List.filterMap_eq_nil_iff.2
  intro queue listed
  exact List.getElem?_eq_none ((length_le_depth listed).trans deep)

theorem rounds_eq {bound : Nat} (deep : depth queues ≤ bound) :
    (List.range bound).flatMap (row queues) = rounds queues := by
  induction bound, deep using Nat.le_induction with
  | base => rfl
  | succ bound deep ih =>
      rw [List.range_succ, List.flatMap_append, ih]
      simp [row_of_depth_le deep]

theorem row_append (round : Nat) :
    row (queues ++ others) round = row queues round ++ row others round :=
  List.filterMap_append

theorem rounds_append_nil : rounds (queues ++ [[]]) = rounds queues := by
  have same : row (queues ++ [[]]) = row queues := by
    funext round
    simp [row]
  unfold rounds
  rw [same, depth_append, List.length_nil, Nat.max_zero]

theorem range_flatMap_succ (bound : Nat) (rows : Nat → List Item) :
    (List.range (bound + 1)).flatMap rows =
      rows 0 ++ (List.range bound).flatMap fun round => rows (round + 1) := by
  rw [List.range_succ_eq_map, List.flatMap_cons, List.flatMap_map]

theorem shift (bound : Nat) (ones rest : Nat → List Item) :
    rest 0 ++ (List.range bound).flatMap
          (fun round => ones round ++ rest (round + 1)) =
      (List.range bound).flatMap (fun round => rest round ++ ones round) ++
        rest bound := by
  induction bound with
  | zero => simp
  | succ bound ih =>
      rw [List.range_succ, List.flatMap_append, List.flatMap_append,
        ← List.append_assoc, ih]
      simp

theorem depth_le
    {bound : Nat} (each : ∀ queue ∈ queues, queue.length ≤ bound) :
    depth queues ≤ bound := by
  induction queues using List.reverseRecOn with
  | nil => exact Nat.zero_le _
  | append_singleton queues last ih =>
      rw [depth_append]
      apply max_le
      · exact ih fun queue listed =>
            each queue (List.mem_append_left _ listed)
      · exact each last (List.mem_append_right _ List.mem_cons_self)

theorem row_cons_zero :
    row ((item :: queue) :: others) 0 = item :: row others 0 := by
  simp [row]

theorem row_cons_succ (round : Nat) :
    row ((item :: queue) :: others) (round + 1) =
      row [queue] round ++ row others (round + 1) := by
  cases found : queue[round]? with
  | none => simp [row, found]
  | some served => simp [row, found]

theorem rounds_rotate :
    rounds ((item :: queue) :: others) =
      item :: rounds (others ++ [queue]) := by
  have deepRest : depth (others ++ [queue]) ≤
      max (depth others) queue.length := by
    rw [depth_append]
  have deep : depth ((item :: queue) :: others) ≤
      max (depth others) queue.length + 1 := by
    apply depth_le
    intro member listed
    rcases List.mem_cons.1 listed with rfl | later
    · exact Nat.succ_le_succ (le_max_right _ _)
    · exact ((length_le_depth later).trans (le_max_left _ _)).trans
        (Nat.le_succ _)
  have last : row others (max (depth others) queue.length) = [] :=
    row_of_depth_le (le_max_left _ _)
  have shifted :=
    shift (max (depth others) queue.length) (row [queue]) (row others)
  rw [last, List.append_nil] at shifted
  rw [← rounds_eq deep, ← rounds_eq deepRest, range_flatMap_succ,
    row_cons_zero, List.cons_append]
  have rows : row (others ++ [queue]) =
        fun round => row others round ++ row [queue] round :=
    funext row_append
  simp only [row_cons_succ, rows, shifted]

theorem rounds_cons_nil : rounds ([] :: queues) = rounds queues := by
  have same : row ([] :: queues) = row queues := by
    funext round
    simp [row]
  unfold rounds
  rw [same]
  rfl

/-- The measure of a round-robin: an element or a queue is gone after each
step. -/
def remaining (queues : List (List Item)) : Nat :=
  queues.flatten.length + queues.length

theorem remaining_rotate :
    remaining (others ++ [queue]) < remaining ((item :: queue) :: others) := by
  simp only [remaining, List.flatten_append, List.flatten_cons,
    List.flatten_nil, List.append_nil, List.length_append,
    List.length_cons, List.length_nil]
  omega

/-- What holds of no queues, and of queues when it holds after their first
element is served, holds of all queues. -/
theorem rotation_induction
    {motive : List (List Item) → Prop} (none : motive [])
    (skip : ∀ others, motive others → motive ([] :: others))
    (serve : ∀ item queue others,
        motive (others ++ [queue]) → motive ((item :: queue) :: others))
    (queues : List (List Item)) : motive queues := by
  induction total : remaining queues
    using Nat.strong_induction_on generalizing queues with
  | _ total ih =>
      subst total
      cases queues with
      | nil => exact none
      | cons queue others =>
          cases queue with
          | nil =>
              apply skip
              exact ih _ (by simp [remaining]) _ rfl
          | cons item queue =>
              apply serve
              exact ih _ remaining_rotate _ rfl

theorem rounds_perm (queues : List (List Item)) :
    (rounds queues).Perm queues.flatten := by
  induction queues using rotation_induction with
  | none => exact List.Perm.refl _
  | skip others ih =>
      rw [rounds_cons_nil]
      exact ih
  | serve item queue others ih =>
      rw [rounds_rotate, List.flatten_cons, List.cons_append]
      apply List.Perm.cons
      refine ih.trans ?_
      rw [List.flatten_append, List.flatten_singleton]
      exact List.perm_append_comm

section Named

variable [DecidableEq Name] {nameOf : Item → Name}

/-- Put an element at the end of a queue. -/
def enqueue (item : Item) (queue : Option (List Item)) : List Item :=
  queue.getD [] ++ [item]

/-- The queues of a list, one for each name, in the order of the first
appearance of the names. -/
def queuesOf (nameOf : Item → Name) (items : List Item) :
    InsertionMap Name (List Item) :=
  InsertionMap.gather nameOf enqueue items

theorem accumulate_enqueue (items : List Item) :
    InsertionMap.accumulate enqueue items =
      if items = [] then none else some items := by
  induction items using List.reverseRecOn with
  | nil => rfl
  | append_singleton items item ih =>
      rw [InsertionMap.accumulate] at ih ⊢
      rw [List.foldl_append, ih]
      by_cases nothing : items = []
      · simp [nothing, enqueue]
      · simp [nothing, enqueue]

/-- No queue is empty, and every element has the name of its queue. -/
def WellNamed
    (nameOf : Item → Name) (queues : List (Name × List Item)) : Prop :=
  ∀ entry ∈ queues, entry.2 ≠ [] ∧ ∀ item ∈ entry.2, nameOf item = entry.1

theorem queuesOf_entries (items : List Item) :
    (queuesOf nameOf items).entries =
      (items.map nameOf).eraseDups.map fun name =>
        (name, items.filter (nameOf · = name)) := by
  have entry : ∀ name ∈ (items.map nameOf).eraseDups,
      ((queuesOf nameOf items).get name).map (name, ·) =
        some (name, items.filter (nameOf · = name)) := by
    intro name listed
    rcases List.mem_map.1 (List.mem_eraseDups.1 listed) with
      ⟨item, member, rfl⟩
    rw [queuesOf, InsertionMap.get_gather, accumulate_enqueue, if_neg]
    · rfl
    · apply List.ne_nil_of_mem
      exact List.mem_filter.2 ⟨member, by simp⟩
  rw [InsertionMap.entries_eq,
    show (queuesOf nameOf items).keys = _ from InsertionMap.keys_gather,
    List.filterMap_congr entry]
  exact congrFun List.filterMap_eq_map _

theorem queuesOf_wellNamed (items : List Item) :
    WellNamed nameOf (queuesOf nameOf items).entries := by
  intro entry listed
  rw [queuesOf_entries] at listed
  rcases List.mem_map.1 listed with ⟨name, known, rfl⟩
  rcases List.mem_map.1 (List.mem_eraseDups.1 known) with
    ⟨item, member, rfl⟩
  refine ⟨?_, fun other listed => by
    simpa using (List.mem_filter.1 listed).2⟩
  apply List.ne_nil_of_mem
  exact List.mem_filter.2 ⟨member, by simp⟩

theorem flatMap_filter_perm
    {names : List Name} (distinct : names.Nodup)
    {items : List Item} (named : ∀ item ∈ items, nameOf item ∈ names) :
    (names.flatMap fun name => items.filter (nameOf · = name)).Perm
      items := by
  induction names generalizing items with
  | nil =>
      cases items with
      | nil => exact List.Perm.refl _
      | cons item rest => cases named item List.mem_cons_self
  | cons name names ih =>
      rw [List.nodup_cons] at distinct
      have others :
          (names.flatMap fun other => items.filter (nameOf · = other)) =
            names.flatMap fun other =>
              (items.filter (nameOf · ≠ name)).filter (nameOf · = other) := by
        apply List.flatMap_congr
        intro other listed
        rw [List.filter_filter]
        apply List.filter_congr
        intro item member
        rw [← Bool.decide_and, decide_eq_decide]
        refine ⟨fun same => ⟨same, ?_⟩, And.left⟩
        rintro rfl
        exact distinct.1 (same ▸ listed)
      have rest : (names.flatMap fun other =>
            (items.filter (nameOf · ≠ name)).filter (nameOf · = other)).Perm
                (items.filter (nameOf · ≠ name)) := by
        apply ih distinct.2
        intro item member
        rcases List.mem_filter.1 member with ⟨listed, different⟩
        exact (List.mem_cons.1 (named item listed)).resolve_left
          (by simpa using different)
      rw [List.flatMap_cons, others]
      refine (List.Perm.append_left _ rest).trans ?_
      have split :=
        List.filter_append_perm (fun item => decide (nameOf item = name))
          items
      simpa only [decide_not] using split

theorem rounds_queuesOf_perm (items : List Item) :
    (rounds (queuesOf nameOf items).values).Perm items := by
  refine (rounds_perm _).trans ?_
  rw [InsertionMap.values, queuesOf_entries, List.map_map]
  apply flatMap_filter_perm InsertionMap.nodup_eraseDups
  intro item member
  exact List.mem_eraseDups.2 (List.mem_map_of_mem member)

omit [DecidableEq Name] in
/-- What holds of no named queues, and of named queues when it holds after
their first element is served, holds of all. -/
theorem named_induction
    {motive : List (Name × List Item) → Prop} (none : motive [])
    (skip : ∀ name others, motive others → motive ((name, []) :: others))
    (serve : ∀ name item queue others, motive (others ++ [(name, queue)]) →
        motive ((name, item :: queue) :: others))
    (queues : List (Name × List Item)) : motive queues := by
  induction total : remaining (queues.map Prod.snd)
    using Nat.strong_induction_on generalizing queues with
  | _ total ih =>
      subst total
      cases queues with
      | nil => exact none
      | cons entry others =>
          rcases entry with ⟨name, queue⟩
          cases queue with
          | nil =>
              apply skip
              exact ih _ (by simp [remaining]) _ rfl
          | cons item queue =>
              apply serve
              apply ih _ _ _ rfl
              rw [List.map_append]
              exact remaining_rotate

theorem find?_of_absent
    {queues : List (Name × List Item)} {name : Name}
    (absent : name ∉ queues.map Prod.fst) :
    queues.find? (·.1 = name) = none := by
  apply List.find?_eq_none.2
  intro entry listed
  rw [decide_eq_true_eq]
  rintro rfl
  exact absent (List.mem_map_of_mem listed)

/-- The queue of a name; nothing when there is none. -/
def queueOf (queues : List (Name × List Item)) (name : Name) : List Item :=
  ((queues.find? (·.1 = name)).map Prod.snd).getD []

theorem filter_rounds
    (queues : List (Name × List Item))
    (named : ∀ entry ∈ queues, ∀ item ∈ entry.2, nameOf item = entry.1)
    (distinct : (queues.map Prod.fst).Nodup) (name : Name) :
    (rounds (queues.map Prod.snd)).filter (nameOf · = name) =
      queueOf queues name := by
  induction queues using named_induction with
  | none => rfl
  | skip first others ih =>
      rw [List.map_cons, List.nodup_cons] at distinct
      rw [List.map_cons, rounds_cons_nil, ih
        (fun entry listed => named entry (List.mem_cons_of_mem _ listed))
        distinct.2]
      unfold queueOf
      by_cases same : first = name
      · subst same
        rw [List.find?_cons_of_pos (by simp), find?_of_absent distinct.1]
        rfl
      · rw [List.find?_cons_of_neg (by simpa using same)]
  | serve first item queue others ih =>
      rw [List.map_cons, List.nodup_cons] at distinct
      have itemName : nameOf item = first :=
        named _ List.mem_cons_self item List.mem_cons_self
      have absent : others.find? (·.1 = first) = none :=
        find?_of_absent distinct.1
      have rotated := ih (by
            intro entry listed other member
            rcases List.mem_append.1 listed with later | last
            · exact named entry (List.mem_cons_of_mem _ later) other member
            · rw [List.mem_singleton.1 last] at member ⊢
              exact named _ List.mem_cons_self other
                (List.mem_cons_of_mem _ member))
          (by
            rw [List.map_append]
            exact (List.nodup_append_comm.1 (List.nodup_cons.2 distinct)))
      rw [List.map_append] at rotated
      rw [List.map_cons, rounds_rotate]
      by_cases same : first = name
      · subst same
        rw [List.filter_cons_of_pos (by simpa using itemName)]
        rw [show (rounds (others.map Prod.snd ++ [queue])).filter _ = _ from
          rotated]
        simp [queueOf, List.find?_append, absent]
      · rw [List.filter_cons_of_neg (by simpa [itemName] using same)]
        rw [show (rounds (others.map Prod.snd ++ [queue])).filter _ = _ from
          rotated]
        simp [queueOf, List.find?_append, same]

omit [DecidableEq Name] in
theorem row_zero
    (queues : List (Name × List Item)) (named : WellNamed nameOf queues) :
    (row (queues.map Prod.snd) 0).map nameOf = queues.map Prod.fst := by
  induction queues with
  | nil => rfl
  | cons entry rest ih =>
      rcases named entry List.mem_cons_self with ⟨filled, names⟩
      have later := ih fun other listed =>
          named other (List.mem_cons_of_mem _ listed)
      rcases List.exists_cons_of_ne_nil filled with ⟨item, queue, isQueue⟩
      have first : nameOf item = entry.1 :=
        names item (by rw [isQueue]; exact List.mem_cons_self)
      rw [List.map_cons, isQueue, row_cons_zero, List.map_cons, first,
        later, List.map_cons]

omit [DecidableEq Name] in
theorem name_of_rounds
    {queues : List (Name × List Item)} {item : Item}
    (named : WellNamed nameOf queues)
    (served : item ∈ rounds (queues.map Prod.snd)) :
    nameOf item ∈ queues.map Prod.fst := by
  rcases List.mem_flatten.1 ((rounds_perm _).mem_iff.1 served) with
    ⟨queue, listed, member⟩
  rcases List.mem_map.1 listed with ⟨entry, inside, rfl⟩
  rw [(named entry inside).2 item member]
  exact List.mem_map_of_mem inside

/-- The names of the served elements first appear in the order of the
queues. -/
theorem eraseDups_rounds
    (queues : List (Name × List Item)) (named : WellNamed nameOf queues)
    (distinct : (queues.map Prod.fst).Nodup) :
    ((rounds (queues.map Prod.snd)).map nameOf).eraseDups =
      queues.map Prod.fst := by
  have members : ∀ item ∈ rounds (queues.map Prod.snd),
        nameOf item ∈ queues.map Prod.fst :=
    fun item served => name_of_rounds named served
  rw [← rounds_eq (Nat.le_succ _), range_flatMap_succ] at members ⊢
  rw [List.map_append, row_zero queues named, List.eraseDups_append,
    InsertionMap.eraseDups_of_nodup distinct]
  have dropped : (List.map nameOf
      ((List.range (depth (queues.map Prod.snd))).flatMap fun round =>
          row (queues.map Prod.snd) (round + 1))).removeAll
            (queues.map Prod.fst) = [] := by
    apply List.filter_eq_nil_iff.2
    intro name listed
    rcases List.mem_map.1 listed with ⟨item, served, rfl⟩
    simpa using members item (List.mem_append_right _ served)
  rw [dropped, List.eraseDups_nil, List.append_nil]

theorem queuesOf_rounds
    (queues : InsertionMap Name (List Item))
    (named : WellNamed nameOf queues.entries) :
    queuesOf nameOf (rounds queues.values) = queues := by
  have sameKeys :
      (queuesOf nameOf (rounds queues.values)).keys = queues.keys := by
    rw [queuesOf, InsertionMap.keys_gather]
    exact eraseDups_rounds queues.entries named queues.distinct
  apply InsertionMap.eq_of_get sameKeys
  intro name known
  rw [sameKeys] at known
  have served : (rounds queues.values).filter (nameOf · = name) =
        queueOf queues.entries name :=
    filter_rounds queues.entries
      (fun entry listed => (named entry listed).2) queues.distinct name
  rw [queuesOf, InsertionMap.get_gather, accumulate_enqueue, served]
  rcases List.mem_map.1 known with ⟨entry, listed, rfl⟩
  unfold queueOf InsertionMap.get
  cases found : queues.entries.find? (·.1 = entry.1) with
  | none =>
      have different := List.find?_eq_none.1 found entry listed
      simp at different
  | some other =>
      have filled := (named other (List.mem_of_find?_eq_some found)).1
      rw [Option.map_some, Option.getD_some, if_neg filled]

omit [DecidableEq Name] in
theorem rounds_tail
    (queues : InsertionMap Name (List Item))
    (named : WellNamed nameOf queues.entries) :
    ∃ rest : InsertionMap Name (List Item), WellNamed nameOf rest.entries ∧
        (rounds queues.values).tail = rounds rest.values := by
  rcases queues with ⟨entries, distinct⟩
  cases entries with
  | nil => exact ⟨⟨[], distinct⟩, named, rfl⟩
  | cons entry others =>
      rcases entry with ⟨name, queue⟩
      rcases named _ List.mem_cons_self with ⟨filled, names⟩
      rcases List.exists_cons_of_ne_nil filled with ⟨item, queue, rfl⟩
      rw [List.map_cons, List.nodup_cons] at distinct
      have rotated : (rounds (InsertionMap.values
          ⟨(name, item :: queue) :: others, List.nodup_cons.2 distinct⟩)).tail =
          rounds (others.map Prod.snd ++ [queue]) := by
        rw [InsertionMap.values, List.map_cons, rounds_rotate]
        rfl
      have namedOthers : WellNamed nameOf others :=
        fun other listed => named other (List.mem_cons_of_mem _ listed)
      rw [rotated]
      by_cases served : queue = []
      · refine ⟨⟨others, distinct.2⟩, namedOthers, ?_⟩
        rw [served, rounds_append_nil]
        rfl
      · refine ⟨⟨others ++ [(name, queue)], ?_⟩, ?_, ?_⟩
        · rw [List.map_append]
          exact List.nodup_append_comm.1 (List.nodup_cons.2 distinct)
        · intro other listed
          rcases List.mem_append.1 listed with later | last
          · exact namedOthers other later
          · rw [List.mem_singleton.1 last]
            exact ⟨served, fun item member =>
                names item (List.mem_cons_of_mem _ member)⟩
        · rw [InsertionMap.values, List.map_append]
          rfl

/-- Among elements with names in rows, each name at most once in a row and
only names of a row in the next one, an element is preceded by at most one
more element of another name than of its own. -/
theorem count_before
    (rows : List (List Name)) (distinct : ∀ row ∈ rows, row.Nodup)
    (lasting : rows.Pairwise fun earlier later => later ⊆ earlier)
    {before after : List Name} {name : Name}
    (split : rows.flatten = before ++ name :: after) (other : Name) :
    before.count other ≤ before.count name + 1 := by
  induction rows generalizing before with
  | nil => simp at split
  | cons row rest ih =>
      rcases List.pairwise_cons.1 lasting with ⟨first, later⟩
      have once (candidate : Name) : row.count candidate ≤ 1 :=
        List.nodup_iff_count_le_one.1
          (distinct row List.mem_cons_self) candidate
      rw [List.flatten_cons, List.append_eq_append_iff] at split
      rcases split with ⟨more, isBefore, isRest⟩ | ⟨more, isRow, -⟩
      · have member : name ∈ rest.flatten := by
          rw [isRest]
          exact List.mem_append_right _ List.mem_cons_self
        rcases List.mem_flatten.1 member with ⟨inside, listed, here⟩
        have own : 0 < row.count name :=
          List.count_pos_iff.2 (first inside listed here)
        have rest_count := ih (fun candidate listed =>
              distinct candidate (List.mem_cons_of_mem _ listed))
            later isRest
        have otherOnce := once other
        rw [isBefore, List.count_append, List.count_append]
        omega
      · have early_count : before.count other ≤ row.count other := by
          rw [isRow, List.count_append]
          exact Nat.le_add_right _ _
        have otherOnce := once other
        omega

omit [DecidableEq Name] in
theorem row_names
    (queues : List (Name × List Item))
    (named : ∀ entry ∈ queues, ∀ item ∈ entry.2, nameOf item = entry.1)
    (round : Nat) :
    (row (queues.map Prod.snd) round).map nameOf =
      (queues.filter (round < ·.2.length)).map Prod.fst := by
  induction queues with
  | nil => rfl
  | cons entry rest ih =>
      have later := ih fun other listed =>
          named other (List.mem_cons_of_mem _ listed)
      unfold row at later ⊢
      rw [List.map_cons, List.filterMap_cons]
      cases found : entry.2[round]? with
      | none =>
          have short := List.getElem?_eq_none_iff.1 found
          rw [List.filter_cons_of_neg (by simpa using short)]
          exact later
      | some item =>
          rcases List.getElem?_eq_some_iff.1 found with ⟨long, rfl⟩
          rw [List.filter_cons_of_pos (by simpa using long),
            List.map_cons, List.map_cons, later,
            named entry List.mem_cons_self _ (List.getElem_mem long)]

/-- Before an element of one name at most one more element of another name
is served than of its own. -/
theorem count_rounds
    (queues : InsertionMap Name (List Item))
    (named : WellNamed nameOf queues.entries)
    {before after : List Item} {item : Item}
    (split : rounds queues.values = before ++ item :: after) (other : Name) :
    (before.map nameOf).count other ≤
      (before.map nameOf).count (nameOf item) + 1 := by
  have names (round : Nat) : (row queues.values round).map nameOf =
        (queues.entries.filter (round < ·.2.length)).map Prod.fst :=
    row_names queues.entries (fun entry listed => (named entry listed).2)
      round
  apply count_before ((List.range (depth queues.values)).map fun round =>
        (row queues.values round).map nameOf)
  · intro names_row listed
    rcases List.mem_map.1 listed with ⟨round, known, rfl⟩
    rw [names]
    exact (List.filter_sublist.map Prod.fst).nodup queues.distinct
  · rw [List.pairwise_map]
    apply List.pairwise_lt_range.imp
    intro earlier later less
    rw [names, names]
    intro name listed
    rcases List.mem_map.1 listed with ⟨entry, inside, rfl⟩
    rcases List.mem_filter.1 inside with ⟨member, long⟩
    apply List.mem_map_of_mem
    rw [decide_eq_true_eq] at long
    exact List.mem_filter.2 ⟨member, by simpa using less.trans long⟩
  · rw [← List.map_cons, ← List.map_append, ← split, rounds,
      List.map_flatMap, List.flatMap_def]

end Named

end Eris.Foundation.RoundRobin
