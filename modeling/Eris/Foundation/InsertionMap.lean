import Mathlib

/-!
# Maps which remember the order of insertion

A map of this kind lists its entries in the order in which their keys were
first inserted.  Changing the value of a key leaves its place as it is; a new
key goes to the end.  Gathering a list into such a map yields its keys in the
order of their first appearance, each with what the elements of that key make
of nothing.
-/

namespace Eris.Foundation

variable {Key Value Item : Type} [DecidableEq Key]

/-- Entries with different keys, in the order of insertion. -/
@[ext]
structure InsertionMap (Key Value : Type) where
  entries : List (Key × Value)
  distinct : (entries.map Prod.fst).Nodup

namespace InsertionMap

def empty : InsertionMap Key Value := ⟨[], List.nodup_nil⟩

def keys (map : InsertionMap Key Value) : List Key := map.entries.map Prod.fst

/-- The values, in the order of insertion. -/
def values (map : InsertionMap Key Value) : List Value :=
  map.entries.map Prod.snd

def get (map : InsertionMap Key Value) (key : Key) : Option Value :=
  (map.entries.find? (·.1 = key)).map Prod.snd

/-- Change the value of a key in its place, or insert it at the end. -/
def alterEntries (key : Key) (change : Option Value → Value) :
    List (Key × Value) → List (Key × Value)
  | [] => [(key, change none)]
  | entry :: rest =>
      if entry.1 = key then
        (key, change (some entry.2)) :: rest
      else
        entry :: alterEntries key change rest

variable
  {map : InsertionMap Key Value} {key other : Key}
  {change : Option Value → Value} {entries : List (Key × Value)}

theorem keys_alterEntries :
    (alterEntries key change entries).map Prod.fst =
      if key ∈ entries.map Prod.fst then
        entries.map Prod.fst
      else
        entries.map Prod.fst ++ [key] := by
  induction entries with
  | nil => rfl
  | cons entry rest ih =>
      rw [alterEntries]
      by_cases same : entry.1 = key
      · simp [same]
      · have different : ¬ key = entry.1 := fun equal => same equal.symm
        rw [if_neg same, List.map_cons, ih]
        rw [List.map_cons]
        by_cases later : key ∈ rest.map Prod.fst
        · rw [if_pos later, if_pos (List.mem_cons_of_mem _ later)]
        · rw [if_neg later, if_neg, List.cons_append]
          rw [List.mem_cons, not_or]
          exact ⟨different, later⟩

/-- Change the value of a key in its place, or insert it at the end. -/
def alter
    (map : InsertionMap Key Value) (key : Key)
    (change : Option Value → Value) : InsertionMap Key Value where
  entries := alterEntries key change map.entries
  distinct := by
    rw [keys_alterEntries]
    split
    · exact map.distinct
    · rename_i absent
      apply map.distinct.append (List.nodup_singleton key)
      rw [List.disjoint_singleton]
      exact absent

theorem keys_alter :
    (map.alter key change).keys =
      if key ∈ map.keys then map.keys else map.keys ++ [key] :=
  keys_alterEntries

theorem find_alterEntries_self :
    ((alterEntries key change entries).find? (·.1 = key)).map Prod.snd =
      some (change ((entries.find? (·.1 = key)).map Prod.snd)) := by
  induction entries with
  | nil => simp [alterEntries]
  | cons entry rest ih =>
      rw [alterEntries]
      by_cases same : entry.1 = key
      · rw [if_pos same, List.find?_cons_of_pos (by simp),
          List.find?_cons_of_pos (by simpa using same)]
        rfl
      · rw [if_neg same, List.find?_cons_of_neg (by simpa using same),
          List.find?_cons_of_neg (by simpa using same),
          ih]

theorem find_alterEntries_other (different : other ≠ key) :
    (alterEntries key change entries).find? (·.1 = other) =
      entries.find? (·.1 = other) := by
  induction entries with
  | nil => simp [alterEntries, different.symm]
  | cons entry rest ih =>
      rw [alterEntries]
      by_cases same : entry.1 = key
      · rw [if_pos same, List.find?_cons_of_neg (by simpa using different.symm),
          List.find?_cons_of_neg (by simpa [same] using different.symm)]
      · rw [if_neg same, List.find?_cons, List.find?_cons, ih]

@[simp]
theorem get_alter_self :
    (map.alter key change).get key = some (change (map.get key)) :=
  find_alterEntries_self

theorem get_alter_other (different : other ≠ key) :
    (map.alter key change).get other = map.get other :=
  congrArg _ (find_alterEntries_other different)

theorem find_eq_some
    (distinct : (entries.map Prod.fst).Nodup) {entry : Key × Value} :
    entries.find? (·.1 = key) = some entry ↔
      entry ∈ entries ∧ entry.1 = key := by
  constructor
  · intro found
    exact
      ⟨List.mem_of_find?_eq_some found, by simpa using List.find?_some found⟩
  · rintro ⟨listed, rfl⟩
    cases found : entries.find? (·.1 = entry.1) with
    | none => simpa using List.find?_eq_none.1 found entry listed
    | some other =>
        have same : other.1 = entry.1 := by
          simpa using List.find?_some found
        rw [List.inj_on_of_nodup_map distinct
          (List.mem_of_find?_eq_some found) listed same]

theorem get_eq_some {value : Value} :
    map.get key = some value ↔ (key, value) ∈ map.entries := by
  rw [get, Option.map_eq_some_iff]
  constructor
  · rintro ⟨entry, found, rfl⟩
    rcases (find_eq_some map.distinct).1 found with ⟨listed, rfl⟩
    exact listed
  · intro listed
    exact ⟨(key, value), (find_eq_some map.distinct).2 ⟨listed, rfl⟩, rfl⟩

theorem get_eq_none :
    map.get key = none ↔ ∀ entry ∈ map.entries, entry.1 ≠ key := by
  rw [get, Option.map_eq_none_iff, List.find?_eq_none]
  simp

theorem filter_of_nodup (distinct : (entries.map Prod.fst).Nodup) :
    entries.filter (·.1 = key) = (entries.find? (·.1 = key)).toList := by
  induction entries with
  | nil => rfl
  | cons entry rest ih =>
      rw [List.map_cons, List.nodup_cons] at distinct
      by_cases same : entry.1 = key
      · have none : rest.filter (·.1 = key) = [] := by
          apply List.filter_eq_nil_iff.2
          intro other listed
          rw [decide_eq_true_eq]
          rintro rfl
          exact distinct.1 (same ▸ List.mem_map_of_mem listed)
        rw [List.filter_cons_of_pos (by simpa using same), none,
          List.find?_cons_of_pos (by simpa using same)]
        rfl
      · rw [List.filter_cons_of_neg (by simpa using same),
          List.find?_cons_of_neg (by simpa using same)]
        exact ih distinct.2

theorem alterEntries_of_absent (absent : ∀ entry ∈ entries, entry.1 ≠ key) :
    alterEntries key change entries = entries ++ [(key, change none)] := by
  induction entries with
  | nil => rfl
  | cons entry rest ih =>
      rw [List.forall_mem_cons] at absent
      rw [alterEntries, if_neg absent.1, ih absent.2, List.cons_append]

theorem entries_alter_of_absent (absent : map.get key = none) :
    (map.alter key change).entries = map.entries ++ [(key, change none)] :=
  alterEntries_of_absent (get_eq_none.1 absent)

/-- What the entries of a map become by a change which keeps a reading of
them. -/
theorem map_alterEntries
    {Reading : Type} {read : Key × Value → Reading}
    (kept : ∀ value, (key, value) ∈ entries →
        read (key, change (some value)) = read (key, value))
    (present : ∃ value, (key, value) ∈ entries) :
    (alterEntries key change entries).map read = entries.map read := by
  induction entries with
  | nil =>
      rcases present with ⟨value, listed⟩
      cases listed
  | cons entry rest ih =>
      rcases entry with ⟨first, value⟩
      rw [alterEntries]
      by_cases same : first = key
      · subst same
        rw [if_pos rfl, List.map_cons, List.map_cons,
          kept value List.mem_cons_self]
      · rcases present with ⟨other, listed⟩
        have later : (key, other) ∈ rest := by
          rcases List.mem_cons.1 listed with equal | later
          · exact (same (congrArg Prod.fst equal).symm).elim
          · exact later
        rw [if_neg same, List.map_cons, List.map_cons, ih
          (fun candidate inside =>
              kept candidate (List.mem_cons_of_mem _ inside))
            ⟨other, later⟩]

theorem entries_of_nodup (distinct : (entries.map Prod.fst).Nodup) :
    entries = (entries.map Prod.fst).filterMap fun key =>
        ((entries.find? (·.1 = key)).map Prod.snd).map (key, ·) := by
  induction entries with
  | nil => rfl
  | cons entry rest ih =>
      rw [List.map_cons, List.nodup_cons] at distinct
      rw [List.map_cons, List.filterMap_cons, List.find?_cons_of_pos (by simp)]
      simp only [Option.map_some, List.cons.injEq, true_and]
      have unchanged : ∀ key ∈ rest.map Prod.fst,
          ((rest.find? (·.1 = key)).map Prod.snd).map (key, ·) =
            (((entry :: rest).find? (·.1 = key)).map Prod.snd).map
              (key, ·) := by
        intro key member
        rw [List.find?_cons_of_neg]
        rw [decide_eq_true_eq]
        rintro rfl
        exact distinct.1 member
      calc
        rest =
            (rest.map Prod.fst).filterMap fun key =>
              ((rest.find? (·.1 = key)).map Prod.snd).map (key, ·) :=
          ih distinct.2
        _ = _ := List.filterMap_congr unchanged

theorem entries_eq (map : InsertionMap Key Value) :
    map.entries = map.keys.filterMap fun key => (map.get key).map (key, ·) :=
  entries_of_nodup map.distinct

theorem eq_of_get
    {first second : InsertionMap Key Value}
    (sameKeys : first.keys = second.keys)
    (sameValues : ∀ key ∈ first.keys, first.get key = second.get key) :
    first = second := by
  apply InsertionMap.ext
  rw [entries_eq, entries_eq, ← sameKeys]
  apply List.filterMap_congr
  intro key member
  rw [sameValues key member]

theorem nodup_eraseDups {keys : List Key} : keys.eraseDups.Nodup := by
  induction total : keys.length using Nat.strong_induction_on
    generalizing keys with
  | _ total ih =>
      cases keys with
      | nil => exact List.nodup_nil
      | cons key rest =>
          subst total
          rw [List.eraseDups_cons, List.nodup_cons]
          refine ⟨?_, ih _ ?_ rfl⟩
          · rw [List.mem_eraseDups]
            simp
          · exact Nat.lt_succ_of_le (List.length_filter_le _ _)

theorem eraseDups_of_nodup
    {keys : List Key} (distinct : keys.Nodup) : keys.eraseDups = keys := by
  induction keys with
  | nil => rfl
  | cons key rest ih =>
      rw [List.nodup_cons] at distinct
      rw [List.eraseDups_cons, List.filter_eq_self.2, ih distinct.2]
      intro other listed
      simp only [Bool.not_eq_true', beq_eq_false_iff_ne]
      rintro rfl
      exact distinct.1 listed

theorem eraseDups_map
    {Name : Type} [DecidableEq Name] {name : Key → Name} (keys : List Key)
    (apart : ∀ first ∈ keys, ∀ second ∈ keys, name first = name second →
        first = second) :
    (keys.map name).eraseDups = keys.eraseDups.map name := by
  induction total : keys.length using Nat.strong_induction_on
    generalizing keys with
  | _ total ih =>
      cases keys with
      | nil => rfl
      | cons key rest =>
          subst total
          have others :
              (rest.map name).filter (fun other => !(other == name key)) =
                (rest.filter fun other => !(other == key)).map name := by
            rw [List.filter_map]
            congr 1
            apply List.filter_congr
            intro other listed
            by_cases same : other = key
            · rw [Function.comp_apply, same, beq_self_eq_true, beq_self_eq_true]
            · have renamed : name other ≠ name key := fun equal =>
                same (apart other (List.mem_cons_of_mem _ listed) key
                    List.mem_cons_self equal)
              rw [Function.comp_apply, beq_false_of_ne same,
                beq_false_of_ne renamed]
          rw [List.map_cons, List.eraseDups_cons, List.eraseDups_cons,
            others, List.map_cons,
            ih _ (Nat.lt_succ_of_le (List.length_filter_le _ _)) _ ?_ rfl]
          intro first firstListed second secondListed
          exact apart first
            (List.mem_cons_of_mem _ (List.mem_of_mem_filter firstListed))
            second
            (List.mem_cons_of_mem _ (List.mem_of_mem_filter secondListed))

/-- What the elements of a list make of nothing, one after another. -/
def accumulate (step : Item → Option Value → Value) (items : List Item) :
    Option Value :=
  items.foldl (fun value item => some (step item value)) none

/-- Enter the elements of a list under their keys. -/
def gather
    (key : Item → Key) (step : Item → Option Value → Value)
    (items : List Item) : InsertionMap Key Value :=
  items.foldl (fun map item => map.alter (key item) (step item)) empty

variable
  {keyOf : Item → Key} {step : Item → Option Value → Value}
  {items : List Item}

theorem gather_snoc (item : Item) :
    gather keyOf step (items ++ [item]) =
      (gather keyOf step items).alter (keyOf item) (step item) := by
  unfold gather
  rw [List.foldl_append]
  rfl

theorem keys_gather :
    (gather keyOf step items).keys = (items.map keyOf).eraseDups := by
  induction items using List.reverseRecOn with
  | nil => rfl
  | append_singleton items item ih =>
      rw [gather_snoc, keys_alter, ih, List.map_append, List.eraseDups_append]
      by_cases known : keyOf item ∈ items.map keyOf
      · have dropped : [keyOf item].removeAll (items.map keyOf) = [] := by
          simpa [List.removeAll] using known
        rw [if_pos (List.mem_eraseDups.2 known), List.map_singleton,
          dropped, List.eraseDups_nil, List.append_nil]
      · rw [if_neg (fun member => known (List.mem_eraseDups.1 member))]
        have kept : [keyOf item].removeAll (items.map keyOf) = [keyOf item] := by
          simpa [List.removeAll] using known
        rw [List.map_singleton, kept]
        rfl

theorem get_gather (key : Key) :
    (gather keyOf step items).get key =
      accumulate step (items.filter (keyOf · = key)) := by
  induction items using List.reverseRecOn with
  | nil => rfl
  | append_singleton items item ih =>
      rw [gather_snoc, List.filter_append]
      by_cases same : keyOf item = key
      · subst same
        rw [get_alter_self, ih, List.filter_cons_of_pos (by simp)]
        simp [accumulate, List.foldl_append]
      · have different : key ≠ keyOf item := fun equal => same equal.symm
        rw [get_alter_other different, ih,
          List.filter_cons_of_neg (by simpa using same)]
        simp

theorem values_gather :
    (gather keyOf step items).values =
      (items.map keyOf).eraseDups.filterMap fun key =>
        accumulate step (items.filter (keyOf · = key)) := by
  rw [values, entries_eq, keys_gather, List.map_filterMap]
  apply List.filterMap_congr
  intro key _
  rw [get_gather, Option.map_map]
  exact Option.map_id'

theorem values_gather_rename
    {Name : Type} [DecidableEq Name] {name : Key → Name}
    (apart : ∀ first ∈ items, ∀ second ∈ items,
        name (keyOf first) = name (keyOf second) → keyOf first = keyOf second) :
    (gather (fun item => name (keyOf item)) step items).values =
      (gather keyOf step items).values := by
  have renamed : (items.map fun item => name (keyOf item)).eraseDups =
        (items.map keyOf).eraseDups.map name := by
    rw [← eraseDups_map, List.map_map]
    · rfl
    · intro first firstListed second secondListed
      rcases List.mem_map.1 firstListed with ⟨item, member, rfl⟩
      rcases List.mem_map.1 secondListed with ⟨other, otherMember, rfl⟩
      exact apart item member other otherMember
  rw [values_gather, values_gather, renamed, List.filterMap_map]
  apply List.filterMap_congr
  intro key listed
  rcases List.mem_map.1 (List.mem_eraseDups.1 listed) with
    ⟨holder, member, rfl⟩
  rw [Function.comp_apply]
  congr 1
  apply List.filter_congr
  intro item here
  apply decide_eq_decide.2
  constructor
  · exact apart item here holder member
  · exact congrArg name

theorem accumulate_snoc (item : Item) :
    accumulate step (items ++ [item]) =
      some (step item (accumulate step items)) := by
  rw [accumulate, List.foldl_append]
  rfl

theorem perm_eraseDups
    {keys others : List Key} (perm : others.Perm keys) :
    others.eraseDups.Perm keys.eraseDups := by
  apply (List.perm_ext_iff_of_nodup nodup_eraseDups nodup_eraseDups).2
  intro key
  rw [List.mem_eraseDups, List.mem_eraseDups, perm.mem_iff]

end InsertionMap

end Eris.Foundation
