import Eris.Foundation.InsertionMap

/-!
# Bounding a backlog

A backlog which is in drain order is bounded per creator and in total.  Each
creator keeps its first items; if what is left is still too much, the
creators with the most are cut down to a common level.  Exempt items are
kept.  What is kept is in its order, and everything else is counted as
dropped.
-/

namespace Eris.Registry.Capacity

open Foundation

variable {Item : Type}

/-- The highest level in a range whose sum fits, by bisection. -/
def level (levelSum : Nat → Nat) (total lo hi : Nat) : Nat :=
  if lo < hi then
    if levelSum ((lo + hi + 1) / 2) ≤ total then
      level levelSum total ((lo + hi + 1) / 2) hi
    else level levelSum total lo ((lo + hi + 1) / 2 - 1)
  else lo
termination_by hi - lo
decreasing_by all_goals omega

/-- How many items each creator has, in the order of first appearance. -/
def countByCreator (creatorKey : Item → String) (items : List Item) :
    InsertionMap String Nat :=
  InsertionMap.gather creatorKey (fun _ count => count.getD 0 + 1) items

/-- Hand the slots left over to the earlier creators above a level. -/
def spread (level : Nat) :
    Nat → List (String × Nat) → List (String × Nat)
  | _, [] => []
  | spare, (creator, count) :: rest =>
      if level < count ∧ 0 < spare then
        (creator, min count level + 1) :: spread level (spare - 1) rest
      else (creator, min count level) :: spread level spare rest

/-- How many items each creator may keep. -/
def allowances
    (perCreator total : Nat) (counts : List (String × Nat)) :
    List (String × Nat) :=
  let allowance := counts.map fun entry => (entry.1, min entry.2 perCreator)
  if total < (allowance.map Prod.snd).sum then
    let levelSum := fun level =>
      (allowance.map fun entry => min entry.2 level).sum
    let lo := level levelSum total 0 perCreator
    spread lo (total - levelSum lo) allowance
  else allowance

/-- Keep what is exempt or allowed; the rest is dropped. -/
def keepAllowed (creatorKey : Item → String) (exempt : Item → Bool) :
    (String → Nat) → List Item → List Item × List Item
  | _, [] => ([], [])
  | left, item :: rest =>
      if exempt item then
        let after := keepAllowed creatorKey exempt left rest
        (item :: after.1, after.2)
      else if 0 < left (creatorKey item) then
        let after := keepAllowed creatorKey exempt
            (Function.update left (creatorKey item)
              (left (creatorKey item) - 1))
            rest
        (item :: after.1, after.2)
      else
        let after := keepAllowed creatorKey exempt left rest
        (after.1, item :: after.2)

/-- `capByCreator`: what is kept, and what is dropped. -/
def capByCreator
    (perCreator total : Nat) (creatorKey : Item → String)
    (exempt : Item → Bool) (items : List Item) : List Item × List Item :=
  let counts :=
    countByCreator creatorKey (items.filter fun item => !exempt item)
  let allowance := allowances perCreator total counts.entries
  keepAllowed creatorKey exempt
    (fun creator => (allowance.lookup creator).getD 0) items

variable {creatorKey : Item → String} {exempt : Item → Bool}
    {left : String → Nat} {items : List Item}

theorem keepAllowed_perm :
    ((keepAllowed creatorKey exempt left items).1 ++
      (keepAllowed creatorKey exempt left items).2).Perm items := by
  induction items generalizing left with
  | nil => exact List.Perm.refl _
  | cons item rest ih =>
      unfold keepAllowed
      split
      · exact ih.cons item
      · split
        · exact ih.cons item
        · exact List.perm_middle.trans (ih.cons item)

theorem keepAllowed_sublist :
    (keepAllowed creatorKey exempt left items).1.Sublist items := by
  induction items generalizing left with
  | nil => exact List.Sublist.refl _
  | cons item rest ih =>
      unfold keepAllowed
      split
      · exact ih.cons_cons item
      · split
        · exact ih.cons_cons item
        · exact ih.cons item

theorem capByCreator_perm (perCreator total : Nat) :
    ((capByCreator perCreator total creatorKey exempt items).1 ++
      (capByCreator perCreator total creatorKey exempt items).2).Perm
      items :=
  keepAllowed_perm

theorem capByCreator_sublist (perCreator total : Nat) :
    (capByCreator perCreator total creatorKey exempt items).1.Sublist items :=
  keepAllowed_sublist

/-- How many items were dropped, summed over the creators. -/
def droppedTotal (creatorKey : Item → String) (dropped : List Item) : Nat :=
  (countByCreator creatorKey dropped).values.sum

theorem sum_alterEntries (key : String) (entries : List (String × Nat)) :
    ((InsertionMap.alterEntries key (fun count => count.getD 0 + 1)
        entries).map Prod.snd).sum =
      (entries.map Prod.snd).sum + 1 := by
  induction entries with
  | nil => rfl
  | cons entry rest ih =>
      unfold InsertionMap.alterEntries
      split
      · simp only [List.map_cons, List.sum_cons, Option.getD_some]
        omega
      · simp only [List.map_cons, List.sum_cons, ih]
        omega

theorem droppedTotal_eq (dropped : List Item) :
    droppedTotal creatorKey dropped = dropped.length := by
  induction dropped using List.reverseRecOn with
  | nil => rfl
  | append_singleton items item ih =>
      unfold droppedTotal countByCreator at *
      rw [InsertionMap.gather_snoc, List.length_append, ← ih]
      exact sum_alterEntries _ _

end Eris.Registry.Capacity
