import Mathlib

/-!
# A set stored as a list with a one-based inverse index

The members stand in a list without duplicates, and every element maps to its
position plus one, or to zero when it is not a member.  Adding pushes at the
end; removing overwrites the removed member with the last one and pops, so
both take constant time and the order is unstable.

`Inverse` is the single invariant: it already forces the list to be free of
duplicates and the index to vanish exactly off the list.
-/

namespace Eris.Foundation.IndexedSet

variable {Member : Type} [DecidableEq Member]

/-- The index is the one-based inverse of the list. -/
def Inverse (members : List Member) (index : Member → Nat) : Prop :=
  ∀ member place, index member = place + 1 ↔ members[place]? = some member

/-- Append a member and record its place. -/
def push
    (members : List Member) (index : Member → Nat) (added : Member) :
    List Member × (Member → Nat) :=
  (members ++ [added], Function.update index added (members ++ [added]).length)

/--
Overwrite the removed member by the last one, pop, and clear its index.
Nothing is returned when the list is empty or the index points past its end.
-/
def swapRemove
    (members : List Member) (index : Member → Nat) (removed : Member) :
    Option (List Member × (Member → Nat)) :=
  match members.getLast? with
  | none => none
  | some last =>
      if index removed - 1 < members.length then
        some ((members.set (index removed - 1) last).dropLast, Function.update
            (Function.update index last (index removed))
            removed 0)
      else none

/--
Make one element a member exactly when it is wanted, touching nothing when
it already is as wanted.
-/
def setMembership
    (members : List Member) (index : Member → Nat)
    (wanted : Prop) [Decidable wanted] (element : Member) :
    Option (List Member × (Member → Nat)) :=
  if wanted ∧ index element = 0 then some (push members index element)
  else if ¬ wanted ∧ index element ≠ 0 then
    swapRemove members index element
  else some (members, index)

section Consequences

omit [DecidableEq Member]

variable {members : List Member} {index : Member → Nat}

theorem Inverse.empty :
    Inverse ([] : List Member) (fun _ => 0) := by
  intro member place
  simp

theorem Inverse.mem_iff
    (inverse : Inverse members index) (member : Member) :
    member ∈ members ↔ index member ≠ 0 := by
  rw [List.mem_iff_getElem?]
  constructor
  · rintro ⟨place, found⟩
    have placed := (inverse member place).mpr found
    omega
  · intro nonzero
    obtain ⟨place, placed⟩ := Nat.exists_eq_succ_of_ne_zero nonzero
    exact ⟨place, (inverse member place).mp placed⟩

theorem Inverse.nodup (inverse : Inverse members index) :
    members.Nodup := by
  rw [List.nodup_iff_getElem?_ne_getElem?]
  intro first second ordered inside same
  have present := List.getElem?_eq_getElem inside
  have atSecond := (inverse _ second).mpr present
  have atFirst := (inverse _ first).mpr (same.trans present)
  omega

theorem getElem?_swapPop
    (members : List Member) (hole place : Nat) (last : Member) :
    ((members.set hole last).dropLast)[place]? =
      if place < members.length - 1 then
        if hole = place then some last else members[place]?
      else none := by
  rw [List.getElem?_dropLast, List.length_set, List.getElem?_set]
  split
  · next inside =>
      split
      · next here =>
          rw [if_pos (by omega)]
      · rfl
  · rfl

end Consequences

variable {members : List Member} {index : Member → Nat}
    {removed : Member} {result : List Member × (Member → Nat)}

theorem Inverse.push
    {added : Member} (inverse : Inverse members index)
    (fresh : index added = 0) :
    Inverse (IndexedSet.push members index added).1
      (IndexedSet.push members index added).2 := by
  intro member place
  simp only [IndexedSet.push, List.getElem?_append,
    List.length_append, List.length_singleton]
  by_cases isAdded : member = added
  · subst member
    have absent : members[place]? ≠ some added := by
      intro found
      have placed := (inverse added place).mpr found
      omega
    rw [Function.update_self]
    split
    · next inside =>
        simp only [absent, iff_false]
        omega
    · next outside =>
        rw [List.getElem?_singleton]
        split <;> simp <;> omega
  · rw [Function.update_of_ne isAdded, inverse]
    split
    · rfl
    · next outside =>
        rw [List.getElem?_eq_none (by omega), List.getElem?_singleton]
        split <;> simp [Ne.symm isAdded]

@[simp]
theorem mem_push {added member : Member} :
    member ∈ (push members index added).1 ↔
      member ∈ members ∨ member = added := by
  simp [push]

theorem swapRemove_eq_some
    {hole : Nat} (placed : index removed = hole + 1)
    (done : swapRemove members index removed = some result) :
    ∃ last, members.getLast? = some last ∧ result =
        ((members.set hole last).dropLast,
          Function.update (Function.update index last (hole + 1))
            removed 0) := by
  unfold swapRemove at done
  cases lastEq : members.getLast? with
  | none => simp [lastEq] at done
  | some last =>
      simp only [lastEq, placed, Nat.add_sub_cancel] at done
      split at done
      · exact ⟨last, rfl, (Option.some.inj done).symm⟩
      · simp at done

theorem Inverse.swapPop
    {last : Member} {hole : Nat} (inverse : Inverse members index)
    (placed : index removed = hole + 1)
    (lastEq : members.getLast? = some last) :
    Inverse (members.set hole last).dropLast
      (Function.update (Function.update index last (hole + 1)) removed 0) := by
  have atHole : members[hole]? = some removed :=
    (inverse removed hole).mp placed
  have atLast : members[members.length - 1]? = some last := by
    rw [← List.getLast?_eq_getElem?]
    exact lastEq
  have inside : hole < members.length := (List.getElem?_eq_some_iff.mp atHole).1
  have lastIndex : index last = members.length - 1 + 1 :=
    (inverse last _).mpr atLast
  intro member place
  rw [getElem?_swapPop]
  by_cases isRemoved : member = removed
  · subst member
    rw [Function.update_self]
    have gone : ¬ ((if place < members.length - 1 then
              if hole = place then some last else members[place]?
            else none) = some removed) := by
      intro found
      split at found
      · split at found
        · have same : last = removed := Option.some.inj found
          rw [same, placed] at lastIndex
          omega
        · have elsewhere := (inverse removed place).mpr found
          omega
      · simp at found
    simp only [gone, iff_false]
    omega
  · rw [Function.update_of_ne isRemoved]
    by_cases isLast : member = last
    · subst member
      rw [Function.update_self]
      have notHole : hole ≠ members.length - 1 := by
        intro same
        rw [same, atLast] at atHole
        exact isRemoved (Option.some.inj atHole)
      constructor
      · intro here
        rw [if_pos (by omega), if_pos (by omega)]
      · intro found
        split at found
        · split at found
          · omega
          · have elsewhere := (inverse last place).mpr found
            omega
        · simp at found
    · rw [Function.update_of_ne isLast, inverse]
      constructor
      · intro found
        have bounded : place < members.length :=
          (List.getElem?_eq_some_iff.mp found).1
        have notLast : place ≠ members.length - 1 := by
          intro same
          rw [same, atLast] at found
          exact isLast (Option.some.inj found).symm
        have notHole : hole ≠ place := by
          intro same
          rw [← same, atHole] at found
          exact isRemoved (Option.some.inj found).symm
        rw [if_pos (by omega), if_neg notHole]
        exact found
      · intro found
        split at found
        · split at found
          · exact absurd (Option.some.inj found).symm isLast
          · exact found
        · simp at found

theorem Inverse.swapRemove
    (inverse : Inverse members index) (present : index removed ≠ 0)
    (done : IndexedSet.swapRemove members index removed = some result) :
    Inverse result.1 result.2 ∧
      ∀ member, member ∈ result.1 ↔ member ∈ members ∧ member ≠ removed := by
  obtain ⟨hole, placed⟩ := Nat.exists_eq_succ_of_ne_zero present
  obtain ⟨last, lastEq, rfl⟩ := swapRemove_eq_some placed done
  have inverse' := inverse.swapPop placed lastEq
  refine ⟨inverse', fun member => ?_⟩
  have lastPresent : index last ≠ 0 :=
    (inverse.mem_iff last).mp (List.mem_of_getLast? lastEq)
  rw [inverse'.mem_iff, inverse.mem_iff]
  by_cases isRemoved : member = removed
  · simp [isRemoved]
  · rw [Function.update_of_ne isRemoved]
    by_cases isLast : member = last
    · subst member
      simp [isRemoved, lastPresent]
    · rw [Function.update_of_ne isLast]
      simp [isRemoved]

theorem Inverse.setMembership
    {wanted : Prop} [Decidable wanted] {element : Member}
    (inverse : Inverse members index)
    (done :
      IndexedSet.setMembership members index wanted element = some result) :
    Inverse result.1 result.2 ∧ ∀ member, member ∈ result.1 ↔
        if member = element then wanted else member ∈ members := by
  unfold IndexedSet.setMembership at done
  split at done
  · next added =>
      have equal := Option.some.inj done
      subst equal
      refine ⟨inverse.push added.2, fun member => ?_⟩
      rw [mem_push]
      split
      · next here => simp [here, added.1]
      · next elsewhere => simp [elsewhere]
  · next notAdded =>
      split at done
      · next removed =>
          have kept := inverse.swapRemove removed.2 done
          refine ⟨kept.1, fun member => ?_⟩
          rw [kept.2]
          split
          · next here => simp [here, removed.1]
          · next elsewhere => simp [elsewhere]
      · next notRemoved =>
          have equal := Option.some.inj done
          subst equal
          refine ⟨inverse, fun member => ?_⟩
          split
          · next here =>
              subst member
              rw [inverse.mem_iff]
              tauto
          · rfl

section FirstPlaces

variable {keys : List Member}

/-- The index points one past the first place of every element. -/
def FirstPlaces (keys : List Member) (index : Member → Nat) : Prop :=
  ∀ key place, index key = place + 1 ↔ keys.idxOf? key = some place

theorem FirstPlaces.empty :
    FirstPlaces ([] : List Member) (fun _ => 0) := by
  intro key place
  simp

theorem FirstPlaces.mem_iff
    (first : FirstPlaces keys index) (key : Member) :
    key ∈ keys ↔ index key ≠ 0 := by
  constructor
  · intro member
    rcases Option.isSome_iff_exists.mp
      ((List.isSome_idxOf?).mpr member) with ⟨place, found⟩
    have placed := (first key place).mpr found
    omega
  · intro nonzero
    obtain ⟨place, placed⟩ := Nat.exists_eq_succ_of_ne_zero nonzero
    have found := (first key place).mp placed
    exact List.isSome_idxOf?.mp (Option.isSome_iff_exists.mpr ⟨_, found⟩)

omit [DecidableEq Member] in
theorem idxOf?_append_singleton
    [BEq Member] (keys : List Member) (added key : Member) :
    (keys ++ [added]).idxOf? key = (keys.idxOf? key).or
        (if added == key then some keys.length else none) := by
  show List.findIdx? (· == key) (keys ++ [added]) = _
  rw [List.findIdx?_append, List.findIdx?_singleton]
  congr 1
  split
  · simp
  · rfl

theorem FirstPlaces.push
    (first : FirstPlaces keys index) (added : Member) :
    FirstPlaces (keys ++ [added]) (if index added = 0 then
        Function.update index added (keys ++ [added]).length
      else index) := by
  intro key place
  rw [idxOf?_append_singleton]
  by_cases known : index added = 0
  · have fresh : added ∉ keys :=
      fun member => (first.mem_iff added).mp member known
    rw [if_pos known]
    by_cases same : key = added
    · subst same
      rw [Function.update_self, List.idxOf?_eq_none_iff.mpr fresh,
        Option.none_or, if_pos (beq_self_eq_true key),
        Option.some.injEq, List.length_append, List.length_singleton,
        Nat.add_right_cancel_iff]
    · rw [Function.update_of_ne same, first,
        if_neg (by simpa using Ne.symm same), Option.or_none]
  · have old : added ∈ keys := (first.mem_iff added).mpr known
    rw [if_neg known, first]
    by_cases same : added = key
    · subst same
      rcases Option.isSome_iff_exists.mp (List.isSome_idxOf?.mpr old) with
        ⟨earlier, found⟩
      rw [found, Option.some_or]
    · rw [if_neg (by simpa using same), Option.or_none]

end FirstPlaces

end Eris.Foundation.IndexedSet
