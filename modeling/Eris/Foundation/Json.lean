import Mathlib

/-!
# Documents of nested arrays and objects

A document is a scalar, an array of documents, or an object whose members are
documents under keys, listed in some order.  Two documents are reorderings of
each other when they differ in the order of the members of their objects only.
-/

namespace Eris.Foundation

/-- A document: a scalar, an array or an object. -/
inductive Json (Key Scalar : Type) where
  | scalar (value : Scalar)
  | array (items : List (Json Key Scalar))
  | object (members : List (Key × Json Key Scalar))

namespace Json

variable {Key Scalar Value : Type}

mutual

/-- Two documents differ in the order of the members of objects only. -/
inductive Reordered : Json Key Scalar → Json Key Scalar → Prop
  | scalar (value : Scalar) : Reordered (.scalar value) (.scalar value)
  | array {items others : List (Json Key Scalar)}
      (same : ReorderedItems items others) :
      Reordered (.array items) (.array others)
  | object {members middle others : List (Key × Json Key Scalar)}
      (same : ReorderedMembers members middle)
      (perm : middle.Perm others)
      (distinct : (middle.map Prod.fst).Nodup) :
      Reordered (.object members) (.object others)

/-- The items of two arrays are reorderings of each other, one by one. -/
inductive ReorderedItems :
    List (Json Key Scalar) → List (Json Key Scalar) → Prop
  | nil : ReorderedItems [] []
  | cons {item other : Json Key Scalar} {items others : List (Json Key Scalar)}
      (first : Reordered item other)
      (rest : ReorderedItems items others) :
      ReorderedItems (item :: items) (other :: others)

/-- The members of two objects are reorderings of each other, one by one. -/
inductive ReorderedMembers :
    List (Key × Json Key Scalar) → List (Key × Json Key Scalar) → Prop
  | nil : ReorderedMembers [] []
  | cons {key : Key} {value other : Json Key Scalar}
      {members others : List (Key × Json Key Scalar)}
      (first : Reordered value other)
      (rest : ReorderedMembers members others) :
      ReorderedMembers ((key, value) :: members) ((key, other) :: others)

end

variable [LinearOrder Key]

/-- The members of an object in the order of their keys. -/
def sortMembers (members : List (Key × Value)) : List (Key × Value) :=
  members.insertionSort fun first second => first.1 ≤ second.1

instance : Std.Total
    (fun first second : Key × Value => first.1 ≤ second.1) :=
  ⟨fun first second => le_total first.1 second.1⟩

instance : IsTrans (Key × Value) fun first second => first.1 ≤ second.1 :=
  ⟨fun _ _ _ before after => before.trans after⟩

theorem sortMembers_perm (members : List (Key × Value)) :
    (sortMembers members).Perm members :=
  List.perm_insertionSort _ members

theorem sortMembers_eq
    {members others : List (Key × Value)} (perm : members.Perm others)
    (distinct : (members.map Prod.fst).Nodup) :
    sortMembers members = sortMembers others := by
  apply List.Perm.eq_of_pairwise
  · intro first second firstListed secondListed noLater noEarlier
    have firstMember := (sortMembers_perm members).subset firstListed
    have secondMember :=
      perm.symm.subset ((sortMembers_perm others).subset secondListed)
    exact List.inj_on_of_nodup_map distinct firstMember secondMember
      (le_antisymm noLater noEarlier)
  · exact List.pairwise_insertionSort _ members
  · exact List.pairwise_insertionSort _ others
  · exact (sortMembers_perm members).trans
      (perm.trans (sortMembers_perm others).symm)

end Json

end Eris.Foundation
