import Eris.Foundation.Json

/-!
# Canonical JSON

`core/src/competition/schedule.ts`, `canonicalJson`: the text a commitment is
made to.  The members of every object are written in the order of their keys,
without blanks, so the text does not depend on the order in which a file
listed them.
-/

namespace Eris.Competition.CanonicalJson

open Foundation Foundation.Json

variable {Key Scalar : Type} [LinearOrder Key]

structure Stringify (Key Scalar : Type) where
  scalar : Scalar → String
  key : Key → String

variable (stringify : Stringify Key Scalar)

/-- A member of an object, with its value written already. -/
def memberText (member : Key × String) : String :=
  stringify.key member.1 ++ ":" ++ member.2

mutual

/-- The text of a document: object keys sorted at every level. -/
def canonicalJson : Json Key Scalar → String
  | .scalar value => stringify.scalar value
  | .array items => "[" ++ ",".intercalate (canonicalItems items) ++ "]"
  | .object members =>
      "\x7b" ++
        ",".intercalate
          ((sortMembers (canonicalMembers members)).map
            (memberText stringify)) ++
        "\x7d"

def canonicalItems : List (Json Key Scalar) → List String
  | [] => []
  | item :: items => canonicalJson item :: canonicalItems items

/-- The keys of an object with the texts of their values. -/
def canonicalMembers : List (Key × Json Key Scalar) → List (Key × String)
  | [] => []
  | (key, value) :: members =>
      (key, canonicalJson value) :: canonicalMembers members

end

theorem canonicalMembers_eq_map (members : List (Key × Json Key Scalar)) :
    canonicalMembers stringify members = members.map fun member =>
        (member.1, canonicalJson stringify member.2) := by
  induction members with
  | nil => rfl
  | cons member members ih =>
      rw [canonicalMembers, ih, List.map_cons]

theorem canonicalMembers_keys (members : List (Key × Json Key Scalar)) :
    (canonicalMembers stringify members).map Prod.fst =
      members.map Prod.fst := by
  rw [canonicalMembers_eq_map, List.map_map]
  rfl

theorem canonicalJson_object_perm
    {members others : List (Key × Json Key Scalar)} (perm : members.Perm others)
    (distinct : (members.map Prod.fst).Nodup) :
    canonicalJson stringify (.object members) =
      canonicalJson stringify (.object others) := by
  have sorted : sortMembers (canonicalMembers stringify members) =
      sortMembers (canonicalMembers stringify others) := by
    apply sortMembers_eq
    · rw [canonicalMembers_eq_map, canonicalMembers_eq_map]
      exact perm.map _
    · rw [canonicalMembers_keys]
      exact distinct
  rw [canonicalJson, canonicalJson, sorted]

mutual

theorem canonicalJson_reordered
    {document other : Json Key Scalar} :
    Reordered document other →
      canonicalJson stringify document = canonicalJson stringify other
  | .scalar value => rfl
  | .array same => by
      rw [canonicalJson, canonicalJson, canonicalItems_reordered same]
  | .object same perm distinct => by
      rw [← canonicalJson_object_perm stringify perm distinct,
        canonicalJson, canonicalJson, canonicalMembers_reordered same]

theorem canonicalItems_reordered
    {items others : List (Json Key Scalar)} :
    ReorderedItems items others →
      canonicalItems stringify items = canonicalItems stringify others
  | .nil => rfl
  | .cons first rest => by
      rw [canonicalItems, canonicalItems, canonicalJson_reordered first,
        canonicalItems_reordered rest]

theorem canonicalMembers_reordered
    {members others : List (Key × Json Key Scalar)} :
    ReorderedMembers members others →
      canonicalMembers stringify members = canonicalMembers stringify others
  | .nil => rfl
  | .cons first rest => by
      rw [canonicalMembers, canonicalMembers,
        canonicalJson_reordered first, canonicalMembers_reordered rest]

end

end Eris.Competition.CanonicalJson
