import Eris.Competition.CanonicalJson
import Eris.Foundation.IntegerText
import Eris.Foundation.JsonString

/-!
# What a commitment determines

`core/src/competition/schedule.ts`, `canonicalJson` and `commitmentOf`.  The
canonical text of a document is the plain text of its normal form, in which
the members of every object stand in the order of their keys.  Plain texts
tell where they end, so a text determines the normal form, and with it the
document up to the order of the members of its objects.

The texts of finite numbers are a parameter; zero has one text, whatever its
sign.
-/

namespace Eris.Competition.Commitment

open Foundation Foundation.Json Foundation.JsonString CanonicalJson

/-! ## Values -/

section Values

variable {Key Scalar : Type}

mutual

/-- Every object of a document lists each of its keys once. -/
def Proper : Json Key Scalar → Prop
  | .scalar _ => True
  | .array items => ProperItems items
  | .object members =>
      (members.map Prod.fst).Nodup ∧ ProperMembers members

def ProperItems : List (Json Key Scalar) → Prop
  | [] => True
  | item :: items => Proper item ∧ ProperItems items

def ProperMembers : List (Key × Json Key Scalar) → Prop
  | [] => True
  | (_, value) :: members => Proper value ∧ ProperMembers members

end

/-- A value: a document whose objects list each of their keys once. -/
structure JsonValue (Key Scalar : Type) where
  document : Json Key Scalar
  proper : Proper document

end Values

/-- A value which is neither an array nor an object. -/
inductive Scalar (Number : Type) where
  | null
  | boolean (value : Bool)
  | number (value : Number)
  | string (value : JsString)

/-- The characters of the text of a number. -/
def numberChar (char : Char) : Bool :=
  char.isDigit || char == '-' || char == '+' || char == '.' || char == 'e'

structure NumberText (Number : Type) where
  text : Number → String
  filled : ∀ number, (text number).toList ≠ []
  plain : ∀ number, ∀ char ∈ (text number).toList, numberChar char = true
  injective : Function.Injective text

/-- Integers are written in base ten. -/
example : NumberText ℤ where
  text value := String.ofList (IntegerText.decimal value)
  filled value := by
    rw [String.toList_ofList]
    exact IntegerText.decimal_ne_nil value
  plain value char written := by
    rw [String.toList_ofList] at written
    rcases IntegerText.of_mem_decimal written with rfl | ⟨digit, small, rfl⟩
    · decide
    · have digits : ∀ digit < 10, numberChar digit.digitChar = true := by
        decide
      exact digits digit small
  injective value other same := by
    have texts := String.ofList_injective same
    have read := IntegerText.readLiteral_decimal value
    rw [texts, IntegerText.readLiteral_decimal other] at read
    exact (Option.some.inj read).symm

variable {Number : Type} (numbers : NumberText Number)

/-- `JSON.stringify` of a value which is neither an array nor an object. -/
def scalarText : Scalar Number → String
  | .null => "null"
  | .boolean true => "true"
  | .boolean false => "false"
  | .number value => numbers.text value
  | .string value => String.ofList (quote value)

/-- `JSON.stringify` of scalars and keys. -/
def jsonStringify : Stringify JsString (Scalar Number) where
  scalar := scalarText numbers
  key key := String.ofList (quote key)

def Stop : List Char → Prop
  | [] => True
  | char :: _ => char = ',' ∨ char = ']' ∨ char = '\x7d'

/-- A character with which the text of a scalar may start. -/
def opener (char : Char) : Prop :=
  char ≠ '[' ∧ char ≠ '\x7b' ∧ char ≠ ',' ∧ char ≠ ']' ∧ char ≠ '\x7d'

/-- The texts of scalars and keys tell where they end. -/
structure Unambiguous
    {Key Scalar : Type} (stringify : Stringify Key Scalar) : Prop where
  key : SelfDelimiting fun key => (stringify.key key).toList
  keyOpened : ∀ key rest other,
    (stringify.key key).toList ++ rest ≠ '\x7d' :: other
  scalar : ∀ first second rest other, Stop rest → Stop other →
    (stringify.scalar first).toList ++ rest =
        (stringify.scalar second).toList ++ other →
      first = second ∧ rest = other
  scalarOpened : ∀ value, ∃ head tail,
    (stringify.scalar value).toList = head :: tail ∧ opener head

theorem not_stop_of_numberChar
    {char : Char} {rest : List Char} (plain : numberChar char = true) :
    ¬ Stop (char :: rest) := by
  rintro (rfl | rfl | rfl) <;> exact absurd plain (by decide)

theorem plain_append
    {first second rest other : List Char}
    (firstPlain : ∀ char ∈ first, numberChar char = true)
    (secondPlain : ∀ char ∈ second, numberChar char = true)
    (stop : Stop rest) (otherStop : Stop other)
    (same : first ++ rest = second ++ other) :
    first = second ∧ rest = other := by
  induction first generalizing second with
  | nil =>
      cases second with
      | nil => exact ⟨rfl, same⟩
      | cons char second =>
          have starts : rest = char :: (second ++ other) := same
          rw [starts] at stop
          exact absurd stop
            (not_stop_of_numberChar (secondPlain char List.mem_cons_self))
  | cons char first ih =>
      rw [List.forall_mem_cons] at firstPlain
      cases second with
      | nil =>
          have starts : char :: (first ++ rest) = other := same
          rw [← starts] at otherStop
          exact absurd otherStop (not_stop_of_numberChar firstPlain.1)
      | cons char' second =>
          rw [List.forall_mem_cons] at secondPlain
          rcases List.cons.inj same with ⟨rfl, sameRest⟩
          rcases ih firstPlain.2 secondPlain.2 sameRest with
            ⟨rfl, equal⟩
          exact ⟨rfl, equal⟩

def Scalar.kind : Scalar Number → Fin 5
  | .null => 0
  | .boolean true => 1
  | .boolean false => 2
  | .number _ => 3
  | .string _ => 4

/-- The kind of the scalars whose texts start with a character. -/
def kindOf (char : Char) : Fin 5 :=
  if char = 'n' then 0
  else if char = 't' then 1
  else if char = 'f' then 2
  else if char = '"' then 4
  else 3

theorem numberChar_opener {char : Char} (plain : numberChar char = true) :
    kindOf char = 3 ∧ opener char := by
  have apart : ∀ other, numberChar other = false → char ≠ other := by
    rintro other foreign rfl
    rw [plain] at foreign
    cases foreign
  constructor
  · rw [kindOf, if_neg (apart 'n' (by decide)),
      if_neg (apart 't' (by decide)), if_neg (apart 'f' (by decide)),
      if_neg (apart '"' (by decide))]
  · exact
      ⟨apart _ (by decide), apart _ (by decide), apart _ (by decide),
        apart _ (by decide), apart _ (by decide)⟩

theorem scalarText_head (value : Scalar Number) :
    ∃ head tail, (scalarText numbers value).toList = head :: tail ∧
        kindOf head = value.kind ∧ opener head := by
  cases value with
  | null =>
      have text : "null".toList = ['n', 'u', 'l', 'l'] := by decide
      exact ⟨_, _, text, rfl, by simp [opener]⟩
  | boolean value =>
      cases value with
      | true =>
          have text : "true".toList = ['t', 'r', 'u', 'e'] := by decide
          exact ⟨_, _, text, rfl, by simp [opener]⟩
      | false =>
          have text : "false".toList = ['f', 'a', 'l', 's', 'e'] := by decide
          exact ⟨_, _, text, rfl, by simp [opener]⟩
  | number value =>
      cases written : (numbers.text value).toList with
      | nil => exact absurd written (numbers.filled value)
      | cons head tail =>
          refine ⟨head, tail, written,
            numberChar_opener (numbers.plain value head ?_)⟩
          rw [written]
          exact List.mem_cons_self
  | string value =>
      refine
        ⟨'"', value.units.flatMap escape ++ ['"'], ?_, rfl, by simp [opener]⟩
      rw [scalarText, String.toList_ofList, quote]
      rfl

theorem scalarText_delimiting
    {first second : Scalar Number} {rest other : List Char}
    (stop : Stop rest) (otherStop : Stop other)
    (same : (scalarText numbers first).toList ++ rest =
        (scalarText numbers second).toList ++ other) :
    first = second ∧ rest = other := by
  have kinds : first.kind = second.kind := by
    rcases scalarText_head numbers first with ⟨head, tail, text, kind, -⟩
    rcases scalarText_head numbers second with
      ⟨head', tail', text', kind', -⟩
    rw [text, text'] at same
    rw [← kind, ← kind', (List.cons.inj same).1]
  cases first with
  | null =>
      cases second with
      | null => exact ⟨rfl, List.append_cancel_left same⟩
      | boolean value => cases value <;> cases kinds
      | number value => cases kinds
      | string value => cases kinds
  | boolean value =>
      cases second with
      | null => cases value <;> cases kinds
      | boolean value' =>
          cases value <;> cases value' <;>
            first
            | exact ⟨rfl, List.append_cancel_left same⟩
            | cases kinds
      | number value' => cases value <;> cases kinds
      | string value' => cases value <;> cases kinds
  | number value =>
      cases second with
      | null => cases kinds
      | boolean value => cases value <;> cases kinds
      | number value' =>
          rcases plain_append (numbers.plain value) (numbers.plain value') stop
            otherStop same with
            ⟨text, equal⟩
          have sameText : numbers.text value = numbers.text value' :=
            String.toList_inj.1 text
          rw [numbers.injective sameText]
          exact ⟨rfl, equal⟩
      | string value => cases kinds
  | string value =>
      cases second with
      | null => cases kinds
      | boolean value => cases value <;> cases kinds
      | number value => cases kinds
      | string value' =>
          rw [scalarText, scalarText, String.toList_ofList,
            String.toList_ofList] at same
          rcases quote_selfDelimiting _ _ _ _ same with ⟨rfl, equal⟩
          exact ⟨rfl, equal⟩

/-- The texts which `JSON.stringify` gives to scalars and keys tell where they
end. -/
theorem jsonStringify_unambiguous : Unambiguous (jsonStringify numbers) where
  key first second rest other same := by
    simp only [jsonStringify, String.toList_ofList] at same
    exact quote_selfDelimiting first second rest other same
  keyOpened key rest other same := by
    rw [jsonStringify, String.toList_ofList, quote] at same
    exact absurd (List.cons.inj same).1 (by decide)
  scalar _ _ _ _ stop otherStop same :=
    scalarText_delimiting numbers stop otherStop same
  scalarOpened value := by
    rcases scalarText_head numbers value with ⟨head, tail, text, -, opens⟩
    exact ⟨head, tail, text, opens⟩

/-! ## Plain texts -/

section Plain

variable {Key Scalar : Type} (stringify : Stringify Key Scalar)

mutual

/-- The text of a document with the members of objects as they stand. -/
def plainText : Json Key Scalar → List Char
  | .scalar value => (stringify.scalar value).toList
  | .array [] => ['[', ']']
  | .array (item :: items) =>
      '[' :: (plainText item ++ (laterItems items ++ [']']))
  | .object [] => ['{', '}']
  | .object ((key, value) :: members) =>
      '{' ::
        ((stringify.key key).toList ++
          ':' :: (plainText value ++ (laterMembers members ++ ['}'])))

/-- The texts of the items after the first one. -/
def laterItems : List (Json Key Scalar) → List Char
  | [] => []
  | item :: items => ',' :: (plainText item ++ laterItems items)

/-- The texts of the members after the first one. -/
def laterMembers : List (Key × Json Key Scalar) → List Char
  | [] => []
  | (key, value) :: members =>
      ',' :: ((stringify.key key).toList ++
          ':' :: (plainText value ++ laterMembers members))

end

theorem laterMembers_eq (members : List (Key × Json Key Scalar)) :
    laterMembers stringify members = members.flatMap fun member =>
        ',' :: ((stringify.key member.1).toList ++
            ':' :: plainText stringify member.2) := by
  induction members with
  | nil => rfl
  | cons member members ih =>
      rw [laterMembers, ih, List.flatMap_cons]
      simp only [List.cons_append, List.append_assoc]

theorem toList_memberText (member : Key × String) :
    (memberText stringify member).toList =
      (stringify.key member.1).toList ++ ':' :: member.2.toList := by
  have colon : ":".toList = [':'] := by decide
  rw [memberText, String.toList_append, String.toList_append, colon,
    List.append_assoc]
  rfl

variable {stringify}

theorem plainText_head
    (unambiguous : Unambiguous stringify) (document : Json Key Scalar) :
    ∃ head tail, plainText stringify document = head :: tail ∧ head ≠ ']' := by
  cases document with
  | scalar value =>
      rcases unambiguous.scalarOpened value with ⟨head, tail, text, opens⟩
      exact ⟨head, tail, text, opens.2.2.2.1⟩
  | array items =>
      cases items with
      | nil => exact ⟨'[', [']'], rfl, by decide⟩
      | cons item items => exact ⟨'[', _, rfl, by decide⟩
  | object members =>
      cases members with
      | nil => exact ⟨'{', ['}'], rfl, by decide⟩
      | cons member members => exact ⟨'{', _, rfl, by decide⟩

theorem stop_laterItems
    (items : List (Json Key Scalar)) (rest : List Char) :
    Stop (laterItems stringify items ++ ']' :: rest) := by
  cases items with
  | nil => exact Or.inr (Or.inl rfl)
  | cons item items => exact Or.inl rfl

theorem stop_laterMembers
    (members : List (Key × Json Key Scalar)) (rest : List Char) :
    Stop (laterMembers stringify members ++ '}' :: rest) := by
  cases members with
  | nil => exact Or.inr (Or.inr rfl)
  | cons member members =>
      rcases member with ⟨key, value⟩
      exact Or.inl rfl

theorem scalar_ne_open
    (unambiguous : Unambiguous stringify) (value : Scalar)
    {open' : Char} (opens : ¬ opener open') (rest other : List Char) :
    (stringify.scalar value).toList ++ rest ≠ open' :: other := by
  intro same
  rcases unambiguous.scalarOpened value with ⟨head, tail, text, fine⟩
  rw [text] at same
  rw [(List.cons.inj same).1] at fine
  exact opens fine

theorem not_opener_bracket : ¬ opener '[' := fun opens => opens.1 rfl

theorem not_opener_brace : ¬ opener '{' := fun opens => opens.2.1 rfl

mutual

/-- The text of a document tells where it ends and what it was. -/
theorem plainText_delimiting (unambiguous : Unambiguous stringify) :
    (first second : Json Key Scalar) → {rest other : List Char} →
      Stop rest → Stop other → plainText stringify first ++ rest =
            plainText stringify second ++ other →
          first = second ∧ rest = other
  | .scalar value, .scalar value', _, _, stop, otherStop, same => by
      rcases unambiguous.scalar _ _ _ _ stop otherStop same with
        ⟨rfl, equal⟩
      exact ⟨rfl, equal⟩
  | .scalar value, .array [], _, _, _, _, same =>
      absurd same (scalar_ne_open unambiguous value not_opener_bracket _ _)
  | .scalar value, .array (_ :: _), _, _, _, _, same =>
      absurd same (scalar_ne_open unambiguous value not_opener_bracket _ _)
  | .scalar value, .object [], _, _, _, _, same =>
      absurd same (scalar_ne_open unambiguous value not_opener_brace _ _)
  | .scalar value, .object (_ :: _), _, _, _, _, same =>
      absurd same (scalar_ne_open unambiguous value not_opener_brace _ _)
  | .array [], .scalar value, _, _, _, _, same =>
      absurd same.symm (scalar_ne_open unambiguous value not_opener_bracket _ _)
  | .array [], .array [], _, _, _, _, same =>
      ⟨rfl, (List.cons.inj (List.cons.inj same).2).2⟩
  | .array [], .array (item :: _), _, _, _, _, same => by
      rcases plainText_head unambiguous item with ⟨head, tail, text, other⟩
      rw [plainText, plainText, text] at same
      exact absurd (List.cons.inj (List.cons.inj same).2).1.symm other
  | .array (item :: items), .array (item' :: items'), _, _, _, _, same => by
      rw [plainText, plainText] at same
      simp only [List.cons_append, List.append_assoc, List.nil_append,
        List.cons.injEq, true_and] at same
      rcases plainText_delimiting unambiguous item item'
        (stop_laterItems items _) (stop_laterItems items' _) same with
        ⟨rfl, sameLater⟩
      rcases laterItems_delimiting unambiguous items items' sameLater with
        ⟨rfl, equal⟩
      exact ⟨rfl, equal⟩
  | .array (item :: _), .array [], _, _, _, _, same => by
      rcases plainText_head unambiguous item with ⟨head, tail, text, other⟩
      rw [plainText, plainText, text] at same
      exact absurd (List.cons.inj (List.cons.inj same).2).1 other
  | .array (_ :: _), .scalar value, _, _, _, _, same =>
      absurd same.symm (scalar_ne_open unambiguous value not_opener_bracket _ _)
  | .array [], .object [], _, _, _, _, same =>
      absurd (List.cons.inj same).1 (by decide)
  | .array [], .object (_ :: _), _, _, _, _, same =>
      absurd (List.cons.inj same).1 (by decide)
  | .array (_ :: _), .object [], _, _, _, _, same =>
      absurd (List.cons.inj same).1 (by decide)
  | .array (_ :: _), .object (_ :: _), _, _, _, _, same =>
      absurd (List.cons.inj same).1 (by decide)
  | .object [], .scalar value, _, _, _, _, same =>
      absurd same.symm (scalar_ne_open unambiguous value not_opener_brace _ _)
  | .object (_ :: _), .scalar value, _, _, _, _, same =>
      absurd same.symm (scalar_ne_open unambiguous value not_opener_brace _ _)
  | .object [], .array [], _, _, _, _, same =>
      absurd (List.cons.inj same).1 (by decide)
  | .object [], .array (_ :: _), _, _, _, _, same =>
      absurd (List.cons.inj same).1 (by decide)
  | .object (_ :: _), .array [], _, _, _, _, same =>
      absurd (List.cons.inj same).1 (by decide)
  | .object (_ :: _), .array (_ :: _), _, _, _, _, same =>
      absurd (List.cons.inj same).1 (by decide)
  | .object [], .object [], _, _, _, _, same =>
      ⟨rfl, (List.cons.inj (List.cons.inj same).2).2⟩
  | .object [], .object ((key, _) :: _), _, _, _, _, same => by
      rw [plainText, plainText] at same
      simp only [List.cons_append, List.append_assoc, List.nil_append,
        List.cons.injEq, true_and] at same
      exact absurd same.symm (unambiguous.keyOpened key _ _)
  | .object ((key, _) :: _), .object [], _, _, _, _, same => by
      rw [plainText, plainText] at same
      simp only [List.cons_append, List.append_assoc, List.nil_append,
        List.cons.injEq, true_and] at same
      exact absurd same (unambiguous.keyOpened key _ _)
  | .object ((key, value) :: members), .object ((key', value') :: members'),
      _, _, _, _, same => by
      rw [plainText, plainText] at same
      simp only [List.cons_append, List.append_assoc, List.nil_append,
        List.cons.injEq, true_and] at same
      rcases unambiguous.key key key' _ _ same with ⟨rfl, sameValue⟩
      rcases plainText_delimiting unambiguous value value'
        (stop_laterMembers members _) (stop_laterMembers members' _)
        (List.cons.inj sameValue).2 with
        ⟨rfl, sameLater⟩
      rcases laterMembers_delimiting unambiguous members members' sameLater
        with ⟨rfl, equal⟩
      exact ⟨rfl, equal⟩

theorem laterItems_delimiting (unambiguous : Unambiguous stringify) :
    (items others : List (Json Key Scalar)) → {rest other : List Char} →
      laterItems stringify items ++ ']' :: rest =
          laterItems stringify others ++ ']' :: other →
        items = others ∧ rest = other
  | [], [], _, _, same => ⟨rfl, (List.cons.inj same).2⟩
  | [], _ :: _, _, _, same =>
      absurd (List.cons.inj same).1 (by decide)
  | _ :: _, [], _, _, same =>
      absurd (List.cons.inj same).1 (by decide)
  | item :: items, item' :: items', _, _, same => by
      rw [laterItems, laterItems] at same
      simp only [List.cons_append, List.append_assoc, List.cons.injEq,
        true_and] at same
      rcases plainText_delimiting unambiguous item item'
        (stop_laterItems items _) (stop_laterItems items' _) same with
        ⟨rfl, sameLater⟩
      rcases laterItems_delimiting unambiguous items items' sameLater with
        ⟨rfl, equal⟩
      exact ⟨rfl, equal⟩

theorem laterMembers_delimiting (unambiguous : Unambiguous stringify) :
    (members others : List (Key × Json Key Scalar)) → {rest other : List Char} →
        laterMembers stringify members ++ '\x7d' :: rest =
            laterMembers stringify others ++ '\x7d' :: other →
          members = others ∧ rest = other
  | [], [], _, _, same => ⟨rfl, (List.cons.inj same).2⟩
  | [], (_, _) :: _, _, _, same =>
      absurd (List.cons.inj same).1 (by decide)
  | (_, _) :: _, [], _, _, same =>
      absurd (List.cons.inj same).1 (by decide)
  | (key, value) :: members, (key', value') :: members', _, _, same => by
      rw [laterMembers, laterMembers] at same
      simp only [List.cons_append, List.append_assoc, List.cons.injEq,
        true_and] at same
      rcases unambiguous.key key key' _ _ same with ⟨rfl, sameValue⟩
      rcases plainText_delimiting unambiguous value value'
        (stop_laterMembers members _) (stop_laterMembers members' _)
        (List.cons.inj sameValue).2 with
        ⟨rfl, sameLater⟩
      rcases laterMembers_delimiting unambiguous members members' sameLater
        with ⟨rfl, equal⟩
      exact ⟨rfl, equal⟩

end

end Plain

/-! ## Normal forms -/

section Normal

variable {Key Scalar : Type} [LinearOrder Key]

mutual

/-- A document with the members of every object in the order of their
keys. -/
def normal : Json Key Scalar → Json Key Scalar
  | .scalar value => .scalar value
  | .array items => .array (normalItems items)
  | .object members => .object (sortMembers (normalMembers members))

def normalItems : List (Json Key Scalar) → List (Json Key Scalar)
  | [] => []
  | item :: items => normal item :: normalItems items

def normalMembers :
    List (Key × Json Key Scalar) → List (Key × Json Key Scalar)
  | [] => []
  | (key, value) :: members => (key, normal value) :: normalMembers members

end

theorem normalMembers_eq_map (members : List (Key × Json Key Scalar)) :
    normalMembers members =
      members.map fun member => (member.1, normal member.2) := by
  induction members with
  | nil => rfl
  | cons member members ih =>
      rw [normalMembers, ih, List.map_cons]

theorem normalMembers_keys (members : List (Key × Json Key Scalar)) :
    (normalMembers members).map Prod.fst = members.map Prod.fst := by
  rw [normalMembers_eq_map, List.map_map]
  rfl

/-- Members with the same normal forms in another order are, in that order,
members with the same normal forms. -/
theorem exists_middle
    {members others : List (Key × Json Key Scalar)}
    (perm : (normalMembers members).Perm (normalMembers others)) :
    ∃ middle,
      normalMembers members = normalMembers middle ∧ middle.Perm others := by
  rw [normalMembers_eq_map others] at perm
  have composed := List.eq_map_comp_perm
    fun member : Key × Json Key Scalar => (member.1, normal member.2)
  rcases (congrFun₂ composed (normalMembers members) others).mpr perm with
    ⟨middle, same, permOthers⟩
  refine ⟨middle, ?_, permOthers⟩
  rw [normalMembers_eq_map middle]
  exact same

mutual

theorem reordered_of_normal :
    (document other : Json Key Scalar) → Proper document →
      normal document = normal other → Reordered document other
  | .scalar value, .scalar value', _, same => by
      rw [normal, normal] at same
      cases same
      exact .scalar value
  | .scalar _, .array _, _, same => by
      rw [normal, normal] at same
      cases same
  | .scalar _, .object _, _, same => by
      rw [normal, normal] at same
      cases same
  | .array _, .scalar _, _, same => by
      rw [normal, normal] at same
      cases same
  | .array items, .array items', proper, same => by
      rw [normal, normal] at same
      exact .array (reorderedItems_of_normal items items' proper
        (Json.array.inj same))
  | .array _, .object _, _, same => by
      rw [normal, normal] at same
      cases same
  | .object _, .scalar _, _, same => by
      rw [normal, normal] at same
      cases same
  | .object _, .array _, _, same => by
      rw [normal, normal] at same
      cases same
  | .object members, .object members', proper, same => by
      rw [normal, normal] at same
      have perm : (normalMembers members).Perm (normalMembers members') := by
        apply (sortMembers_perm (normalMembers members)).symm.trans
        rw [Json.object.inj same]
        exact sortMembers_perm (normalMembers members')
      rcases exists_middle perm with ⟨middle, sameNormal, permOthers⟩
      refine .object
        (reorderedMembers_of_normal members middle proper.2 sameNormal)
        permOthers ?_
      rw [← normalMembers_keys middle, ← sameNormal, normalMembers_keys members]
      exact proper.1

theorem reorderedItems_of_normal :
    (items others : List (Json Key Scalar)) → ProperItems items →
      normalItems items = normalItems others → ReorderedItems items others
  | [], [], _, _ => .nil
  | [], _ :: _, _, same => by
      rw [normalItems, normalItems] at same
      cases same
  | _ :: _, [], _, same => by
      rw [normalItems, normalItems] at same
      cases same
  | item :: items, item' :: items', proper, same => by
      rw [normalItems, normalItems] at same
      rcases List.cons.inj same with ⟨sameFirst, sameLater⟩
      exact .cons (reordered_of_normal item item' proper.1 sameFirst)
        (reorderedItems_of_normal items items' proper.2 sameLater)

theorem reorderedMembers_of_normal :
    (members others : List (Key × Json Key Scalar)) → ProperMembers members →
        normalMembers members = normalMembers others →
          ReorderedMembers members others
  | [], [], _, _ => .nil
  | [], (_, _) :: _, _, same => by
      rw [normalMembers, normalMembers] at same
      cases same
  | (_, _) :: _, [], _, same => by
      rw [normalMembers, normalMembers] at same
      cases same
  | (key, value) :: members, (key', value') :: members', proper, same => by
      rw [normalMembers, normalMembers] at same
      rcases List.cons.inj same with ⟨sameFirst, sameLater⟩
      rcases Prod.mk.inj sameFirst with ⟨rfl, sameValue⟩
      exact .cons (reordered_of_normal value value' proper.1 sameValue)
        (reorderedMembers_of_normal members members' proper.2 sameLater)

end

theorem sortMembers_map
    {Value Other : Type} (change : Value → Other)
    (members : List (Key × Value)) :
    sortMembers (members.map fun member => (member.1, change member.2)) =
      (sortMembers members).map fun member => (member.1, change member.2) := by
  symm
  apply List.map_insertionSort
  intro first _ second _
  exact Iff.rfl

variable (stringify : Stringify Key Scalar)

theorem toList_joined (text : String) (texts : List String) :
    (",".intercalate (text :: texts)).toList =
      text.toList ++ texts.flatMap fun later => ',' :: later.toList := by
  induction texts generalizing text with
  | nil => simp
  | cons second texts ih =>
      have comma : ",".toList = [','] := by decide
      rw [String.intercalate_cons_cons, String.toList_append,
        String.toList_append, ih, comma,
        List.flatMap_cons, List.append_assoc]
      rfl

theorem toList_members
    (members : List (Key × Json Key Scalar))
    (same : ∀ member ∈ members, (canonicalJson stringify member.2).toList =
        plainText stringify (normal member.2)) :
    '\x7b' :: (",".intercalate
        (members.map fun member =>
            memberText stringify
              (member.1, canonicalJson stringify member.2))).toList ++
        ['\x7d'] =
      plainText stringify (.object (members.map fun member =>
          (member.1, normal member.2))) := by
  cases members with
  | nil => simp [plainText]
  | cons member members =>
      have later : (members.map fun member =>
            memberText stringify
              (member.1, canonicalJson stringify member.2)).flatMap
            (fun text => ',' :: text.toList) =
          laterMembers stringify
            (members.map fun member => (member.1, normal member.2)) := by
        rw [laterMembers_eq, List.flatMap_map, List.flatMap_map]
        apply List.flatMap_congr
        intro other listed
        rw [toList_memberText, same other (List.mem_cons_of_mem _ listed)]
      rw [List.map_cons, List.map_cons, toList_joined, later,
        toList_memberText, plainText, same member List.mem_cons_self]
      simp only [List.cons_append, List.append_assoc]

mutual

theorem canonicalJson_eq :
    (document : Json Key Scalar) → (canonicalJson stringify document).toList =
        plainText stringify (normal document)
  | .scalar value => by rw [canonicalJson, normal, plainText]
  | .array [] => by
      rw [canonicalJson, normal, normalItems, plainText, canonicalItems]
      decide
  | .array (item :: items) => by
      rw [canonicalJson, normal, normalItems, plainText, canonicalItems,
        String.toList_append, String.toList_append, toList_joined,
        canonicalJson_eq item, canonicalItems_eq items]
      have opening : "[".toList = ['['] := by decide
      have closing : "]".toList = [']'] := by decide
      rw [opening, closing, List.append_assoc, List.append_assoc]
      rfl
  | .object members => by
      have values := canonicalMembers_eq members
      have opening : "\x7b".toList = ['\x7b'] := by decide
      have closing : "\x7d".toList = ['\x7d'] := by decide
      rw [canonicalJson, normal, canonicalMembers_eq_map,
        normalMembers_eq_map, sortMembers_map, sortMembers_map,
        String.toList_append, String.toList_append, opening, closing,
        List.map_map, ← toList_members]
      · rfl
      · intro member listed
        exact values member ((sortMembers_perm members).subset listed)

theorem canonicalItems_eq :
    (items : List (Json Key Scalar)) →
      ((canonicalItems stringify items).flatMap fun text =>
          ',' :: text.toList) =
        laterItems stringify (normalItems items)
  | [] => rfl
  | item :: items => by
      rw [canonicalItems, normalItems, laterItems, List.flatMap_cons,
        canonicalJson_eq item, canonicalItems_eq items]
      rfl

theorem canonicalMembers_eq :
    (members : List (Key × Json Key Scalar)) → ∀ member ∈ members,
      (canonicalJson stringify member.2).toList =
        plainText stringify (normal member.2)
  | (key, value) :: members, member, listed => by
      rcases List.mem_cons.1 listed with rfl | later
      · exact canonicalJson_eq value
      · exact canonicalMembers_eq members member later

end

theorem normal_eq_of_text
    {stringify : Stringify Key Scalar} (unambiguous : Unambiguous stringify)
    {document other : Json Key Scalar}
    (same : canonicalJson stringify document = canonicalJson stringify other) :
    normal document = normal other := by
  have texts : plainText stringify (normal document) ++ [] =
      plainText stringify (normal other) ++ [] := by
    rw [← canonicalJson_eq, ← canonicalJson_eq, same]
  have ended : Stop [] := trivial
  exact (plainText_delimiting unambiguous (normal document) (normal other)
    ended ended texts).1

end Normal

variable [LinearOrder JsString]

/-- Two values have the same canonical text exactly when they differ in the
order of the keys of their objects only, at every depth. -/
theorem canonicalJson_eq_iff
    (value other : JsonValue JsString (Scalar Number)) :
    canonicalJson (jsonStringify numbers) value.document =
        canonicalJson (jsonStringify numbers) other.document ↔
      Reordered value.document other.document := by
  constructor
  · intro same
    exact reordered_of_normal value.document other.document value.proper
      (normal_eq_of_text (jsonStringify_unambiguous numbers) same)
  · exact canonicalJson_reordered (jsonStringify numbers)

end Eris.Competition.Commitment
