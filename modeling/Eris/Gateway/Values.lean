import Eris.Foundation.Json

/-!
# The values of a JSON-RPC body

What the gateway reads of a parsed body: the members of its objects, the items
of its arrays, whether a value counts as true, the text a value is turned
into, and the strings anywhere inside it.  Numbers are the language's own; the
gateway needs four things of them.
-/

namespace Eris.Gateway.Values

open Foundation

/-- A value that is neither an array nor an object. -/
inductive Primitive (Number : Type) where
  | null
  | boolean (value : Bool)
  | number (value : Number)
  | string (text : String)
  deriving DecidableEq

abbrev Value (Number : Type) := Json String (Primitive Number)

/-- What is asked of a number: whether it is zero, the integer it is read as
(none where that reading fails), and its text; and the number of an integer. -/
structure Numbers (Number : Type) where
  isZero : Number → Bool
  integer : Number → Option Int
  text : Number → String
  ofInteger : Int → Number

variable {Number : Type} (numbers : Numbers Number)

@[match_pattern]
abbrev textValue (text : String) : Value Number := .scalar (.string text)

/-- The value `null`. -/
@[match_pattern]
abbrev nullValue : Value Number := .scalar .null

/-! ## Reading -/

/-- `value[key]` of a parsed value; nothing where it is undefined. -/
def member (key : String) : Value Number → Option (Value Number)
  | .object members =>
      (members.find? fun entry => entry.1 == key).map Prod.snd
  | _ => none

/-- The items of a value that is an array. -/
def arrayItems : Value Number → Option (List (Value Number))
  | .array items => some items
  | _ => none

/-- The text of a value that is a string. -/
def stringText : Value Number → Option String
  | .scalar (.string text) => some text
  | _ => none

/-- Whether a value is an object other than an array. -/
def isObject : Value Number → Bool
  | .object _ => true
  | _ => false

/-- `typeof value === "object"`, the value being other than `null`. -/
def isStructured : Value Number → Bool
  | .scalar _ => false
  | _ => true

def truthy : Value Number → Bool
  | .scalar .null => false
  | .scalar (.boolean value) => value
  | .scalar (.number value) => !numbers.isZero value
  | .scalar (.string text) => text != ""
  | .array _ => true
  | .object _ => true

/-- `value ?? null` of a member that may be undefined. -/
def orNull (value : Option (Value Number)) : Value Number :=
  value.getD nullValue

/-- `null` and an undefined value. -/
def isNullish : Option (Value Number) → Bool
  | none => true
  | some nullValue => true
  | some _ => false

mutual

/-- `String(value)`; nothing where turning the value into a text throws, which
an object does that hides its own `toString`. -/
def toText : Value Number → Option String
  | .scalar .null => some "null"
  | .scalar (.boolean value) => some (if value then "true" else "false")
  | .scalar (.number value) => some (numbers.text value)
  | .scalar (.string text) => some text
  | .array items => (itemTexts items).map (",".intercalate ·)
  | .object members =>
      if members.any fun entry => entry.1 == "toString" then none
      else some "[object Object]"

/-- The texts of the items of an array, `null` being empty. -/
def itemTexts : List (Value Number) → Option (List String)
  | [] => some []
  | item :: items =>
      (if isNullish (some item) then some "" else toText item).bind
        fun text => (itemTexts items).map (text :: ·)

end

@[simp]
theorem toText_textValue (text : String) :
    toText numbers (textValue text) = some text := by
  simp [toText]

variable {value : Value Number} {text : String} {items : List (Value Number)}
    {members : List (String × Value Number)} {accepts : String → Bool}

theorem eq_textValue
    (string : stringText value = some text) : value = textValue text := by
  cases value with
  | array items => cases string
  | object members => cases string
  | scalar primitive =>
      cases primitive with
      | string own =>
          cases string
          rfl
      | null => cases string
      | boolean value => cases string
      | number value => cases string

def children : Value Number → List (Value Number)
  | .scalar _ => []
  | .array items => items
  | .object members => members.map Prod.snd

mutual

/-- The strings anywhere in a value, keys of objects aside. -/
def strings : Value Number → List String
  | .scalar (.string text) => [text]
  | .scalar _ => []
  | .array items => itemStrings items
  | .object members => memberStrings members

def itemStrings : List (Value Number) → List String
  | [] => []
  | item :: items => strings item ++ itemStrings items

/-- The strings anywhere in the values of some members. -/
def memberStrings : List (String × Value Number) → List String
  | [] => []
  | (_, value) :: members => strings value ++ memberStrings members

end

/-- Some string in the value is accepted. -/
def Mentions (accepts : String → Bool) (value : Value Number) : Prop :=
  ∃ text ∈ strings value, accepts text = true

theorem mem_itemStrings :
    text ∈ itemStrings items ↔ ∃ item ∈ items, text ∈ strings item := by
  induction items with
  | nil => simp [itemStrings]
  | cons item items ih =>
      rw [itemStrings, List.mem_append, ih]
      simp

theorem mem_memberStrings :
    text ∈ memberStrings members ↔
      ∃ entry ∈ members, text ∈ strings entry.2 := by
  induction members with
  | nil => simp [memberStrings]
  | cons entry members ih =>
      obtain ⟨key, value⟩ := entry
      rw [memberStrings, List.mem_append, ih]
      simp

theorem mentions_array :
    Mentions accepts (.array items) ↔
      ∃ item ∈ items, Mentions accepts item := by
  constructor
  · rintro ⟨text, written, accepted⟩
    obtain ⟨item, listed, inside⟩ := mem_itemStrings.mp written
    exact ⟨item, listed, text, inside, accepted⟩
  · rintro ⟨item, listed, text, inside, accepted⟩
    exact ⟨text, mem_itemStrings.mpr ⟨item, listed, inside⟩, accepted⟩

theorem mentions_object :
    Mentions accepts (.object members) ↔
      ∃ entry ∈ members, Mentions accepts entry.2 := by
  constructor
  · rintro ⟨text, written, accepted⟩
    obtain ⟨entry, listed, inside⟩ := mem_memberStrings.mp written
    exact ⟨entry, listed, text, inside, accepted⟩
  · rintro ⟨entry, listed, text, inside, accepted⟩
    exact ⟨text, mem_memberStrings.mpr ⟨entry, listed, inside⟩, accepted⟩

@[simp]
theorem mentions_textValue :
    Mentions accepts (textValue text : Value Number) ↔ accepts text = true := by
  simp [Mentions, strings]

@[simp]
theorem not_mentions_null :
    ¬Mentions accepts (nullValue : Value Number) := by
  simp [Mentions, strings]

/-! ## Writing -/

/-- A member with its value replaced where it has the key. -/
def replaceEntry (key : String) (value : Value Number)
    (entry : String × Value Number) : String × Value Number :=
  if entry.1 == key then (entry.1, value) else entry

def setEntry (key : String) (value : Value Number)
    (members : List (String × Value Number)) :
    List (String × Value Number) :=
  if members.any fun entry => entry.1 == key then
    members.map (replaceEntry key value)
  else members ++ [(key, value)]

def dropEntry (key : String) (members : List (String × Value Number)) :
    List (String × Value Number) :=
  members.filter fun entry => entry.1 != key

/-- `value[key] = …` on an object. -/
def withMember (key : String) (written : Value Number) :
    Value Number → Value Number
  | .object members => .object (setEntry key written members)
  | value => value

/-- `items[index] = …`; items left out before the index are written as
`null`. -/
def writeItem (index : Nat) (written : Value Number)
    (items : List (Value Number)) : List (Value Number) :=
  if index < items.length then items.set index written
  else
    items ++ List.replicate (index - items.length) nullValue ++ [written]

theorem replaceEntry_key
    (key : String) (value : Value Number) (entry : String × Value Number) :
    (replaceEntry key value entry).1 = entry.1 := by
  rw [replaceEntry]
  split
  · rfl
  · rfl

theorem find_replaceEntry
    (key other : String) (value : Value Number)
    (members : List (String × Value Number)) :
    (members.map (replaceEntry key value)).find?
        (fun entry => entry.1 == other) =
      (members.find? fun entry => entry.1 == other).map
        (replaceEntry key value) := by
  rw [List.find?_map]
  congr 2
  funext entry
  rw [Function.comp_apply, replaceEntry_key]

theorem find_setEntry
    (key other : String) (value : Value Number)
    (members : List (String × Value Number)) :
    ((setEntry key value members).find? fun entry => entry.1 == other).map
        Prod.snd =
      if other = key then some value
      else (members.find? fun entry => entry.1 == other).map Prod.snd := by
  rw [setEntry]
  split
  · rename_i present
    have replaced := find_replaceEntry key other value members
    rw [replaced, Option.map_map]
    cases found : members.find? fun entry => entry.1 == other with
    | none =>
        have absent : other ≠ key := by
          rintro rfl
          obtain ⟨entry, listed, same⟩ := List.any_eq_true.mp present
          exact List.find?_eq_none.mp found entry listed same
        rw [if_neg absent, Option.map_none, Option.map_none]
    | some entry =>
        have named : entry.1 = other := by
          simpa using List.find?_some found
        rw [Option.map_some, Option.map_some, Function.comp_apply,
          replaceEntry, named]
        by_cases same : other = key
        · rw [if_pos (beq_iff_eq.mpr same), if_pos same]
        · rw [if_neg (fun equal => same (beq_iff_eq.mp equal)), if_neg same]
  · rename_i absent
    grind

theorem member_withMember
    (key other : String) (written : Value Number)
    (object : isObject value = true) :
    member other (withMember key written value) =
      if other = key then some written else member other value := by
  cases value with
  | scalar primitive => cases object
  | array items => cases object
  | object members => exact find_setEntry key other written members

theorem isObject_of_member
    {key : String} {found : Value Number}
    (present : member key value = some found) : isObject value = true := by
  cases value with
  | scalar primitive => cases present
  | array items => cases present
  | object members => rfl

theorem mem_setEntry
    {key : String} {entry : String × Value Number}
    (listed : entry ∈ setEntry key value members) :
    entry.2 = value ∨ entry ∈ members := by
  rw [setEntry] at listed
  split at listed
  · obtain ⟨old, oldListed, rfl⟩ := List.mem_map.mp listed
    rw [replaceEntry]
    split
    · exact Or.inl rfl
    · exact Or.inr oldListed
  · rcases List.mem_append.mp listed with old | new
    · exact Or.inr old
    · rw [List.mem_singleton.mp new]
      exact Or.inl rfl

theorem mem_writeItem
    {index : Nat} {written item : Value Number}
    (listed : item ∈ writeItem index written items) :
    item = written ∨ item = nullValue ∨ item ∈ items := by
  rw [writeItem] at listed
  split at listed
  · rcases List.mem_or_eq_of_mem_set listed with old | new
    · exact Or.inr (Or.inr old)
    · exact Or.inl new
  · rw [List.mem_append, List.mem_append, List.mem_singleton] at listed
    rcases listed with (old | padding) | new
    · exact Or.inr (Or.inr old)
    · exact Or.inr (Or.inl (List.eq_of_mem_replicate padding))
    · exact Or.inl new

theorem getElem_writeItem
    (index : Nat) (written : Value Number) (items : List (Value Number)) :
    (writeItem index written items)[index]? = some written := by
  rw [writeItem]
  split
  · rename_i inside
    rw [List.getElem?_set_self inside]
  · rename_i past
    have length : (items ++ List.replicate (index - items.length)
            (nullValue : Value Number)).length =
        index := by
      rw [List.length_append, List.length_replicate]
      omega
    rw [List.getElem?_append_right length.le, length, Nat.sub_self]
    rfl

end Eris.Gateway.Values
