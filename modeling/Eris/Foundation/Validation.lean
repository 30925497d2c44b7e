import Eris.Foundation.Json

/-!
# Validated documents

Documents with the scalars of the usual interchange format, the tests a reader
makes on one member, and a small language of schemas.  A validator decides
schemas.  It is known by one law for each form of schema only, so that a
statement about a validator is a statement about every implementation which
keeps these laws.
-/

namespace Eris.Foundation.Validation

/-- The scalars of a document.  A number beyond the range of the reader is
read as infinite. -/
inductive Scalar
  | null
  | boolean (value : Bool)
  | number (value : ℚ)
  | infinite (negative : Bool)
  | text (value : String)
deriving DecidableEq

abbrev Doc := Json String Scalar

def textDoc (value : String) : Doc := .scalar (.text value)

/-- The member of an object under a key.  No other document has members. -/
def member (key : String) : Doc → Option Doc
  | .object members => members.lookup key
  | .array _ => none
  | .scalar _ => none

def isStructured : Doc → Bool
  | .object _ => true
  | .array _ => true
  | .scalar _ => false

def textThat (test : String → Bool) : Option Doc → Bool
  | some (.scalar (.text value)) => test value
  | _ => false

def numberThat (test : ℚ → Bool) : Option Doc → Bool
  | some (.scalar (.number value)) => test value
  | _ => false

def isBoolean : Option Doc → Bool
  | some (.scalar (.boolean _)) => true
  | _ => false

def isNull : Option Doc → Bool
  | some (.scalar .null) => true
  | _ => false

def itemsThat (test : List Doc → Bool) : Option Doc → Bool
  | some (.array items) => test items
  | _ => false

def objectThat (test : Doc → Bool) : Option Doc → Bool
  | some (.object members) => test (.object members)
  | _ => false

/-- The value is absent or passes a test. -/
def absentOr (test : Option Doc → Bool) : Option Doc → Bool
  | none => true
  | some value => test (some value)

def isInteger (value : ℚ) : Bool := value.den = 1

/-- An integer which a double represents together with both its neighbours. -/
def isSafeInteger (value : ℚ) : Bool := isInteger value && |value| ≤ 2 ^ 53 - 1

theorem isInteger_of_isSafeInteger
    {number : ℚ} (safe : isSafeInteger number = true) :
    isInteger number = true := by
  rw [isSafeInteger, Bool.and_eq_true] at safe
  exact safe.1

theorem isSafeInteger_of_le
    {number : ℚ} (nonneg : 0 ≤ number) (small : number ≤ 2 ^ 53 - 1) :
    isSafeInteger number = isInteger number := by
  have bounded : |number| ≤ 2 ^ 53 - 1 := by
    rw [abs_of_nonneg nonneg]
    exact small
  simp [isSafeInteger, bounded]

theorem pos_iff_one_le
    {number : ℚ} (integer : isInteger number = true) :
    0 < number ↔ 1 ≤ number := by
  have whole : (number.num : ℚ) = number :=
    (Rat.den_eq_one_iff number).mp (of_decide_eq_true integer)
  rw [← whole]
  norm_cast

inductive NumberCheck
  | int
  | nonnegative
  | positive
  | max (bound : ℕ)

def NumberCheck.holds : NumberCheck → ℚ → Bool
  | .int, value => isSafeInteger value
  | .nonnegative, value => 0 ≤ value
  | .positive, value => 0 < value
  | .max bound, value => value ≤ bound

inductive Schema
  | string (checks : List (String → Bool))
  | number (checks : List NumberCheck)
  | boolean
  | literal (text : String)
  | oneOf (texts : List String)
  | optional (inner : Schema)
  | array (item : Schema) (least : ℕ)
  | object (fields : List (String × Schema))
  | union (members : List Schema)

/-- A validator decides which values a schema accepts, an absent one among
them.  An object may have members which its schema does not name. -/
structure Validator where
  accepts : Schema → Option Doc → Bool
  string (checks : List (String → Bool)) : accepts (.string checks) =
      textThat fun text => checks.all fun check => check text
  number (checks : List NumberCheck) : accepts (.number checks) =
      numberThat fun value => checks.all fun check => check.holds value
  boolean : accepts .boolean = isBoolean
  literal (text : String) :
    accepts (.literal text) = textThat fun other => other = text
  oneOf (texts : List String) :
    accepts (.oneOf texts) = textThat fun text => texts.contains text
  optional (inner : Schema) :
    accepts (.optional inner) = absentOr (accepts inner)
  array (item : Schema) (least : ℕ) : accepts (.array item least) =
      itemsThat fun items =>
        decide (least ≤ items.length) &&
          items.all fun one => accepts item (some one)
  object (fields : List (String × Schema)) : accepts (.object fields) =
      objectThat fun value =>
        fields.all fun field => accepts field.2 (member field.1 value)
  union (members : List Schema) (value : Option Doc) :
    accepts (.union members) value =
      members.any fun schema => accepts schema value

mutual

/-- Acceptance by recursion on the schema. -/
def check : Schema → Option Doc → Bool
  | .string checks => textThat fun text => checks.all fun test => test text
  | .number checks =>
      numberThat fun value => checks.all fun test => test.holds value
  | .boolean => isBoolean
  | .literal text => textThat fun other => other = text
  | .oneOf texts => textThat fun text => texts.contains text
  | .optional inner => absentOr (check inner)
  | .array item least =>
      itemsThat fun items =>
        decide (least ≤ items.length) &&
          items.all fun one => check item (some one)
  | .object fields => objectThat (checkFields fields)
  | .union members => checkAny members

/-- Every field accepts the member under its key. -/
def checkFields : List (String × Schema) → Doc → Bool
  | [] => fun _ => true
  | field :: fields => fun value =>
      checkField field value && checkFields fields value

/-- One field accepts the member under its key. -/
def checkField : String × Schema → Doc → Bool
  | (key, schema) => fun value => check schema (member key value)

/-- One of the schemas accepts the value. -/
def checkAny : List Schema → Option Doc → Bool
  | [] => fun _ => false
  | schema :: schemas => fun value =>
      check schema value || checkAny schemas value

end

theorem checkFields_eq (fields : List (String × Schema)) :
    checkFields fields = fun value =>
        fields.all fun field => check field.2 (member field.1 value) := by
  induction fields with
  | nil => rfl
  | cons field fields fieldsEq =>
      obtain ⟨key, schema⟩ := field
      funext value
      simp [checkFields, checkField, fieldsEq]

theorem checkAny_eq (schemas : List Schema) (value : Option Doc) :
    checkAny schemas value = schemas.any fun schema => check schema value := by
  induction schemas with
  | nil => rfl
  | cons schema schemas schemasEq =>
      simp [checkAny, schemasEq]

/-- The laws of a validator are kept by the recursion. -/
def Validator.recursive : Validator where
  accepts := check
  string _ := rfl
  number _ := rfl
  boolean := rfl
  literal _ := rfl
  oneOf _ := rfl
  optional _ := rfl
  array _ _ := rfl
  object fields := by
    rw [check, checkFields_eq]
  union members value := by
    rw [check, checkAny_eq]

end Eris.Foundation.Validation
