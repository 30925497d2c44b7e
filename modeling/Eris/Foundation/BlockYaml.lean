import Eris.Foundation.Cells
import Eris.Foundation.IntegerText
import Eris.Foundation.Json

/-!
# Lists in block style

What is used of YAML 1.2: how the core schema resolves a plain scalar, and
what a list in block style becomes by an entry after its end.  An entry is a
mapping of a few fields, each with a plain or a quoted scalar on its line.

A reader of files has these two; one which reads the lines of such lists and
nothing else is defined here too.
-/

namespace Eris.Foundation.BlockYaml

open IntegerText

abbrev Text := List Char

/-- A scalar; a number is kept as it is written. -/
inductive Scalar where
  | null
  | boolean (value : Bool)
  | number (text : Text)
  | string (text : Text)
deriving DecidableEq

abbrev Doc := Json Text Scalar

/-! ## The core schema -/

def digits (text : Text) : Bool := text ≠ [] && text.all Char.isDigit

def unsigned : Text → Text
  | '-' :: text => text
  | '+' :: text => text
  | text => text

def octalDigit (char : Char) : Bool := '0' ≤ char && char ≤ '7'

def hexDigit (char : Char) : Bool :=
  char.isDigit || ('a' ≤ char && char ≤ 'f') || ('A' ≤ char && char ≤ 'F')

/-- `0o [0-7]+` and `0x [0-9a-fA-F]+`. -/
def marked : Text → Bool
  | '0' :: 'o' :: text => text ≠ [] && text.all octalDigit
  | '0' :: 'x' :: text => text ≠ [] && text.all hexDigit
  | _ => false

/-- `\. [0-9]+ | [0-9]+ (\. [0-9]*)?` -/
def mantissa (text : Text) : Bool :=
  match text.span Char.isDigit with
  | ([], '.' :: fraction) => digits fraction
  | ([], _) => false
  | (_ :: _, []) => true
  | (_ :: _, '.' :: fraction) => fraction.all Char.isDigit
  | (_ :: _, _) => false

def exponentMark (char : Char) : Bool := char == 'e' || char == 'E'

/-- `[-+]? mantissa ([eE] [-+]? [0-9]+)?` -/
def decimalNumber (text : Text) : Bool :=
  match (unsigned text).span fun char => !exponentMark char with
  | (significand, []) => mantissa significand
  | (significand, _ :: exponent) =>
      mantissa significand && digits (unsigned exponent)

/-- The infinities and what is not a number. -/
def special (text : Text) : Bool :=
  [".inf".toList, ".Inf".toList, ".INF".toList].contains (unsigned text) ||
    [".nan".toList, ".NaN".toList, ".NAN".toList].contains text

def nullTexts : List Text :=
  [[], "~".toList, "null".toList, "Null".toList, "NULL".toList]

def trueTexts : List Text := ["true".toList, "True".toList, "TRUE".toList]

def falseTexts : List Text := ["false".toList, "False".toList, "FALSE".toList]

def resolvePlain (text : Text) : Scalar :=
  if text ∈ nullTexts then .null
  else if text ∈ trueTexts then .boolean true
  else if text ∈ falseTexts then .boolean false
  else if marked text || decimalNumber text || special text then
    .number text
  else .string text

/-- A plain scalar stands for itself, as a string. -/
def StandsForItself (text : Text) : Prop := resolvePlain text = .string text

instance (text : Text) : Decidable (StandsForItself text) :=
  inferInstanceAs (Decidable (_ = _))

example :
    resolvePlain "1e5".toList = .number "1e5".toList ∧
      resolvePlain "1e5x".toList = .string "1e5x".toList := by
  decide

inductive Written where
  | plain (text : Text)
  | quoted (text : Text)

def Written.text : Written → Text
  | .plain text => text
  | .quoted text => '"' :: text ++ ['"']

def Written.value : Written → Scalar
  | .plain text => resolvePlain text
  | .quoted text => .string text

/-- The characters of words, which mean nothing else in a scalar. -/
def wordChar (char : Char) : Bool :=
  char.isAlphanum || char == '.' || char == '_' || char == '-'

/-- A plain scalar of words with blanks between them, and a quoted scalar
without escapes, are what they seem. -/
def Written.Simple : Written → Prop
  | .plain text =>
      (∃ first rest, text = first :: rest ∧ first.isAlphanum = true) ∧
        (∀ char ∈ text, wordChar char = true ∨ char = ' ') ∧
        text.getLast? ≠ some ' '
  | .quoted text => ∀ char ∈ text, char.isAlphanum = true

structure Field where
  key : Text
  written : Written

/-- A key is a word of letters, which stands for itself. -/
def Field.Simple (field : Field) : Prop :=
  StandsForItself field.key ∧
    (∀ char ∈ field.key, char.isAlpha = true) ∧ field.written.Simple

def Field.line (field : Field) : Text :=
  field.key ++ ':' :: ' ' :: field.written.text

def Field.member (field : Field) : Text × Doc :=
  (field.key, .scalar field.written.value)

/-- The fields of an entry after the first, each on its line. -/
def laterLines : List Field → Text
  | [] => []
  | field :: fields =>
      ' ' :: ' ' :: field.line ++ '\n' :: laterLines fields

def entryText (first : Field) (fields : List Field) : Text :=
  '-' :: ' ' :: first.line ++ '\n' :: laterLines fields

def entryDoc (first : Field) (fields : List Field) : Doc :=
  .object ((first :: fields).map Field.member)

/-- The items of a list; a file with nothing in it has none. -/
def items : Doc → Option (List Doc)
  | .array items => some items
  | .scalar .null => some []
  | _ => none

/-- A reader of files: a file of blanks holds no list, and the lists in block
style at the first column of their lines go on with the entries written after
them. -/
structure Reader where
  read : Text → Option Doc
  BlockList : Text → Prop
  blank : ∀ (file : Text) (held : List Doc), trimmed file = [] →
      read file ≠ some (.array held)
  append : ∀ (file : Text) (doc : Doc) (held : List Doc)
      (first : Field) (fields : List Field),
      BlockList file → read file = some doc → items doc = some held →
        (∀ field ∈ first :: fields, field.Simple) →
        ((first :: fields).map Field.key).Nodup →
        read (file ++ '\n' :: entryText first fields) =
            some (.array (held ++ [entryDoc first fields])) ∧
          BlockList (file ++ '\n' :: entryText first fields)

/-! ## A reader of lines -/

def readScalar : Text → Scalar
  | '"' :: text => .string (text.takeWhile (· ≠ '"'))
  | text => resolvePlain text

def readField (line : Text) : Text × Doc :=
  (line.takeWhile (· ≠ ':'),
    .scalar (readScalar ((line.dropWhile (· ≠ ':')).drop 2)))

def addMember (member : Text × Doc) :
    List (List (Text × Doc)) → List (List (Text × Doc))
  | [] => []
  | [entry] => [entry ++ [member]]
  | entry :: entries => entry :: addMember member entries

/-- Read one line into the entries before it. -/
def readLine (entries : List (List (Text × Doc))) : Text →
    List (List (Text × Doc))
  | '-' :: ' ' :: line => entries ++ [[readField line]]
  | ' ' :: ' ' :: line => addMember (readField line) entries
  | _ => entries

def readEntries (file : Text) : List (List (Text × Doc)) :=
  (file.splitOn '\n').foldl readLine []

/-- The list of a file; a file without entries holds nothing. -/
def readList (file : Text) : Option Doc :=
  if readEntries file = [] then some (.scalar .null)
  else some (.array ((readEntries file).map Json.object))

theorem addMember_append
    (member : Text × Doc) (entries : List (List (Text × Doc)))
    (entry : List (Text × Doc)) :
    addMember member (entries ++ [entry]) = entries ++ [entry ++ [member]] := by
  induction entries with
  | nil => rfl
  | cons first rest ih =>
      cases rest with
      | nil => rfl
      | cons second rest =>
          change first :: addMember member (second :: rest ++ [entry]) = _
          rw [ih]
          rfl

theorem alphanum_cases {char : Char} (holds : char.isAlphanum = true)
    {other : Char} (foreign : other.isAlphanum = false) : char ≠ other := by
  rintro rfl
  rw [holds] at foreign
  cases foreign

theorem not_mem_of_alphanum
    {text : Text} (words : ∀ char ∈ text, char.isAlphanum = true)
    {other : Char} (foreign : other.isAlphanum = false) : other ∉ text := by
  intro inside
  exact alphanum_cases (words other inside) foreign rfl

theorem takeWhile_of_not_mem
    {text rest : Text} {mark : Char} (absent : mark ∉ text) :
    (text ++ mark :: rest).takeWhile (· ≠ mark) = text ∧
      (text ++ mark :: rest).dropWhile (· ≠ mark) = mark :: rest := by
  induction text with
  | nil => simp
  | cons char text ih =>
      rw [List.mem_cons, not_or] at absent
      have other : char ≠ mark := fun same => absent.1 same.symm
      have held := ih absent.2
      simp only [List.cons_append, List.takeWhile_cons, List.dropWhile_cons,
        ne_eq, other, not_false_eq_true, decide_true, if_true, held.1,
        held.2, and_self]

theorem readScalar_text {written : Written} (simple : written.Simple) :
    readScalar written.text = written.value := by
  cases written with
  | plain text =>
      rcases simple.1 with ⟨first, rest, rfl, word⟩
      have other : first ≠ '"' := alphanum_cases word (by decide)
      change readScalar (first :: rest) = resolvePlain (first :: rest)
      unfold readScalar
      split
      · rename_i same
        exact absurd (List.cons.inj same).1 other
      · rfl
  | quoted text =>
      have absent : '"' ∉ text := not_mem_of_alphanum simple (by decide)
      change Scalar.string ((text ++ '"' :: []).takeWhile _) = _
      rw [(takeWhile_of_not_mem absent).1]
      rfl

theorem readField_line {field : Field} (simple : field.Simple) :
    readField field.line = field.member := by
  have absent : ':' ∉ field.key := by
    intro inside
    exact absurd (simple.2.1 ':' inside) (by decide)
  have parts := @takeWhile_of_not_mem field.key
    (' ' :: field.written.text) ':' absent
  unfold readField Field.line Field.member
  rw [parts.1, parts.2]
  change (_, Json.scalar (readScalar field.written.text)) = _
  rw [readScalar_text simple.2.2]

theorem Field.single_line {field : Field} (simple : field.Simple) :
    '\n' ∉ field.line := by
  have keys : '\n' ∉ field.key := by
    intro inside
    exact absurd (simple.2.1 '\n' inside) (by decide)
  have scalars : '\n' ∉ field.written.text := by
    cases written : field.written with
    | plain text =>
        have held := simple.2.2
        rw [written] at held
        intro inside
        rcases held.2.1 '\n' inside with word | blank
        · exact absurd word (by decide)
        · exact absurd blank (by decide)
    | quoted text =>
        have held := simple.2.2
        rw [written] at held
        have absent : '\n' ∉ text := not_mem_of_alphanum held (by decide)
        intro inside
        rcases List.mem_cons.mp inside with same | inside
        · exact absurd same (by decide)
        · rcases List.mem_append.mp inside with inside | inside
          · exact absent inside
          · exact absurd (List.mem_singleton.mp inside) (by decide)
  unfold Field.line
  intro inside
  rcases List.mem_append.mp inside with inside | inside
  · exact keys inside
  · rcases List.mem_cons.mp inside with same | inside
    · exact absurd same (by decide)
    · rcases List.mem_cons.mp inside with same | inside
      · exact absurd same (by decide)
      · exact scalars inside

theorem foldl_laterLines
    {fields : List Field} (simple : ∀ field ∈ fields, field.Simple)
    (entries : List (List (Text × Doc))) (entry : List (Text × Doc)) :
    ((laterLines fields).splitOn '\n').foldl readLine (entries ++ [entry]) =
      entries ++ [entry ++ fields.map Field.member] := by
  induction fields generalizing entry with
  | nil =>
      rw [List.map_nil, List.append_nil]
      rfl
  | cons field fields ih =>
      rw [List.forall_mem_cons] at simple
      have single : '\n' ∉ ' ' :: ' ' :: field.line := by
        intro inside
        rcases List.mem_cons.mp inside with same | inside
        · exact absurd same (by decide)
        · rcases List.mem_cons.mp inside with same | inside
          · exact absurd same (by decide)
          · exact Field.single_line simple.1 inside
      have line : readLine (entries ++ [entry]) (' ' :: ' ' :: field.line) =
          entries ++ [entry ++ [field.member]] := by
        change addMember (readField field.line) (entries ++ [entry]) = _
        rw [readField_line simple.1, addMember_append]
      change (((' ' :: ' ' :: field.line) ++ '\n' :: laterLines fields).splitOn
        '\n').foldl readLine (entries ++ [entry]) = _
      rw [List.splitOn_append_cons_self_of_not_mem single, List.foldl_cons,
        line, ih simple.2, List.append_assoc]
      rfl

theorem readEntries_append
    (file : Text) {first : Field} {fields : List Field}
    (simple : ∀ field ∈ first :: fields, field.Simple) :
    readEntries (file ++ '\n' :: entryText first fields) =
      readEntries file ++ [(first :: fields).map Field.member] := by
  rw [List.forall_mem_cons] at simple
  have single : '\n' ∉ '-' :: ' ' :: first.line := by
    intro inside
    rcases List.mem_cons.mp inside with same | inside
    · exact absurd same (by decide)
    · rcases List.mem_cons.mp inside with same | inside
      · exact absurd same (by decide)
      · exact Field.single_line simple.1 inside
  have line : readLine (readEntries file) ('-' :: ' ' :: first.line) =
      readEntries file ++ [[first.member]] := by
    change readEntries file ++ [[readField first.line]] = _
    rw [readField_line simple.1]
  unfold readEntries at line ⊢
  rw [List.splitOn_append_cons_self, List.foldl_append]
  change ((('-' :: ' ' :: first.line) ++ '\n' :: laterLines fields).splitOn
    '\n').foldl readLine _ = _
  rw [List.splitOn_append_cons_self_of_not_mem single, List.foldl_cons,
    line, foldl_laterLines simple.2]
  rfl

theorem foldl_readLine_nil
    {lines : List Text} (without : ∀ line ∈ lines, '-' ∉ line) :
    lines.foldl readLine [] = [] := by
  induction lines with
  | nil => rfl
  | cons line lines ih =>
      rw [List.forall_mem_cons] at without
      have stays : readLine [] line = [] := by
        unfold readLine
        split
        · exact absurd List.mem_cons_self without.1
        · rfl
        · rfl
      rw [List.foldl_cons, stays, ih without.2]

theorem readEntries_of_blank
    {file : Text} (nothing : trimmed file = []) : readEntries file = [] := by
  apply foldl_readLine_nil
  intro line listed inside
  have blanks := blank_of_trimmed nothing '-'
    ((Marks.of_mem_splitOn listed).2 '-' inside)
  exact absurd blanks (by decide)

theorem items_readList
    {file : Text} {doc : Doc} {held : List Doc}
    (reads : readList file = some doc) (listed : items doc = some held) :
    (readEntries file).map Json.object = held := by
  unfold readList at reads
  split at reads
  · rename_i nothing
    rw [nothing]
    rw [Option.some.injEq] at reads
    subst reads
    exact Option.some.inj listed
  · rw [Option.some.injEq] at reads
    subst reads
    exact Option.some.inj listed

def lineReader : Reader where
  read := readList
  BlockList _ := True
  blank file held nothing := by
    unfold readList
    rw [if_pos (readEntries_of_blank nothing)]
    intro same
    cases same
  append file doc held first fields _ reads listed simple _ := by
    have entries := items_readList reads listed
    have filled :
        readEntries file ++ [(first :: fields).map Field.member] ≠ [] := by
      intro nothing
      exact List.cons_ne_nil _ _ (List.append_eq_nil_iff.mp nothing).2
    unfold readList
    rw [readEntries_append file simple, if_neg filled, List.map_append, entries]
    exact ⟨rfl, trivial⟩

end Eris.Foundation.BlockYaml
