import Eris.Foundation.Cells
import Eris.Foundation.IntegerText

/-!
# The file of block rows

`core/src/logger.ts`.  One row for each transaction of a block, its columns
joined by commas.  All columns but one hold what the environment itself
writes: numbers, what the chain gives in hexadecimal, and texts of the source.
The owner of an agent's transaction is the agent's id, as the roster or a
registration has it.
-/

namespace Eris.PostRun.BlocksCsv

open Foundation Foundation.IntegerText

/-- A character of a text: a scalar, or half of a pair without the other. -/
inductive CodePoint where
  | scalar (char : Char)
  | lone (half : Nat)
deriving DecidableEq

abbrev Text := List CodePoint

def CodePoint.char : CodePoint → Char
  | .scalar char => char
  | .lone _ => '\uFFFD'

/-- A character written to a file and read back. -/
def CodePoint.stored (symbol : CodePoint) : CodePoint := .scalar symbol.char

def literal (chars : List Char) : Text := chars.map .scalar

/-- The comma between columns and the end of a line. -/
def marks : Marks CodePoint where
  comma := .scalar ','
  newline := .scalar '\n'
  apart := by decide

/-- A text a file holds as it is, without a comma and on one line. -/
def Storable (text : Text) : Prop :=
  ∀ symbol ∈ text,
    symbol ≠ marks.comma ∧ symbol ≠ marks.newline ∧ symbol.stored = symbol

instance (text : Text) : Decidable (Storable text) :=
  inferInstanceAs (Decidable (∀ symbol ∈ text, _))

structure PlainText where
  text : Text
  plain : Storable text

def PlainText.of
    (text : String) (plain : Storable (literal text.toList)) : PlainText :=
  ⟨literal text.toList, plain⟩

def toString (value : Int) : Text := literal (decimal value)

theorem storable_toString (value : Int) : Storable (toString value) := by
  intro symbol written
  rcases List.mem_map.mp written with ⟨char, digit, rfl⟩
  have digits :
      ∀ value < 10, value.digitChar ≠ ',' ∧ value.digitChar ≠ '\n' := by
    intro value small
    interval_cases value <;> decide
  have apart : char ≠ ',' ∧ char ≠ '\n' := by
    rcases of_mem_decimal digit with rfl | ⟨value, small, rfl⟩
    · decide
    · exact digits value small
  refine ⟨?_, ?_, rfl⟩
  · intro same
    exact apart.1 (CodePoint.scalar.inj same)
  · intro same
    exact apart.2 (CodePoint.scalar.inj same)

inductive Column where
  | round
  | blockNumber
  | txIndex
  | hash
  | sender
  | priorityFeeWei
  | status
  | ownerId
  | role
  | actionType
  | bundleId
  | bundleIndex
  | method
  | gasUsed
  | maxFeePerGasWei
  | recipient
  | valueWei
  | derivedFrom
deriving DecidableEq

/-- The name of a column in the first line of the file. -/
def Column.name : Column → String
  | .round => "round"
  | .blockNumber => "blockNumber"
  | .txIndex => "txIndex"
  | .hash => "hash"
  | .sender => "from"
  | .priorityFeeWei => "priorityFeeWei"
  | .status => "status"
  | .ownerId => "ownerId"
  | .role => "role"
  | .actionType => "actionType"
  | .bundleId => "bundleId"
  | .bundleIndex => "bundleIndex"
  | .method => "method"
  | .gasUsed => "gasUsed"
  | .maxFeePerGasWei => "maxFeePerGasWei"
  | .recipient => "to"
  | .valueWei => "valueWei"
  | .derivedFrom => "derivedFrom"

def BLOCKS_CSV_COLUMNS : List Column :=
  [.round, .blockNumber, .txIndex, .hash, .sender, .priorityFeeWei, .status,
    .ownerId, .role, .actionType, .bundleId, .bundleIndex, .method, .gasUsed,
    .maxFeePerGasWei, .recipient, .valueWei, .derivedFrom]

def Column.index (column : Column) : Nat := BLOCKS_CSV_COLUMNS.idxOf column

def header : Text :=
  marks.line (BLOCKS_CSV_COLUMNS.map fun column => literal column.name.toList)

structure BlockRowInput where
  round : Nat
  blockNumber : Nat
  txIndex : Nat
  hash : PlainText
  sender : PlainText
  priorityFeeWei : Int
  status : PlainText
  ownerId : Text
  role : PlainText
  actionType : Option PlainText
  bundleId : Option PlainText
  bundleIndex : Option Nat
  method : Option PlainText
  gasUsed : Option Int
  maxFeePerGasWei : Option Int
  recipient : Option PlainText
  valueWei : Option Int
  derivedFrom : Option PlainText

/-- The text of a column which may be empty. -/
def optional (text : Option PlainText) : Text :=
  (text.map PlainText.text).getD []

def optionalNumber (value : Option Int) : Text := (value.map toString).getD []

/-- The columns of a row, as `blockRow` joins them. -/
def rowCells (row : BlockRowInput) : List Text :=
  [toString row.round, toString row.blockNumber, toString row.txIndex,
    row.hash.text,
    row.sender.text,
    toString row.priorityFeeWei,
    row.status.text,
    row.ownerId,
    row.role.text,
    optional row.actionType,
    optional row.bundleId,
    optionalNumber (row.bundleIndex.map Int.ofNat),
    optional row.method,
    optionalNumber row.gasUsed,
    optionalNumber row.maxFeePerGasWei,
    optional row.recipient,
    optionalNumber row.valueWei,
    optional row.derivedFrom]

/-- The file after a run, as it is read back. -/
def blocksCsv (rows : List BlockRowInput) : Text :=
  (header ++ marks.newline :: marks.table (rows.map rowCells)).map
    CodePoint.stored

/-- The columns of each line which is not blank, after the first line. -/
def csvRows (file : Text) : List (List Text) := marks.read file

/-- A column of a line; nothing where the line is shorter. -/
def column (cols : List Text) (name : Column) : Option Text := cols[name.index]?

theorem Storable.marks_plain {text : Text} (storable : Storable text) :
    marks.Plain text := by
  constructor
  · intro inside
    exact (storable _ inside).1 rfl
  · intro inside
    exact (storable _ inside).2.1 rfl

theorem storable_nil : Storable [] := fun _ inside => nomatch inside

theorem storable_optional (text : Option PlainText) :
    Storable (optional text) := by
  cases text with
  | none => exact storable_nil
  | some text => exact text.plain

theorem storable_optionalNumber (value : Option Int) :
    Storable (optionalNumber value) := by
  cases value with
  | none => exact storable_nil
  | some value => exact storable_toString value

theorem storable_rowCells
    {row : BlockRowInput} (owner : Storable row.ownerId) :
    ∀ cell ∈ rowCells row, Storable cell := by
  unfold rowCells
  simp only [List.forall_mem_cons, List.not_mem_nil, false_imp_iff,
    implies_true, and_true]
  exact ⟨storable_toString _, storable_toString _, storable_toString _,
    row.hash.plain, row.sender.plain, storable_toString _,
    row.status.plain, owner, row.role.plain, storable_optional _,
    storable_optional _, storable_optionalNumber _, storable_optional _,
    storable_optionalNumber _, storable_optionalNumber _,
    storable_optional _, storable_optionalNumber _, storable_optional _⟩

theorem rowCells_several (row : BlockRowInput) : 1 < (rowCells row).length :=
  show 1 < 18 by decide

theorem header_stored :
    marks.newline ∉ header ∧ header.map CodePoint.stored = header := by
  decide

theorem stored_table
    {rows : List BlockRowInput} (owners : ∀ row ∈ rows, Storable row.ownerId) :
    (marks.table (rows.map rowCells)).map CodePoint.stored =
      marks.table (rows.map rowCells) := by
  refine (List.map_congr_left ?_).trans (List.map_id _)
  intro symbol inside
  rcases List.mem_flatMap.mp inside with ⟨cells, listed, written⟩
  rcases List.mem_map.mp listed with ⟨row, member, rfl⟩
  rcases List.mem_append.mp written with line | ending
  · rcases Marks.mem_intercalate line with rfl | ⟨cell, part, inner⟩
    · rfl
    · exact (storable_rowCells (owners row member) cell part symbol inner).2.2
  · rw [List.mem_singleton.mp ending]
    rfl

theorem csvRows_blocksCsv
    {rows : List BlockRowInput} (owners : ∀ row ∈ rows, Storable row.ownerId) :
    csvRows (blocksCsv rows) = rows.map rowCells := by
  unfold blocksCsv csvRows
  rw [List.map_append, List.map_cons, stored_table owners, header_stored.2]
  apply Marks.read_table header_stored.1
  · intro cells listed
    rcases List.mem_map.mp listed with ⟨row, _, rfl⟩
    exact rowCells_several row
  · intro cells listed cell part
    rcases List.mem_map.mp listed with ⟨row, member, rfl⟩
    exact (storable_rowCells (owners row member) cell part).marks_plain

theorem storable_of_mem_csvRows
    {rows : List BlockRowInput} {cols : List Text} {cell : Text}
    (row : cols ∈ csvRows (blocksCsv rows)) (listed : cell ∈ cols) :
    Storable cell := by
  have held := Marks.of_mem_read row listed
  intro symbol inside
  refine ⟨?_, ?_, ?_⟩
  · rintro rfl
    exact held.1.1 inside
  · rintro rfl
    exact held.1.2 inside
  · rcases List.mem_map.mp (held.2 symbol inside) with ⟨written, _, rfl⟩
    rfl

end Eris.PostRun.BlocksCsv
