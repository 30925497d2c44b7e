import Mathlib

/-!
# Files of lines

A program appends one line per row to a file and reads the rows back by
splitting the file at the newlines and parsing what lies between them.  A line
which does not parse is passed over.  Cut anywhere, such a file still reads as
a beginning of the rows which were appended to it, provided that no line
contains a newline and that no proper beginning of a line parses.
-/

namespace Eris.Foundation

variable {Symbol Row : Type}

/-- How rows are written as lines and read back; a blank line is no row. -/
structure LineFormat (Symbol Row : Type) where
  newline : Symbol
  write : Row → List Symbol
  parse : List Symbol → Option Row
  blank : parse [] = none

namespace LineFormat

def text (format : LineFormat Symbol Row) (rows : List Row) : List Symbol :=
  rows.flatMap fun row => format.write row ++ [format.newline]

def read
    [DecidableEq Symbol] (format : LineFormat Symbol Row) (file : List Symbol) :
    List Row :=
  (file.splitOn format.newline).filterMap format.parse

/-- The line of a row reads back as the row, and no beginning of it reads. -/
structure Reads (format : LineFormat Symbol Row) (row : Row) : Prop where
  unbroken : format.newline ∉ format.write row
  whole : format.parse (format.write row) = some row
  torn : ∀ part, part <+: format.write row → part ≠ format.write row →
      format.parse part = none

variable {format : LineFormat Symbol Row}

theorem text_cons (row : Row) (rows : List Row) :
    format.text (row :: rows) =
      format.write row ++ format.newline :: format.text rows := by
  simp [text]

variable [DecidableEq Symbol]

theorem read_nil : format.read [] = [] := by
  rw [read, List.splitOn_nil]
  simp [format.blank]

theorem read_of_unbroken
    {part : List Symbol} (unbroken : format.newline ∉ part) :
    format.read part = (format.parse part).toList := by
  rw [read, List.splitOn_eq_singleton unbroken]
  cases parsed : format.parse part <;> simp [parsed]

theorem read_line
    {row : Row} (reads : format.Reads row) (rest : List Symbol) :
    format.read (format.write row ++ format.newline :: rest) =
      row :: format.read rest := by
  rw [read, List.splitOn_append_cons_self_of_not_mem reads.unbroken]
  simp [read, reads.whole]

theorem read_text
    {rows : List Row} (reads : ∀ row ∈ rows, format.Reads row) :
    format.read (format.text rows) = rows := by
  induction rows with
  | nil => exact read_nil
  | cons row rows ih =>
      rw [List.forall_mem_cons] at reads
      rw [text_cons, read_line reads.1, ih reads.2]

omit [DecidableEq Symbol] in
theorem prefix_line
    {cut line rest : List Symbol} {mark : Symbol}
    (within : cut <+: line ++ mark :: rest) :
    cut <+: line ∨ ∃ after, cut = line ++ mark :: after ∧ after <+: rest := by
  rcases List.prefix_or_prefix_of_prefix within
    (List.prefix_append line (mark :: rest)) with inside | past
  · exact Or.inl inside
  · rcases past with ⟨tail, rfl⟩
    rw [List.prefix_append_right_inj] at within
    cases tail with
    | nil =>
        apply Or.inl
        rw [List.append_nil]
    | cons symbol after =>
        rw [List.cons_prefix_cons] at within
        rcases within with ⟨rfl, within⟩
        exact Or.inr ⟨after, rfl, within⟩

theorem read_of_prefix
    {rows : List Row} (reads : ∀ row ∈ rows, format.Reads row)
    {cut : List Symbol} (within : cut <+: format.text rows) :
    format.read cut <+: rows := by
  induction rows generalizing cut with
  | nil =>
      have empty : cut = [] := List.prefix_nil.1 within
      rw [empty, read_nil]
  | cons row rows ih =>
      rw [List.forall_mem_cons] at reads
      rw [text_cons] at within
      rcases prefix_line within with inside | ⟨after, rfl, remaining⟩
      · have unbroken : format.newline ∉ cut := by
          intro member
          exact reads.1.unbroken (inside.subset member)
        rw [read_of_unbroken unbroken]
        by_cases complete : cut = format.write row
        · rw [complete, reads.1.whole]
          exact List.prefix_append [row] rows
        · rw [reads.1.torn cut inside complete]
          exact List.nil_prefix
      · rw [read_line reads.1, List.cons_prefix_cons]
        exact ⟨rfl, ih reads.2 remaining⟩

variable [DecidableEq Row]

/-- A format which writes and reads the rows of a table. -/
def tabulated
    (newline : Symbol) (table : List (List Symbol × Row))
    (filled : ∀ entry ∈ table, entry.1 ≠ []) :
    LineFormat Symbol Row where
  newline := newline
  write row := ((table.find? fun entry => entry.2 = row).map Prod.fst).getD []
  parse text := (table.find? fun entry => entry.1 = text).map Prod.snd
  blank := by
    rw [Option.map_eq_none_iff, List.find?_eq_none]
    intro entry member
    simpa using filled entry member

theorem tabulated_reads
    {newline : Symbol} {table : List (List Symbol × Row)}
    {filled : ∀ entry ∈ table, entry.1 ≠ []}
    (unbroken : ∀ entry ∈ table, newline ∉ entry.1)
    (apart :
      ∀ first ∈ table, ∀ second ∈ table, first.1 <+: second.1 → first = second)
    {entry : List Symbol × Row} (listed : entry ∈ table)
    (once : ∀ other ∈ table, other.2 = entry.2 → other = entry) :
    (tabulated newline table filled).Reads entry.2 := by
  have writes : (tabulated newline table filled).write entry.2 = entry.1 := by
    simp only [tabulated]
    cases found : table.find? fun other => other.2 = entry.2 with
    | none =>
        rw [List.find?_eq_none] at found
        have missed := found entry listed
        simp at missed
    | some other =>
        have same : other.2 = entry.2 := by simpa using List.find?_some found
        rw [once other (List.mem_of_find?_eq_some found) same]
        rfl
  have parses : ∀ part, part <+: entry.1 → ∀ row,
      (tabulated newline table filled).parse part = some row →
        part = entry.1 ∧ row = entry.2 := by
    intro part within row parsed
    simp only [tabulated] at parsed
    rcases Option.map_eq_some_iff.1 parsed with ⟨other, found, rfl⟩
    have text : other.1 = part := by simpa using List.find?_some found
    subst text
    rw [apart other (List.mem_of_find?_eq_some found) entry listed within]
    exact ⟨rfl, rfl⟩
  constructor
  · rw [writes]
    exact unbroken entry listed
  · rw [writes]
    cases parsed : (tabulated newline table filled).parse entry.1 with
    | none =>
        simp only [tabulated, Option.map_eq_none_iff,
          List.find?_eq_none] at parsed
        have missed := parsed entry listed
        simp at missed
    | some row =>
        rw [(parses entry.1 (List.prefix_refl _) row parsed).2]
  · intro part within proper
    rw [writes] at within proper
    cases parsed : (tabulated newline table filled).parse part with
    | none => rfl
    | some row => exact absurd (parses part within row parsed).1 proper

end LineFormat

end Eris.Foundation
