import Mathlib

/-!
# Tables as texts

A table is written row by row, the cells of a row with a mark between them
and a mark after each row.  It is read by splitting the text at the one mark
and what is between at the other.  Cells without marks are read back; no cell
which is read has a mark.
-/

namespace Eris.Foundation

variable {Symbol : Type} [DecidableEq Symbol]

/-- The mark between two cells and the mark after a row. -/
structure Marks (Symbol : Type) where
  comma : Symbol
  newline : Symbol
  apart : comma ≠ newline

namespace Marks

variable (marks : Marks Symbol)

def Plain (cell : List Symbol) : Prop :=
  marks.comma ∉ cell ∧ marks.newline ∉ cell

def line (cells : List (List Symbol)) : List Symbol :=
  [marks.comma].intercalate cells

def table (rows : List (List (List Symbol))) : List Symbol :=
  rows.flatMap fun cells => marks.line cells ++ [marks.newline]

def rowsOf (lines : List (List Symbol)) : List (List (List Symbol)) :=
  (lines.filter fun line => decide (line ≠ [])).map
    fun line => line.splitOn marks.comma

/-- The rows of a text after its first line. -/
def read (text : List Symbol) : List (List (List Symbol)) :=
  marks.rowsOf ((text.splitOn marks.newline).drop 1)

variable {marks} {cells : List (List Symbol)}

omit [DecidableEq Symbol] in
theorem mem_intercalate
    {mark symbol : Symbol} (inside : symbol ∈ [mark].intercalate cells) :
    symbol = mark ∨ ∃ cell ∈ cells, symbol ∈ cell := by
  induction cells with
  | nil => cases inside
  | cons cell rest ih =>
      cases rest with
      | nil =>
          rw [List.intercalate_singleton] at inside
          exact .inr ⟨cell, List.mem_cons_self, inside⟩
      | cons other rest =>
          rw [List.intercalate_cons_cons, List.mem_append,
            List.mem_append] at inside
          rcases inside with (first | between) | later
          · exact .inr ⟨cell, List.mem_cons_self, first⟩
          · exact .inl (List.mem_singleton.mp between)
          · rcases ih later with same | found
            · exact .inl same
            · rcases found with ⟨held, listed, inside⟩
              exact .inr ⟨held, List.mem_cons_of_mem _ listed, inside⟩

omit [DecidableEq Symbol] in
theorem newline_not_mem_line
    (plain : ∀ cell ∈ cells, marks.Plain cell) :
    marks.newline ∉ marks.line cells := by
  intro inside
  rcases mem_intercalate inside with same | ⟨cell, listed, symbol⟩
  · exact marks.apart same.symm
  · exact (plain cell listed).2 symbol

omit [DecidableEq Symbol] in
theorem line_ne_nil
    (several : 1 < cells.length) :
    marks.line cells ≠ [] := by
  match cells, several with
  | first :: second :: rest, _ =>
      unfold line
      rw [List.intercalate_cons_cons]
      intro blank
      have parts := List.append_eq_nil_iff.mp blank
      exact List.cons_ne_nil _ _ (List.append_eq_nil_iff.mp parts.1).2

theorem splitOn_line
    (several : 1 < cells.length) (plain : ∀ cell ∈ cells, marks.Plain cell) :
    (marks.line cells).splitOn marks.comma = cells := by
  apply List.splitOn_intercalate
  · intro cell listed
    exact (plain cell listed).1
  · rintro rfl
    exact Nat.not_lt_zero 1 several

theorem rowsOf_splitOn_table
    {rows : List (List (List Symbol))}
    (several : ∀ cells ∈ rows, 1 < cells.length)
    (plain : ∀ cells ∈ rows, ∀ cell ∈ cells, marks.Plain cell) :
    marks.rowsOf ((marks.table rows).splitOn marks.newline) = rows := by
  induction rows with
  | nil =>
      change marks.rowsOf (([] : List Symbol).splitOn marks.newline) = []
      rw [List.splitOn_nil]
      rfl
  | cons cells rows ih =>
      rw [List.forall_mem_cons] at several plain
      have written : marks.table (cells :: rows) =
          marks.line cells ++ marks.newline :: marks.table rows := by
        unfold table
        rw [List.flatMap_cons, List.append_assoc, List.singleton_append]
      rw [written, List.splitOn_append_cons_self_of_not_mem
        (newline_not_mem_line plain.1)]
      unfold rowsOf at ih ⊢
      rw [List.filter_cons_of_pos, List.map_cons,
        ih several.2 plain.2, splitOn_line several.1 plain.1]
      exact decide_eq_true (line_ne_nil several.1)

theorem read_table
    {header : List Symbol} {rows : List (List (List Symbol))}
    (single : marks.newline ∉ header)
    (several : ∀ cells ∈ rows, 1 < cells.length)
    (plain : ∀ cells ∈ rows, ∀ cell ∈ cells, marks.Plain cell) :
    marks.read (header ++ marks.newline :: marks.table rows) = rows := by
  unfold read
  rw [List.splitOn_append_cons_self_of_not_mem single, List.drop_one,
    List.tail_cons, rowsOf_splitOn_table several plain]

theorem of_mem_splitOn
    {mark : Symbol} {text part : List Symbol}
    (listed : part ∈ text.splitOn mark) :
    mark ∉ part ∧ ∀ symbol ∈ part, symbol ∈ text := by
  induction text generalizing part with
  | nil =>
      rw [List.splitOn_nil, List.mem_singleton] at listed
      subst listed
      exact ⟨List.not_mem_nil, fun _ inside => nomatch inside⟩
  | cons symbol text ih =>
      rw [List.splitOn_cons_eq_if_modifyHead] at listed
      split at listed
      · rcases List.mem_cons.mp listed with rfl | later
        · exact ⟨List.not_mem_nil, fun _ inside => nomatch inside⟩
        · have held := ih later
          exact ⟨held.1, fun other inside =>
              List.mem_cons_of_mem _ (held.2 other inside)⟩
      · rename_i other
        cases parts : text.splitOn mark with
        | nil => exact absurd parts (List.splitOn_ne_nil mark text)
        | cons first rest =>
            rw [parts, List.modifyHead_cons] at listed
            have inner : ∀ part ∈ first :: rest,
                mark ∉ part ∧ ∀ symbol ∈ part, symbol ∈ text := by
              intro part listed
              exact ih (parts ▸ listed)
            rcases List.mem_cons.mp listed with rfl | later
            · have held := inner first List.mem_cons_self
              constructor
              · intro inside
                rcases List.mem_cons.mp inside with same | inside
                · exact other (beq_iff_eq.mpr same.symm)
                · exact held.1 inside
              · intro inner inside
                rcases List.mem_cons.mp inside with rfl | inside
                · exact List.mem_cons_self
                · exact List.mem_cons_of_mem _ (held.2 inner inside)
            · have held := inner part (List.mem_cons_of_mem _ later)
              exact ⟨held.1, fun other inside =>
                  List.mem_cons_of_mem _ (held.2 other inside)⟩

theorem of_mem_read
    {text cell : List Symbol}
    (row : cells ∈ marks.read text) (listed : cell ∈ cells) :
    marks.Plain cell ∧ ∀ symbol ∈ cell, symbol ∈ text := by
  rcases List.mem_map.mp row with ⟨line, kept, rfl⟩
  have whole :=
    of_mem_splitOn (List.mem_of_mem_drop (List.mem_of_mem_filter kept))
  have part := of_mem_splitOn listed
  refine ⟨⟨part.1, ?_⟩, fun symbol inside => whole.2 symbol (part.2 _ inside)⟩
  intro inside
  exact whole.1 (part.2 _ inside)

end Marks

end Eris.Foundation
