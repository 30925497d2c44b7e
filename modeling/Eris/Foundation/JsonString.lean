import Mathlib

/-!
# Quoted strings

A string of UTF-16 is a list of characters and of halves of surrogate pairs
which stand alone; two halves which make up a character do not stand next to
each other.  Quoting writes such halves, the quotation mark, the reverse
solidus and the control characters as escapes and everything else as it is.

A quoted string tells where it ends and what it was: two of them with texts
after them which make up the same text are the same string.
-/

namespace Eris.Foundation.JsonString

/-- A text tells where it ends and what it stands for. -/
def SelfDelimiting {Value : Type} (text : Value → List Char) : Prop :=
  ∀ first second rest other,
    text first ++ rest = text second ++ other → first = second ∧ rest = other

/-- Texts one after another, closed by a character with which none of them
starts, tell what they stand for. -/
theorem closed_flatMap
    {Value : Type} {text : Value → List Char} {close : Char}
    (delimiting : SelfDelimiting text)
    (opened : ∀ value rest other, text value ++ rest ≠ close :: other)
    {values others : List Value} {rest other : List Char}
    (same : values.flatMap text ++ close :: rest =
        others.flatMap text ++ close :: other) :
    values = others ∧ rest = other := by
  induction values generalizing others with
  | nil =>
      cases others with
      | nil => exact ⟨rfl, (List.cons.inj same).2⟩
      | cons value others =>
          rw [List.flatMap_cons, List.append_assoc] at same
          exact absurd same.symm (opened value _ _)
  | cons value values ih =>
      cases others with
      | nil =>
          rw [List.flatMap_cons, List.append_assoc] at same
          exact absurd same (opened value _ _)
      | cons second others =>
          rw [List.flatMap_cons, List.flatMap_cons, List.append_assoc,
            List.append_assoc] at same
          rcases delimiting _ _ _ _ same with ⟨rfl, sameRest⟩
          rcases ih sameRest with ⟨rfl, equal⟩
          exact ⟨rfl, equal⟩

/-- A character, or half of a surrogate pair which stands alone. -/
inductive CodeUnit where
  | char (value : Char)
  | surrogate (half : Fin 2048)
  deriving DecidableEq

/-- Two halves which make up a character. -/
def CodeUnit.pair : CodeUnit → CodeUnit → Prop
  | .surrogate high, .surrogate low => high < 1024 ∧ 1024 ≤ low
  | _, _ => False

structure JsString where
  units : List CodeUnit
  alone : units.IsChain fun first second => ¬ first.pair second

/-- The letter of a character which has a short escape. -/
def shortEscape (char : Char) : Option Char :=
  if char = '"' then some '"'
  else if char = '\\' then some '\\'
  else if char.toNat = 0x08 then some 'b'
  else if char.toNat = 0x09 then some 't'
  else if char.toNat = 0x0a then some 'n'
  else if char.toNat = 0x0c then some 'f'
  else if char.toNat = 0x0d then some 'r'
  else none

def hexDigit (digit : ℕ) : Char :=
  if digit < 10 then
    Char.ofNat (0x30 + digit)
  else
    Char.ofNat (0x61 + (digit - 10))

def unicodeEscape (code : ℕ) : List Char :=
  [ '\\', 'u', hexDigit (code / 4096 % 16), hexDigit (code / 256 % 16),
    hexDigit (code / 16 % 16), hexDigit (code % 16) ]

/-- A code unit as it stands in a quoted string. -/
def escape : CodeUnit → List Char
  | .char value =>
      match shortEscape value with
      | some letter => ['\\', letter]
      | none =>
          if value.toNat < 0x20 then unicodeEscape value.toNat else [value]
  | .surrogate half => unicodeEscape (0xd800 + half)

def quote (string : JsString) : List Char :=
  '"' :: string.units.flatMap escape ++ ['"']

/-- The character of a letter after a reverse solidus. -/
def ofLetter (letter : Char) : Char :=
  if letter = 'b' then Char.ofNat 0x08
  else if letter = 't' then Char.ofNat 0x09
  else if letter = 'n' then Char.ofNat 0x0a
  else if letter = 'f' then Char.ofNat 0x0c
  else if letter = 'r' then Char.ofNat 0x0d
  else letter

def ofCode (code : ℕ) : CodeUnit :=
  if code < 0x20 then
    .char (Char.ofNat code)
  else
    .surrogate (Fin.ofNat 2048 (code - 0xd800))

theorem shortEscape_eq_some {char letter : Char}
    (short : shortEscape char = some letter) :
    ofLetter letter = char ∧ letter ≠ 'u' := by
  unfold shortEscape at short
  split_ifs at short with quotation solidus backspace tab newline feed back
  all_goals cases short
  · exact ⟨quotation.symm, by decide⟩
  · exact ⟨solidus.symm, by decide⟩
  · exact ⟨by rw [← Char.ofNat_toNat char, backspace]; rfl, by decide⟩
  · exact ⟨by rw [← Char.ofNat_toNat char, tab]; rfl, by decide⟩
  · exact ⟨by rw [← Char.ofNat_toNat char, newline]; rfl, by decide⟩
  · exact ⟨by rw [← Char.ofNat_toNat char, feed]; rfl, by decide⟩
  · exact ⟨by rw [← Char.ofNat_toNat char, back]; rfl, by decide⟩

theorem shortEscape_eq_none {char : Char} (long : shortEscape char = none) :
    char ≠ '"' ∧ char ≠ '\\' := by
  unfold shortEscape at long
  split_ifs at long with quotation solidus
  exact ⟨quotation, solidus⟩

theorem escape_cases (unit : CodeUnit) :
    (∃ letter, escape unit = ['\\', letter] ∧ letter ≠ 'u' ∧
      unit = .char (ofLetter letter)) ∨
    (∃ code, escape unit = unicodeEscape code ∧ code < 65536 ∧
      unit = ofCode code) ∨
    ∃ char, escape unit = [char] ∧ char ≠ '"' ∧ char ≠ '\\' ∧
      unit = .char char := by
  cases unit with
  | char value =>
      cases short : shortEscape value with
      | some letter =>
          left
          rcases shortEscape_eq_some short with ⟨equal, other⟩
          refine ⟨letter, ?_, other, congrArg _ equal.symm⟩
          rw [escape, short]
      | none =>
          right
          by_cases control : value.toNat < 0x20
          · left
            refine ⟨value.toNat, ?_, by omega, ?_⟩
            · rw [escape, short]
              exact if_pos control
            · rw [ofCode, if_pos control, Char.ofNat_toNat]
          · right
            rcases shortEscape_eq_none short with ⟨quotation, solidus⟩
            refine ⟨value, ?_, quotation, solidus, rfl⟩
            rw [escape, short]
            exact if_neg control
  | surrogate half =>
      right
      left
      have bound := half.isLt
      refine ⟨0xd800 + half, rfl, by omega, ?_⟩
      rw [ofCode, if_neg (by omega), Nat.add_sub_cancel_left]
      simp

theorem hexDigit_inj :
    ∀ first < 16, ∀ second < 16,
      hexDigit first = hexDigit second → first = second := by
  decide

theorem unicodeEscape_inj
    {first second : ℕ} {rest other : List Char}
    (firstBound : first < 65536) (secondBound : second < 65536)
    (same : unicodeEscape first ++ rest = unicodeEscape second ++ other) :
    first = second ∧ rest = other := by
  have small (number : ℕ) : number % 16 < 16 := Nat.mod_lt _ (by decide)
  rw [unicodeEscape, unicodeEscape] at same
  simp only [List.cons_append, List.nil_append, List.cons.injEq,
    true_and] at same
  rcases same with ⟨digit1, digit2, digit3, digit4, equal⟩
  have equal1 := hexDigit_inj _ (small _) _ (small _) digit1
  have equal2 := hexDigit_inj _ (small _) _ (small _) digit2
  have equal3 := hexDigit_inj _ (small _) _ (small _) digit3
  have equal4 := hexDigit_inj _ (small _) _ (small _) digit4
  exact ⟨by omega, equal⟩

theorem escape_selfDelimiting : SelfDelimiting escape := by
  intro first second rest other same
  rcases escape_cases first with
    ⟨letter, written, letterOther, rfl⟩ | ⟨code, written, bound, rfl⟩ |
      ⟨char, written, -, plain, rfl⟩ <;>
    rcases escape_cases second with
      ⟨letter', written', letterOther', rfl⟩ |
        ⟨code', written', bound', rfl⟩ | ⟨char', written', -, plain', rfl⟩ <;>
    rw [written, written'] at same
  · simp only [List.cons_append, List.nil_append, List.cons.injEq,
      true_and] at same
    exact ⟨congrArg _ (congrArg _ same.1), same.2⟩
  · exact absurd (List.cons.inj (List.cons.inj same).2).1 letterOther
  · exact absurd (List.cons.inj same).1.symm plain'
  · exact absurd (List.cons.inj (List.cons.inj same).2).1.symm letterOther'
  · rcases unicodeEscape_inj bound bound' same with ⟨rfl, equal⟩
    exact ⟨rfl, equal⟩
  · exact absurd (List.cons.inj same).1.symm plain'
  · exact absurd (List.cons.inj same).1 plain
  · exact absurd (List.cons.inj same).1 plain
  · simp only [List.cons_append, List.nil_append, List.cons.injEq] at same
    exact ⟨congrArg _ same.1, same.2⟩

theorem escape_ne_quotation
    (unit : CodeUnit) (rest other : List Char) :
    escape unit ++ rest ≠ '"' :: other := by
  intro same
  rcases escape_cases unit with
    ⟨letter, written, -, -⟩ | ⟨code, written, -, -⟩ |
      ⟨char, written, quotation, -, -⟩ <;>
    rw [written] at same
  · exact absurd (List.cons.inj same).1 (by decide)
  · exact absurd (List.cons.inj same).1 (by decide)
  · exact quotation (List.cons.inj same).1

theorem quote_selfDelimiting : SelfDelimiting quote := by
  rintro ⟨units, alone⟩ ⟨others, othersAlone⟩ rest other same
  rw [quote, quote] at same
  simp only [List.cons_append, List.append_assoc, List.nil_append,
    List.cons.injEq, true_and] at same
  rcases closed_flatMap escape_selfDelimiting escape_ne_quotation same with
    ⟨rfl, equal⟩
  exact ⟨rfl, equal⟩

end Eris.Foundation.JsonString
