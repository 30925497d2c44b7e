import Mathlib

/-!
# Integers as texts

Texts of digits in a base, and the reader of integer literals.  Blanks around a
literal are ignored and an empty literal is zero.  A literal with a base mark
has digits of that base and no sign; any other is decimal, with a sign or
without one.
-/

namespace Eris.Foundation.IntegerText

/-- The digit a character stands for, in either case. -/
def digitValue (char : Char) : Option Nat :=
  if '0' ≤ char ∧ char ≤ '9' then some (char.toNat - 48)
  else if 'a' ≤ char ∧ char ≤ 'f' then some (char.toNat - 87)
  else if 'A' ≤ char ∧ char ≤ 'F' then some (char.toNat - 55)
  else none

/-- The number a run of digits continues an earlier number to. -/
def readDigits (base value : Nat) : List Char → Option Nat
  | [] => some value
  | char :: chars =>
      match digitValue char with
      | none => none
      | some digit =>
          if digit < base then readDigits base (base * value + digit) chars
          else none

/-- The number a run of digits stands for; there is at least one. -/
def readNatural (base : Nat) : List Char → Option Nat
  | [] => none
  | char :: chars => readDigits base 0 (char :: chars)

/-- The number a literal without blanks stands for. -/
def readLiteral : List Char → Option Int
  | [] => some 0
  | '0' :: 'x' :: digits => (readNatural 16 digits).map Int.ofNat
  | '0' :: 'X' :: digits => (readNatural 16 digits).map Int.ofNat
  | '0' :: 'o' :: digits => (readNatural 8 digits).map Int.ofNat
  | '0' :: 'O' :: digits => (readNatural 8 digits).map Int.ofNat
  | '0' :: 'b' :: digits => (readNatural 2 digits).map Int.ofNat
  | '0' :: 'B' :: digits => (readNatural 2 digits).map Int.ofNat
  | '-' :: digits => (readNatural 10 digits).map fun value => -Int.ofNat value
  | '+' :: digits => (readNatural 10 digits).map Int.ofNat
  | digits => (readNatural 10 digits).map Int.ofNat

/-- The characters that count as blanks or as ends of lines. -/
def blank (char : Char) : Bool :=
  (9 ≤ char.toNat && char.toNat ≤ 13) ||
    (0x2000 ≤ char.toNat && char.toNat ≤ 0x200A) ||
    [0x20, 0xA0, 0x1680, 0x2028, 0x2029, 0x202F, 0x205F, 0x3000,
      0xFEFF].contains char.toNat

def trimmed (chars : List Char) : List Char :=
  ((chars.dropWhile blank).reverse.dropWhile blank).reverse

def readInteger (text : String) : Option Int :=
  readLiteral (trimmed text.toList)

/-- The text of a number in base sixteen. -/
def hexText (value : Nat) : String :=
  "0x" ++ String.ofList (Nat.toDigits 16 value)

/-- The characters of an integer in base ten. -/
def decimal : Int → List Char
  | .ofNat value => Nat.toDigits 10 value
  | .negSucc value => '-' :: Nat.toDigits 10 (value + 1)

example : readInteger " 0x1F " = some 31 := by decide

variable {digit base : Nat} {char mark : Char} {chars : List Char}

theorem digitValue_digitChar (small : digit < 16) :
    digitValue digit.digitChar = some digit := by
  interval_cases digit <;> decide

theorem blank_digitChar (small : digit < 16) :
    blank digit.digitChar = false := by
  interval_cases digit <;> decide

theorem readDigits_append
    (base value : Nat) (chars others : List Char) :
    readDigits base value (chars ++ others) =
      (readDigits base value chars).bind fun read =>
        readDigits base read others := by
  induction chars generalizing value with
  | nil => rfl
  | cons char chars ih =>
      rw [List.cons_append, readDigits, readDigits]
      cases digitValue char with
      | none => rfl
      | some digit =>
          dsimp only
          split
          · exact ih _
          · rfl

theorem readDigits_singleton
    {value : Nat} (small : digit < base) (base_le : base ≤ 16) :
    readDigits base value [digit.digitChar] = some (base * value + digit) := by
  rw [readDigits, digitValue_digitChar (small.trans_le base_le)]
  dsimp only
  rw [if_pos small, readDigits]

theorem readDigits_toDigits
    (one_lt : 1 < base) (base_le : base ≤ 16) (value : Nat) :
    readDigits base 0 (Nat.toDigits base value) = some value := by
  induction value using Nat.base_induction base one_lt with
  | single digit small =>
      rw [Nat.toDigits_of_lt_base small, readDigits_singleton small base_le,
        Nat.mul_zero, Nat.zero_add]
  | digit rest digit small positive ih =>
      rw [← Nat.toDigits_append_toDigits one_lt positive small,
        readDigits_append, ih, Option.bind_some,
        Nat.toDigits_of_lt_base small, readDigits_singleton small base_le]

theorem readNatural_toDigits
    (one_lt : 1 < base) (base_le : base ≤ 16) (value : Nat) :
    readNatural base (Nat.toDigits base value) = some value := by
  have read := readDigits_toDigits one_lt base_le value
  cases digits : Nat.toDigits base value with
  | nil => exact absurd digits Nat.toDigits_ne_nil
  | cons char chars => rwa [digits] at read

theorem exists_digit_of_mem_toDigits
    (one_lt : 1 < base) (value : Nat)
    (written : char ∈ Nat.toDigits base value) :
    ∃ digit < base, char = digit.digitChar := by
  induction value using Nat.base_induction base one_lt with
  | single digit small =>
      rw [Nat.toDigits_of_lt_base small, List.mem_singleton] at written
      exact ⟨digit, small, written⟩
  | digit rest digit small positive ih =>
      rw [← Nat.toDigits_append_toDigits one_lt positive small,
        List.mem_append] at written
      rcases written with earlier | last
      · exact ih earlier
      · rw [Nat.toDigits_of_lt_base small, List.mem_singleton] at last
        exact ⟨digit, small, last⟩

theorem blank_of_mem_toDigits
    (one_lt : 1 < base) (base_le : base ≤ 16) (value : Nat)
    (written : char ∈ Nat.toDigits base value) :
    blank char = false := by
  obtain ⟨digit, small, rfl⟩ :=
    exists_digit_of_mem_toDigits one_lt value written
  exact blank_digitChar (small.trans_le base_le)

theorem dropWhile_of_none_blank
    (solid : ∀ char ∈ chars, blank char = false) :
    chars.dropWhile blank = chars := by
  cases chars with
  | nil => rfl
  | cons char chars =>
      rw [List.dropWhile_cons, solid char List.mem_cons_self]
      rfl

theorem trimmed_of_none_blank
    (solid : ∀ char ∈ chars, blank char = false) :
    trimmed chars = chars := by
  have reversed : ∀ char ∈ chars.reverse, blank char = false := by
    intro char listed
    exact solid char (List.mem_reverse.mp listed)
  rw [trimmed, dropWhile_of_none_blank solid,
    dropWhile_of_none_blank reversed, List.reverse_reverse]

theorem blank_of_trimmed
    (nothing : trimmed chars = []) :
    ∀ char ∈ chars, blank char = true := by
  unfold trimmed at nothing
  rw [List.reverse_eq_nil_iff, List.dropWhile_eq_nil_iff] at nothing
  intro char listed
  rw [← List.takeWhile_append_dropWhile (p := blank) (l := chars),
    List.mem_append] at listed
  rcases listed with before | after
  · exact List.mem_takeWhile_imp before
  · exact nothing char (List.mem_reverse.mpr after)

@[simp]
theorem readInteger_hexText (value : Nat) :
    readInteger (hexText value) = some (Int.ofNat value) := by
  have chars :
      (hexText value).toList = '0' :: 'x' :: Nat.toDigits 16 value := by
    rw [hexText, String.toList_append,
      @String.toList_ofList (Nat.toDigits 16 value)]
    rfl
  have solid : ∀ char ∈ (hexText value).toList, blank char = false := by
    intro char listed
    rw [chars, List.mem_cons, List.mem_cons] at listed
    rcases listed with rfl | rfl | written
    · decide
    · decide
    · exact blank_of_mem_toDigits (by decide) (by decide) value written
  rw [readInteger, trimmed_of_none_blank solid, chars, readLiteral,
    readNatural_toDigits (by decide) (by decide), Option.map_some]

theorem ne_of_mem_toDigits
    {value : Nat} (written : char ∈ Nat.toDigits 10 value)
    {other : Char} (foreign : ∀ digit < 10, other ≠ digit.digitChar) :
    char ≠ other := by
  rintro rfl
  obtain ⟨digit, small, same⟩ :=
    exists_digit_of_mem_toDigits (by decide) value written
  exact foreign digit small same

theorem foreign_of_mark
    (marks : mark ∈ ['x', 'X', 'o', 'O', 'b', 'B', '-', '+']) :
    ∀ digit < 10, mark ≠ digit.digitChar := by
  intro digit small
  simp only [List.mem_cons, List.not_mem_nil, or_false] at marks
  rcases marks with rfl | rfl | rfl | rfl | rfl | rfl | rfl | rfl <;>
    interval_cases digit <;> decide

theorem toDigits_ne_marked
    {value : Nat} {digits : List Char}
    (marks : mark ∈ ['x', 'X', 'o', 'O', 'b', 'B', '-', '+']) :
    Nat.toDigits 10 value ≠ '0' :: mark :: digits := by
  intro marked
  apply ne_of_mem_toDigits _ (foreign_of_mark marks) rfl
  · exact value
  · rw [marked]
    exact List.mem_cons_of_mem _ List.mem_cons_self

theorem toDigits_ne_signed
    {value : Nat} {digits : List Char}
    (marks : mark ∈ ['x', 'X', 'o', 'O', 'b', 'B', '-', '+']) :
    Nat.toDigits 10 value ≠ mark :: digits := by
  intro marked
  apply ne_of_mem_toDigits _ (foreign_of_mark marks) rfl
  · exact value
  · rw [marked]
    exact List.mem_cons_self

theorem readLiteral_toDigits (value : Nat) :
    readLiteral (Nat.toDigits 10 value) = some (Int.ofNat value) := by
  unfold readLiteral
  split
  next empty => exact absurd empty Nat.toDigits_ne_nil
  next marked => exact absurd marked (toDigits_ne_marked (by decide))
  next marked => exact absurd marked (toDigits_ne_marked (by decide))
  next marked => exact absurd marked (toDigits_ne_marked (by decide))
  next marked => exact absurd marked (toDigits_ne_marked (by decide))
  next marked => exact absurd marked (toDigits_ne_marked (by decide))
  next marked => exact absurd marked (toDigits_ne_marked (by decide))
  next signed => exact absurd signed (toDigits_ne_signed (by decide))
  next signed => exact absurd signed (toDigits_ne_signed (by decide))
  next =>
    rw [readNatural_toDigits (by decide) (by decide), Option.map_some]

theorem readLiteral_decimal (value : Int) :
    readLiteral (decimal value) = some value := by
  cases value with
  | ofNat value => exact readLiteral_toDigits value
  | negSucc value =>
      have digits : readNatural 10 (Nat.toDigits 10 (value + 1)) = _ :=
        readNatural_toDigits (by decide) (by decide) (value + 1)
      change (readNatural 10 (Nat.toDigits 10 (value + 1))).map _ = _
      rw [digits]
      rfl

theorem of_mem_decimal
    {value : Int} (written : char ∈ decimal value) :
    char = '-' ∨ ∃ digit < 10, char = digit.digitChar := by
  cases value with
  | ofNat value =>
      exact .inr (exists_digit_of_mem_toDigits (by decide) value written)
  | negSucc value =>
      rcases List.mem_cons.mp written with sign | digits
      · exact .inl sign
      · exact .inr (exists_digit_of_mem_toDigits (by decide) (value + 1) digits)

theorem read_decimal (value : Int) :
    readLiteral (trimmed (decimal value)) = some value := by
  have solid : ∀ char ∈ decimal value, blank char = false := by
    intro char written
    rcases of_mem_decimal written with rfl | ⟨digit, small, rfl⟩
    · decide
    · exact blank_digitChar (by omega)
  rw [trimmed_of_none_blank solid, readLiteral_decimal]

theorem decimal_ne_nil (value : Int) : decimal value ≠ [] := by
  cases value with
  | ofNat value => exact Nat.toDigits_ne_nil
  | negSucc value => exact List.cons_ne_nil _ _

end Eris.Foundation.IntegerText
