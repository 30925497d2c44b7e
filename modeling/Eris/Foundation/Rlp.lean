import Mathlib

/-!
# Recursive length encoding

Byte strings, and lists of what is encoded one after the other, each after a
head which tells its length.  A number is the byte string of its digits in base
256, the highest first and without leading zeros.
-/

namespace Eris.Foundation.Rlp

def bigEndian (value : ℕ) : List UInt8 :=
  (Nat.digits 256 value).reverse.map UInt8.ofNat

/-- The number which bytes continue an earlier one to. -/
def readBytes (value : ℕ) (bytes : List UInt8) : ℕ :=
  bytes.foldl (fun read byte => 256 * read + byte.toNat) value

/-- The head of a payload; `mark` tells byte strings from lists. -/
def header (mark length : ℕ) : List UInt8 :=
  if length ≤ 55 then [UInt8.ofNat (mark + length)]
  else UInt8.ofNat (mark + 55 + (bigEndian length).length) :: bigEndian length

/-- A single byte below 128 is its own encoding. -/
def encodeBytes (value : List UInt8) : List UInt8 :=
  if value.length = 1 ∧ ∀ byte ∈ value, byte.toNat ≤ 0x7f then value
  else header 0x80 value.length ++ value

def encodeList (payload : List UInt8) : List UInt8 :=
  header 0xc0 payload.length ++ payload

variable {value : ℕ}

theorem bigEndian_of_pos (positive : 0 < value) :
    bigEndian value =
      bigEndian (value / 256) ++ [UInt8.ofNat (value % 256)] := by
  rw [bigEndian, Nat.digits_def' (by decide) positive, List.reverse_cons,
    List.map_append]
  rfl

theorem readBytes_bigEndian (value : ℕ) :
    readBytes 0 (bigEndian value) = value := by
  induction value using Nat.strong_induction_on with
  | _ value ih =>
      rcases Nat.eq_zero_or_pos value with rfl | positive
      · simp [bigEndian, readBytes]
      · have earlier := ih (value / 256) (Nat.div_lt_self positive (by decide))
        have byte : (UInt8.ofNat (value % 256)).toNat = value % 256 :=
          UInt8.toNat_ofNat_of_lt' (Nat.mod_lt _ (by decide))
        rw [readBytes] at earlier ⊢
        rw [bigEndian_of_pos positive, List.foldl_append, earlier,
          List.foldl_cons, List.foldl_nil, byte]
        exact Nat.div_add_mod value 256

theorem bigEndian_ne_nil (positive : 0 < value) : bigEndian value ≠ [] := by
  rw [bigEndian_of_pos positive]
  exact List.append_ne_nil_of_right_ne_nil _ (List.cons_ne_nil _ _)

theorem length_bigEndian_le (small : value < 256 ^ 8) :
    (bigEndian value).length ≤ 8 := by
  rw [bigEndian, List.length_map, List.length_reverse]
  exact (Nat.digits_length_le_iff (by decide) value).2 small

theorem le_length_encodeBytes (value : List UInt8) :
    value.length ≤ (encodeBytes value).length := by
  rw [encodeBytes]
  split
  · exact le_rfl
  · rw [List.length_append]
    exact Nat.le_add_left _ _

end Eris.Foundation.Rlp
