import Eris.Foundation.Checked
import Eris.Foundation.SharePool

/-!
# The value types the contracts use

Solidity's fixed-width types are bit vectors of the same width.  Widening
from `uint128` to `uint256` is implicit in the source and exact; the cast
`uint128(x)` drops the high bits silently.
-/

namespace Eris.Evm.Word

open Foundation.Checked Foundation.SharePool

abbrev U256 := BitVec 256

abbrev U128 := BitVec 128

abbrev Address := BitVec 160

/-- A digest, or any other `bytes32`. -/
abbrev Bytes32 := BitVec 256

/-- The implicit conversion from `uint128` to `uint256`. -/
def widen (value : U128) : U256 := value.setWidth 256

/-- The cast `uint128(value)`: the low 128 bits. -/
def narrow (value : U256) : U128 := value.setWidth 128

@[simp]
theorem toNat_widen (value : U128) :
    (widen value).toNat = value.toNat := by
  rw [widen, BitVec.toNat_setWidth]
  exact Nat.mod_eq_of_lt (lt_trans value.isLt (by norm_num))

@[simp]
theorem toNat_narrow (value : U256) :
    (narrow value).toNat = value.toNat % 2 ^ 128 := by
  rw [narrow, BitVec.toNat_setWidth]

theorem toNat_narrow_of_lt
    {value : U256} (small : value.toNat < 2 ^ 128) :
    (narrow value).toNat = value.toNat := by
  rw [toNat_narrow, Nat.mod_eq_of_lt small]

/-- The idiom `if (value > bound) value = bound`. -/
def capped (value bound : U256) : U256 := if bound < value then bound else value

@[simp]
theorem toNat_capped (value bound : U256) :
    (capped value bound).toNat = min value.toNat bound.toNat := by
  rw [capped]
  split
  · next less => exact (min_eq_right (BitVec.le_of_lt less)).symm
  · next notLess =>
      exact (min_eq_left
        (Nat.le_of_not_lt fun less => notLess (BitVec.lt_def.mpr less))).symm

theorem toNat_pos_iff {width : Nat} (value : BitVec width) :
    0 < value.toNat ↔ value ≠ 0 := by
  rw [Nat.pos_iff_ne_zero, ne_eq, ne_eq, ← BitVec.toNat_inj]
  simp

theorem eq_zero_of_toNat
    {width : Nat} {value : BitVec width} (nothing : value.toNat = 0) :
    value = 0 := by
  rw [← BitVec.toNat_inj, nothing]
  simp

theorem exists_toNat_eq
    {width value : Nat} (fits : value < 2 ^ width) :
    ∃ word : BitVec width, word.toNat = value :=
  ⟨BitVec.ofNat width value, by
    rw [BitVec.toNat_ofNat, Nat.mod_eq_of_lt fits]⟩

section MulDiv

variable {Reason : Type}

/-- `(a * b) / d` -/
def mulDivDown (a b d : U256) : Outcome Reason U256 := do
  let product ← checkedMul a b
  checkedDiv product d

/-- `(a * b + (d - 1)) / d` -/
def mulDivUp (a b d : U256) : Outcome Reason U256 := do
  let product ← checkedMul a b
  let pred ← checkedSub d 1
  let sum ← checkedAdd product pred
  checkedDiv sum d

theorem mulDivDown_eq_ok {a b d result : U256} :
    (mulDivDown a b d : Outcome Reason _) = .ok result ↔
      a.toNat * b.toNat < 2 ^ 256 ∧ 0 < d.toNat ∧
        result.toNat = mulDivFloor a.toNat b.toNat d.toNat := by
  simp only [mulDivDown, mulDivFloor, bind_eq_ok, checkedMul_eq_ok,
    checkedDiv_eq_ok]
  constructor
  · rintro ⟨product, productEq, positive, quotient⟩
    rw [productEq]
    exact ⟨product.isLt, positive, quotient.symm⟩
  · rintro ⟨fits, positive, quotient⟩
    obtain ⟨product, productEq⟩ := exists_toNat_eq fits
    exact ⟨product, productEq.symm, positive, by rw [productEq, quotient]⟩

theorem mulDivUp_eq_ok {a b d result : U256} :
    (mulDivUp a b d : Outcome Reason _) = .ok result ↔
      a.toNat * b.toNat + (d.toNat - 1) < 2 ^ 256 ∧ 0 < d.toNat ∧
        result.toNat = mulDivCeil a.toNat b.toNat d.toNat := by
  have one : (1 : U256).toNat = 1 := rfl
  simp only [mulDivUp, mulDivCeil, bind_eq_ok, checkedMul_eq_ok,
    checkedSub_eq_ok, checkedAdd_eq_ok, checkedDiv_eq_ok, one]
  constructor
  · rintro ⟨product, productEq, pred, predEq, sum, sumEq, positive, quotient⟩
    have predVal : pred.toNat = d.toNat - 1 := by omega
    rw [productEq, ← predVal, sumEq]
    exact ⟨sum.isLt, positive, quotient.symm⟩
  · rintro ⟨fits, positive, quotient⟩
    have dLt := d.isLt
    obtain ⟨product, productEq⟩ := exists_toNat_eq
      (lt_of_le_of_lt (Nat.le_add_right (a.toNat * b.toNat) _) fits)
    obtain ⟨pred, predEq⟩ :=
      exists_toNat_eq (lt_of_le_of_lt (Nat.sub_le d.toNat 1) dLt)
    obtain ⟨sum, sumEq⟩ := exists_toNat_eq fits
    refine ⟨product, productEq.symm, pred, ?_, sum, ?_, positive, ?_⟩
    · omega
    · rw [productEq, predEq, sumEq]
    · rw [sumEq, quotient]

end MulDiv

end Eris.Evm.Word
