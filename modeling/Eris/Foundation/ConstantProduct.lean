import Mathlib

/-!
# Trading along a rounded constant-product curve

A pool holds a reserve of what it takes and a reserve of what it pays.  For an
input it pays the proportional part of its reserve, rounded down, so that the
product of the reserves never falls.  Taking more than the input which was
priced (a fee, a gift) only moves the pool further from the curve.

The main fact is about many payments in a row: together they stay below the
curve through the first reserves, so they never pay more than one payment for
the sum of their inputs.
-/

namespace Eris.Foundation.ConstantProduct

def payout (reserveIn reserveOut input : Nat) : Nat :=
  reserveOut * input / (reserveIn + input)

section OnePayment

variable {reserveIn reserveOut input : Nat}

theorem payout_mul_le :
    payout reserveIn reserveOut input * (reserveIn + input) ≤
      reserveOut * input :=
  Nat.div_mul_le_self _ _

theorem le_payout_iff
    {paid : Nat} (positive : 0 < reserveIn) :
    paid ≤ payout reserveIn reserveOut input ↔
      paid * (reserveIn + input) ≤ reserveOut * input :=
  Nat.le_div_iff_mul_le (Nat.add_pos_left positive _)

theorem payout_lt
    (positiveIn : 0 < reserveIn) (positiveOut : 0 < reserveOut) :
    payout reserveIn reserveOut input < reserveOut := by
  rw [payout, Nat.div_lt_iff_lt_mul (Nat.add_pos_left positiveIn _)]
  exact Nat.mul_lt_mul_of_pos_left (Nat.lt_add_of_pos_left positiveIn)
    positiveOut

theorem payout_le : payout reserveIn reserveOut input ≤ reserveOut := by
  rcases Nat.eq_zero_or_pos (reserveIn + input) with none | positive
  · rw [payout, none, Nat.div_zero]
    exact Nat.zero_le _
  · refine (Nat.div_le_iff_le_mul_add_pred positive).mpr ?_
    refine le_trans ?_ (Nat.le_add_right _ _)
    rw [Nat.mul_comm (reserveIn + input)]
    exact Nat.mul_le_mul_left _ (Nat.le_add_left _ _)

theorem payout_le_input (near : reserveOut ≤ reserveIn + input) :
    payout reserveIn reserveOut input ≤ input :=
  Nat.div_le_of_le_mul (Nat.mul_le_mul_right _ near)

theorem payout_mono
    {more : Nat} (positive : 0 < reserveIn) (le : input ≤ more) :
    payout reserveIn reserveOut input ≤ payout reserveIn reserveOut more := by
  rw [le_payout_iff positive]
  have bound : payout reserveIn reserveOut input * (reserveIn + input) ≤
        reserveOut * input :=
    payout_mul_le
  have rest : payout reserveIn reserveOut input * (more - input) ≤
        reserveOut * (more - input) :=
    Nat.mul_le_mul_right _ payout_le
  calc payout reserveIn reserveOut input * (reserveIn + more)
      = payout reserveIn reserveOut input * (reserveIn + input) +
          payout reserveIn reserveOut input * (more - input) := by
        rw [← Nat.mul_add, Nat.add_assoc, Nat.add_sub_of_le le]
    _ ≤ reserveOut * input + reserveOut * (more - input) :=
        Nat.add_le_add bound rest
    _ = reserveOut * more := by
        rw [← Nat.mul_add, Nat.add_sub_of_le le]

theorem product_le_of_payout
    {taken : Nat} (priced : input ≤ taken) :
    reserveIn * reserveOut ≤ (reserveIn + taken) *
        (reserveOut - payout reserveIn reserveOut input) := by
  obtain ⟨left, split⟩ := Nat.exists_eq_add_of_le
    (payout_le : payout reserveIn reserveOut input ≤ reserveOut)
  have bound : payout reserveIn reserveOut input * (reserveIn + input) ≤
        reserveOut * input :=
    payout_mul_le
  generalize payout reserveIn reserveOut input = paid at bound split ⊢
  subst split
  rw [Nat.add_sub_cancel_left]
  calc reserveIn * (paid + left)
      ≤ (reserveIn + input) * left := by nlinarith
    _ ≤ (reserveIn + taken) * left :=
        Nat.mul_le_mul_right _ (Nat.add_le_add_left priced _)

end OnePayment

/-- Together the payments stay below the curve through the first reserves. -/
def Below (reserveIn reserveOut input paid : Nat) : Prop :=
  paid * (reserveIn + input) ≤ reserveOut * input

section ManyPayments

variable {reserveIn reserveOut input paid : Nat}

theorem Below.nothing : Below reserveIn reserveOut 0 0 := by
  rw [Below, Nat.zero_mul]
  exact Nat.zero_le _

theorem Below.pay
    {laterIn laterOut more : Nat}
    (below : Below reserveIn reserveOut input paid)
    (kept : reserveIn + input ≤ laterIn) (left : laterOut + paid = reserveOut) :
    Below reserveIn reserveOut (input + more)
      (paid + payout laterIn laterOut more) := by
  have bound :
      payout laterIn laterOut more * (laterIn + more) ≤ laterOut * more :=
    payout_mul_le
  generalize payout laterIn laterOut more = next at bound ⊢
  have priced : next * (reserveIn + input + more) ≤ laterOut * more := le_trans
      (Nat.mul_le_mul_left _ (Nat.add_le_add_right kept _)) bound
  show
    (paid + next) * (reserveIn + (input + more)) ≤ reserveOut * (input + more)
  calc (paid + next) * (reserveIn + (input + more))
      = paid * (reserveIn + input) + paid * more +
          next * (reserveIn + input + more) := by ring
    _ ≤ reserveOut * input + paid * more + laterOut * more :=
        Nat.add_le_add (Nat.add_le_add_right below _) priced
    _ = reserveOut * (input + more) := by rw [← left]; ring

theorem Below.give
    {more : Nat} (below : Below reserveIn reserveOut input paid)
    (covered : paid ≤ reserveOut) :
    Below reserveIn reserveOut (input + more) paid := by
  show paid * (reserveIn + (input + more)) ≤ reserveOut * (input + more)
  calc paid * (reserveIn + (input + more))
      = paid * (reserveIn + input) + paid * more := by ring
    _ ≤ reserveOut * input + reserveOut * more :=
        Nat.add_le_add below (Nat.mul_le_mul_right _ covered)
    _ = reserveOut * (input + more) := by ring

theorem Below.le_payout
    {whole : Nat} (below : Below reserveIn reserveOut input paid)
    (positive : 0 < reserveIn) (covered : input ≤ whole) :
    paid ≤ payout reserveIn reserveOut whole :=
  le_trans ((le_payout_iff positive).mpr below) (payout_mono positive covered)

end ManyPayments

end Eris.Foundation.ConstantProduct
