import Eris.Evm.Erc20
import Eris.Foundation.ConstantProduct
import Eris.Foundation.Transition

/-!
# The functions of `SimpleAMM.sol`

The pool keeps no books of its own: its reserves are its balances of the two
tokens.  A world therefore is nothing but the books of every token, and a
transfer to the pool is a change of its reserves.
-/

namespace Eris.Amm.Pool

open Foundation Foundation.Checked Foundation.ConstantProduct
  Foundation.Transition Evm.Word Evm.Erc20

/-- What the constructor fixes, under the condition it requires. -/
structure Deployment where
  self : Address
  token0 : Address
  token1 : Address
  feeBps : BitVec 24
  affordable : feeBps.toNat < 10000

abbrev World := Address → Token (2 ^ 256)

abbrev Result := Outcome String

def getReserves (d : Deployment) (w : World) : U256 × U256 :=
  ((w d.token0).balanceOf d.self, (w d.token1).balanceOf d.self)

/-- `(rIn, rOut)` -/
def sides (d : Deployment) (w : World) (tokenIn : Address) : U256 × U256 :=
  let reserves := getReserves d w
  if tokenIn = d.token0 then reserves else reserves.swap

def amountOut
    (d : Deployment) (w : World) (amountIn : U256) (tokenIn : Address) :
    Result U256 := do
  let (rIn, rOut) := sides d w tokenIn
  if rIn = 0 ∨ rOut = 0 then return 0
  let keep ← checkedSub (10000 : BitVec 24) d.feeBps
  let kept ← checkedMul amountIn (keep.setWidth 256)
  let inAfterFee ← checkedDiv kept 10000
  let product ← checkedMul rOut inAfterFee
  let divisor ← checkedAdd rIn inAfterFee
  checkedDiv product divisor

/-- The quote is the price of the execution. -/
def getAmountOut
    (d : Deployment) (w : World) (amountIn : U256) (tokenIn : Address) :
    Result U256 :=
  amountOut d w amountIn tokenIn

/-- The token which is paid out for `tokenIn`. -/
def Deployment.tokenOut (d : Deployment) (tokenIn : Address) : Address :=
  if tokenIn = d.token0 then d.token1 else d.token0

/-- The sender and the arguments of a call of `swap`. -/
structure SwapCall where
  msgSender : Address
  amountIn : U256
  minOut : U256
  tokenIn : Address
  recipient : Address

def swap (d : Deployment) (w : World) (call : SwapCall) :
    Result (U256 × World) := do
  require (call.tokenIn = d.token0 ∨ call.tokenIn = d.token1) "bad tokenIn"
  let tokenOut := d.tokenOut call.tokenIn
  let out ← amountOut d w call.amountIn call.tokenIn
  require (call.minOut ≤ out) "slippage"
  let taken ←
    (w call.tokenIn).transferFrom d.self call.msgSender d.self call.amountIn
  let w := Function.update w call.tokenIn taken
  let given ← (w tokenOut).transfer d.self call.recipient out
  return (out, Function.update w tokenOut given)

/-- Swaps one after the other, with what each of them returned. -/
def swapAll (d : Deployment) :
    List SwapCall → World → Result (List U256 × World)
  | [], w => .ok ([], w)
  | call :: rest, w => do
      let (out, w) ← swap d w call
      let (outs, w) ← swapAll d rest w
      return (out :: outs, w)

inductive Action where
  | swap (call : SwapCall)
  | erc20 (token caller : Address) (call : Token.Call)

/-- A successful call, not made by the pool itself. -/
def Step (d : Deployment) (w : World) : Action → World → Prop
  | .swap call, w' =>
      call.msgSender ≠ d.self ∧ ∃ out, swap d w call = .ok (out, w')
  | .erc20 token caller call, w' =>
      caller ≠ d.self ∧ ∃ books, (w token).exec caller call = .ok books ∧
          w' = Function.update w token books

/-- A pool which was just created has approved nobody. -/
def Initial (d : Deployment) (w : World) : Prop :=
  ∀ token, (w token).Unapproved d.self

def pool (d : Deployment) : System World Action where
  initial := Initial d
  step := Step d

/-- Execute one action; nothing is returned when it reverts. -/
def Action.run (d : Deployment) (w : World) (action : Action) :
    Option (Action × World) :=
  match action with
  | .swap call =>
      (Pool.swap d w call).toOption.map fun done => (action, done.2)
  | .erc20 token caller call =>
      ((w token).exec caller call).toOption.map fun books =>
        (action, Function.update w token books)

def Action.Admissible (d : Deployment) : Action → Prop
  | .swap call => call.msgSender ≠ d.self
  | .erc20 _ caller _ => caller ≠ d.self

theorem Action.step_of_run
    {d : Deployment} {w : World} {action : Action} {done : Action × World}
    (admissible : action.Admissible d) (ran : action.run d w = some done) :
    Step d w done.1 done.2 := by
  cases action with
  | swap call =>
      rcases Option.map_eq_some_iff.mp ran with
        ⟨⟨out, next⟩, executed, rfl⟩
      exact ⟨admissible, out, toOption_eq_some.mp executed⟩
  | erc20 token caller call =>
      rcases Option.map_eq_some_iff.mp ran with ⟨books, executed, rfl⟩
      exact ⟨admissible, books, toOption_eq_some.mp executed, rfl⟩

/-- Execute actions in order, as long as each succeeds. -/
def script (d : Deployment) (actions : List Action) (w : World) :
    Option World :=
  Transition.script (Action.run d) System.anything actions w

theorem script_runs
    {d : Deployment} {w w' : World} {actions : List Action}
    (admissible : ∀ action ∈ actions, action.Admissible d)
    (ran : script d actions w = some w') :
    (pool d).Runs System.anything w w' :=
  Transition.script_runs (fun _ _ _ admissible ran =>
      ⟨Action.step_of_run admissible ran, trivial⟩)
    admissible ran

/-- What is left of an input after the fee. -/
def Deployment.afterFee (d : Deployment) (amountIn : Nat) : Nat :=
  amountIn * (10000 - d.feeBps.toNat) / 10000

def reserve (d : Deployment) (w : World) (token : Address) : Nat :=
  ((w token).balanceOf d.self).toNat

def product (d : Deployment) (w : World) : Nat :=
  reserve d w d.token0 * reserve d w d.token1

section Prices

variable {d : Deployment} {w : World} {amountIn out : U256} {tokenIn : Address}

def Deployment.Lists (d : Deployment) (token : Address) : Prop :=
  token = d.token0 ∨ token = d.token1

theorem afterFee_le (amount : Nat) : d.afterFee amount ≤ amount := by
  refine Nat.div_le_of_le_mul ?_
  rw [Nat.mul_comm]
  exact Nat.mul_le_mul_right _ (Nat.sub_le _ _)

theorem afterFee_add_le (first second : Nat) :
    d.afterFee first + d.afterFee second ≤ d.afterFee (first + second) := by
  rw [Deployment.afterFee, Deployment.afterFee, Deployment.afterFee,
    Nat.add_mul]
  exact Nat.div_add_div_le_add_div

theorem tokenOut_of_other
    (distinct : d.token0 ≠ d.token1) (lists : d.Lists tokenIn) :
    d.tokenOut tokenIn ≠ tokenIn := by
  rcases lists with rfl | rfl
  · rw [Deployment.tokenOut, if_pos rfl]
    exact distinct.symm
  · rw [Deployment.tokenOut, if_neg distinct.symm]
    exact distinct

theorem sides_eq (lists : d.Lists tokenIn) :
    sides d w tokenIn = ((w tokenIn).balanceOf d.self,
        (w (d.tokenOut tokenIn)).balanceOf d.self) := by
  rw [sides, getReserves, Deployment.tokenOut]
  rcases lists with rfl | rfl
  · rw [if_pos rfl, if_pos rfl]
  · split
    · next same => rw [same]
    · rfl

theorem product_eq (lists : d.Lists tokenIn) :
    product d w = reserve d w tokenIn * reserve d w (d.tokenOut tokenIn) := by
  rw [product, Deployment.tokenOut]
  rcases lists with rfl | rfl
  · rw [if_pos rfl]
  · split
    · next same => rw [same]
    · exact Nat.mul_comm _ _

theorem reserve_pos
    (positive : 0 < product d w) (lists : d.Lists tokenIn) :
    0 < reserve d w tokenIn ∧ 0 < reserve d w (d.tokenOut tokenIn) := by
  rw [product_eq lists] at positive
  exact ⟨Nat.pos_of_mul_pos_right positive, Nat.pos_of_mul_pos_left positive⟩

theorem amountOut_ok
    (positive : 0 < product d w) (lists : d.Lists tokenIn)
    (quoted : amountOut d w amountIn tokenIn = .ok out) :
    out.toNat = payout (reserve d w tokenIn) (reserve d w (d.tokenOut tokenIn))
        (d.afterFee amountIn.toNat) := by
  rcases reserve_pos positive lists with ⟨positiveIn, positiveOut⟩
  have neither : ¬ ((w tokenIn).balanceOf d.self = 0 ∨
      (w (d.tokenOut tokenIn)).balanceOf d.self = 0) := by
    rw [not_or]
    exact ⟨(toNat_pos_iff _).mp positiveIn, (toNat_pos_iff _).mp positiveOut⟩
  have whole : (10000 : BitVec 24).toNat = 10000 := rfl
  have unit : (10000 : U256).toNat = 10000 := rfl
  simp only [amountOut, sides_eq lists, neither, if_false, bind_eq_ok,
    checkedSub_eq_ok, checkedMul_eq_ok, checkedDiv_eq_ok, checkedAdd_eq_ok]
    at quoted
  rcases quoted with
    ⟨keep, keepEq, kept, keptEq, left, ⟨_, leftEq⟩, product, productEq,
      divisor, divisorEq, _, outEq⟩
  have keepVal : (keep.setWidth 256).toNat = 10000 - d.feeBps.toNat := by
    rw [BitVec.toNat_setWidth,
      Nat.mod_eq_of_lt (lt_trans keep.isLt (by norm_num))]
    omega
  have leftVal : left.toNat = d.afterFee amountIn.toNat := by
    rw [← leftEq, unit, ← keptEq, keepVal]
    rfl
  rw [← outEq, ← productEq, ← divisorEq, leftVal]
  rfl

end Prices

end Eris.Amm.Pool
