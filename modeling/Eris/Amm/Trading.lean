import Eris.Amm.Pool

/-!
# Nobody gains from the rounding of the pool

A swap moves the reserves along a curve which lies on or above the one they
started from.  From this follow, for any run of swaps and of other calls of
the tokens, that the product of the reserves never falls and that no swap
empties a reserve; for consecutive swaps, that splitting a sale does not pay;
and for one trader, that no sequence of swaps is a gain in both tokens.
-/

namespace Eris.Amm.Trading

open Foundation Foundation.Checked Foundation.ConstantProduct
  Foundation.Transition Evm.Word Evm.Erc20 Pool

variable {d : Deployment} {w w' : World} {call : SwapCall} {out : U256}
    {token : Address} {calls : List SwapCall} {outs : List U256}

/-! ## One swap -/

/-- All that a successful swap needed and did. -/
structure Swapped
    (d : Deployment) (w : World) (call : SwapCall)
    (out : U256) (w' : World) : Prop where
  lists : d.Lists call.tokenIn
  quoted : amountOut d w call.amountIn call.tokenIn = .ok out
  balance : ∀ token account, ((w' token).balanceOf account).toNat +
      (if token = call.tokenIn ∧ account = call.msgSender then
            call.amountIn.toNat else 0) +
        (if token = d.tokenOut call.tokenIn ∧ account = d.self then
          out.toNat else 0) =
      ((w token).balanceOf account).toNat +
          (if token = call.tokenIn ∧ account = d.self then
            call.amountIn.toNat else 0) +
        (if token = d.tokenOut call.tokenIn ∧ account = call.recipient then
          out.toNat else 0)
  allowance : ∀ token owner, owner ≠ call.msgSender →
    (w' token).allowance owner = (w token).allowance owner

theorem balance_update
    {books : Token (2 ^ 256)} {sender recipient : Address} {amount : U256}
    (moved : Token.Moved (w token) books sender recipient amount)
    (other account : Address) :
    ((Function.update w token books other).balanceOf account).toNat +
        (if other = token ∧ account = sender then amount.toNat else 0) =
      ((w other).balanceOf account).toNat +
        (if other = token ∧ account = recipient then amount.toNat else 0) := by
  by_cases same : other = token
  · subst other
    rw [Function.update_self]
    simpa using moved.balance account
  · rw [Function.update_of_ne same]
    simp [same]

theorem swap_ok (done : swap d w call = .ok (out, w')) :
    Swapped d w call out w' := by
  simp only [swap, bind_eq_ok, require_eq_ok, pure_eq_ok, Prod.mk.injEq]
    at done
  rcases done with
    ⟨_, lists, _, quoted, _, _, taken, takes, given, gives, rfl, rfl⟩
  have moved := Token.transferFrom_ok takes
  have paid := Token.move_ok gives
  refine ⟨lists, quoted, fun token account => ?_, fun token owner other => ?_⟩
  · have first := balance_update moved.1 token account
    have second := balance_update paid.1 token account
    omega
  · have first : (Function.update w call.tokenIn taken token).allowance owner =
        (w token).allowance owner := by
      by_cases same : token = call.tokenIn
      · subst same
        rw [Function.update_self]
        exact moved.2.2 owner other
      · rw [Function.update_of_ne same]
    rw [← first]
    by_cases same : token = d.tokenOut call.tokenIn
    · subst same
      rw [Function.update_self, paid.2]
    · rw [Function.update_of_ne same]

theorem Swapped.reserve_eq
    (swapped : Swapped d w call out w')
    (outside : call.msgSender ≠ d.self) (token : Address) :
    reserve d w' token +
        (if token = d.tokenOut call.tokenIn then out.toNat else 0) =
      reserve d w token +
          (if token = call.tokenIn then call.amountIn.toNat else 0) +
        (if token = d.tokenOut call.tokenIn ∧ d.self = call.recipient then
          out.toNat else 0) := by
  simpa [reserve, Ne.symm outside] using swapped.balance token d.self

theorem Swapped.out_eq
    (swapped : Swapped d w call out w') (positive : 0 < product d w) :
    out.toNat = payout (reserve d w call.tokenIn)
        (reserve d w (d.tokenOut call.tokenIn))
        (d.afterFee call.amountIn.toNat) :=
  amountOut_ok positive swapped.lists swapped.quoted

theorem Swapped.out_lt
    (swapped : Swapped d w call out w') (positive : 0 < product d w) :
    out.toNat < reserve d w (d.tokenOut call.tokenIn) := by
  rcases reserve_pos positive swapped.lists with ⟨positiveIn, positiveOut⟩
  rw [swapped.out_eq positive]
  exact payout_lt positiveIn positiveOut

theorem Swapped.product_le
    (swapped : Swapped d w call out w')
    (outside : call.msgSender ≠ d.self) (positive : 0 < product d w) :
    product d w ≤ product d w' := by
  have takes := swapped.reserve_eq outside call.tokenIn
  have gives := swapped.reserve_eq outside (d.tokenOut call.tokenIn)
  have price := swapped.out_eq positive
  have left := swapped.out_lt positive
  rw [product_eq swapped.lists, product_eq swapped.lists]
  rw [if_pos rfl] at takes gives
  by_cases same : call.tokenIn = d.tokenOut call.tokenIn
  · rw [← same] at takes price left ⊢
    have little : out.toNat ≤ call.amountIn.toNat := by
      refine le_trans ?_ (afterFee_le (d := d) call.amountIn.toNat)
      rw [price]
      exact payout_le_input (Nat.le_add_right _ _)
    have grown : reserve d w call.tokenIn ≤ reserve d w' call.tokenIn := by
      rw [if_pos rfl] at takes
      omega
    exact Nat.mul_le_mul grown grown
  · rw [if_neg same] at takes
    rw [if_neg (Ne.symm same)] at gives
    have gained : reserve d w call.tokenIn + call.amountIn.toNat ≤
        reserve d w' call.tokenIn := by
      omega
    have kept : reserve d w (d.tokenOut call.tokenIn) - out.toNat ≤
        reserve d w' (d.tokenOut call.tokenIn) := by
      omega
    rw [price] at kept
    exact le_trans (product_le_of_payout (afterFee_le _))
      (Nat.mul_le_mul gained kept)

theorem Swapped.unapproved
    (swapped : Swapped d w call out w')
    (outside : call.msgSender ≠ d.self) (initial : Initial d w) :
    Initial d w' := by
  intro token spender
  rw [swapped.allowance token d.self (Ne.symm outside)]
  exact initial token spender

theorem token_call_keeps
    {caller : Address} {request : Token.Call} {books : Token (2 ^ 256)}
    (initial : Initial d w) (other : caller ≠ d.self)
    (done : (w token).exec caller request = .ok books) :
    Initial d (Function.update w token books) ∧
      ∀ reserved, reserve d w reserved ≤
        reserve d (Function.update w token books) reserved := by
  have kept := Token.exec_by_other (initial token) other done
  refine ⟨fun changed => ?_, fun reserved => ?_⟩
  · by_cases same : changed = token
    · subst same
      rw [Function.update_self]
      exact kept.2
    · rw [Function.update_of_ne same]
      exact initial changed
  · rw [reserve, reserve]
    by_cases same : reserved = token
    · subst same
      rw [Function.update_self]
      exact kept.1
    · rw [Function.update_of_ne same]

theorem step_approves
    {action : Action} (initial : Initial d w)
    (step : Step d w action w') : Initial d w' := by
  cases action with
  | swap call =>
      rcases step with ⟨outside, out, done⟩
      exact (swap_ok done).unapproved outside initial
  | erc20 token caller request =>
      rcases step with ⟨other, books, done, rfl⟩
      exact (token_call_keeps initial other done).1

theorem step_keeps
    {action : Action} (initial : Initial d w) (positive : 0 < product d w)
    (step : Step d w action w') : product d w ≤ product d w' := by
  cases action with
  | swap call =>
      rcases step with ⟨outside, out, done⟩
      exact (swap_ok done).product_le outside positive
  | erc20 token caller request =>
      rcases step with ⟨other, books, done, rfl⟩
      have kept := (token_call_keeps initial other done).2
      exact Nat.mul_le_mul (kept _) (kept _)

theorem run_keeps
    (initial : Initial d w) (positive : 0 < product d w)
    (run : (pool d).Runs System.anything w w') :
    Initial d w' ∧ product d w ≤ product d w' := by
  refine @System.Runs.invariant _ _ _ _
    (fun state => Initial d state ∧ product d w ≤ product d state)
    _ _ ?_ run ⟨initial, le_refl _⟩
  rintro state action next ⟨approved, grown⟩ _ step
  have kept := step_keeps approved (lt_of_lt_of_le positive grown) step
  exact ⟨step_approves approved step, le_trans grown kept⟩

/-- What a swap gave to an account other than the pool. -/
def receipt (d : Deployment) (call : SwapCall) (out : U256) : Nat :=
  if d.self = call.recipient then 0 else out.toNat

/-- What consecutive swaps gave to accounts other than the pool. -/
def delivered (d : Deployment) (calls : List SwapCall) (outs : List U256) :
    Nat :=
  ((calls.zip outs).map fun pair => receipt d pair.1 pair.2).sum

/-- The sum of the amounts which are sold. -/
def sold (calls : List SwapCall) : Nat :=
  (calls.map fun call => call.amountIn.toNat).sum

/-- Sales from given reserves have come to `w`. -/
structure Along
    (d : Deployment) (tokenIn : Address)
    (reserveIn reserveOut input paid : Nat) (w : World) : Prop where
  below : Below reserveIn reserveOut input paid
  taken : reserveIn + input ≤ reserve d w tokenIn
  given : reserve d w (d.tokenOut tokenIn) + paid = reserveOut

variable {tokenIn : Address} {reserveIn reserveOut input paid : Nat}

theorem Swapped.along
    (distinct : d.token0 ≠ d.token1) (swapped : Swapped d w call out w')
    (outside : call.msgSender ≠ d.self) (positive : 0 < product d w)
    (along : Along d call.tokenIn reserveIn reserveOut input paid w) :
    Along d call.tokenIn reserveIn reserveOut
      (input + d.afterFee call.amountIn.toNat)
      (paid + receipt d call out) w' := by
  have different := tokenOut_of_other distinct swapped.lists
  have takes := swapped.reserve_eq outside call.tokenIn
  have gives := swapped.reserve_eq outside (d.tokenOut call.tokenIn)
  have charged := afterFee_le (d := d) call.amountIn.toNat
  have before := along.taken
  have after := along.given
  simp only [if_true, true_and, different, Ne.symm different, if_false,
    false_and] at takes gives
  rw [receipt]
  by_cases returned : d.self = call.recipient
  · rw [if_pos returned] at gives ⊢
    exact ⟨along.below.give (by omega), by omega, by omega⟩
  · rw [if_neg returned] at gives ⊢
    refine ⟨?_, by omega, by omega⟩
    rw [swapped.out_eq positive]
    exact along.below.pay before after

theorem swapAll_along
    (distinct : d.token0 ≠ d.token1)
    (outside : ∀ call ∈ calls, call.msgSender ≠ d.self)
    (direction : ∀ call ∈ calls, call.tokenIn = tokenIn)
    (positive : 0 < product d w) (ran : swapAll d calls w = .ok (outs, w'))
    (along : Along d tokenIn reserveIn reserveOut input paid w) :
    Along d tokenIn reserveIn reserveOut
      (input + (calls.map fun call => d.afterFee call.amountIn.toNat).sum)
      (paid + delivered d calls outs) w' := by
  induction calls generalizing w input paid outs with
  | nil =>
      cases ran
      exact along
  | cons call rest ih =>
      simp only [swapAll, bind_eq_ok, pure_eq_ok, Prod.mk.injEq] at ran
      rcases ran with ⟨⟨out, middle⟩, done, ⟨others, _⟩, later, rfl, rfl⟩
      have swapped := swap_ok done
      have external := outside call List.mem_cons_self
      have same := direction call List.mem_cons_self
      subst same
      have moved := swapped.along distinct external positive along
      have still :=
        lt_of_lt_of_le positive (swapped.product_le external positive)
      have rested := ih (fun other member =>
            outside other (List.mem_cons_of_mem _ member))
          (fun other member =>
            direction other (List.mem_cons_of_mem _ member))
          still later moved
      simp only [delivered, List.zip_cons_cons, List.map_cons, List.sum_cons,
        ← Nat.add_assoc] at rested ⊢
      exact rested

theorem sum_afterFee_le (calls : List SwapCall) :
    (calls.map fun call => d.afterFee call.amountIn.toNat).sum ≤
      d.afterFee (sold calls) := by
  induction calls with
  | nil => exact Nat.zero_le _
  | cons call rest ih =>
      rw [sold, List.map_cons, List.map_cons, List.sum_cons, List.sum_cons]
      exact le_trans (Nat.add_le_add_left ih _) (afterFee_add_le _ _)

theorem delivered_le_payout
    (distinct : d.token0 ≠ d.token1) (lists : d.Lists tokenIn)
    (outside : ∀ call ∈ calls, call.msgSender ≠ d.self)
    (direction : ∀ call ∈ calls, call.tokenIn = tokenIn)
    (positive : 0 < product d w) (ran : swapAll d calls w = .ok (outs, w')) :
    delivered d calls outs ≤
      payout (reserve d w tokenIn) (reserve d w (d.tokenOut tokenIn))
        (d.afterFee (sold calls)) := by
  have start : Along d tokenIn (reserve d w tokenIn)
        (reserve d w (d.tokenOut tokenIn)) 0 0 w :=
    ⟨Below.nothing, le_refl _, rfl⟩
  have along := swapAll_along distinct outside direction positive ran start
  rw [Nat.zero_add, Nat.zero_add] at along
  exact along.below.le_payout (reserve_pos positive lists).1
    (sum_afterFee_le calls)

/-! ## Trading back and forth -/

/-- What an account and the pool hold of a token together. -/
def joint (d : Deployment) (w : World) (token account : Address) : Nat :=
  ((w token).balanceOf account).toNat + reserve d w token

theorem Swapped.joint_le
    (swapped : Swapped d w call out w')
    (outside : call.msgSender ≠ d.self) (token : Address) :
    joint d w' token call.msgSender ≤ joint d w token call.msgSender := by
  have own := swapped.balance token call.msgSender
  have pool := swapped.balance token d.self
  simp only [outside, Ne.symm outside, and_true, and_false, if_false]
    at own pool
  have once : (if token = d.tokenOut call.tokenIn ∧
          call.msgSender = call.recipient then out.toNat else 0) +
        (if token = d.tokenOut call.tokenIn ∧
          d.self = call.recipient then out.toNat else 0) ≤
        (if token = d.tokenOut call.tokenIn then out.toNat else 0) := by
    by_cases paid : token = d.tokenOut call.tokenIn
    · by_cases returned : d.self = call.recipient
      · have elsewhere : call.msgSender ≠ call.recipient :=
          fun same => outside (same.trans returned.symm)
        simp [paid, returned, elsewhere]
      · simp only [paid, returned, and_false, if_false, if_true]
        split <;> omega
    · simp [paid]
  rw [joint, joint, reserve, reserve]
  omega

theorem swapAll_joint
    {trader : Address} (outside : trader ≠ d.self)
    (own : ∀ call ∈ calls, call.msgSender = trader) (positive : 0 < product d w)
    (ran : swapAll d calls w = .ok (outs, w')) :
    product d w ≤ product d w' ∧
      ∀ token, joint d w' token trader ≤ joint d w token trader := by
  induction calls generalizing w outs with
  | nil =>
      cases ran
      exact ⟨le_refl _, fun _ => le_refl _⟩
  | cons call rest ih =>
      simp only [swapAll, bind_eq_ok, pure_eq_ok, Prod.mk.injEq] at ran
      rcases ran with ⟨⟨out, middle⟩, done, ⟨others, _⟩, later, rfl, rfl⟩
      have swapped := swap_ok done
      have sender := own call List.mem_cons_self
      subst sender
      have grown := swapped.product_le outside positive
      have rested := ih
          (fun other member => own other (List.mem_cons_of_mem _ member))
          (lt_of_lt_of_le positive grown) later
      exact ⟨le_trans grown rested.1, fun token =>
          le_trans (rested.2 token) (swapped.joint_le outside token)⟩

theorem no_gain
    {trader : Address} (outside : trader ≠ d.self)
    (own : ∀ call ∈ calls, call.msgSender = trader)
    (positive : 0 < product d w) (lists : d.Lists token)
    (ran : swapAll d calls w = .ok (outs, w'))
    (returned : (w token).balanceOf trader ≤ (w' token).balanceOf trader) :
    (w' (d.tokenOut token)).balanceOf trader ≤
      (w (d.tokenOut token)).balanceOf trader := by
  rcases swapAll_joint outside own positive ran with ⟨grown, bounded⟩
  have first := bounded token
  have second := bounded (d.tokenOut token)
  rw [joint, joint] at first second
  rw [BitVec.le_def] at returned ⊢
  have fallen : reserve d w' token ≤ reserve d w token := by
    omega
  rw [product_eq lists, product_eq lists] at grown
  have risen :
      reserve d w (d.tokenOut token) ≤ reserve d w' (d.tokenOut token) :=
    Nat.le_of_mul_le_mul_left (le_trans grown (Nat.mul_le_mul_right _ fallen))
      (reserve_pos positive lists).1
  omega

/--
From positive reserves: no run of swaps and calls of the tokens lowers the
product of the reserves or empties one of them, splitting a sale between
different tokens does not deliver more than the single sale is quoted, and a
trader whose swaps leave it with as much of one token has no more of the other.
-/
theorem pool_safe
    (reached : (pool d).Reachable System.anything w)
    (positive : 0 < product d w) :
    (∀ w', (pool d).Runs System.anything w w' → product d w ≤ product d w' ∧
        ∀ call out w'', swap d w' call = .ok (out, w'') →
          out.toNat < reserve d w' (d.tokenOut call.tokenIn)) ∧
    (d.token0 ≠ d.token1 → ∀ tokenIn calls outs w' single whole,
        (∀ call ∈ calls, call.msgSender ≠ d.self ∧ call.tokenIn = tokenIn) →
        swapAll d calls w = .ok (outs, w') →
        single.toNat = sold calls →
        getAmountOut d w single tokenIn = .ok whole →
        delivered d calls outs ≤ whole.toNat) ∧
    ∀ trader token calls outs w', trader ≠ d.self → d.Lists token →
        (∀ call ∈ calls, call.msgSender = trader) →
        swapAll d calls w = .ok (outs, w') →
        (w token).balanceOf trader ≤ (w' token).balanceOf trader →
        (w' (d.tokenOut token)).balanceOf trader ≤
          (w (d.tokenOut token)).balanceOf trader := by
  have initial : Initial d w := by
    refine @System.Reachable.invariant _ _ _ _ (Initial d) _
      (fun _ initial => initial) ?_ reached
    intro state action next approved _ step
    exact step_approves approved step
  refine ⟨fun w' run => ?_, ?_, ?_⟩
  · have kept := run_keeps initial positive run
    exact ⟨kept.2, fun call out w'' done =>
        (swap_ok done).out_lt (lt_of_lt_of_le positive kept.2)⟩
  · intro distinct tokenIn calls outs w' single whole sales ran total quoted
    cases calls with
    | nil =>
        cases ran
        exact Nat.zero_le _
    | cons call rest =>
        have lists : d.Lists tokenIn := by
          simp only [swapAll, bind_eq_ok] at ran
          rcases ran with ⟨⟨out, middle⟩, done, _⟩
          rw [← (sales call List.mem_cons_self).2]
          exact (swap_ok done).lists
        rw [amountOut_ok positive lists quoted, total]
        exact delivered_le_payout distinct lists
          (fun call member => (sales call member).1)
          (fun call member => (sales call member).2) positive ran
  · intro trader token calls outs w' outside lists own ran returned
    exact no_gain outside own positive lists ran returned

/-- A pool of the tokens 1 and `token1`, at account 99. -/
def deployed
    (token1 : Address) (feeBps : BitVec 24)
    (affordable : feeBps.toNat < 10000) : Deployment :=
  ⟨99, 1, token1, feeBps, affordable⟩

/-- Account 10 owns all of every token, and trusts account 99. -/
def ownedByTrader : World :=
  fun _ => Token.issued 10 99 (BitVec.ofNat 256 (2 ^ 255)) (by decide)

/-- The trader gives the pool its first reserves. -/
def funding (d : Deployment) (amount0 amount1 : U256) : List Action :=
  [.erc20 d.token0 10 (.transfer 99 amount0),
    .erc20 d.token1 10 (.transfer 99 amount1)]

/-- A sale by account 10 to itself, at any price. -/
def sale (tokenIn : Address) (amountIn : U256) : SwapCall :=
  ⟨10, amountIn, 0, tokenIn, 10⟩

/-- A check of what some sales do to a funded pool. -/
def observed
    (d : Deployment) (amount0 amount1 : U256) (calls : List SwapCall)
    (holds : World → List U256 → World → Bool) : Bool :=
  (script d (funding d amount0 amount1) ownedByTrader).any fun w =>
    match swapAll d calls w with
    | .ok (outs, w') => holds w outs w'
    | .error _ => false

theorem exists_of_observed
    {amount0 amount1 : U256} {holds : World → List U256 → World → Bool}
    (here : d.self = 99)
    (seen : observed d amount0 amount1 calls holds = true) :
    ∃ w outs w', (pool d).Reachable System.anything w ∧
      swapAll d calls w = .ok (outs, w') ∧ holds w outs w' = true := by
  rcases (Option.any_eq_true _ _).mp seen with ⟨w, ran, checked⟩
  have admissible :
      ∀ action ∈ funding d amount0 amount1, action.Admissible d := by
    simp [funding, Action.Admissible, here]
  have start : (pool d).initial ownedByTrader := by
    intro token
    rw [here]
    exact Token.unapproved_issued (by decide)
  have reached : (pool d).Reachable System.anything w :=
    ⟨ownedByTrader, start, script_runs admissible ran⟩
  cases executed : swapAll d calls w with
  | error failure =>
      rw [executed] at checked
      cases checked
  | ok done =>
      rw [executed] at checked
      exact ⟨w, done.1, done.2, reached, executed, checked⟩

/-- A pool with a fee of 30 basis points. -/
def standard : Deployment := deployed 2 30 (by decide)

theorem pool_safe_when_funded :
    ∃ w, (pool standard).Reachable System.anything w ∧
      ∀ w', (pool standard).Runs System.anything w w' →
        product standard w ≤ product standard w' := by
  have seen : observed standard 1000000 1000000 []
      (fun w _ _ => decide (0 < product standard w)) = true := by
    decide
  rcases exists_of_observed rfl seen with ⟨w, _, _, reached, _, positive⟩
  exact ⟨w, reached, fun w' run =>
      ((pool_safe reached (of_decide_eq_true positive)).1 w' run).1⟩

/-- A quote, or nothing where it reverts. -/
def quoted (d : Deployment) (w : World) (amountIn : U256) : Option U256 :=
  (getAmountOut d w amountIn d.token0).toOption

def oneToken : Deployment := deployed 1 0 (by decide)

def free : Deployment := deployed 2 0 (by decide)

def twice (amountIn : U256) : List SwapCall :=
  [sale 1 amountIn, sale 1 amountIn]

/-- An amount which only its half can be charged a fee on. -/
def tooMuch : U256 := BitVec.ofNat 256 (2 ^ 243)

/--
A plain sale leaves less of one token and more of the other.  Between equal
tokens two sales deliver more than the quote of their sum; and two sales can
deliver something where the quote of their sum overflows.
-/
theorem sales_can_gain :
    (∃ w outs w', (pool standard).Reachable System.anything w ∧
      swapAll standard [sale 1 1000] w = .ok (outs, w') ∧
      (0 < product standard w ∧ (w' 1).balanceOf 10 ≤ (w 1).balanceOf 10 ∧
        (w 2).balanceOf 10 < (w' 2).balanceOf 10)) ∧
    (∃ w outs w', (pool oneToken).Reachable System.anything w ∧
      swapAll oneToken (twice 1000) w = .ok (outs, w') ∧
      (0 < product oneToken w ∧ (quoted oneToken w 2000).any (fun whole =>
          whole.toNat < delivered oneToken (twice 1000) outs) = true)) ∧
    ∃ w outs w', (pool free).Reachable System.anything w ∧
      swapAll free (twice (tooMuch / 2)) w = .ok (outs, w') ∧
      (0 < product free w ∧ 0 < delivered free (twice (tooMuch / 2)) outs ∧
        quoted free w tooMuch = none) := by
  have plain : observed standard 1000000 1000000 [sale 1 1000]
      (fun w _ w' => decide
        (0 < product standard w ∧ (w' 1).balanceOf 10 ≤ (w 1).balanceOf 10 ∧
          (w 2).balanceOf 10 < (w' 2).balanceOf 10)) = true := by
    decide
  have equal : observed oneToken 500 500 (twice 1000)
      (fun w outs _ => decide
        (0 < product oneToken w ∧ (quoted oneToken w 2000).any (fun whole =>
              whole.toNat < delivered oneToken (twice 1000) outs) =
                true)) = true := by
    decide
  have wide : observed free 1 2 (twice (tooMuch / 2))
      (fun w outs _ => decide
        (0 < product free w ∧ 0 < delivered free (twice (tooMuch / 2)) outs ∧
          quoted free w tooMuch = none)) = true := by
    decide
  refine ⟨?_, ?_, ?_⟩
  · rcases exists_of_observed rfl plain with
      ⟨w, outs, w', reached, ran, holds⟩
    exact ⟨w, outs, w', reached, ran, of_decide_eq_true holds⟩
  · rcases exists_of_observed rfl equal with
      ⟨w, outs, w', reached, ran, holds⟩
    exact ⟨w, outs, w', reached, ran, of_decide_eq_true holds⟩
  · rcases exists_of_observed rfl wide with
      ⟨w, outs, w', reached, ran, holds⟩
    exact ⟨w, outs, w', reached, ran, of_decide_eq_true holds⟩

end Eris.Amm.Trading
