import Eris.Foundation.Transition
import Eris.Lending.Execution

/-!
# The lending contract among everybody else

The system interleaves calls to the contract, by any account, at any time and
with any answers of oracles and interest-rate contracts, with calls to the
tokens by anybody but the contract.  A run starts from the freshly deployed
contract and arbitrary books in which the contract has approved nobody.

`step_effect` inverts a step once.  `Reached.storage_invariant` turns what
the creation of a market and `Executed` preserve into an invariant of every
reachable storage.
-/

namespace Eris.Lending.Protocol

open Foundation Foundation.Checked Foundation.Transition Evm.Word Evm.Erc20 Data
  Contract Accrual Execution

variable {supplyCap : Nat}

/-- One step of the system; a call records the event it emitted. -/
inductive Action where
  | call (ctx : Context) (call : Call) (event : Event)
  | token (token caller : Address) (call : Token.Call)

/-- Nothing happened yet, and the contract approved nobody to spend for it. -/
def Initial (d : Deployment) (w : Worlds supplyCap) : Prop :=
  w.lending = Storage.empty ∧ ∀ token, (w.tokens token).Unapproved d.self

/-- A successful call; the contract calls neither itself nor the tokens
except from inside its own functions. -/
def Step (d : Deployment) (w : Worlds supplyCap) :
    Action → Worlds supplyCap → Prop
  | .call ctx call event, w' =>
      ctx.msgSender ≠ d.self ∧ call.params ∈ d.submitted ∧
        exec d ctx call w = .ok (event, w')
  | .token token caller call, w' =>
      caller ≠ d.self ∧ ∃ books, (w.tokens token).exec caller call = .ok books ∧
          w' = { w with tokens := Function.update w.tokens token books }

/-- The whole system around one deployment. -/
def lending (d : Deployment) : System (Worlds supplyCap) Action where
  initial := Initial d
  step := Step d

/-- Reachable by steps which are allowed where they start. -/
abbrev Reached
    (d : Deployment) (allowed : World → Action → Prop) (w : World) : Prop :=
  (lending d).Reachable allowed w

abbrev anything : World → Action → Prop := System.anything

theorem reached_step
    {d : Deployment} {allowed : World → Action → Prop}
    {w w' : World} {action : Action} (reached : Reached d allowed w)
    (permitted : allowed w action) (step : Step d w action w') :
    Reached d allowed w' :=
  reached.extend (Relation.ReflTransGen.single ⟨action, permitted, step⟩)

/-- The storage after the creation of a market. -/
def created
    (d : Deployment) (ctx : Context) (params : MarketParams)
    (s : Storage) : Storage :=
  { s with
    market := Function.update s.market (d.idOf params)
        { s.market (d.idOf params) with lastUpdate := narrow ctx.now }
    marketParams := Function.update s.marketParams (d.idOf params) params
    marketIds := s.marketIds ++ [d.idOf params] }

theorem createMarket_ok
    {d : Deployment} {ctx : Context} {params : MarketParams}
    {event : Event} {w w' : World}
    (done : createMarket d ctx params w = .ok (event, w')) :
    params.lltv < WAD ∧ (w.lending.market (d.idOf params)).lastUpdate = 0 ∧
      event = .createMarket (d.idOf params) ctx.msgSender params ∧
      w' = { w with lending := created d ctx params w.lending } := by
  simp only [createMarket, bind_eq_ok, require_eq_ok, pure_eq_ok] at done
  rcases done with ⟨_, valid, _, fresh, equal⟩
  rcases Prod.mk.inj equal with ⟨rfl, rfl⟩
  exact ⟨valid, fresh, rfl, rfl⟩

inductive Effect (d : Deployment) (w : World) : Action → World → Prop where
  | created {ctx : Context} {params : MarketParams}
      (outside : ctx.msgSender ≠ d.self)
      (submitted : params ∈ d.submitted)
      (valid : params.lltv < WAD)
      (fresh : (w.lending.market (d.idOf params)).lastUpdate = 0) :
      Effect d w (.call ctx (.createMarket params)
          (.createMarket (d.idOf params) ctx.msgSender params))
        { w with lending := Protocol.created d ctx params w.lending }
  | performed {ctx : Context} {call : Call} {event : Event} {w' : World}
      {m m' : Market} {p' : Position} {flow : Flow}
      (outside : ctx.msgSender ≠ d.self)
      (submitted : call.params ∈ d.submitted)
      (executed : Executed d ctx call event w w' m m' p' flow) :
      Effect d w (.call ctx call event) w'
  | token {token caller : Address} {call : Token.Call} {books : LendingToken}
      (outside : caller ≠ d.self)
      (done : (w.tokens token).exec caller call = .ok books) :
      Effect d w (.token token caller call)
        { w with tokens := Function.update w.tokens token books }

theorem Effect.of_performed
    {d : Deployment} {ctx : Context} {call : Call} {event : Event}
    {w w' : World} (outside : ctx.msgSender ≠ d.self)
    (submitted : call.params ∈ d.submitted)
    (performed : Performed d ctx call event w w') :
    Effect d w (.call ctx call event) w' := by
  rcases performed with ⟨m, m', p', flow, executed⟩
  exact .performed outside submitted executed

theorem step_effect
    {d : Deployment} {w w' : World} {action : Action}
    (step : Step d w action w') :
    Effect d w action w' := by
  cases action with
  | token token caller call =>
      rcases step with ⟨outside, books, done, rfl⟩
      exact .token outside done
  | call ctx call event =>
      rcases step with ⟨outside, submitted, done⟩
      by_cases creates : ∃ params, call = .createMarket params
      · rcases creates with ⟨params, rfl⟩
        rcases createMarket_ok done with ⟨valid, fresh, rfl, rfl⟩
        exact .created outside submitted valid fresh
      · have existing : ∀ params, call ≠ .createMarket params :=
          fun params equal => creates ⟨params, equal⟩
        exact .of_performed outside submitted
          (exec_ok outside existing done).performed

section Rule

variable {d : Deployment} {allowed : World → Action → Prop}
    {Invariant : Storage → Prop}

/--
An invariant of the storage holds initially, survives the creation of a
market, and survives every allowed call.
-/
theorem storage_invariant
    (empty : Invariant Storage.empty)
    (creates : ∀ ctx params s, Invariant s → params ∈ d.submitted →
        (s.market (d.idOf params)).lastUpdate = 0 →
          Invariant (created d ctx params s))
    (executes : ∀ ctx call event w w' m m' p' flow,
      Invariant w.lending → allowed w (.call ctx call event) →
        call.params ∈ d.submitted →
          Executed d ctx call event w w' m m' p' flow → Invariant w'.lending)
    {w : World} (reached : Reached d allowed w) :
    Invariant w.lending := by
  show (Invariant ∘ Worlds.lending) w
  refine System.Reachable.invariant ?_ ?_ reached
  · intro world initial
    show Invariant world.lending
    rw [initial.1]
    exact empty
  · intro world action next holds permitted step
    cases step_effect step with
    | created outside submitted valid fresh =>
        exact creates _ _ _ holds submitted fresh
    | performed outside submitted executed =>
        exact executes _ _ _ _ _ _ _ _ _ holds permitted submitted executed
    | token outside done => exact holds

end Rule

/-- A transaction before it is known which event it emits. -/
inductive Transaction where
  | call (ctx : Context) (call : Call)
  | token (token caller : Address) (call : Token.Call)

/-- Sent by somebody else, about parameters covered by the digest. -/
def Transaction.Admissible (d : Deployment) : Transaction → Prop
  | .call ctx request =>
      ctx.msgSender ≠ d.self ∧ request.params ∈ d.submitted
  | .token _ caller _ => caller ≠ d.self

/-- Execute one transaction; nothing is returned when it reverts. -/
def Transaction.run (d : Deployment) (w : Worlds supplyCap) :
    Transaction → Option (Action × Worlds supplyCap)
  | .call ctx request =>
      match exec d ctx request w with
      | .error _ => none
      | .ok done => some (.call ctx request done.1, done.2)
  | .token address caller request =>
      match (w.tokens address).exec caller request with
      | .error _ => none
      | .ok books =>
          some (.token address caller request,
            { w with tokens := Function.update w.tokens address books })

theorem Transaction.step_of_run
    {d : Deployment} {transaction : Transaction}
    {w : Worlds supplyCap} {done : Action × Worlds supplyCap}
    (admissible : transaction.Admissible d)
    (ran : transaction.run d w = some done) :
    Step d w done.1 done.2 := by
  cases transaction with
  | call ctx request =>
      simp only [Transaction.run] at ran
      split at ran
      · cases ran
      · next executed =>
          cases ran
          exact ⟨admissible.1, admissible.2, executed⟩
  | token address caller request =>
      simp only [Transaction.run] at ran
      split at ran
      · cases ran
      · next books executed =>
          cases ran
          exact ⟨admissible, books, executed, rfl⟩

section Script

variable (d : Deployment) (allowed : Worlds supplyCap → Action → Prop)
    [∀ w action, Decidable (allowed w action)]

/-- Execute transactions in order, as long as each succeeds and is allowed. -/
def script (transactions : List Transaction) (w : Worlds supplyCap) :
    Option (Worlds supplyCap) :=
  Transition.script (Transaction.run d) allowed transactions w

variable {d allowed}

theorem script_costed
    (cost : Action → Nat)
    {transactions : List Transaction} {w w' : Worlds supplyCap}
    (admissible : ∀ transaction ∈ transactions, transaction.Admissible d)
    (ran : script d allowed transactions w = some w') :
    ∃ total, System.CostedRun (lending d) allowed cost w total w' :=
  Transition.script_costed
    (fun _ _ _ => Transaction.step_of_run) cost admissible ran

theorem script_runs
    {transactions : List Transaction} {w w' : Worlds supplyCap}
    (admissible : ∀ transaction ∈ transactions, transaction.Admissible d)
    (ran : script d allowed transactions w = some w') :
    (lending d).Runs allowed w w' := by
  rcases script_costed (fun _ => 0) admissible ran with ⟨total, costed⟩
  exact costed.runs

theorem script_call
    {ctx : Context} {request : Call} {w w' : Worlds supplyCap}
    (ran : script d allowed [.call ctx request] w = some w') :
    ∃ event, exec d ctx request w = .ok (event, w') ∧
      allowed w (.call ctx request event) := by
  simp only [script, Transition.script, Transaction.run] at ran
  cases executed : exec d ctx request w with
  | error failure => simp [executed] at ran
  | ok done =>
      simp only [executed, Option.ite_none_right_eq_some,
        Option.some.injEq] at ran
      exact ⟨done.1, by rw [← ran.2], ran.1⟩

end Script

instance (w : World) (action : Action) : Decidable (anything w action) :=
  .isTrue trivial

/-- Loan token 1, collateral token 2, and a loan limit of 90%. -/
def soloMarket : MarketParams := ⟨1, 2, 3, 4, 900000000000000000⟩

def solo : Deployment where
  self := 99
  idOf := fun _ => 7
  submitted := {soloMarket}
  collisionFree := Set.injOn_singleton _ _

/-- Account 10 owns all of the loan token, and account 11 everything else. -/
def soloWorld : World where
  lending := .empty
  tokens := fun token =>
    if token = 1 then Token.issued 10 99 100000000000000000000 (by decide)
    else Token.issued 11 99 100000000000000000000 (by decide)

/-- A sender, the time, and what the oracle answers it. -/
def asking (sender : Address) (time : BitVec 64) (answer : U256) :
    Context where
  msgSender := sender
  timestamp := time
  price := fun _ _ => some answer
  borrowRatePerSecond := fun _ _ _ => some MAX_BORROW_RATE_PER_SECOND

theorem soloWorld_initial : Initial solo soloWorld := by
  refine ⟨rfl, fun token => ?_⟩
  simp only [soloWorld]
  split
  · exact Token.unapproved_issued (by decide)
  · exact Token.unapproved_issued (by decide)

theorem solo_reached
    {allowed : World → Action → Prop} [∀ w action, Decidable (allowed w action)]
    {transactions : List Transaction} {w : World}
    (admissible : ∀ transaction ∈ transactions, transaction.Admissible solo)
    (ran : script solo allowed transactions soloWorld = some w) :
    Reached solo allowed w :=
  ⟨soloWorld, soloWorld_initial, script_runs admissible ran⟩

/-- One supplier and one borrower of a new market. -/
def lentOut : List Transaction :=
  [.call (asking 10 1 0) (.createMarket soloMarket),
    .call (asking 10 1 0) (.supply soloMarket 20000000000000000),
    .call (asking 11 1 0) (.supplyCollateral soloMarket 1),
    .call (asking 11 1 (10 ^ 56)) (.borrow soloMarket 20000000000000000)]

theorem lentOut_admissible :
    ∀ transaction ∈ lentOut, transaction.Admissible solo := by
  simp [lentOut, Transaction.Admissible, asking, solo, Call.params]

end Eris.Lending.Protocol
