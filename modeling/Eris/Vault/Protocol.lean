import Eris.Vault.Operations

/-!
# The vault among everybody else

The system interleaves calls to the vault, by any account in any block, with
calls to its asset by anybody but the vault.  A direct donation is such a
call.  `reached_ledger` carries what holds of the ledger of operations over
to this system.
-/

namespace Eris.Vault.Protocol

open Foundation Foundation.Checked Foundation.Transition Evm.Word Evm.Erc20 Data
  Contract Operations

inductive Action where
  | call (ctx : Context) (call : Call)
  | weth (caller : Address) (call : Token.Call)

/-- A successful call, not made by the vault itself. -/
def Step (d : Deployment) (w : World) : Action → World → Prop
  | .call ctx call, w' =>
      ctx.msgSender ≠ d.self ∧ exec d ctx w call = .ok w'
  | .weth caller call, w' => CalledWeth d w caller call w'

/-- The whole system around one deployment. -/
def vault (d : Deployment) : System World Action where
  initial := Initial d
  step := Step d

/-- Reachable by steps which are allowed where they start. -/
abbrev Reached
    (d : Deployment) (allowed : World → Action → Prop) (w : World) : Prop :=
  (vault d).Reachable allowed w

abbrev anything : World → Action → Prop := System.anything

def Action.drift : Action → Nat
  | .call _ request => request.drift
  | .weth _ _ => 0

variable {d : Deployment} {allowed : World → Action → Prop}
    {permitted : World → Label → Prop} {w w' : World}

/-- What a permission of actions says about the operations they perform. -/
def Covers
    (allowed : World → Action → Prop) (permitted : World → Label → Prop) :
    Prop :=
  (∀ world inside ctx call operation,
    allowed world (.call ctx call) → Call.performs ctx call operation →
      permitted inside (.operation ctx operation)) ∧
  ∀ world caller call,
    allowed world (.weth caller call) → permitted world (.weth caller call)

theorem refines_ledger (covers : Covers allowed permitted) :
    System.Refines (vault d) allowed Action.drift
      (ledger d) permitted Label.drift := by
  intro world action next holds step
  cases action with
  | weth caller call =>
      show System.CostedRun (ledger d) permitted Label.drift world
          (Label.drift (.weth caller call)) next
      exact .single (covers.2 _ _ _ holds) step
  | call ctx call =>
      rcases step with ⟨outside, done⟩
      refine System.CostedRun.weaken ?_ (exec_ok outside done)
      intro inside label part
      cases label with
      | weth => exact part.elim
      | operation other operation =>
          rcases part with ⟨rfl, performed⟩
          exact covers.1 _ _ _ _ _ holds performed

theorem reached_ledger
    (covers : Covers allowed permitted) (reached : Reached d allowed w) :
    (ledger d).Reachable permitted w :=
  (refines_ledger covers).reachable (fun _ initial => initial) reached

theorem covers_anything : Covers anything System.anything :=
  ⟨fun _ _ _ _ _ _ _ => trivial, fun _ _ _ _ => trivial⟩

section Rule

variable {Invariant : Storage → List Entry → Prop}

/-- The storage and the log of a world satisfy `Invariant`. -/
def OnBooks
    (Invariant : Storage → List Entry → Prop) (w : World) : Prop :=
  Invariant w.vault w.log

theorem books_invariant
    (deployed : ∀ blockNumber, Invariant (.deployed d blockNumber)
        (d.events.map fun event => ⟨blockNumber, event⟩))
    (operates : ∀ ctx operation w w',
      Invariant w.vault w.log → ctx.msgSender ≠ d.self →
        permitted w (.operation ctx operation) →
          Operated d ctx w operation w' → Invariant w'.vault w'.log)
    (reachable : (ledger d).Reachable permitted w) :
    Invariant w.vault w.log := by
  show OnBooks Invariant w
  refine System.Reachable.invariant ?_ ?_ reachable
  · intro world initial
    rcases initial with ⟨⟨blockNumber, storage, log⟩, _⟩
    show Invariant world.vault world.log
    rw [storage, log]
    exact deployed blockNumber
  · intro world label next holds allowed step
    cases label with
    | operation ctx operation =>
        exact operates ctx operation _ _ holds step.1 allowed step.2
    | weth caller call =>
        rcases step with ⟨_, books, _, rfl⟩
        exact holds

theorem storage_invariant
    {Invariant : Storage → Prop}
    (deployed : ∀ blockNumber, Invariant (.deployed d blockNumber))
    (operates : ∀ ctx operation w w',
      Invariant w.vault → ctx.msgSender ≠ d.self →
        permitted w (.operation ctx operation) →
          Operated d ctx w operation w' → Invariant w'.vault)
    (reachable : (ledger d).Reachable permitted w) :
    Invariant w.vault :=
  @books_invariant d permitted w (fun s _ => Invariant s)
    deployed operates reachable

end Rule

def Action.Admissible (d : Deployment) : Action → Prop
  | .call ctx _ => ctx.msgSender ≠ d.self
  | .weth caller _ => caller ≠ d.self

/-- Execute one action; nothing is returned when it reverts. -/
def Action.run (d : Deployment) (w : World) (action : Action) :
    Option (Action × World) :=
  match action with
  | .call ctx request =>
      (exec d ctx w request).toOption.map fun next => (action, next)
  | .weth caller request =>
      (w.weth.exec caller request).toOption.map fun books =>
        (action, { w with weth := books })

theorem Action.step_of_run
    {action : Action} {done : Action × World} (admissible : action.Admissible d)
    (ran : action.run d w = some done) :
    Step d w done.1 done.2 := by
  cases action with
  | call ctx call =>
      rcases Option.map_eq_some_iff.mp ran with ⟨next, executed, rfl⟩
      exact ⟨admissible, toOption_eq_some.mp executed⟩
  | weth caller call =>
      rcases Option.map_eq_some_iff.mp ran with ⟨books, executed, rfl⟩
      exact ⟨admissible, books, toOption_eq_some.mp executed, rfl⟩

section Script

variable (d allowed) [∀ w action, Decidable (allowed w action)]

/-- Execute actions in order, as long as each succeeds and is allowed. -/
def script (actions : List Action) (w : World) : Option World :=
  Transition.script (fun w action => Action.run d w action) allowed actions w

variable {d allowed}

theorem script_costed
    (cost : Action → Nat) {actions : List Action}
    (admissible : ∀ action ∈ actions, action.Admissible d)
    (ran : script d allowed actions w = some w') :
    ∃ total, System.CostedRun (vault d) allowed cost w total w' :=
  Transition.script_costed (fun _ _ _ => Action.step_of_run) cost admissible ran

end Script

instance (w : World) (action : Action) : Decidable (anything w action) :=
  .isTrue trivial

/-- Deployed by account 5, paying 1% of the pool as reward in each block. -/
def solo : Deployment where
  self := 99
  deployer := 5
  envOperator := 5
  rewardRatePerBlockRay := 10000000000000000000000000
  withdrawalDelayBlocks := 3
  alive := by decide

/-- Account 10 owns all of the asset, and trusts the vault. -/
def soloWorld : World where
  vault := .deployed solo 0
  weth := Token.issued 10 99 100000000000000000000 (by decide)
  log := solo.events.map fun event => ⟨0, event⟩

def inBlock (blockNumber : U256) (sender : Address) : Context :=
  ⟨sender, blockNumber⟩

theorem soloWorld_initial : Initial solo soloWorld :=
  ⟨⟨0, rfl, rfl⟩, Token.unapproved_issued (by decide)⟩

theorem solo_reached
    {allowed : World → Action → Prop} [∀ w action, Decidable (allowed w action)]
    {actions : List Action}
    (admissible : ∀ action ∈ actions, action.Admissible solo)
    (ran : script solo allowed actions soloWorld = some w) :
    Reached solo allowed w := by
  rcases script_costed (fun _ => 0) admissible ran with ⟨total, run⟩
  exact ⟨soloWorld, soloWorld_initial, run.runs⟩

/-- The first deposit, funded rewards, and a withdrawal request. -/
def staked : List Action :=
  [.call (inBlock 1 10) (.deposit 1000000000000000 10),
    .call (inBlock 1 10) (.fundRewards 1000000000000000),
    .call (inBlock 2 10) (.accrueRewards),
    .call (inBlock 2 10) (.requestWithdraw 500)]

theorem staked_admissible :
    ∀ action ∈ staked, action.Admissible solo := by
  simp [staked, Action.Admissible, inBlock, solo]

end Eris.Vault.Protocol
