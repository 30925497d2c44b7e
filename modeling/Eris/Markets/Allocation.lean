import Eris.Foundation.Shares
import Eris.Markets.Nets

/-!
# A balance split among its claimants

`sdk/src/agentMarkets.ts`, `allocateToBalances`.  What several agents have
left in one market is capped by what the market still holds, and split in
proportion to what each put in.  Every share is rounded down, and the shares
of one market and token are short of the balance by fewer units than there
are claimants.
-/

namespace Eris.Markets.Allocation

open Foundation Foundation.Shares Watcher Nets

variable {Agent Address : Type} [DecidableEq Address]

/-! ## The split -/

structure AgentFlows (Agent Address : Type) where
  agent : Agent
  flows : List (StrandedFlow Address)

/-- Add a flow to the total of its market and token. -/
def addFlow
    (totals : InsertionMap (Address × Address) Nat)
    (flow : StrandedFlow Address) : InsertionMap (Address × Address) Nat :=
  totals.alter (flow.market, flow.token) fun total =>
    total.getD 0 + flow.amountRaw

/-- What all agents have left in each market and token. -/
def totals (byAgent : List (AgentFlows Agent Address)) :
    InsertionMap (Address × Address) Nat :=
  byAgent.foldl (fun totals claims => claims.flows.foldl addFlow totals) .empty

/-- The part of a flow which a balance covers, by the total of its market. -/
def allocate (total held : Nat) (flow : StrandedFlow Address) :
    Option (StrandedFlow Address) :=
  if total = 0 then none
  else
    let amount :=
      if total ≤ held then flow.amountRaw else share total held flow.amountRaw
    if 0 < amount then some { flow with amountRaw := amount } else none

/-- Cap what every agent has left by what each market still holds. -/
def allocateToBalances
    (byAgent : List (AgentFlows Agent Address))
    (balances : Address → Address → Option Nat) :
    List (AgentFlows Agent Address) :=
  byAgent.map fun claims =>
    { claims with
      flows := claims.flows.filterMap fun flow =>
          match balances flow.market flow.token with
          | none => some flow
          | some held =>
              allocate (((totals byAgent).get (flow.market, flow.token)).getD 0)
                held flow }

/-- What the agents of some ledgers have left in priced tokens. -/
def outstandingOf
    (pricedTokens : List Address)
    (ledgers : List (Agent × StrandedLedger Address)) :
    List (AgentFlows Agent Address) :=
  ledgers.map fun entry =>
    { agent := entry.1
      flows := entry.2.outstanding.filter fun flow =>
          decide (flow.token ∈ pricedTokens) }

variable (market token : Address)

def IsOf (flow : StrandedFlow Address) : Bool :=
  decide (flow.market = market ∧ flow.token = token)

/-- The amounts of the flows of a market and a token. -/
def amountsIn (flows : List (StrandedFlow Address)) : List Nat :=
  (flows.filter (IsOf market token)).map StrandedFlow.amountRaw

/-- What an agent has left in a market, in one token. -/
def amountIn (claims : AgentFlows Agent Address) : Nat :=
  (amountsIn market token claims.flows).sum

/-- What all of some agents have left in a market, in one token. -/
def amountOfAll (byAgent : List (AgentFlows Agent Address)) : Nat :=
  (byAgent.map (amountIn market token)).sum

/-- The agents which have something left in a market, in one token. -/
def claimants (byAgent : List (AgentFlows Agent Address)) : Nat :=
  byAgent.countP fun claims => 0 < amountIn market token claims

/-- A fair split of the balances among those who claim them. -/
structure Split
    (byAgent allocated : List (AgentFlows Agent Address))
    (balances : Address → Address → Option Nat) : Prop where
  agents : allocated.map AgentFlows.agent = byAgent.map AgentFlows.agent
  own : ∀ market token, List.Forall₂ (fun claims part =>
          amountIn market token part ≤ amountIn market token claims)
        byAgent allocated
  together : ∀ market token held, balances market token = some held →
      amountOfAll market token allocated ≤ held
  short : ∀ market token held, balances market token = some held →
      0 < claimants market token byAgent →
        min held (amountOfAll market token byAgent) <
          amountOfAll market token allocated + claimants market token byAgent
  unread : ∀ market token, balances market token = none → List.Forall₂
      (fun claims part =>
          part.flows.filter (IsOf market token) =
            claims.flows.filter (IsOf market token))
        byAgent allocated

variable {market token}

theorem get_addFlow
    (totals : InsertionMap (Address × Address) Nat)
    (flow : StrandedFlow Address) :
    ((addFlow totals flow).get (market, token)).getD 0 =
      (totals.get (market, token)).getD 0 +
        if IsOf market token flow then flow.amountRaw else 0 := by
  unfold addFlow IsOf
  by_cases same : flow.market = market ∧ flow.token = token
  · rcases same with ⟨rfl, rfl⟩
    rw [InsertionMap.get_alter_self]
    simp
  · have different : (market, token) ≠ (flow.market, flow.token) := by
      intro equal
      rcases Prod.mk.inj equal with ⟨sameMarket, sameToken⟩
      exact same ⟨sameMarket.symm, sameToken.symm⟩
    rw [InsertionMap.get_alter_other different]
    simp [same]

theorem get_addFlows
    (totals : InsertionMap (Address × Address) Nat)
    (flows : List (StrandedFlow Address)) :
    ((flows.foldl addFlow totals).get (market, token)).getD 0 =
      (totals.get (market, token)).getD 0 +
        (amountsIn market token flows).sum := by
  induction flows generalizing totals with
  | nil => rfl
  | cons flow rest ih =>
      rw [List.foldl_cons, ih, get_addFlow, amountsIn,
        amountsIn, List.filter_cons]
      split
      · rw [List.map_cons, List.sum_cons, Nat.add_assoc]
      · rw [Nat.add_zero]

theorem get_totals (byAgent : List (AgentFlows Agent Address)) :
    ((totals byAgent).get (market, token)).getD 0 =
      amountOfAll market token byAgent := by
  have from_ : ∀ totals : InsertionMap (Address × Address) Nat, ((byAgent.foldl
        (fun totals claims => claims.flows.foldl addFlow totals)
        totals).get (market, token)).getD 0 =
      (totals.get (market, token)).getD 0 +
        amountOfAll market token byAgent := by
    induction byAgent with
    | nil => intro totals; rfl
    | cons claims rest ih =>
        intro totals
        rw [List.foldl_cons, ih, get_addFlows,
          amountOfAll, amountOfAll, List.map_cons, List.sum_cons,
          Nat.add_assoc]
        rfl
  exact (from_ .empty).trans (Nat.zero_add _)

/-! ## Shares of a balance -/

theorem amountsIn_cons
    (flow : StrandedFlow Address) (rest : List (StrandedFlow Address)) :
    amountsIn market token (flow :: rest) = if IsOf market token flow then
        flow.amountRaw :: amountsIn market token rest
      else amountsIn market token rest := by
  rw [amountsIn, List.filter_cons]
  split <;> rfl

/-- The amount which a balance covers of a claim. -/
def covered (total held amount : Nat) : Nat :=
  if total ≤ held then amount else share total held amount

theorem covered_le (total held amount : Nat) :
    covered total held amount ≤ amount := by
  unfold covered
  split
  · exact le_rfl
  · next less => exact share_le (Nat.le_of_not_le less)

theorem covered_of_le {total held : Nat} (enough : total ≤ held) :
    covered total held = id :=
  funext fun _ => if_pos enough

theorem covered_of_not_le {total held : Nat} (short : ¬ total ≤ held) :
    covered total held = share total held :=
  funext fun _ => if_neg short

omit [DecidableEq Address] in
theorem allocate_cases
    {total held : Nat} {flow : StrandedFlow Address}
    (within : flow.amountRaw ≤ total) :
    (allocate total held flow = none ∧ covered total held flow.amountRaw = 0) ∨
      allocate total held flow =
        some { flow with amountRaw := covered total held flow.amountRaw } := by
  have least := covered_le total held flow.amountRaw
  unfold allocate
  by_cases nothing : total = 0
  · left
    exact ⟨if_pos nothing, by omega⟩
  · rw [if_neg nothing]
    change
      (if 0 < covered total held flow.amountRaw then _ else none) = none ∧ _ ∨
        (if 0 < covered total held flow.amountRaw then _ else none) = _
    by_cases positive : 0 < covered total held flow.amountRaw
    · right
      exact if_pos positive
    · left
      exact ⟨if_neg positive, by omega⟩

theorem amountsIn_allocated
    {total held : Nat}
    {choose : StrandedFlow Address → Option (StrandedFlow Address)}
    (kept : ∀ flow part, choose flow = some part →
      IsOf market token part = IsOf market token flow)
    (chosen : ∀ flow, IsOf market token flow = true →
        choose flow = allocate total held flow)
    (flows : List (StrandedFlow Address))
    (within : (amountsIn market token flows).sum ≤ total) :
    (amountsIn market token (flows.filterMap choose)).sum =
      ((amountsIn market token flows).map (covered total held)).sum := by
  induction flows with
  | nil => rfl
  | cons flow rest ih =>
      rw [amountsIn_cons] at within ⊢
      by_cases here : IsOf market token flow = true
      · rw [if_pos here, List.sum_cons] at within
        rw [if_pos here, List.map_cons, List.sum_cons, ← ih (by omega)]
        have own : flow.amountRaw ≤ total := by omega
        rcases allocate_cases own with ⟨dropped, nothing⟩ | carried
        · rw [List.filterMap_cons_none ((chosen flow here).trans dropped),
            nothing, Nat.zero_add]
        · rw [List.filterMap_cons_some ((chosen flow here).trans carried),
            amountsIn_cons]
          exact congrArg List.sum (if_pos here)
      · rw [if_neg here] at within ⊢
        rw [← ih within]
        cases found : choose flow with
        | none => rw [List.filterMap_cons_none found]
        | some part =>
            rw [List.filterMap_cons_some found, amountsIn_cons, if_neg]
            rw [kept flow part found]
            exact here

variable {byAgent : List (AgentFlows Agent Address)}
    {balances : Address → Address → Option Nat} {held : Nat}

def allocateFlow
    (byAgent : List (AgentFlows Agent Address))
    (balances : Address → Address → Option Nat)
    (flow : StrandedFlow Address) : Option (StrandedFlow Address) :=
  match balances flow.market flow.token with
  | none => some flow
  | some held =>
      allocate (((totals byAgent).get (flow.market, flow.token)).getD 0) held
        flow

theorem allocateToBalances_eq :
    allocateToBalances byAgent balances = byAgent.map fun claims =>
        { claims with
          flows := claims.flows.filterMap (allocateFlow byAgent balances) } :=
  rfl

theorem isOf_allocateFlow
    (flow part : StrandedFlow Address)
    (found : allocateFlow byAgent balances flow = some part) :
    IsOf market token part = IsOf market token flow := by
  unfold allocateFlow at found
  split at found
  · cases found
    rfl
  · unfold allocate at found
    split at found
    · cases found
    · rw [Option.ite_none_right_eq_some] at found
      rcases found with ⟨_, same⟩
      cases same
      rfl

theorem amountIn_allocated
    (read : balances market token = some held)
    {claims : AgentFlows Agent Address} (member : claims ∈ byAgent) :
    amountIn market token { claims with
          flows := claims.flows.filterMap (allocateFlow byAgent balances) } =
      ((amountsIn market token claims.flows).map
        (covered (amountOfAll market token byAgent) held)).sum := by
  apply amountsIn_allocated isOf_allocateFlow
  · intro flow here
    rcases of_decide_eq_true here with ⟨rfl, rfl⟩
    rw [allocateFlow, read, get_totals]
  · exact List.single_le_sum (fun _ _ => Nat.zero_le _) _
        (List.mem_map_of_mem member)

/-- All the amounts left in a market, in one token. -/
def weights (market token : Address) (byAgent : List (AgentFlows Agent Address)) :
    List Nat :=
  byAgent.flatMap fun claims => amountsIn market token claims.flows

theorem sum_weights :
    (weights market token byAgent).sum = amountOfAll market token byAgent := by
  rw [weights, List.flatMap_def, List.sum_flatten, List.map_map]
  rfl

theorem amountOfAll_allocated
    (read : balances market token = some held) :
    amountOfAll market token (allocateToBalances byAgent balances) =
      ((weights market token byAgent).map
        (covered (amountOfAll market token byAgent) held)).sum := by
  rw [amountOfAll, allocateToBalances_eq, List.map_map, weights,
    List.map_flatMap, List.flatMap_def, List.sum_flatten, List.map_map]
  congr 1
  apply List.map_congr_left
  intro claims member
  exact amountIn_allocated read member

theorem filter_unread
    (unread : balances market token = none)
    (flows : List (StrandedFlow Address)) :
    (flows.filterMap (allocateFlow byAgent balances)).filter
        (IsOf market token) =
      flows.filter (IsOf market token) := by
  induction flows with
  | nil => rfl
  | cons flow rest ih =>
      rw [List.filter_cons]
      split
      · next here =>
          have stays : allocateFlow byAgent balances flow = some flow := by
            rcases of_decide_eq_true here with ⟨rfl, rfl⟩
            rw [allocateFlow, unread]
          rw [List.filterMap_cons_some stays, List.filter_cons_of_pos here, ih]
      · next elsewhere =>
          cases found : allocateFlow byAgent balances flow with
          | none =>
              rw [List.filterMap_cons_none found, ih]
          | some part =>
              rw [List.filterMap_cons_some found, List.filter_cons_of_neg, ih]
              rw [isOf_allocateFlow flow part found]
              exact elsewhere

/-- An agent whose accounts differ has at most one flow of a market and a
token. -/
theorem countP_amountsIn
    {claims : AgentFlows Agent Address}
    (distinct : (accounts claims.flows).Nodup) :
    (amountsIn market token claims.flows).countP (0 < ·) =
      if 0 < amountIn market token claims then 1 else 0 := by
  unfold amountIn
  have short : (amountsIn market token claims.flows).length ≤ 1 := by
    rw [amountsIn, List.length_map]
    have keys : ((claims.flows.filter (IsOf market token)).map fun flow =>
          (flow.market, flow.token)).Nodup :=
      distinct.sublist (List.filter_sublist.map _)
    by_contra more
    have all : (claims.flows.filter (IsOf market token)).map (fun flow =>
            (flow.market, flow.token)) =
          List.replicate (claims.flows.filter (IsOf market token)).length
            (market, token) := by
      apply List.eq_replicate_iff.mpr
      refine ⟨List.length_map _, ?_⟩
      intro pair listed
      rcases List.mem_map.mp listed with ⟨flow, inside, rfl⟩
      rcases of_decide_eq_true (List.mem_filter.mp inside).2 with ⟨rfl, rfl⟩
      rfl
    rw [all, List.nodup_replicate] at keys
    exact more keys
  match amounts : amountsIn market token claims.flows with
  | [] => rfl
  | [amount] => simp [List.countP_cons]
  | _ :: _ :: _ =>
      rw [amounts] at short
      simp at short

theorem countP_weights
    (distinct : ∀ claims ∈ byAgent, (accounts claims.flows).Nodup) :
    (weights market token byAgent).countP (0 < ·) =
      claimants market token byAgent := by
  induction byAgent with
  | nil => rfl
  | cons claims rest ih =>
      rw [List.forall_mem_cons] at distinct
      rw [weights, List.flatMap_cons, List.countP_append,
        countP_amountsIn distinct.1, claimants, List.countP_cons,
        Nat.add_comm]
      congr 1
      · exact ih distinct.2
      · simp

/-- Allocated to the balances, the claims of each market and token are
split among those who have them. -/
theorem split_of_distinct
    (distinct : ∀ claims ∈ byAgent, (accounts claims.flows).Nodup) :
    Split byAgent (allocateToBalances byAgent balances) balances where
  agents := by
    rw [allocateToBalances_eq, List.map_map]
    rfl
  own market token := by
    rw [allocateToBalances_eq, List.forall₂_map_right_iff, List.forall₂_same]
    intro claims member
    cases read : balances market token with
    | none =>
        rw [amountIn, amountsIn, filter_unread read]
        exact le_rfl
    | some held =>
        rw [amountIn_allocated read member]
        apply (List.sum_le_sum fun amount _ => covered_le _ held amount).trans
        rw [List.map_id']
        exact le_rfl
  together market token held read := by
    rw [amountOfAll_allocated read]
    by_cases enough : amountOfAll market token byAgent ≤ held
    · rw [covered_of_le enough, List.map_id, sum_weights]
      exact enough
    · rw [covered_of_not_le enough]
      exact sum_shares_le sum_weights (by omega)
  short market token held read claimed := by
    rw [amountOfAll_allocated read]
    by_cases enough : amountOfAll market token byAgent ≤ held
    · rw [covered_of_le enough, List.map_id, sum_weights]
      omega
    · rw [covered_of_not_le enough]
      have whole : (weights market token byAgent).sum = _ := sum_weights
      have short := @lt_sum_shares _ _ held whole (by omega)
      rw [countP_weights distinct] at short
      omega
  unread market token unread := by
    rw [allocateToBalances_eq, List.forall₂_map_right_iff, List.forall₂_same]
    intro claims _
    exact filter_unread unread claims.flows

theorem distinct_outstandingOf
    (pricedTokens : List Address)
    (ledgers : List (Agent × StrandedLedger Address)) :
    ∀ claims ∈ outstandingOf pricedTokens ledgers,
      (accounts claims.flows).Nodup := by
  intro claims member
  rcases List.mem_map.mp member with ⟨entry, _, rfl⟩
  exact (nodup_outstanding entry.2).sublist (List.filter_sublist.map _)

/-- What the ledgers of any agents have outstanding is split fairly. -/
theorem allocateToBalances_split
    (pricedTokens : List Address)
    (ledgers : List (Agent × StrandedLedger Address))
    (balances : Address → Address → Option Nat) :
    Split (outstandingOf pricedTokens ledgers)
      (allocateToBalances (outstandingOf pricedTokens ledgers) balances)
      balances :=
  split_of_distinct (distinct_outstandingOf pricedTokens ledgers)

/-- Two agents who each put one hundred into a market which holds one
hundred. -/
example :
    (allocateToBalances
        [⟨"a", [⟨"c", "usdc", 100⟩]⟩, ⟨"b", [⟨"c", "usdc", 100⟩]⟩]
        fun _ _ => some 100).map (fun claims =>
          claims.flows.map StrandedFlow.amountRaw) =
      [[50], [50]] := by
  decide

end Eris.Markets.Allocation
