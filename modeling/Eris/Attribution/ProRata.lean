import Eris.Attribution.RosterTransfers
import Eris.Foundation.Shares

/-!
# Takers paired with putters

`core/src/rosterTransfers.ts`, `contractMovementsFromLogs` and
`proRataPairs`.  Who put a token into a contract and who took it out is netted
for each agent; what a taker took is then attributed to the putters in
proportion to what they put, each pair being capped at what its putter put.

A taker is never charged with more than it took.  A putter can be charged with
more than it put, because every pair has its own cap: it is exactly when the
others took more than the whole by more than rounding down has dropped.
-/

namespace Eris.Attribution.ProRata

open Foundation RosterTransfers
open Foundation.Shares (sum_div_add_mod)

/-! ## Pairs -/

/-- An amount of a putter attributed to a taker. -/
structure Pair where
  sender : String
  recipient : String
  amount : ℕ
  deriving DecidableEq

def totalOf (amounts : InsertionMap String ℕ) : ℕ := amounts.values.sum

def pairOf (total : ℕ) (taker putter : String × ℕ) : Option Pair :=
  if putter.1 = taker.1 then
    none
  else
    let amount := taker.2 * putter.2 / total
    let capped := if amount > putter.2 then putter.2 else amount
    if capped ≤ 0 then none else some ⟨putter.1, taker.1, capped⟩

/-- Attribute what each taker took to the putters. -/
def proRataPairs (puts takes : InsertionMap String ℕ) : List Pair :=
  if totalOf puts ≤ 0 then
    []
  else
    takes.entries.flatMap fun taker =>
      puts.entries.filterMap fun putter => pairOf (totalOf puts) taker putter

/-- A log of a transfer with its addresses in lower case; logs without three
topics are left out before. -/
structure TransferLog where
  address : String
  sender : String
  recipient : String
  value : ℤ
  block : ℕ

/-- A contract which a participant deployed. -/
structure RouteContract where
  kind : String
  creatorId : String

/-- What an agent sent to a contract less what it received, with the last
block. -/
structure Net where
  contract : String
  token : String
  net : InsertionMap String ℤ
  block : ℕ

def bump
    (contract token agent : String) (delta : ℤ) (block : ℕ)
    (entry : Option Net) : Net :=
  let found := entry.getD ⟨contract, token, .empty, block⟩
  { found with
    net := found.net.alter agent fun sum => sum.getD 0 + delta
    block := max found.block block }

variable (agentAt : String → Option String)
    (contracts : String → Option RouteContract)

/-- Enter a log under its contract and token. -/
def enterLog
    (nets : InsertionMap (String × String) Net) (log : TransferLog) :
    InsertionMap (String × String) Net :=
  if log.value ≤ 0 then
    nets
  else
    match agentAt log.sender, agentAt log.recipient with
    | some sender, none =>
        if (contracts log.recipient).isSome then
          nets.alter (log.recipient, log.address)
            (bump log.recipient log.address sender log.value log.block)
        else
          nets
    | none, some recipient =>
        if (contracts log.sender).isSome then
          nets.alter (log.sender, log.address)
            (bump log.sender log.address recipient (-log.value) log.block)
        else
          nets
    | _, _ => nets

/-- The agents with an amount above zero. -/
def above (net : InsertionMap String ℤ) : InsertionMap String ℕ where
  entries := (net.entries.filter fun entry => 0 < entry.2).map fun entry =>
      (entry.1, entry.2.toNat)
  distinct := by
    rw [List.map_map]
    exact net.distinct.sublist (List.filter_sublist.map Prod.fst)

/-- The agents with an amount below zero. -/
def below (net : InsertionMap String ℤ) : InsertionMap String ℕ where
  entries := (net.entries.filter fun entry => entry.2 < 0).map fun entry =>
      (entry.1, (-entry.2).toNat)
  distinct := by
    rw [List.map_map]
    exact net.distinct.sublist (List.filter_sublist.map Prod.fst)

/-- The movements of a contract and a token. -/
def movementsOf (token : Option TokenAddress) (entry : Net) :
    List RosterMovement :=
  (proRataPairs (above entry.net) (below entry.net)).map fun pair =>
    { route := .contract
      sender := pair.sender
      recipient := pair.recipient
      token
      amountRaw := pair.amount
      block := entry.block
      via := some entry.contract
      viaKind := (contracts entry.contract).map RouteContract.kind
      viaCreator := (contracts entry.contract).map RouteContract.creatorId }

/-- The movements between agents through contracts. -/
def contractMovementsFromLogs
    (tokenAddress : String → Option TokenAddress) (logs : List TransferLog) :
    List RosterMovement :=
  (logs.foldl (enterLog agentAt contracts) .empty).values.flatMap
    fun entry => movementsOf contracts (tokenAddress entry.token) entry

/-- What the pairs which pass a test attribute. -/
def attributed (test : Pair → Bool) (pairs : List Pair) : ℕ :=
  ((pairs.filter test).map Pair.amount).sum

/-- What the pairs attribute to a putter. -/
def sentBy (putter : String) (pairs : List Pair) : ℕ :=
  attributed (·.sender = putter) pairs

def takenBy (taker : String) (pairs : List Pair) : ℕ :=
  attributed (·.recipient = taker) pairs

/-- The amount of an agent, nothing without an entry. -/
def amountOf (amounts : InsertionMap String ℕ) (agent : String) : ℕ :=
  (amounts.get agent).getD 0

/-- Nobody is charged with more than it moved. -/
structure Within
    (puts takes : InsertionMap String ℕ) (pairs : List Pair) : Prop where
  put : ∀ putter, sentBy putter pairs ≤ amountOf puts putter
  took : ∀ taker, takenBy taker pairs ≤ amountOf takes taker

def others (takes : InsertionMap String ℕ) (putter : String) :
    List (String × ℕ) :=
  takes.entries.filter fun taker => ¬ putter = taker.1

/-- What the others took, each of them at most the whole. -/
def taken (total : ℕ) (takers : List (String × ℕ)) : ℕ :=
  (takers.map fun taker => min taker.2 total).sum

/-- What rounding down drops from the shares of the others. -/
def dropped (total put : ℕ) (takers : List (String × ℕ)) : ℕ :=
  (takers.map fun taker => min taker.2 total * put % total).sum

/-- The others took no more than the whole, up to what rounding drops. -/
def Covered (puts takes : InsertionMap String ℕ) : Prop :=
  ∀ putter ∈ puts.entries,
    putter.2 * taken (totalOf puts) (others takes putter.1) ≤
      putter.2 * totalOf puts +
        dropped (totalOf puts) putter.2 (others takes putter.1)

instance (puts takes : InsertionMap String ℕ) :
    Decidable (Covered puts takes) :=
  inferInstanceAs (Decidable (∀ putter ∈ puts.entries, _))

theorem attributed_flatMap
    {Item : Type} (test : Pair → Bool) (make : Item → List Pair)
    (items : List Item) :
    attributed test (items.flatMap make) =
      (items.map fun item => attributed test (make item)).sum := by
  induction items with
  | nil => rfl
  | cons item rest ih =>
      rw [List.flatMap_cons, List.map_cons, List.sum_cons, ← ih]
      simp [attributed]

/-- What a pair which may be missing attributes. -/
def attributedBy (test : Pair → Bool) (pair : Option Pair) : ℕ :=
  attributed test pair.toList

theorem attributed_filterMap
    {Item : Type} (test : Pair → Bool) (make : Item → Option Pair)
    (items : List Item) :
    attributed test (items.filterMap make) =
      (items.map fun item => attributedBy test (make item)).sum := by
  rw [List.filterMap_eq_flatMap_toList, attributed_flatMap]
  rfl

theorem sum_of_key
    {entries : List (String × ℕ)} (distinct : (entries.map Prod.fst).Nodup)
    {count : String × ℕ → ℕ} (key : String)
    (silent : ∀ entry ∈ entries, entry.1 ≠ key → count entry = 0) :
    (entries.map count).sum =
      ((entries.find? (·.1 = key)).map count).getD 0 := by
  induction entries with
  | nil => rfl
  | cons entry rest ih =>
      rw [List.map_cons, List.nodup_cons] at distinct
      rw [List.forall_mem_cons] at silent
      rw [List.map_cons, List.sum_cons]
      by_cases same : entry.1 = key
      · have nothing : (rest.map count).sum = 0 := by
          apply List.sum_eq_zero
          intro value listed
          rcases List.mem_map.1 listed with ⟨other, member, rfl⟩
          apply silent.2 other member
          intro equal
          apply distinct.1
          rw [same, ← equal]
          exact List.mem_map_of_mem member
        rw [nothing, List.find?_cons_of_pos (by simpa using same)]
        rfl
      · rw [silent.1 same, Nat.zero_add, ih distinct.2 silent.2,
          List.find?_cons_of_neg (by simpa using same)]

/-- The share of a putter in what a taker took. -/
def share (total take put : ℕ) : ℕ := min take total * put / total

theorem share_eq {total : ℕ} (positive : 0 < total) (take put : ℕ) :
    share total take put = min (take * put / total) put := by
  unfold share
  by_cases small : take ≤ total
  · have within : take * put / total ≤ put := by
      apply Nat.div_le_of_le_mul
      exact Nat.mul_le_mul_right put small
    rw [min_eq_left small, min_eq_left within]
  · have large : total ≤ take := (not_le.1 small).le
    have beyond : put ≤ take * put / total := by
      rw [Nat.le_div_iff_mul_le positive, Nat.mul_comm]
      exact Nat.mul_le_mul_right put large
    rw [min_eq_right large, min_eq_right beyond,
      Nat.mul_div_cancel_left put positive]

theorem pairOf_eq
    {total : ℕ} (positive : 0 < total) (taker putter : String × ℕ) :
    pairOf total taker putter = if putter.1 = taker.1 then
        none
      else if share total taker.2 putter.2 ≤ 0 then
        none
      else
        some ⟨putter.1, taker.1, share total taker.2 putter.2⟩ := by
  have capped : share total taker.2 putter.2 =
      if taker.2 * putter.2 / total > putter.2 then
          putter.2
        else
          taker.2 * putter.2 / total := by
    rw [share_eq positive]
    split_ifs with more
    · exact min_eq_right more.le
    · exact min_eq_left (not_lt.1 more)
  rw [capped]
  rfl

theorem attributedBy_pairOf
    {total : ℕ} (positive : 0 < total) {test : Pair → Bool}
    {taker putter : String × ℕ} {accepted : Bool}
    (reads : ∀ amount, test ⟨putter.1, taker.1, amount⟩ = accepted) :
    attributedBy test (pairOf total taker putter) =
      if accepted ∧ putter.1 ≠ taker.1 then
        share total taker.2 putter.2
      else
        0 := by
  rw [pairOf_eq positive]
  by_cases own : putter.1 = taker.1
  · rw [if_pos own, if_neg (fun both => both.2 own)]
    rfl
  · rw [if_neg own]
    by_cases nothing : share total taker.2 putter.2 ≤ 0
    · have zero : share total taker.2 putter.2 = 0 := Nat.le_zero.1 nothing
      rw [if_pos nothing, zero, ite_self]
      rfl
    · rw [if_neg nothing]
      cases accepted <;> simp [attributedBy, attributed, reads, own]

variable {puts takes : InsertionMap String ℕ}

theorem attributed_proRataPairs
    (positive : 0 < totalOf puts) (test : Pair → Bool) :
    attributed test (proRataPairs puts takes) = (takes.entries.map fun taker =>
        (puts.entries.map fun putter =>
          attributedBy test (pairOf (totalOf puts) taker putter)).sum).sum := by
  rw [proRataPairs, if_neg (not_le.2 positive), attributed_flatMap]
  simp only [attributed_filterMap]

theorem sentBy_taker
    (positive : 0 < totalOf puts) (agent : String) (taker : String × ℕ) :
    (puts.entries.map fun putter =>
        attributedBy (·.sender = agent)
          (pairOf (totalOf puts) taker putter)).sum =
      if agent = taker.1 then
        0
      else
        share (totalOf puts) taker.2 (amountOf puts agent) := by
  have charge : ∀ putter : String × ℕ,
      attributedBy (·.sender = agent) (pairOf (totalOf puts) taker putter) =
        if decide (putter.1 = agent) = true ∧ putter.1 ≠ taker.1 then
          share (totalOf puts) taker.2 putter.2
        else
          0 :=
    fun putter => attributedBy_pairOf positive fun _ => rfl
  rw [sum_of_key puts.distinct agent]
  · rw [amountOf, InsertionMap.get]
    cases found : puts.entries.find? (·.1 = agent) with
    | none => simp [share]
    | some putter =>
        have named : putter.1 = agent := by
          simpa using List.find?_some found
        rw [Option.map_some, Option.getD_some, charge, named]
        by_cases own : agent = taker.1 <;> simp [own]
  · intro putter _ different
    rw [charge, if_neg]
    intro both
    exact different (of_decide_eq_true both.1)

theorem sentBy_proRataPairs
    (positive : 0 < totalOf puts) (agent : String) :
    sentBy agent (proRataPairs puts takes) =
      ((others takes agent).map fun taker =>
        share (totalOf puts) taker.2 (amountOf puts agent)).sum := by
  rw [sentBy, attributed_proRataPairs positive, others]
  simp only [sentBy_taker positive]
  induction takes.entries with
  | nil => rfl
  | cons taker rest ih =>
      rw [List.map_cons, List.sum_cons, ih]
      by_cases own : agent = taker.1
      · rw [if_pos own, Nat.zero_add,
          List.filter_cons_of_neg (by simpa using own)]
      · rw [if_neg own, List.filter_cons_of_pos (by simpa using own),
          List.map_cons, List.sum_cons]

/-! ## The takers -/

theorem shares_of_taker (positive : 0 < totalOf puts) (take : ℕ) :
    (puts.entries.map fun putter =>
      share (totalOf puts) take putter.2).sum ≤ take := by
  have division := sum_div_add_mod (totalOf puts)
      (puts.entries.map fun putter => min take (totalOf puts) * putter.2)
  have whole : (puts.entries.map fun putter =>
          min take (totalOf puts) * putter.2).sum =
        min take (totalOf puts) * totalOf puts := by
    rw [List.sum_map_mul_left]
    rfl
  rw [whole, List.map_map] at division
  have bounded : totalOf puts * (puts.entries.map fun putter =>
            share (totalOf puts) take putter.2).sum ≤
        totalOf puts * min take (totalOf puts) := by
    rw [Nat.mul_comm (totalOf puts) (min take (totalOf puts)), ← division]
    exact Nat.le_add_right _ _
  exact (Nat.le_of_mul_le_mul_left bounded positive).trans (min_le_left _ _)

theorem takenBy_le (agent : String) :
    takenBy agent (proRataPairs puts takes) ≤ amountOf takes agent := by
  rcases Nat.eq_zero_or_pos (totalOf puts) with empty | positive
  · rw [proRataPairs, if_pos empty.le]
    exact Nat.zero_le _
  · have charge : ∀ taker putter : String × ℕ,
        attributedBy (·.recipient = agent)
            (pairOf (totalOf puts) taker putter) =
          if decide (taker.1 = agent) = true ∧ putter.1 ≠ taker.1 then
            share (totalOf puts) taker.2 putter.2
          else
            0 :=
      fun taker putter => attributedBy_pairOf positive fun _ => rfl
    rw [takenBy, attributed_proRataPairs positive]
    simp only [charge]
    rw [sum_of_key takes.distinct agent]
    · rw [amountOf, InsertionMap.get]
      cases found : takes.entries.find? (·.1 = agent) with
      | none => exact le_rfl
      | some taker =>
          rw [Option.map_some, Option.map_some, Option.getD_some,
            Option.getD_some]
          refine le_trans (List.sum_le_sum ?_)
            (shares_of_taker positive taker.2)
          intro putter _
          split_ifs
          · exact le_rfl
          · exact Nat.zero_le _
    · intro taker _ different
      apply List.sum_eq_zero
      intro value listed
      rcases List.mem_map.1 listed with ⟨putter, _, rfl⟩
      rw [if_neg]
      intro both
      exact different (of_decide_eq_true both.1)

theorem shares_of_putter
    {total : ℕ} (positive : 0 < total) (put : ℕ) (takers : List (String × ℕ)) :
    (takers.map fun taker => share total taker.2 put).sum ≤ put ↔
      put * taken total takers ≤ put * total + dropped total put takers := by
  have division :=
    sum_div_add_mod total (takers.map fun taker => min taker.2 total * put)
  rw [List.sum_map_mul_right, List.map_map, List.map_map] at division
  have parts : total * (takers.map fun taker => share total taker.2 put).sum +
          dropped total put takers =
        put * taken total takers := by
    rw [Nat.mul_comm put]
    exact division
  rw [← parts, Nat.add_le_add_iff_right, Nat.mul_comm put total]
  exact (Nat.mul_le_mul_left_iff positive).symm

/-- The first of two takers which each took what one putter put: the contract
held as much again from elsewhere. -/
def exampleLogs : List TransferLog :=
  [ ⟨"token", "a", "pool", 10, 1⟩, ⟨"token", "outside", "pool", 10, 1⟩,
    ⟨"token", "pool", "b", 10, 2⟩, ⟨"token", "pool", "c", 10, 3⟩ ]

/-- The registered agents of the example, named by their addresses. -/
def exampleAgentAt (address : String) : Option String :=
  if address = "a" ∨ address = "b" ∨ address = "c" then
    some address
  else
    none

def exampleContracts (address : String) : Option RouteContract :=
  if address = "pool" then some ⟨"pool", "a"⟩ else none

/-- Takers who together took no more than the whole charge no putter with
more than it put. -/
theorem covered_of_taken_le
    (enough : ∀ putter ∈ puts.entries,
        ((others takes putter.1).map Prod.snd).sum ≤ totalOf puts) :
    Covered puts takes := by
  intro putter listed
  have counted : taken (totalOf puts) (others takes putter.1) ≤
      ((others takes putter.1).map Prod.snd).sum := by
    apply List.sum_le_sum
    intro taker _
    exact min_le_left _ _
  calc
    putter.2 * taken (totalOf puts) (others takes putter.1) ≤
        putter.2 * totalOf puts :=
      Nat.mul_le_mul_left _ (counted.trans (enough putter listed))
    _ ≤ _ := Nat.le_add_right _ _

end Eris.Attribution.ProRata
