import Eris.Markets.Watcher

/-!
# What a ledger nets

The ledger of a watcher adds up, for each market and token, what the agent
sent less what it got back over the logs applied.  The transfers of a range
are fetched by sender and by recipient, which counts each transfer between
the agent and a market once.
-/

namespace Eris.Markets.Nets

open Foundation Watcher

variable {Address : Type} [DecidableEq Address]
    {me market token : Address} {markets : List Address}

/-- What a log moves from the agent into a market, in one token. -/
def flow (me market token : Address) (log : TransferLog Address) : Int :=
  if log.topics ≠ 3 ∨ log.address ≠ token then 0
  else
    match log.sender, log.recipient, log.value with
    | some sender, some recipient, some value =>
        if sender = me ∧ recipient = market then value
        else if recipient = me ∧ sender = market then -value
        else 0
    | _, _, _ => 0

/-- The net of a market and a token; nothing when there is no entry. -/
def netOf
    (ledger : StrandedLedger Address) (market token : Address) : Int :=
  (ledger.net.get (market, token)).getD 0

theorem netOf_add
    (ledger : StrandedLedger Address) (other held : Address) (amount : Int) :
    netOf (ledger.add other held amount) market token =
      netOf ledger market token +
        if other = market ∧ held = token then amount else 0 := by
  unfold netOf StrandedLedger.add
  by_cases same : other = market ∧ held = token
  · rcases same with ⟨rfl, rfl⟩
    rw [InsertionMap.get_alter_self, if_pos ⟨rfl, rfl⟩]
    rfl
  · have different : (market, token) ≠ (other, held) := by
      intro equal
      rcases Prod.mk.inj equal with ⟨sameMarket, sameToken⟩
      exact same ⟨sameMarket.symm, sameToken.symm⟩
    rw [InsertionMap.get_alter_other different, if_neg same, add_zero]

theorem netOf_applyLog
    (outside : me ∉ markets) (ledger : StrandedLedger Address)
    (log : TransferLog Address) :
    netOf (ledger.applyLog me markets log) market token =
      netOf ledger market token +
        if market ∈ markets then flow me market token log else 0 := by
  unfold StrandedLedger.applyLog flow
  by_cases kind : log.topics ≠ 3
  · simp [kind]
  · cases log.sender with
    | none => simp [kind]
    | some sender =>
        cases log.recipient with
        | none => simp [kind]
        | some recipient =>
            cases log.value with
            | none => simp [kind]
            | some value =>
                simp only [kind, if_false, false_or]
                by_cases sends : sender = me ∧ recipient ∈ markets
                · rw [if_pos sends, netOf_add]
                  rcases sends with ⟨rfl, listed⟩
                  have notBack : ¬recipient = sender := by
                    rintro rfl
                    exact outside listed
                  by_cases same : recipient = market
                  · subst same
                    by_cases held : log.address = token <;>
                      simp [held, listed]
                  · simp [same, notBack]
                · rw [if_neg sends]
                  by_cases gets : recipient = me ∧ sender ∈ markets
                  · rw [if_pos gets, netOf_add]
                    rcases gets with ⟨rfl, listed⟩
                    have notOwn : ¬sender = recipient := by
                      rintro rfl
                      exact outside listed
                    by_cases same : sender = market
                    · subst same
                      by_cases held : log.address = token <;>
                        simp [held, listed, notOwn]
                    · simp [same, notOwn]
                  · rw [if_neg gets]
                    by_cases listed : market ∈ markets
                    · have notSent : ¬(sender = me ∧ recipient = market) := by
                        rintro ⟨own, rfl⟩
                        exact sends ⟨own, listed⟩
                      have notBack : ¬(recipient = me ∧ sender = market) := by
                        rintro ⟨own, rfl⟩
                        exact gets ⟨own, listed⟩
                      simp [notSent, notBack]
                    · simp [listed]

theorem netOf_apply
    (outside : me ∉ markets) (ledger : StrandedLedger Address)
    (logs : List (TransferLog Address)) :
    netOf (ledger.apply logs me markets) market token =
      netOf ledger market token +
        if market ∈ markets then (logs.map (flow me market token)).sum
        else 0 := by
  induction logs generalizing ledger with
  | nil => simp [StrandedLedger.apply]
  | cons log rest ih =>
      have step : ledger.apply (log :: rest) me markets =
            (ledger.applyLog me markets log).apply rest me markets :=
        rfl
      rw [step, ih, netOf_applyLog outside]
      by_cases listed : market ∈ markets
      · simp only [listed, if_true, List.map_cons, List.sum_cons]
        omega
      · simp only [listed, if_false]
        omega

theorem sum_fetched
    (other : market ≠ me) (logs : List (TransferLog Address)) :
    (((logs.filter fun log => decide (log.sender = some me)) ++
        logs.filter fun log => decide (log.recipient = some me)).map
          (flow me market token)).sum =
      (logs.map (flow me market token)).sum := by
  induction logs with
  | nil => rfl
  | cons log rest ih =>
      have own :
          (if log.sender = some me then flow me market token log else 0) +
              (if log.recipient = some me then flow me market token log
                else 0) =
            flow me market token log := by
        unfold flow
        cases log.sender with
        | none => simp
        | some sender =>
            cases log.recipient with
            | none => simp
            | some recipient =>
                cases log.value with
                | none => simp
                | some value =>
                    by_cases sends : sender = me
                    · have notSender : ¬me = market := fun same =>
                        other same.symm
                      by_cases gets : recipient = me
                      · simp [sends, gets, notSender]
                      · simp [sends, gets]
                    · by_cases gets : recipient = me
                      · simp [sends, gets]
                      · simp [sends, gets]
      rw [List.map_append, List.sum_append] at ih ⊢
      simp only [List.filter_cons, decide_eq_true_eq]
      rw [List.map_cons, List.sum_cons, ← own, ← ih]
      by_cases sends : log.sender = some me <;>
        by_cases gets : log.recipient = some me <;>
          simp only [sends, gets, if_true, if_false, List.map_cons,
            List.sum_cons] <;>
          omega

/-- Nothing of the agent's goes into or comes out of a market. -/
def Quiet (me : Address) (markets : List Address) (log : TransferLog Address) :
    Prop :=
  (∀ market ∈ markets, ¬(log.sender = some me ∧ log.recipient = some market)) ∧
    ∀ market ∈ markets, ¬(log.recipient = some me ∧ log.sender = some market)

theorem applyLog_quiet
    {log : TransferLog Address} (quiet : Quiet me markets log)
    (ledger : StrandedLedger Address) :
    ledger.applyLog me markets log = ledger := by
  unfold StrandedLedger.applyLog
  split
  · rfl
  · split
    · next sender recipient value isSender isRecipient _ =>
        rw [if_neg, if_neg]
        · rintro ⟨rfl, listed⟩
          exact quiet.2 sender listed ⟨isRecipient, isSender⟩
        · rintro ⟨rfl, listed⟩
          exact quiet.1 recipient listed ⟨isSender, isRecipient⟩
    · rfl

theorem apply_quiet
    {logs : List (TransferLog Address)}
    (quiet : ∀ log ∈ logs, Quiet me markets log)
    (ledger : StrandedLedger Address) :
    ledger.apply logs me markets = ledger := by
  induction logs generalizing ledger with
  | nil => rfl
  | cons log rest ih =>
      have step : ledger.apply (log :: rest) me markets =
            (ledger.applyLog me markets log).apply rest me markets :=
        rfl
      rw [step, applyLog_quiet (quiet log List.mem_cons_self)]
      apply ih
      intro other member
      exact quiet other (List.mem_cons_of_mem _ member)

theorem apply_append
    (ledger : StrandedLedger Address)
    (first second : List (TransferLog Address)) :
    ledger.apply (first ++ second) me markets =
      (ledger.apply first me markets).apply second me markets :=
  List.foldl_append

theorem blocksOf_split
    {first middle last : Nat}
    (lower : first ≤ middle) (upper : middle ≤ last + 1) :
    blocksOf first last =
      List.range' first (middle - first) ++ blocksOf middle last := by
  unfold blocksOf
  have start : middle = first + (middle - first) := by omega
  have length :
      last + 1 - first = (middle - first) + (last + 1 - middle) := by omega
  rw [length, ← List.range'_append_1, ← start]

theorem apply_fetched_quiet
    {view : View Address} {first middle : Nat}
    (lower : first ≤ middle) (upper : middle ≤ view.blockNumber + 1)
    (quiet : ∀ block, first ≤ block → block < middle →
        ∀ log ∈ view.logs block, Quiet me markets log)
    (ledger : StrandedLedger Address) :
    ledger.apply (fetchAgentTransfers view me first view.blockNumber) me
        markets =
      ledger.apply (fetchAgentTransfers view me middle view.blockNumber) me
        markets := by
  have early : ∀ log ∈ (List.range' first (middle - first)).flatMap view.logs,
      Quiet me markets log := by
    intro log member
    rcases List.mem_flatMap.mp member with ⟨block, inside, listed⟩
    rw [List.mem_range'_1] at inside
    exact quiet block (by omega) (by omega) log listed
  have quietPart :
      ∀ (chosen : TransferLog Address → Bool) (held : StrandedLedger Address),
        held.apply (((List.range' first (middle - first)).flatMap
              view.logs).filter chosen) me markets =
          held := by
    intro chosen held
    apply apply_quiet
    intro log member
    exact early log (List.mem_filter.mp member).1
  unfold fetchAgentTransfers
  rw [blocksOf_split lower upper, List.flatMap_append]
  simp only [List.filter_append, apply_append, quietPart]

theorem mem_outstanding
    {ledger : StrandedLedger Address} {stranded : StrandedFlow Address} :
    stranded ∈ ledger.outstanding ↔ 0 < stranded.amountRaw ∧
        netOf ledger stranded.market stranded.token = stranded.amountRaw := by
  unfold StrandedLedger.outstanding
  rw [List.mem_filterMap]
  constructor
  · rintro ⟨entry, listed, kept⟩
    rw [Option.ite_none_left_eq_some, Option.some.injEq] at kept
    rcases kept with ⟨positive, rfl⟩
    have found : ledger.net.get (entry.1.1, entry.1.2) = some entry.2 :=
      InsertionMap.get_eq_some.mpr listed
    constructor
    · change 0 < entry.2.toNat
      omega
    · change (ledger.net.get (entry.1.1, entry.1.2)).getD 0 = _
      rw [found]
      change entry.2 = (entry.2.toNat : Int)
      omega
  · rintro ⟨positive, net⟩
    change (ledger.net.get (stranded.market, stranded.token)).getD 0 = _ at net
    cases found : ledger.net.get (stranded.market, stranded.token) with
    | none =>
        rw [found] at net
        change (0 : Int) = _ at net
        omega
    | some amount =>
        rw [found] at net
        change amount = _ at net
        subst net
        refine ⟨_, InsertionMap.get_eq_some.mp found, ?_⟩
        rw [if_neg (by omega)]
        rfl

def accounts (flows : List (StrandedFlow Address)) :
    List (Address × Address) :=
  flows.map fun flow => (flow.market, flow.token)

theorem sublist_filterMap
    {Item Kept Key : Type} {choose : Item → Option Kept}
    {key : Item → Key} {keptKey : Kept → Key}
    (same : ∀ item kept, choose item = some kept → keptKey kept = key item)
    (items : List Item) :
    ((items.filterMap choose).map keptKey).Sublist (items.map key) := by
  induction items with
  | nil => exact List.Sublist.refl _
  | cons item rest ih =>
      cases chosen : choose item with
      | none =>
          rw [List.filterMap_cons_none chosen, List.map_cons]
          exact ih.cons _
      | some kept =>
          rw [List.filterMap_cons_some chosen, List.map_cons, List.map_cons,
            same item kept chosen]
          exact ih.cons_cons _

omit [DecidableEq Address] in
theorem nodup_outstanding (ledger : StrandedLedger Address) :
    (accounts ledger.outstanding).Nodup := by
  apply List.Sublist.nodup _ ledger.net.distinct
  apply sublist_filterMap
  intro entry flow kept
  rw [Option.ite_none_left_eq_some, Option.some.injEq] at kept
  rcases kept with ⟨_, rfl⟩
  rfl

omit [DecidableEq Address] in
theorem mem_clampToBalances
    {flows : List (StrandedFlow Address)}
    {balance : Address → Address → Nat} {stranded : StrandedFlow Address} :
    stranded ∈ clampToBalances flows (fun market token =>
          some (balance market token)) ↔
      0 < stranded.amountRaw ∧ ∃ amount,
          ⟨stranded.market, stranded.token, amount⟩ ∈ flows ∧
            stranded.amountRaw =
              min (balance stranded.market stranded.token) amount := by
  unfold clampToBalances
  rw [List.mem_filterMap]
  have smaller : ∀ held amount : Nat,
      (if held < amount then held else amount) = min held amount := by
    intro held amount
    split <;> omega
  simp only [smaller, Option.ite_none_right_eq_some, Option.some.injEq]
  constructor
  · rintro ⟨flow, listed, positive, rfl⟩
    exact ⟨positive, flow.amountRaw, listed, rfl⟩
  · rintro ⟨positive, amount, listed, same⟩
    refine ⟨_, listed, ?_, ?_⟩
    · rw [← same]
      exact positive
    · rw [← same]

omit [DecidableEq Address] in
theorem accounts_clampToBalances
    (flows : List (StrandedFlow Address))
    (balances : Address → Address → Option Nat) :
    (accounts (clampToBalances flows balances)).Sublist (accounts flows) := by
  apply sublist_filterMap
  intro flow capped kept
  split at kept
  · cases kept
    rfl
  · rw [Option.ite_none_right_eq_some] at kept
    rcases kept with ⟨_, same⟩
    cases same
    rfl

end Eris.Markets.Nets
