import Eris.Foundation.InsertionMap
import Eris.Gmx.Keeper

/-!
# What a plan does with its orders

Each order of a pass has one outcome: it is held back, refused, gone, or sent
to execution.  Those sent were read in the pass, are few, touch different
positions, and passed the check of the cap where there is one to make.
-/

namespace Eris.Gmx.Planning

open Foundation Leverage Keeper

variable
    {Address Key : Type} [DecidableEq Address] [DecidableEq Key] [Zero Address]
    {view : PassView Address Key} {keeper : GmxKeeper Address Key}
    {props : Except String (Address → Option (MarketProps Address))}
    {plan : Planning Address Key}

/-! ## One outcome -/

/-- How often a plan has decided on an order. -/
def outcomes (plan : Planning Address Key) (key : Key) : Nat :=
  plan.deferred.count key + (plan.refused.map GmxKeeperRefusal.key).count key +
    plan.gone.count key +
    (plan.execute.map GmxKeeperReadOrder.key).count key

/-- How often an order is among those still to be decided on. -/
def undecided (plan : Planning Address Key) (key : Key) : Nat :=
  (plan.live.map GmxKeeperReadOrder.key).count key

omit [DecidableEq Address] [Zero Address] in
theorem outcomes_report
    (plan : Planning Address Key) (refusal : GmxKeeperRefusal Address Key)
    (key : Key) :
    outcomes (plan.report refusal) key =
      outcomes plan key + [refusal.key].count key := by
  simp only [outcomes, Planning.report, List.map_append, List.count_append,
    List.map_singleton]
  omega

omit [DecidableEq Address] [Zero Address] in
theorem readFailed_cases
    (plan : Planning Address Key) (failed : Key)
    (order : GmxKeeperOrder Address) (what : ReadTarget) (error : String) :
    (GMX_KEEPER_READ_ATTEMPTS ≤ plan.failures failed + 1 ∧
      plan.readFailed failed order what error = plan.report
          ⟨failed, order, .unread what (plan.failures failed + 1) error⟩) ∨
    (plan.failures failed + 1 < GMX_KEEPER_READ_ATTEMPTS ∧
      plan.readFailed failed order what error = { plan with
          failures :=
            Function.update plan.failures failed (plan.failures failed + 1)
          deferred := plan.deferred ++ [failed]
          retries := plan.retries ++
              [⟨failed, plan.failures failed + 1, GMX_KEEPER_READ_ATTEMPTS,
                what, error⟩] }) := by
  by_cases last : GMX_KEEPER_READ_ATTEMPTS ≤ plan.failures failed + 1
  · exact .inl ⟨last, if_pos last⟩
  · exact .inr ⟨not_le.mp last, if_neg last⟩

omit [DecidableEq Address] [Zero Address] in
theorem outcomes_readFailed
    (plan : Planning Address Key) (failed : Key)
    (order : GmxKeeperOrder Address) (what : ReadTarget) (error : String)
    (key : Key) :
    outcomes (plan.readFailed failed order what error) key =
      outcomes plan key + [failed].count key := by
  rcases readFailed_cases plan failed order what error with
    ⟨_, refused⟩ | ⟨_, waits⟩
  · rw [refused]
    exact outcomes_report plan _ key
  · rw [waits]
    simp only [outcomes, List.count_append]
    omega

omit [DecidableEq Address] [Zero Address] in
theorem live_readFailed
    (plan : Planning Address Key) (failed : Key)
    (order : GmxKeeperOrder Address) (what : ReadTarget) (error : String) :
    (plan.readFailed failed order what error).live = plan.live ∧
      (plan.readFailed failed order what error).execute = plan.execute ∧
      (plan.readFailed failed order what error).touched = plan.touched := by
  rcases readFailed_cases plan failed order what error with
    ⟨_, refused⟩ | ⟨_, waits⟩
  · rw [refused]
    exact ⟨rfl, rfl, rfl⟩
  · rw [waits]
    exact ⟨rfl, rfl, rfl⟩

theorem outcomes_reads
    (plan : Planning Address Key) (read key : Key) :
    outcomes (plan.reads view read) key + undecided (plan.reads view read) key =
      outcomes plan key + undecided plan key + [read].count key := by
  unfold Planning.reads
  split
  · unfold undecided
    rw [outcomes_readFailed, (live_readFailed _ _ _ _ _).1]
    omega
  · split
    · simp only [outcomes, undecided, List.count_append]
      omega
    · split
      · rw [outcomes_report]
        simp only [undecided, Planning.report]
        omega
      · simp only [outcomes, undecided, List.map_append, List.count_append,
          List.map_singleton]
        change _ + (_ + [read].count key) = _
        omega

theorem outcomes_reads_all
    (keys : List Key) (plan : Planning Address Key) (key : Key) :
    outcomes (keys.foldl (Planning.reads view) plan) key +
        undecided (keys.foldl (Planning.reads view) plan) key =
      outcomes plan key + undecided plan key + keys.count key := by
  induction keys generalizing plan with
  | nil => rfl
  | cons read rest ih =>
      have first := @outcomes_reads _ _ _ _ _ view plan read key
      have split : (read :: rest).count key =
          [read].count key + rest.count key := by
        rw [← List.count_append]
        rfl
      rw [List.foldl_cons, ih, first, split]
      omega

omit [Zero Address] in
theorem outcomes_decides
    (plan : Planning Address Key) (order : GmxKeeperReadOrder Address Key)
    (key : Key) :
    outcomes (plan.decides view props order) key =
      outcomes plan key + [order.key].count key := by
  have sent : outcomes (plan.sends order) key =
      outcomes plan key + [order.key].count key := by
    simp only [outcomes, Planning.sends, List.map_append, List.count_append,
      List.map_singleton]
    omega
  unfold Planning.decides
  split
  · simp only [outcomes, List.count_append]
    omega
  · split
    · simp only [outcomes, List.count_append]
      omega
    · split
      · split
        · exact outcomes_readFailed plan _ _ _ _ key
        · split
          · exact outcomes_report plan _ key
          · exact sent
      · exact sent

omit [Zero Address] in
theorem outcomes_decides_all
    (orders : List (GmxKeeperReadOrder Address Key))
    (plan : Planning Address Key) (key : Key) :
    outcomes (orders.foldl (Planning.decides view props) plan) key =
      outcomes plan key + (orders.map GmxKeeperReadOrder.key).count key := by
  induction orders generalizing plan with
  | nil => rfl
  | cons order rest ih =>
      have first := @outcomes_decides _ _ _ _ view props plan order key
      have split : ((order :: rest).map GmxKeeperReadOrder.key).count key =
          [order.key].count key +
            (rest.map GmxKeeperReadOrder.key).count key := by
        rw [← List.count_append]
        rfl
      rw [List.foldl_cons, ih, first, split]
      omega

theorem outcomes_keeperOrderPlan (keys : List Key) (key : Key) :
    outcomes (keeperOrderPlan view keeper keys) key = keys.count key := by
  have read := @outcomes_reads_all _ _ _ _ _ view keys
      (Planning.opened keeper.keeperReadFailures) key
  change _ = 0 + _ at read
  unfold keeperOrderPlan readOrders
  rw [outcomes_decides_all]
  unfold undecided at read
  omega

/-! ## What is sent -/

/-- An order was read in the pass, and is none the keeper refuses. -/
def ReadIn
    (view : PassView Address Key) (order : GmxKeeperReadOrder Address Key) :
    Prop :=
  ∃ answer, view.order order.key = .ok answer ∧
      order = readOrderOf order.key answer ∧
      answer.account ≠ 0 ∧
      gmxKeeperRefusal order.order = none ∧
      gmxKeeperSwapPathRefusal order = none

/-- The check of the cap was made, at the prices of the pass, and passed. -/
def CapPassed
    (view : PassView Address Key)
    (props : Except String (Address → Option (MarketProps Address)))
    (order : GmxKeeperReadOrder Address Key) : Prop :=
  ∃ cap, capCheck view props order = .ok cap ∧
      WithinLine cap.own ∧ WithinLine cap.use

theorem keeperCapRefusal_eq_none {cap : GmxKeeperCapCheckDone} :
    keeperCapRefusal cap = none ↔ WithinLine cap.own ∧ WithinLine cap.use := by
  unfold keeperCapRefusal
  rw [Option.or_eq_none_iff, gmxCapRefusal_eq_none, gmxCapRefusal_eq_none]

theorem readIn_reads
    (sound : ∀ order ∈ plan.live, ReadIn view order) (read : Key) :
    ∀ order ∈ (plan.reads view read).live, ReadIn view order := by
  unfold Planning.reads
  split
  · rw [(live_readFailed _ _ _ _ _).1]
    exact sound
  · next answer found =>
      split
      · exact sound
      · next present =>
          split
          · exact sound
          · next permitted =>
              rcases Option.or_eq_none_iff.mp permitted with ⟨kept, direct⟩
              intro order member
              rcases List.mem_append.mp member with earlier | latest
              · exact sound order earlier
              · rw [List.mem_singleton.mp latest]
                exact ⟨answer, found, rfl, present, kept, direct⟩

theorem readIn_readOrders (keys : List Key) :
    ∀ order ∈ (readOrders view keeper keys).live, ReadIn view order := by
  unfold readOrders
  have all : ∀ (keys : List Key) (plan : Planning Address Key),
      (∀ order ∈ plan.live, ReadIn view order) →
        ∀ order ∈ (keys.foldl (Planning.reads view) plan).live,
          ReadIn view order := by
    intro keys
    induction keys with
    | nil =>
        intro plan sound
        exact sound
    | cons read rest ih =>
        intro plan sound
        exact ih _ (readIn_reads sound read)
  apply all
  intro order member
  cases member

/-- What holds of the orders a plan sends. -/
structure Sendable
    (view : PassView Address Key)
    (props : Except String (Address → Option (MarketProps Address)))
    (plan : Planning Address Key) : Prop where
  few : plan.execute.length ≤ MAX_ORDER_FILLS_PER_BLOCK
  touched : plan.touched = plan.execute.filterMap positionOf
  apart : plan.touched.Nodup
  checked : ∀ order ∈ plan.execute,
      needsCapCheck order = true → CapPassed view props order
  read : ∀ order ∈ plan.execute, ReadIn view order

theorem Sendable.sends
    (sendable : Sendable view props plan)
    {order : GmxKeeperReadOrder Address Key}
    (room : ¬MAX_ORDER_FILLS_PER_BLOCK ≤ plan.execute.length)
    (free : ¬∃ position ∈ positionOf order, position ∈ plan.touched)
    (passed : needsCapCheck order = true → CapPassed view props order)
    (read : ReadIn view order) :
    Sendable view props (plan.sends order) := by
  have member : ∀ other ∈ (plan.sends order).execute,
      other ∈ plan.execute ∨ other = order := by
    intro other listed
    rcases List.mem_append.mp listed with earlier | latest
    · exact .inl earlier
    · exact .inr (List.mem_singleton.mp latest)
  constructor
  · change (plan.execute ++ [order]).length ≤ _
    rw [List.length_append, List.length_singleton]
    omega
  · change plan.touched ++ (positionOf order).toList =
      (plan.execute ++ [order]).filterMap positionOf
    rw [List.filterMap_append, sendable.touched]
    cases found : positionOf order with
    | none =>
        rw [List.filterMap_cons_none found]
        rfl
    | some position =>
        rw [List.filterMap_cons_some found]
        rfl
  · change (plan.touched ++ (positionOf order).toList).Nodup
    apply List.Nodup.append sendable.apart
    · cases positionOf order with
      | none => exact List.nodup_nil
      | some position => exact List.nodup_singleton position
    · intro position before latest
      exact free ⟨position, Option.mem_toList.mp latest, before⟩
  · intro other listed needed
    rcases member other listed with earlier | rfl
    · exact sendable.checked other earlier needed
    · exact passed needed
  · intro other listed
    rcases member other listed with earlier | rfl
    · exact sendable.read other earlier
    · exact read

omit [DecidableEq Key] in
theorem Sendable.same
    {next : Planning Address Key} (sendable : Sendable view props plan)
    (execute : next.execute = plan.execute)
    (touched : next.touched = plan.touched) :
    Sendable view props next := by
  rcases sendable with ⟨few, positions, apart, checked, read⟩
  rw [← execute] at few checked read
  rw [← touched, ← execute] at positions
  rw [← touched] at apart
  exact ⟨few, positions, apart, checked, read⟩

theorem Sendable.decides
    (sendable : Sendable view props plan)
    {order : GmxKeeperReadOrder Address Key} (read : ReadIn view order) :
    Sendable view props (plan.decides view props order) := by
  unfold Planning.decides
  split
  · exact sendable.same rfl rfl
  · next room =>
      split
      · exact sendable.same rfl rfl
      · next free =>
          split
          · split
            · exact sendable.same (live_readFailed _ _ _ _ _).2.1
                (live_readFailed _ _ _ _ _).2.2
            · next cap checked =>
                split
                · exact sendable.same rfl rfl
                · next permitted =>
                    apply sendable.sends room free _ read
                    intro _
                    exact ⟨cap, checked, keeperCapRefusal_eq_none.mp permitted⟩
          · next unchecked =>
              apply sendable.sends room free _ read
              intro needed
              exact absurd needed unchecked

theorem Sendable.decides_all
    {orders : List (GmxKeeperReadOrder Address Key)}
    (sendable : Sendable view props plan)
    (read : ∀ order ∈ orders, ReadIn view order) :
    Sendable view props (orders.foldl (Planning.decides view props) plan) := by
  induction orders generalizing plan with
  | nil => exact sendable
  | cons order rest ih =>
      apply ih
      · exact sendable.decides (read order List.mem_cons_self)
      · intro other listed
        exact read other (List.mem_cons_of_mem _ listed)

theorem execute_reads
    (plan : Planning Address Key) (read : Key) :
    (plan.reads view read).execute = plan.execute ∧
      (plan.reads view read).touched = plan.touched := by
  unfold Planning.reads
  split
  · exact (live_readFailed _ _ _ _ _).2
  · split
    · exact ⟨rfl, rfl⟩
    · split <;> exact ⟨rfl, rfl⟩

theorem execute_readOrders (keys : List Key) :
    (readOrders view keeper keys).execute = [] ∧
      (readOrders view keeper keys).touched = [] := by
  have all : ∀ (keys : List Key) (plan : Planning Address Key),
      (keys.foldl (Planning.reads view) plan).execute = plan.execute ∧
        (keys.foldl (Planning.reads view) plan).touched = plan.touched := by
    intro keys
    induction keys with
    | nil =>
        intro plan
        exact ⟨rfl, rfl⟩
    | cons read rest ih =>
        intro plan
        rcases @execute_reads _ _ _ _ _ view plan read with
          ⟨execute, touched⟩
        rw [List.foldl_cons, (ih _).1, (ih _).2]
        exact ⟨execute, touched⟩
  exact all keys _

theorem sendable_keeperOrderPlan (keys : List Key) :
    Sendable view (capProps view keeper (readOrders view keeper keys).live).1
      (keeperOrderPlan view keeper keys) := by
  rcases @execute_readOrders _ _ _ _ _ view keeper keys with
    ⟨execute, touched⟩
  apply Sendable.decides_all
  · constructor
    · rw [execute]
      exact Nat.zero_le _
    · rw [execute, touched]
      rfl
    · rw [touched]
      exact List.nodup_nil
    · rw [execute]
      exact fun _ listed => nomatch listed
    · rw [execute]
      exact fun _ listed => nomatch listed
  · exact readIn_readOrders keys

end Eris.Gmx.Planning
