import Eris.Lending.Protocol

/-!
# The lists of debtors and of entered markets

Every call which changes a debt synchronises the debtor list of its market
afterwards, and every call which can open a position notes the entry first.
So the debtor list holds exactly the accounts which owe, its index is the
one-based inverse, and an account finds every market in which it ever had a
position exactly once.

The views return windows of these lists; consecutive windows enumerate each
debtor exactly once.
-/

namespace Eris.Lending.Participants

open Foundation Foundation.Checked Foundation.IndexedSet Foundation.Paging
  Foundation.Transition Evm.Word Data Contract Execution Protocol

variable {d : Deployment} {ctx : Context} {params : MarketParams}
    {id : Bytes32} {user : Address} {enters : Bool} {s s' : Storage}
    {m m' : Market} {p p' : Position}
    {call : Call} {event : Event} {flow : Flow} {w w' : World}
    {allowed : World → Action → Prop}

/-! ## Debtors -/

/-- The debtor list and its index are inverse and hold who owes. -/
structure Enrolled (s : Storage) : Prop where
  inverse : ∀ id, Inverse (s.borrowers id) (s.borrowerIndex id)
  debtors : ∀ id user,
    user ∈ s.borrowers id ↔ 0 < (s.position id user).borrowShares

theorem enrolled_of_framed
    (frame : Framed id user enters s s' m' p')
    (synced : DebtorsSynced id user s s' (s.position id user) p')
    (enrolled : Enrolled s) :
    Enrolled s' := by
  cases synced with
  | untouched sameDebt borrowers borrowerIndex =>
      constructor
      · intro other
        rw [borrowers, borrowerIndex]
        exact enrolled.inverse other
      · intro other account
        rw [borrowers, enrolled.debtors, frame.position]
        by_cases sameMarket : other = id
        · subst other
          rw [Function.update_self]
          by_cases sameUser : account = user
          · subst account
            rw [Function.update_self, sameDebt]
          · rw [Function.update_of_ne sameUser]
        · rw [Function.update_of_ne sameMarket]
  | synced moved borrowers borrowerIndex =>
      rcases (enrolled.inverse id).setMembership moved with
        ⟨inverse, members⟩
      constructor
      · intro other
        rw [borrowers, borrowerIndex]
        by_cases sameMarket : other = id
        · subst other
          rw [Function.update_self, Function.update_self]
          exact inverse
        · rw [Function.update_of_ne sameMarket,
            Function.update_of_ne sameMarket]
          exact enrolled.inverse other
      · intro other account
        rw [borrowers, frame.position]
        by_cases sameMarket : other = id
        · subst other
          rw [Function.update_self, Function.update_self, members]
          by_cases sameUser : account = user
          · subst account
            rw [Function.update_self, if_pos rfl]
          · rw [Function.update_of_ne sameUser, if_neg sameUser]
            exact enrolled.debtors _ account
        · rw [Function.update_of_ne sameMarket,
            Function.update_of_ne sameMarket]
          exact enrolled.debtors other account

theorem enrolled_of_reached
    (reached : Reached d allowed w) :
    Enrolled w.lending := by
  refine storage_invariant ?_ ?_ ?_ reached
  · constructor
    · intro id
      exact Inverse.empty
    · intro id user
      simp [Storage.empty, Position.zero]
  · intro ctx params s enrolled _ _
    exact ⟨enrolled.inverse, enrolled.debtors⟩
  · intro ctx call event w w' m m' p' flow enrolled _ _ executed
    exact enrolled_of_framed executed.frame executed.debtors enrolled

/-- An account's list holds each market it entered, and nothing twice. -/
structure Noted (s : Storage) : Prop where
  nodup : ∀ user, (s.userMarketIds user).Nodup
  listed : ∀ id user, id ∈ s.userMarketIds user ↔ s.entered id user = true
  positioned : ∀ id user, s.position id user ≠ .zero → s.entered id user = true

theorem zero_of_ledger
    (ledger : LedgerStep ctx id m .zero call event m' p' flow)
    (closed : Call.enters call = false) :
    p' = .zero := by
  cases ledger with
  | supply => cases closed
  | withdraw _ _ _ positionEq =>
      have nothing := (Nat.add_eq_zero_iff.mp positionEq).1
      rw [eq_zero_of_toNat nothing]
      rfl
  | withdrawAll _ positive => exact absurd positive (Nat.lt_irrefl 0)
  | supplyCollateral => cases closed
  | withdrawCollateral _ positive positionEq =>
      have nothing := (Nat.add_eq_zero_iff.mp positionEq).2
      exact absurd nothing positive.ne'
  | borrow => cases closed
  | repay _ _ _ _ positionEq =>
      have nothing := (Nat.add_eq_zero_iff.mp positionEq).1
      rw [eq_zero_of_toNat nothing]
      rfl
  | repayAll _ owes => exact absurd owes (Nat.lt_irrefl 0)
  | liquidate _ _ positive _ _ _ _ _ collateralEq =>
      have nothing := (Nat.add_eq_zero_iff.mp collateralEq).2
      exact absurd nothing positive.ne'

theorem entered_mono
    (frame : Framed id user enters s s' m' p')
    {other : Bytes32} {account : Address}
    (entered : s.entered other account = true) :
    s'.entered other account = true := by
  rw [frame.entered]
  split
  · by_cases sameMarket : other = id
    · subst other
      rw [Function.update_self]
      by_cases sameUser : account = user
      · subst account
        exact Function.update_self _ _ _
      · rw [Function.update_of_ne sameUser]
        exact entered
    · rw [Function.update_of_ne sameMarket]
      exact entered
  · exact entered

theorem noted_of_framed
    (frame : Framed id user enters s s' m' p')
    (opened : p' ≠ .zero → enters = true ∨ s.position id user ≠ .zero)
    (noted : Noted s) :
    Noted s' where
  nodup account := by
    rw [frame.userMarketIds]
    split
    · next fresh =>
        by_cases sameUser : account = user
        · subst account
          rw [Function.update_self]
          refine (noted.nodup user).append (List.nodup_singleton id) ?_
          rw [List.disjoint_singleton, noted.listed]
          exact fresh.2
        · rw [Function.update_of_ne sameUser]
          exact noted.nodup account
    · exact noted.nodup account
  listed other account := by
    rw [frame.userMarketIds, frame.entered]
    by_cases fresh : enters = true ∧ ¬ s.entered id user = true
    · rw [if_pos fresh, if_pos fresh.1]
      by_cases sameUser : account = user
      · subst account
        rw [Function.update_self, List.mem_append, List.mem_singleton,
          noted.listed]
        by_cases sameMarket : other = id
        · subst other
          simp only [Function.update_self, or_true]
        · simp only [Function.update_of_ne sameMarket, sameMarket, or_false]
      · rw [Function.update_of_ne sameUser, noted.listed]
        by_cases sameMarket : other = id
        · subst other
          simp only [Function.update_self, Function.update_of_ne sameUser]
        · simp only [Function.update_of_ne sameMarket]
    · rw [if_neg fresh, noted.listed]
      split
      · next opens =>
          have known : s.entered id user = true :=
            not_not.mp fun unknown => fresh ⟨opens, unknown⟩
          rw [← known, Function.update_eq_self, Function.update_eq_self]
      · rfl
  positioned other account occupied := by
    by_cases isWritten : other = id ∧ account = user
    · rcases isWritten with ⟨rfl, rfl⟩
      rw [frame.position, Function.update_self, Function.update_self]
        at occupied
      rcases opened occupied with enters | before
      · rw [frame.entered, if_pos enters, Function.update_self,
          Function.update_self]
      · exact entered_mono frame (noted.positioned _ _ before)
    · refine entered_mono frame (noted.positioned _ _ ?_)
      rw [frame.position] at occupied
      by_cases sameMarket : other = id
      · subst other
        have otherUser : account ≠ user := fun same =>
          isWritten ⟨rfl, same⟩
        rwa [Function.update_self, Function.update_of_ne otherUser]
          at occupied
      · rwa [Function.update_of_ne sameMarket] at occupied

theorem noted_of_reached
    (reached : Reached d allowed w) :
    Noted w.lending := by
  refine storage_invariant ?_ ?_ ?_ reached
  · refine ⟨fun _ => List.nodup_nil, ?_, ?_⟩
    · intro id user
      simp [Storage.empty]
    · intro id user occupied
      exact absurd rfl occupied
  · intro ctx params s noted _ _
    exact ⟨noted.nodup, noted.listed, noted.positioned⟩
  · intro ctx call event w w' m m' p' flow noted _ _ executed
    refine noted_of_framed executed.frame ?_ noted
    intro occupied
    by_contra closed
    rcases not_or.mp closed with ⟨opensNot, emptyNot⟩
    have ledger := executed.ledger
    rw [not_not.mp emptyNot] at ledger
    exact occupied
      (zero_of_ledger ledger (Bool.eq_false_of_not_eq_true opensNot))

theorem entered_of_runs
    (run : (lending d).Runs allowed w w')
    (entered : w.lending.entered id user = true) :
    w'.lending.entered id user = true := by
  induction run with
  | refl => exact entered
  | tail _ move ih =>
      rcases move with ⟨action, _, step⟩
      cases step_effect step with
      | created => exact ih
      | performed _ _ executed =>
          exact entered_mono executed.frame ih
      | token => exact ih

/-! ## Pages -/

/-- What a page of debtors contains: a window, and each one's debt. -/
structure DebtorPage
    (d : Deployment) (view : Context) (params : MarketParams)
    (start limit : Nat) (s : Storage) (result : BorrowerPage) : Prop where
  borrowers : result.borrowers = page (s.borrowers (d.idOf params)) start limit
  borrowAssets : List.Forall₂
      (fun user amount => borrowAssetsOf d view params user s = .ok amount)
      result.borrowers result.borrowAssets
  collateral : result.collateral = result.borrowers.map fun user =>
        widen (s.position (d.idOf params) user).collateral
  total : result.total = (s.borrowers (d.idOf params)).length

section Pages

variable {view : Context} {start limit : Nat} {result : BorrowerPage}

theorem debtorPage_of_ok
    (returned :
      borrowerPositionsFrom d view params start limit s = .ok result) :
    DebtorPage d view params start limit s result := by
  rw [borrowerPositionsFrom] at returned
  dsimp only at returned
  split at returned
  · next outside =>
      rw [← pure_eq_ok.mp returned]
      exact ⟨(page_of_length_le _ limit outside).symm, .nil, rfl, rfl⟩
  · simp only [bind_eq_ok, pure_eq_ok, page_clamped] at returned
    rcases returned with ⟨totals, totalsOk, amounts, amountsOk, rfl⟩
    refine ⟨rfl, ?_, rfl, rfl⟩
    refine (mapM_eq_ok.mp amountsOk).imp fun account amount computed => ?_
    rw [borrowAssetsOf, totalsOk, ok_bind]
    exact computed

theorem exists_debtorPage
    (computable : ∀ user ∈ s.borrowers (d.idOf params),
      ∃ amount, borrowAssetsOf d view params user s = .ok amount)
    (start limit : Nat) :
    ∃ result,
      borrowerPositionsFrom d view params start limit s = .ok result := by
  rw [borrowerPositionsFrom]
  dsimp only
  split
  · exact ⟨_, rfl⟩
  · next inside =>
      have someone : (s.borrowers (d.idOf params))[start]? ≠ none := by
        rw [ne_eq, List.getElem?_eq_none_iff]
        exact inside
      rcases Option.ne_none_iff_exists'.mp someone with ⟨first, found⟩
      rcases computable first (List.mem_of_getElem? found) with
        ⟨amount, computed⟩
      simp only [borrowAssetsOf, bind_eq_ok] at computed
      rcases computed with ⟨totals, totalsOk, _⟩
      have each : ∀ account ∈ page (s.borrowers (d.idOf params)) start limit,
          ∃ amount, toAssetsUp
                (widen (s.position (d.idOf params) account).borrowShares)
                totals.2
                (widen (s.market (d.idOf params)).totalBorrowShares) =
              .ok amount := by
        intro account member
        rcases computable account
          (List.mem_of_mem_drop (List.mem_of_mem_take member)) with
          ⟨amount, computed⟩
        refine ⟨amount, ?_⟩
        rwa [borrowAssetsOf, totalsOk, ok_bind] at computed
      rcases exists_mapM_eq_ok each with ⟨amounts, amountsOk⟩
      rw [totalsOk, ok_bind, page_clamped, amountsOk]
      exact ⟨_, rfl⟩

theorem flatMap_borrowers
    {pages : Nat → BorrowerPage} {count : Nat}
    (returned : ∀ number < count,
      borrowerPositionsFrom d view params (number * limit) limit s =
        .ok (pages number))
    (enough : (s.borrowers (d.idOf params)).length ≤ count * limit) :
    ((List.range count).flatMap fun number => (pages number).borrowers) =
      s.borrowers (d.idOf params) := by
  rw [← flatMap_page (s.borrowers (d.idOf params)) limit count enough]
  apply List.flatMap_congr
  intro number inside
  exact (debtorPage_of_ok (returned number (List.mem_range.mp inside))).borrowers

end Pages

/-- What the lists of a state say, and what the pages of the views show. -/
structure Accounted (d : Deployment) (w : World) : Prop where
  debtors : ∀ id user, user ∈ w.lending.borrowers id ↔
      0 < (w.lending.position id user).borrowShares
  nodup : ∀ id, (w.lending.borrowers id).Nodup
  index : ∀ id user place, w.lending.borrowerIndex id user = place + 1 ↔
      (w.lending.borrowers id)[place]? = some user
  absent : ∀ id user,
    user ∉ w.lending.borrowers id → w.lending.borrowerIndex id user = 0
  participated : ∀ earlier, Reached d anything earlier →
    (lending d).Runs anything earlier w →
      ∀ id user, earlier.lending.position id user ≠ .zero →
        (w.lending.userMarketIds user).count id = 1
  entries : ∀ user, (w.lending.userMarketIds user).Nodup
  window : ∀ view params start limit result,
    borrowerPositionsFrom d view params start limit w.lending = .ok result →
      DebtorPage d view params start limit w.lending result
  returns : ∀ view params,
    (∀ user, 0 < (w.lending.position (d.idOf params) user).borrowShares →
      ∃ amount, borrowAssetsOf d view params user w.lending = .ok amount) →
    ∀ start limit, ∃ result,
      borrowerPositionsFrom d view params start limit w.lending = .ok result
  enumerates : ∀ view params limit count (pages : Nat → BorrowerPage),
    (w.lending.borrowers (d.idOf params)).length ≤ count * limit →
    (∀ number < count,
      borrowerPositionsFrom d view params (number * limit) limit w.lending =
        .ok (pages number)) →
    ∀ user, ((List.range count).flatMap
          fun number => (pages number).borrowers).count user =
        if 0 < (w.lending.position (d.idOf params) user).borrowShares
        then 1 else 0

theorem accounted_of_reached (reached : Reached d anything w) :
    Accounted d w := by
  have enrolled := enrolled_of_reached reached
  have noted := noted_of_reached reached
  have nodup := fun id => (enrolled.inverse id).nodup
  refine
    { debtors := enrolled.debtors
      nodup := nodup
      index := enrolled.inverse
      absent := ?_
      participated := ?_
      entries := noted.nodup
      window := fun _ _ _ _ _ => debtorPage_of_ok
      returns := ?_
      enumerates := ?_ }
  · intro id user missing
    by_contra placed
    exact missing (((enrolled.inverse id).mem_iff user).mpr placed)
  · intro earlier earlierReached run id user occupied
    have entered := entered_of_runs run
        ((noted_of_reached earlierReached).positioned id user occupied)
    exact List.count_eq_one_of_mem (noted.nodup user)
      ((noted.listed id user).mpr entered)
  · intro view params computable
    apply exists_debtorPage
    intro user member
    exact computable user ((enrolled.debtors _ user).mp member)
  · intro view params limit count pages enough returned user
    rw [flatMap_borrowers returned enough, (nodup _).count]
    simp only [enrolled.debtors]

theorem accounted_after_lentOut :
    ∃ w, script solo anything lentOut soloWorld = some w ∧
      w.lending.borrowers 7 = [11] ∧ Accounted solo w := by
  have ran : (script solo anything lentOut soloWorld).map
      (fun w => w.lending.borrowers 7) = some [11] := by
    decide +kernel
  rcases Option.map_eq_some_iff.mp ran with ⟨w, reaches, listed⟩
  exact ⟨w, reaches, listed,
    accounted_of_reached (solo_reached lentOut_admissible reaches)⟩

end Eris.Lending.Participants
