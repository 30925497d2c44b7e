import Eris.Foundation.ServiceQueue
import Eris.Vault.Solvency

/-!
# The exit queue

While the throughput stays fixed, each request is finalized at least the time
its own size needs after the request before it, whatever happens to the base
delay.  And the log accounts for every payment: a request is paid at most
once, to its owner, not before its time, and exactly what it was granted.
-/

namespace Eris.Vault.ExitQueue

open Foundation Foundation.Checked Foundation.ServiceQueue Foundation.Transition
  Evm.Word Evm.Erc20 Data Contract Operations Protocol Solvency

variable {d : Deployment} {ctx : Context} {w w' : World} {s : Storage}
    {operation : Operation} {throughput : U256} {first : Nat}
    {requests : List WithdrawalRequest} {requestId : Nat}

/-! ## Booking the queue -/

/-- A measure of the request at a position; nothing is there past the end. -/
def measured
    (measure : WithdrawalRequest → Nat)
    (requests : List WithdrawalRequest) (requestId : Nat) : Nat :=
  requests[requestId]?.elim 0 measure

/-- The block at which a request can be claimed. -/
def finalAt (requests : List WithdrawalRequest) : Nat → Nat :=
  measured (fun request => request.claimableAt.toNat) requests

def sizeOf (requests : List WithdrawalRequest) : Nat → Nat :=
  measured (fun request => request.assets.toNat) requests

theorem measured_eq
    {measure : WithdrawalRequest → Nat} {request : WithdrawalRequest}
    (found : requests[requestId]? = some request) :
    measured measure requests requestId = measure request := by
  rw [measured, found, Option.elim_some]

theorem measured_append
    (measure : WithdrawalRequest → Nat) (request : WithdrawalRequest)
    (inside : requestId < requests.length) :
    measured measure (requests ++ [request]) requestId =
      measured measure requests requestId := by
  rw [measured, List.getElem?_append_left inside]
  rfl

theorem measured_last
    (measure : WithdrawalRequest → Nat)
    (requests : List WithdrawalRequest) (request : WithdrawalRequest) :
    measured measure (requests ++ [request]) requests.length =
      measure request := by
  rw [measured, List.getElem?_concat_length, Option.elim_some]

theorem measured_set
    {measure : WithdrawalRequest → Nat} {request changed : WithdrawalRequest}
    (found : requests[requestId]? = some request)
    (same : measure changed = measure request) :
    measured measure (requests.set requestId changed) =
      measured measure requests := by
  funext other
  by_cases here : requestId = other
  · subst other
    rw [measured_eq found, measured,
      List.getElem?_set_self (List.getElem?_eq_some_iff.mp found).1,
      Option.elim_some, same]
  · rw [measured, List.getElem?_set_ne here]
    rfl

theorem finalAt_claim
    {request : WithdrawalRequest}
    (found : requests[requestId]? = some request) :
    finalAt (requests.set requestId { request with claimed := true }) =
      finalAt requests := by
  apply measured_set found
  rfl

theorem sizeOf_claim
    {request : WithdrawalRequest}
    (found : requests[requestId]? = some request) :
    sizeOf (requests.set requestId { request with claimed := true }) =
      sizeOf requests := by
  apply measured_set found
  rfl

theorem estimateClaimableAt_ok
    {assets claimableAt : U256}
    (limited : 0 < s.queueThroughputWeiPerBlock.toNat)
    (done : estimateClaimableAt ctx assets s = .ok claimableAt) :
    s.queueDrainBlock.toNat +
        serviceTime assets.toNat s.queueThroughputWeiPerBlock.toNat ≤
      claimableAt.toNat := by
  have nonzero := (toNat_pos_iff _).mp limited
  simp only [estimateClaimableAt, bind_eq_ok] at done
  rcases done with ⟨floorBlock, _, done⟩
  rw [if_neg nonzero] at done
  simp only [bind_eq_ok, checkedAdd_eq_ok, checkedSub_eq_ok,
    checkedDiv_eq_ok] at done
  rcases done with
    ⟨sum, sumEq, padded, paddedEq, service, ⟨_, serviceEq⟩, claimEq⟩
  have one : (1 : U256).toNat = 1 := rfl
  have served : service.toNat =
      serviceTime assets.toNat s.queueThroughputWeiPerBlock.toNat := by
    rw [← serviceEq, serviceTime, sumEq, ← paddedEq, one, Nat.add_sub_cancel]
  rw [← claimEq, served]
  apply Nat.add_le_add_right
  split
  · exact le_refl _
  · next later => exact Nat.le_of_not_lt fun less => later (BitVec.lt_def.mpr less)

/-- The requests from `first` on were made at a fixed throughput. -/
structure Booked
    (throughput : U256) (first : Nat) (s : Storage) : Prop where
  fixed : s.queueThroughputWeiPerBlock = throughput
  started : first ≤ s.withdrawalRequests.length
  drained : first < s.withdrawalRequests.length → s.queueDrainBlock.toNat =
      finalAt s.withdrawalRequests (s.withdrawalRequests.length - 1)
  spaced : Spaced (finalAt s.withdrawalRequests) (sizeOf s.withdrawalRequests)
      throughput.toNat first (s.withdrawalRequests.length - 1)

/-- No setter changes the throughput to another value. -/
def KeepsThroughput (throughput : U256) (_ : World) : Action → Prop
  | .call _ (.setQueueThroughput value) => value = throughput
  | _ => True

instance (w : World) (action : Action) :
    Decidable (KeepsThroughput throughput w action) := by
  unfold KeepsThroughput
  split <;> infer_instance

def KeepsThroughputLabel
    (throughput : U256) (_ : World) (label : Label) : Prop :=
  ∀ ctx value,
    label = .operation ctx (.setQueueThroughput value) → value = throughput

theorem setQueueThroughput_of_performs
    {call : Call} {value : U256}
    (performs : Call.performs ctx call (.setQueueThroughput value)) :
    call = .setQueueThroughput value := by
  cases call with
  | setQueueThroughput =>
      cases performs
      rfl
  | _ => simp [Call.performs, Operation.accrues] at performs

theorem covers_keepsThroughput :
    Covers (KeepsThroughput throughput) (KeepsThroughputLabel throughput) := by
  constructor
  · intro world inside ctx call operation keeps performs other value equal
    cases equal
    rw [setQueueThroughput_of_performs performs] at keeps
    exact keeps
  · intro world caller call _ ctx value equal
    cases equal

theorem booked_of_request
    {request : WithdrawalRequest} (positive : 0 < throughput.toNat)
    (booked : Booked throughput first s)
    (estimated :
      estimateClaimableAt ctx request.assets s = .ok request.claimableAt) :
    Spaced (finalAt (s.withdrawalRequests ++ [request]))
      (sizeOf (s.withdrawalRequests ++ [request])) throughput.toNat first
      s.withdrawalRequests.length := by
  intro job afterFirst beforeLast
  rcases Nat.lt_or_eq_of_le beforeLast with earlier | last
  · have spaced := booked.spaced job afterFirst (Nat.le_sub_one_of_lt earlier)
    rw [finalAt, sizeOf, measured_append _ _ (Nat.lt_of_succ_lt earlier),
      measured_append _ _ earlier, measured_append _ _ earlier]
    exact spaced
  · have inside : job < s.withdrawalRequests.length := Nat.lt_of_succ_le last.le
    have drained := booked.drained (lt_of_le_of_lt afterFirst inside)
    have limited : 0 < s.queueThroughputWeiPerBlock.toNat := by
      rw [booked.fixed]
      exact positive
    have claimable := estimateClaimableAt_ok limited estimated
    rw [booked.fixed, drained, ← last, Nat.add_sub_cancel] at claimable
    rw [finalAt, sizeOf, measured_append _ _ inside, last, measured_last,
      measured_last]
    exact claimable

theorem booked_of_operated
    (positive : 0 < throughput.toNat)
    (keeps :
      ∀ value, operation = .setQueueThroughput value → value = throughput)
    (booked : Booked throughput first w.vault)
    (operated : Operated d ctx w operation w') :
    Booked throughput first w'.vault := by
  cases operated with
  | @request shares assets claimableAt pooled pending supply balance open_
      drain priced some burned taken owed counted estimated drained =>
      have limited : 0 < w.vault.queueThroughputWeiPerBlock := by
        rw [BitVec.lt_def, booked.fixed]
        exact positive
      constructor
      · exact booked.fixed
      · simp only [List.length_append, List.length_singleton]
        exact Nat.le_succ_of_le booked.started
      · intro _
        simp only [List.length_append, List.length_singleton,
          Nat.add_sub_cancel]
        rw [finalAt, measured_last, drained, if_pos limited]
      · simp only [List.length_append, List.length_singleton,
          Nat.add_sub_cancel]
        exact booked_of_request positive booked estimated
  | claim found own unclaimed final settled counted paid =>
      constructor
      · exact booked.fixed
      · simp only [List.length_set]
        exact booked.started
      · simp only [List.length_set, finalAt_claim found]
        exact booked.drained
      · simp only [List.length_set, finalAt_claim found, sizeOf_claim found]
        exact booked.spaced
  | setQueueThroughput =>
      exact ⟨keeps _ rfl, booked.started, booked.drained, booked.spaced⟩
  | _ => exact ⟨booked.fixed, booked.started, booked.drained, booked.spaced⟩

theorem booked_of_runs
    (positive : 0 < throughput.toNat) (booked : Booked throughput first w.vault)
    (run : (ledger d).Runs (KeepsThroughputLabel throughput) w w') :
    Booked throughput first w'.vault := by
  show (Booked throughput first ∘ World.vault) w'
  refine System.Runs.invariant ?_ run booked
  intro world label next holds keeps step
  cases label with
  | weth caller call =>
      rcases step with ⟨_, books, _, rfl⟩
      exact holds
  | operation ctx operation =>
      apply booked_of_operated positive ?_ holds step.2
      rintro value rfl
      exact keeps ctx value rfl

/-! ## The log of requests and claims -/

/-- The event of a request at this position. -/
def enters (requestId : Nat) : Event → Bool
  | .withdrawalRequested _ other _ _ _ => decide (other = requestId)
  | _ => false

/-- The event of a claim of the request at this position. -/
def claims (requestId : Nat) : Event → Bool
  | .withdrawalClaimed _ other _ => decide (other = requestId)
  | _ => false

def occurrences (test : Event → Bool) (log : List Entry) : Nat :=
  log.countP fun entry => test entry.event

theorem occurrences_logged
    (test : Event → Bool) (ctx : Context) (w : World) (events : List Event) :
    occurrences test (logged ctx w events) =
      occurrences test w.log + events.countP test := by
  rw [occurrences, logged, List.countP_append, List.countP_map]
  rfl

/-- The log tells of every request once, and of every claim at most once. -/
structure Honest (requests : List WithdrawalRequest) (log : List Entry) :
    Prop where
  entered : ∀ requestId, occurrences (enters requestId) log =
      if requestId < requests.length then 1 else 0
  granted : ∀ requestId request, requests[requestId]? = some request →
    ∃ entry ∈ log, entry.event =
      .withdrawalRequested request.owner requestId request.shares
        request.assets request.claimableAt
  claimed : ∀ requestId, occurrences (claims requestId) log =
      measured (fun request => if request.claimed then 1 else 0) requests
        requestId
  paid : ∀ entry ∈ log, ∀ owner requestId assets,
    entry.event = .withdrawalClaimed owner requestId assets →
      ∃ request, requests[requestId]? = some request ∧
        request.owner = owner ∧ request.assets = assets ∧
          request.claimableAt ≤ entry.blockNumber

/-- An event which is neither a request nor a claim. -/
def Aside (event : Event) : Prop :=
  (∀ requestId, enters requestId event = false) ∧
    ∀ requestId, claims requestId event = false

theorem mem_logged
    {entry : Entry} {events : List Event}
    (member : entry ∈ logged ctx w events) :
    entry ∈ w.log ∨
      entry.event ∈ events ∧ entry.blockNumber = ctx.blockNumber := by
  rcases List.mem_append.mp member with earlier | now
  · exact .inl earlier
  · rcases List.mem_map.mp now with ⟨event, listed, rfl⟩
    exact .inr ⟨listed, rfl⟩

theorem Honest.aside
    {events : List Event} (honest : Honest requests w.log)
    (aside : ∀ event ∈ events, Aside event) :
    Honest requests (logged ctx w events) := by
  have none (test : Event → Bool)
      (quiet : ∀ event ∈ events, test event = false) :
      events.countP test = 0 := by
    rw [List.countP_eq_zero]
    intro event listed holds
    rw [quiet event listed] at holds
    cases holds
  constructor
  · intro requestId
    rw [occurrences_logged,
      none _ fun event listed => (aside event listed).1 requestId]
    exact honest.entered requestId
  · intro requestId request found
    rcases honest.granted requestId request found with
      ⟨entry, member, granted⟩
    exact ⟨entry, List.mem_append_left _ member, granted⟩
  · intro requestId
    rw [occurrences_logged,
      none _ fun event listed => (aside event listed).2 requestId]
    exact honest.claimed requestId
  · intro entry member owner requestId assets paid
    rcases mem_logged member with earlier | ⟨listed, _⟩
    · exact honest.paid entry earlier owner requestId assets paid
    · have quiet := (aside _ listed).2 requestId
      rw [paid] at quiet
      simp [claims] at quiet

theorem Honest.request
    {requests : List WithdrawalRequest} {request : WithdrawalRequest}
    {sender : Address} (honest : Honest requests w.log)
    (unclaimed : request.claimed = false) :
    Honest (requests ++ [request]) (logged ctx w
        [.transfer sender 0 request.shares,
          .withdrawalRequested request.owner requests.length request.shares
            request.assets request.claimableAt]) := by
  constructor
  · intro requestId
    rw [occurrences_logged, honest.entered]
    simp only [List.countP_cons, List.countP_nil, enters,
      List.length_append, List.length_singleton, decide_eq_true_eq,
      Bool.false_eq_true, if_false]
    split_ifs <;> omega
  · intro requestId other found
    rcases Nat.lt_or_ge requestId requests.length with inside | outside
    · rw [List.getElem?_append_left inside] at found
      rcases honest.granted requestId other found with
        ⟨entry, member, granted⟩
      exact ⟨entry, List.mem_append_left _ member, granted⟩
    · have last : requestId = requests.length := by
        have bound := (List.getElem?_eq_some_iff.mp found).1
        simp only [List.length_append, List.length_singleton] at bound
        omega
      subst last
      rw [List.getElem?_concat_length] at found
      cases found
      refine ⟨⟨ctx.blockNumber, _⟩, List.mem_append_right _ ?_, rfl⟩
      exact List.mem_map_of_mem (List.mem_cons_of_mem _ List.mem_cons_self)
  · intro requestId
    rw [occurrences_logged, honest.claimed]
    show _ + 0 = _
    rcases Nat.lt_trichotomy requestId requests.length with
      inside | last | outside
    · rw [measured_append _ _ inside]
      rfl
    · subst last
      rw [measured_last, unclaimed, measured, List.getElem?_eq_none (le_refl _)]
      rfl
    · rw [measured, measured, List.getElem?_eq_none (le_of_lt outside),
        List.getElem?_eq_none]
      · rfl
      · simp only [List.length_append, List.length_singleton]
        exact outside
  · intro entry member owner requestId assets paid
    rcases mem_logged member with earlier | ⟨listed, _⟩
    · rcases honest.paid entry earlier owner requestId assets paid with
        ⟨found, located, facts⟩
      refine ⟨found, ?_, facts⟩
      rw [List.getElem?_append_left (List.getElem?_eq_some_iff.mp located).1]
      exact located
    · rw [paid] at listed
      simp at listed

theorem Honest.claim
    {requests : List WithdrawalRequest} {request : WithdrawalRequest}
    {position : Nat} (honest : Honest requests w.log)
    (found : requests[position]? = some request)
    (unclaimed : request.claimed = false)
    (final : request.claimableAt ≤ ctx.blockNumber) :
    Honest (requests.set position { request with claimed := true })
      (logged ctx w
        [.withdrawalClaimed request.owner position request.assets]) := by
  have inside := (List.getElem?_eq_some_iff.mp found).1
  constructor
  · intro requestId
    rw [occurrences_logged, honest.entered, List.length_set]
    rfl
  · intro requestId other located
    by_cases same : position = requestId
    · subst same
      rw [List.getElem?_set_self inside] at located
      cases located
      rcases honest.granted position request found with
        ⟨entry, member, granted⟩
      exact ⟨entry, List.mem_append_left _ member, granted⟩
    · rw [List.getElem?_set_ne same] at located
      rcases honest.granted requestId other located with
        ⟨entry, member, granted⟩
      exact ⟨entry, List.mem_append_left _ member, granted⟩
  · intro requestId
    rw [occurrences_logged, honest.claimed]
    by_cases same : position = requestId
    · subst same
      rw [measured_eq found, measured, List.getElem?_set_self inside, unclaimed]
      simp [claims]
    · rw [measured, measured, List.getElem?_set_ne same]
      simp [claims, same]
  · intro entry member owner requestId assets paid
    have kept (other : WithdrawalRequest)
        (located : requests[requestId]? = some other) :
        ∃ now, (requests.set position
              { request with claimed := true })[requestId]? = some now ∧
            now.owner = other.owner ∧ now.assets = other.assets ∧
              now.claimableAt = other.claimableAt := by
      by_cases same : position = requestId
      · subst same
        rw [found] at located
        cases located
        rw [List.getElem?_set_self inside]
        exact ⟨_, rfl, rfl, rfl, rfl⟩
      · rw [List.getElem?_set_ne same]
        exact ⟨other, located, rfl, rfl, rfl⟩
    rcases mem_logged member with earlier | ⟨listed, block⟩
    · rcases honest.paid entry earlier owner requestId assets paid with
        ⟨other, located, ownerEq, assetsEq, after⟩
      rcases kept other located with ⟨now, here, owner', assets', time'⟩
      exact
        ⟨now, here, owner'.trans ownerEq, assets'.trans assetsEq, time' ▸ after⟩
    · rw [paid, List.mem_singleton] at listed
      cases listed
      rcases kept request found with ⟨now, here, owner', assets', time'⟩
      refine ⟨now, here, owner', assets', ?_⟩
      rw [time', block]
      exact final

theorem honest_of_operated
    (honest : Honest w.vault.withdrawalRequests w.log)
    (operated : Operated d ctx w operation w') :
    Honest w'.vault.withdrawalRequests w'.log := by
  cases operated with
  | request =>
      exact honest.request rfl
  | claim found own unclaimed final =>
      rw [← own]
      exact honest.claim found unclaimed final
  | tick => exact honest
  | _ =>
      refine honest.aside ?_
      intro event listed
      fin_cases listed <;> exact ⟨fun _ => rfl, fun _ => rfl⟩

theorem honest_of_reachable
    {permitted : World → Label → Prop}
    (reachable : (ledger d).Reachable permitted w) :
    Honest w.vault.withdrawalRequests w.log := by
  refine @books_invariant d permitted w
    (fun s log => Honest s.withdrawalRequests log) ?_ ?_ reachable
  · intro blockNumber
    have quiet (event : Event) (listed : event ∈ d.events) : Aside event := by
      rw [Deployment.events] at listed
      simp only [List.mem_append, List.mem_cons, List.not_mem_nil,
        or_false] at listed
      rcases listed with (first | second) | third | fourth
      · subst first
        exact ⟨fun _ => rfl, fun _ => rfl⟩
      · split at second
        · rw [List.mem_singleton] at second
          subst second
          exact ⟨fun _ => rfl, fun _ => rfl⟩
        · cases second
      · subst third
        exact ⟨fun _ => rfl, fun _ => rfl⟩
      · subst fourth
        exact ⟨fun _ => rfl, fun _ => rfl⟩
    have empty : Honest [] [] := by
      constructor
      · intro requestId
        rfl
      · intro requestId request found
        cases found
      · intro requestId
        rfl
      · intro entry member
        cases member
    show Honest [] (logged ⟨0, blockNumber⟩ { w with log := [] } d.events)
    exact empty.aside quiet
  · intro ctx operation w w' holds _ _ operated
    exact honest_of_operated holds operated

/-! ## Payments -/

/-- The WETH an event pays out to an account. -/
def receivedBy (account : Address) : Event → Nat
  | .withdrawalClaimed owner _ assets =>
      if account = owner then assets.toNat else 0
  | .slashed assets _ => if account = BURN_ADDRESS then assets.toNat else 0
  | _ => 0

/-- The WETH an event takes in from an account. -/
def spentBy (account : Address) : Event → Nat
  | .deposited caller _ assets _ =>
      if account = caller then assets.toNat else 0
  | .rewardsFunded sender assets _ =>
      if account = sender then assets.toNat else 0
  | _ => 0

/-- The log accounts for all WETH between the vault and an account. -/
def Accounted (d : Deployment) (w w' : World) : Prop :=
  ∀ account, account ≠ d.self → (w'.weth.balanceOf account).toNat +
        total (spentBy account) w'.log + total (receivedBy account) w.log =
      (w.weth.balanceOf account).toNat +
        total (spentBy account) w.log + total (receivedBy account) w'.log

theorem accounted_of_operated
    (operated : Operated d ctx w operation w') :
    Accounted d w w' := by
  intro account outside
  cases operated with
  | bootstrap empty enough some given locked minted paid =>
      have moved := paid.moved.balance account
      rw [if_neg outside] at moved
      simp only [total_logged, List.map_cons, List.map_nil, List.sum_cons,
        List.sum_nil, spentBy, receivedBy]
      omega
  | deposit live priced some given minted paid =>
      have moved := paid.moved.balance account
      rw [if_neg outside] at moved
      simp only [total_logged, List.map_cons, List.map_nil, List.sum_cons,
        List.sum_nil, spentBy, receivedBy]
      omega
  | claim found own unclaimed final settled counted paid =>
      have moved := paid.moved.balance account
      rw [if_neg outside] at moved
      simp only [total_logged, List.map_cons, List.map_nil, List.sum_cons,
        List.sum_nil, spentBy, receivedBy]
      omega
  | fund given paid =>
      have moved := paid.moved.balance account
      rw [if_neg outside] at moved
      simp only [total_logged, List.map_cons, List.map_nil, List.sum_cons,
        List.sum_nil, spentBy, receivedBy]
      omega
  | slash entitled partially cut taken paid =>
      have moved := paid.moved.balance account
      rw [if_neg outside] at moved
      simp only [total_logged, List.map_cons, List.map_nil, List.sum_cons,
        List.sum_nil, spentBy, receivedBy]
      omega
  | tick => rfl
  | _ => simp [total_logged, spentBy, receivedBy]

theorem accounted_of_call
    {call : Call} (step : Step d w (.call ctx call) w') :
    Accounted d w w' := by
  have run := (exec_ok step.1 step.2).runs
  refine System.Runs.invariant ?_ run (fun _ _ => rfl)
  intro world label next holds part step account outside
  cases label with
  | weth => exact part.elim
  | operation other operation =>
      have before := holds account outside
      have now := accounted_of_operated step.2 account outside
      omega

/--
From a state with a positive throughput on, as long as it is kept: the
requests are finalized in order, with room for all sizes between them.  And
always, the log is honest and tells of all WETH a call moved.
-/
theorem exitQueue_laws
    {start : World} (reached : Reached d anything start)
    (limited : 0 < start.vault.queueThroughputWeiPerBlock.toNat)
    (run : (vault d).Runs
        (KeepsThroughput start.vault.queueThroughputWeiPerBlock) start w) :
    (∀ i j (earlier later : WithdrawalRequest),
      start.vault.withdrawalRequests.length ≤ i → i < j →
        w.vault.withdrawalRequests[i]? = some earlier →
          w.vault.withdrawalRequests[j]? = some later →
            earlier.claimableAt.toNat ≤ later.claimableAt.toNat ∧
              earlier.claimableAt.toNat + serviceTime (∑ job ∈ Finset.Ioc i j,
                      sizeOf w.vault.withdrawalRequests job)
                    start.vault.queueThroughputWeiPerBlock.toNat ≤
                later.claimableAt.toNat) ∧
      Honest w.vault.withdrawalRequests w.log ∧
        ∀ ctx call w', Step d w (.call ctx call) w' → Accounted d w w' := by
  have booked : Booked start.vault.queueThroughputWeiPerBlock
      start.vault.withdrawalRequests.length start.vault := by
    refine ⟨rfl, le_refl _, fun more => absurd more (lt_irrefl _), ?_⟩
    intro job afterFirst beforeLast
    omega
  have after := booked_of_runs limited booked
      ((refines_ledger covers_keepsThroughput).runs run)
  have reachable : Reached d anything w :=
    reached.extend (run.weaken fun _ _ _ => trivial)
  refine ⟨?_, honest_of_reachable (reached_ledger covers_anything reachable),
    fun ctx call w' => accounted_of_call⟩
  intro i j earlier later made ordered foundEarlier foundLater
  have inside : j ≤ w.vault.withdrawalRequests.length - 1 :=
    Nat.le_sub_one_of_lt (List.getElem?_eq_some_iff.mp foundLater).1
  have apart := after.spaced.completion_add_le limited made ordered.le inside
  have sorted := after.spaced.completion_mono limited made ordered.le inside
  rw [finalAt, measured_eq foundEarlier, measured_eq foundLater]
    at apart sorted
  exact ⟨sorted, apart⟩

/-- A first staker, and an operator limiting the throughput. -/
def throttled : List Action :=
  [.call (inBlock 1 10) (.deposit 1000000000000000 10),
    .call (inBlock 1 5) (.setQueueThroughput 1000)]

/-- Two requests, the delay shortened in between, and a claim. -/
def queued : List Action :=
  [.call (inBlock 2 10) (.requestWithdraw 500000),
    .call (inBlock 3 5) (.setWithdrawalDelayBlocks 1),
    .call (inBlock 3 10) (.requestWithdraw 700001),
    .call (inBlock 505 10) (.claimWithdraw 0)]

theorem throttled_admissible :
    ∀ action ∈ throttled, action.Admissible solo := by
  simp [throttled, Action.Admissible, inBlock, solo]

theorem queued_admissible :
    ∀ action ∈ queued, action.Admissible solo := by
  simp [queued, Action.Admissible, inBlock, solo]

theorem exitQueue_of_throttled :
    ∃ w : World, w.vault.withdrawalRequests =
          [⟨10, 500000, 500000, 505, true⟩, ⟨10, 700001, 700001, 1206, false⟩] ∧
        505 + serviceTime
              (∑ job ∈ Finset.Ioc 0 1, sizeOf w.vault.withdrawalRequests job)
              1000 ≤
          1206 := by
  have ran : (script solo anything throttled soloWorld).any (fun start =>
        decide (start.vault.queueThroughputWeiPerBlock = 1000) &&
          (decide (start.vault.withdrawalRequests = []) &&
            (script solo (KeepsThroughput 1000) queued start).any fun w =>
              decide (w.vault.withdrawalRequests =
                  [⟨10, 500000, 500000, 505, true⟩,
                    ⟨10, 700001, 700001, 1206, false⟩]))) = true := by
    decide
  rcases (Option.any_eq_true _ _).mp ran with ⟨start, reaches, ran⟩
  simp only [Bool.and_eq_true, decide_eq_true_eq] at ran
  rcases ran with ⟨limit, none, ran⟩
  rcases (Option.any_eq_true _ _).mp ran with ⟨w, leads, requests⟩
  rw [decide_eq_true_eq] at requests
  rcases script_costed (fun _ => 0) queued_admissible leads with
    ⟨total, run⟩
  have reached := solo_reached throttled_admissible reaches
  rw [← limit] at run
  have laws := exitQueue_laws reached (by rw [limit]; decide) run.runs
  have apart := laws.1 0 1 _ _ (by rw [none]; exact le_refl _) Nat.one_pos
      (by rw [requests]; rfl) (by rw [requests]; rfl)
  rw [limit] at apart
  exact ⟨w, requests, apart.2⟩

end Eris.Vault.ExitQueue
