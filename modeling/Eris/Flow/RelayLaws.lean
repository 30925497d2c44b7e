import Eris.Flow.Relay
import Eris.Foundation.RoundRobin
import Eris.Foundation.Trace

/-!
# What the flow relay keeps

Every order which was handed over is counted, waiting, in flight or left in
the batch being sent, at every point of a run; the orders of a wallet go out
in the order they were handed over.  The invariant is stated for a relay in
which one drain may be at work and groups of a push may still be to come.
-/

namespace Eris.Flow.RelayLaws

open Foundation Foundation.Transition Relay
open Foundation.Trace (Whenever whenever_nil whenever_snoc)

variable {Item : Type}

/-! ## What a log tells -/

/-- The blocks' orders which were handed over. -/
def pushes (log : List (Event Item)) : List (Option ℤ × List Item) :=
  log.filterMap fun event =>
    match event with
    | .pushed round items => some (round, items)
    | _ => none

/-- The orders of a wallet among those of a block. -/
def groupOf
    (options : FlowRelayOptions Item) (wallet : String)
    (block : Option ℤ × List Item) : List Item :=
  block.2.filter (options.walletOf · = wallet)

/-- The orders of a wallet which were handed over. -/
def pushedItems
    (options : FlowRelayOptions Item) (wallet : String)
    (log : List (Event Item)) : List Item :=
  (pushes log).flatMap (groupOf options wallet)

/-- The orders of a wallet which went out. -/
def outItems (wallet : String) (log : List (Event Item)) : List Item :=
  log.filterMap fun event =>
    match event with
    | .out sender _ item _ => if sender = wallet then some item else none
    | _ => none

def pushedTotal (log : List (Event Item)) : ℕ :=
  ((pushes log).map (·.2.length)).sum

def settles : Event Item → ℕ
  | .superseded _ batch => batch.items.length
  | .stale _ _ => 1
  | .sent _ _ => 1
  | .failed _ _ => 1
  | _ => 0

def settledTotal (log : List (Event Item)) : ℕ := (log.map settles).sum

/-- How many orders the drained counters had. -/
def drainedTotal (log : List (Event Item)) : ℕ :=
  (log.map fun event =>
    match event with
    | .drained stats => stats.total
    | _ => 0).sum

def lastHead (log : List (Event Item)) : Option ℤ :=
  log.foldl (fun head event =>
      match event with
      | .moved next => next
      | _ => head)
    none

def Allowed
    (options : FlowRelayOptions Item) (before : List (Event Item)) :
    Event Item → Prop
  | .out _ round _ head =>
      head = lastHead before ∧ age round head ≤ options.maxAgeBlocks
  | .superseded wallet batch =>
      ∃ older last, pushes before = older ++ [last] ∧
        groupOf options wallet last ≠ [] ∧
          ∃ block ∈ older, batch = ⟨block.1, groupOf options wallet block⟩
  | .resolved => pushedTotal before = settledTotal before
  | _ => True

section Logs

variable {options : FlowRelayOptions Item} {log events : List (Event Item)}
    {wallet : String}

theorem pushes_append :
    pushes (log ++ events) = pushes log ++ pushes events :=
  List.filterMap_append

theorem outItems_append :
    outItems wallet (log ++ events) =
      outItems wallet log ++ outItems wallet events :=
  List.filterMap_append

theorem settledTotal_append :
    settledTotal (log ++ events) = settledTotal log + settledTotal events := by
  rw [settledTotal, List.map_append, List.sum_append]
  rfl

theorem drainedTotal_append :
    drainedTotal (log ++ events) = drainedTotal log + drainedTotal events := by
  rw [drainedTotal, List.map_append, List.sum_append]
  rfl

theorem lastHead_snoc (event : Event Item) :
    lastHead (log ++ [event]) = match event with
      | .moved next => next
      | _ => lastHead log := by
  rw [lastHead, List.foldl_append]
  cases event <;> rfl

end Logs

/-- A drain: its wallet, its lane and what is left of its batch. -/
structure Load (Item : Type) where
  wallet : String
  lane : ℕ
  rest : List Item

def loadOf (drain : Drain Item) : Load Item :=
  ⟨drain.wallet, drain.lane, drain.rest⟩

/-- The drains which await a send, and the one which is at work. -/
def loads (relay : FlowRelay Item) (atWork : Option (Load Item)) :
    List (Load Item) :=
  relay.suspended.map loadOf ++ atWork.toList

def waitingItems (lane : WalletLane Item) : List Item :=
  (lane.waiting.map (·.items)).getD []

def waitingTotal (relay : FlowRelay Item) : ℕ :=
  ∑ id ∈ Finset.range relay.fresh, (waitingItems (relay.objects id)).length

/-- The orders of a wallet which are still to come of a push. -/
def comingItems
    (todo : List (String × FlowRelayBatch Item)) (wallet : String) :
    List Item :=
  (todo.filter (·.1 = wallet)).flatMap (·.2.items)

/-- The wallets and the lanes which drains work at. -/
def posts (loads : List (Load Item)) : List (String × ℕ) :=
  loads.map fun load => (load.wallet, load.lane)

/-- Each lane has its drain, and only what is in the map is used. -/
structure Manned (relay : FlowRelay Item) (posts : List (String × ℕ)) :
    Prop where
  distinct : (posts.map Prod.fst).Nodup
  placed : ∀ post ∈ posts, relay.lanes.lookup post.1 = some post.2
  manned : ∀ wallet id, relay.lanes.lookup wallet = some id →
      id < relay.fresh ∧ (relay.objects id).busy = true ∧ (wallet, id) ∈ posts
  separate : ∀ wallet other id, relay.lanes.lookup wallet = some id →
      relay.lanes.lookup other = some id → wallet = other
  orphans : ∀ id, (∀ wallet, relay.lanes.lookup wallet ≠ some id) →
      (relay.objects id).waiting = none

/-- The orders of a wallet which may still go out, in order. -/
def Pending
    (options : FlowRelayOptions Item) (relay : FlowRelay Item)
    (todo : List (String × FlowRelayBatch Item)) (wallet : String)
    (current : List Item) : Prop :=
  ∃ gone skipped, pushedItems options wallet relay.log =
        gone ++ current ++ skipped ++ ((relay.lanes.lookup wallet).elim []
            fun id => waitingItems (relay.objects id)) ++
          comingItems todo wallet ∧
      (outItems wallet relay.log).Sublist gone

/-- The orders of each wallet stand in the order they were handed over. -/
structure Ordered
    (options : FlowRelayOptions Item) (relay : FlowRelay Item)
    (loads : List (Load Item)) (todo : List (String × FlowRelayBatch Item)) :
    Prop where
  sending : ∀ load ∈ loads, Pending options relay todo load.wallet load.rest
  resting : ∀ wallet, relay.lanes.lookup wallet = none →
      Pending options relay todo wallet []

structure Counted
    (relay : FlowRelay Item) (loads : List (Load Item))
    (todo : List (String × FlowRelayBatch Item)) :
    Prop where
  conserved : pushedTotal relay.log =
      settledTotal relay.log + relay.suspended.length +
        (loads.map (·.rest.length)).sum + waitingTotal relay +
          (todo.map (·.2.items.length)).sum
  accounted :
    settledTotal relay.log = relay.stats.total + drainedTotal relay.log

def ComesFrom
    (options : FlowRelayOptions Item) (relay : FlowRelay Item)
    (blocks : List (Option ℤ × List Item)) (wallet : String) : Prop :=
  ∀ id batch, relay.lanes.lookup wallet = some id →
    (relay.objects id).waiting = some batch →
      ∃ block ∈ blocks, batch = ⟨block.1, groupOf options wallet block⟩

structure Truthful
    (options : FlowRelayOptions Item) (relay : FlowRelay Item)
    (todo : List (String × FlowRelayBatch Item)) :
    Prop where
  allowed : Whenever (Allowed options) relay.log
  head : relay.head = lastHead relay.log
  sources : ∀ wallet, ComesFrom options relay (pushes relay.log) wallet
  coming : ∀ group ∈ todo, ∃ older last, pushes relay.log = older ++ [last] ∧
      group.2 = ⟨last.1, groupOf options group.1 last⟩ ∧
        group.2.items ≠ [] ∧ ComesFrom options relay older group.1

/-- The invariant, with a drain at work and groups to come. -/
structure Sound
    (options : FlowRelayOptions Item) (relay : FlowRelay Item)
    (atWork : Option (Load Item)) (todo : List (String × FlowRelayBatch Item)) :
    Prop where
  manned : Manned relay (posts (loads relay atWork))
  ordered : Ordered options relay (loads relay atWork) todo
  counted : Counted relay (loads relay atWork) todo
  truthful : Truthful options relay todo
  guarded :
    relay.idleWaiters ≠ 0 → relay.suspended ≠ [] ∨ (todo = [] ∧ atWork.isSome)
  groups : (todo.map Prod.fst).Nodup

variable {options : FlowRelayOptions Item} {relay next : FlowRelay Item}
    {atWork newWork : Option (Load Item)}
    {todo : List (String × FlowRelayBatch Item)} {wallet : String} {lane : ℕ}
    {item : Item} {rest : List Item}
    {other : String} {later : List (Event Item)}
    {blocks : List (Option ℤ × List Item)} {round : Option ℤ} {id : ℕ}
    {current items : List Item} {batch : FlowRelayBatch Item}
    {throwsAt : ℕ → Bool}

theorem Sound.busy
    (sound : Sound options relay none todo) (waits : relay.idleWaiters ≠ 0) :
    relay.suspended ≠ [] := by
  rcases sound.guarded waits with busy | ⟨_, nobody⟩
  · exact busy
  · cases nobody

theorem ne_of_lookup
    {lanes : AList fun _ : String => ℕ} (here : lanes.lookup wallet = some lane)
    (missing : lanes.lookup other = none) : other ≠ wallet := by
  rintro rfl
  cases missing.symm.trans here

/-! ## Sending -/

theorem Pending.advance
    {finished : List Item}
    (pending : Pending options relay todo wallet (finished ++ rest))
    (lanes : next.lanes = relay.lanes) (objects : next.objects = relay.objects)
    (pushed : pushedItems options wallet next.log =
        pushedItems options wallet relay.log)
    (out :
      ∃ more, outItems wallet next.log = outItems wallet relay.log ++ more ∧
        more.Sublist finished) :
    Pending options next todo wallet rest := by
  rcases pending with ⟨gone, skipped, whole, sent⟩
  rcases out with ⟨more, sends, within⟩
  refine ⟨gone ++ finished, skipped, ?_, ?_⟩
  · rw [pushed, whole, lanes, objects]
    simp
  · rw [sends]
    exact sent.append within

/-- A log grew by events which neither hand over nor move the head. -/
structure LogGrows (log next events : List (Event Item)) : Prop where
  whole : next = log ++ events
  quiet : pushes events = []

theorem LogGrows.pushes_eq
    {log events : List (Event Item)}
    (grows : LogGrows log later events) : pushes later = pushes log := by
  rw [grows.whole, pushes_append, grows.quiet, List.append_nil]

theorem LogGrows.pushedItems_eq
    {log events : List (Event Item)}
    (grows : LogGrows log later events) (wallet : String) :
    pushedItems options wallet later = pushedItems options wallet log := by
  rw [pushedItems, grows.pushes_eq]
  rfl

theorem LogGrows.pushedTotal_eq
    {log events : List (Event Item)} (grows : LogGrows log later events) :
    pushedTotal later = pushedTotal log := by
  rw [pushedTotal, grows.pushes_eq]
  rfl

/-- The lanes of a relay are as they were. -/
structure SameLanes (relay next : FlowRelay Item) : Prop where
  lanes : next.lanes = relay.lanes
  objects : next.objects = relay.objects
  fresh : next.fresh = relay.fresh

theorem Manned.congr
    {posts others : List (String × ℕ)} (manned : Manned relay posts)
    (same : SameLanes relay next) (perm : others.Perm posts) :
    Manned next others where
  distinct := (perm.map Prod.fst).nodup_iff.2 manned.distinct
  placed post member := by
    rw [same.lanes]
    exact manned.placed post (perm.mem_iff.1 member)
  manned wallet id known := by
    rw [same.lanes] at known
    rw [same.fresh, same.objects]
    rcases manned.manned wallet id known with ⟨bound, busy, posted⟩
    exact ⟨bound, busy, perm.mem_iff.2 posted⟩
  separate wallet other id first second := by
    rw [same.lanes] at first second
    exact manned.separate wallet other id first second
  orphans id unused := by
    rw [same.objects]
    apply manned.orphans
    intro wallet
    rw [← same.lanes]
    exact unused wallet

theorem SameLanes.waitingTotal_eq (same : SameLanes relay next) :
    waitingTotal next = waitingTotal relay := by
  rw [waitingTotal, same.fresh, same.objects]
  rfl

theorem ComesFrom.congr
    (from_ : ComesFrom options relay blocks wallet)
    (same : SameLanes relay next) : ComesFrom options next blocks wallet := by
  intro id batch known waits
  rw [same.lanes] at known
  rw [same.objects] at waits
  exact from_ id batch known waits

/-- What waits in the lanes comes from where it did. -/
theorem Truthful.lift
    (truthful : Truthful options relay todo)
    (pushed : pushes next.log = pushes relay.log)
    (sources : ∀ {blocks other}, ComesFrom options relay blocks other →
        ComesFrom options next blocks other)
    (allowed : Whenever (Allowed options) next.log)
    (head : next.head = lastHead next.log) :
    Truthful options next todo where
  allowed := allowed
  head := head
  sources wallet := by
    rw [pushed]
    exact sources (truthful.sources wallet)
  coming group member := by
    rcases truthful.coming group member with
      ⟨older, last, split, whole, some, before⟩
    rw [pushed]
    exact ⟨older, last, split, whole, some, sources before⟩

theorem Manned.elsewhere
    (manned : Manned relay (posts (loads relay (some ⟨wallet, lane, rest⟩)))) :
    ∀ load ∈ relay.suspended.map loadOf, load.wallet ≠ wallet := by
  intro load member equal
  have distinct := manned.distinct
  simp only [loads, posts, Option.toList_some, List.map_append,
    List.map_map, List.map_cons, List.map_nil, List.nodup_append] at distinct
  rcases List.mem_map.1 member with ⟨drain, suspended, rfl⟩
  apply distinct.2.2 drain.wallet _ wallet (by simp) equal
  exact List.mem_map.2 ⟨drain, suspended, rfl⟩

/-- A step which sends nothing, at most moves drains and tells of them. -/
theorem Sound.change
    {events : List (Event Item)} (sound : Sound options relay atWork todo)
    (same : SameLanes relay next) (grows : LogGrows relay.log next.log events)
    (perm : (loads next newWork).Perm (loads relay atWork))
    (silent : ∀ other, outItems other events = [])
    (conserved : settledTotal next.log + next.suspended.length =
        settledTotal relay.log + relay.suspended.length)
    (accounted :
      settledTotal next.log = next.stats.total + drainedTotal next.log)
    (allowed : Whenever (Allowed options) next.log)
    (head : next.head = lastHead next.log)
    (guarded : next.idleWaiters ≠ 0 →
        next.suspended ≠ [] ∨ (todo = [] ∧ newWork.isSome)) :
    Sound options next newWork todo := by
  have pendings : ∀ {other : String} {current : List Item},
      Pending options relay todo other current →
        Pending options next todo other current := by
    intro other current pending
    refine
      @Pending.advance _ _ _ _ _ _ current [] pending same.lanes same.objects
        (grows.pushedItems_eq _) ⟨[], ?_, List.Sublist.refl _⟩
    rw [grows.whole, outItems_append, silent]
  constructor
  · exact sound.manned.congr same (perm.map _)
  · constructor
    · intro load member
      exact pendings (sound.ordered.sending load (perm.mem_iff.1 member))
    · intro other unused
      rw [same.lanes] at unused
      exact pendings (sound.ordered.resting other unused)
  · have before := sound.counted.conserved
    have lengths := (perm.map (·.rest.length)).sum_eq
    refine ⟨?_, accounted⟩
    rw [grows.pushedTotal_eq, same.waitingTotal_eq, lengths]
    omega
  · exact sound.truthful.lift grows.pushes_eq (fun source => source.congr same)
        allowed head
  · exact guarded
  · exact sound.groups

theorem Sound.proceed
    {events : List (Event Item)}
    (sound : Sound options relay (some ⟨wallet, lane, item :: rest⟩) todo)
    (same : SameLanes relay next) (grows : LogGrows relay.log next.log events)
    (onward :
      loads next newWork = relay.suspended.map loadOf ++ [⟨wallet, lane, rest⟩])
    (outs : outItems wallet events = [] ∨ outItems wallet events = [item])
    (others : ∀ other, other ≠ wallet → outItems other events = [])
    (conserved : settledTotal next.log + next.suspended.length =
        settledTotal relay.log + relay.suspended.length + 1)
    (accounted :
      settledTotal next.log = next.stats.total + drainedTotal next.log)
    (allowed : Whenever (Allowed options) next.log)
    (head : next.head = lastHead next.log)
    (guarded : next.idleWaiters ≠ 0 →
        next.suspended ≠ [] ∨ (todo = [] ∧ newWork.isSome)) :
    Sound options next newWork todo := by
  have outLater : ∀ other, outItems other next.log =
      outItems other relay.log ++ outItems other events := by
    intro other
    rw [grows.whole, outItems_append]
  have here : (⟨wallet, lane, item :: rest⟩ : Load Item) ∈
      loads relay (some ⟨wallet, lane, item :: rest⟩) := by
    simp [loads]
  have elsewhere := sound.manned.elsewhere
  constructor
  · apply sound.manned.congr same
    rw [onward]
    simp [loads, posts]
  · constructor
    · intro load member
      rw [onward] at member
      rcases List.mem_append.1 member with member | member
      · have pending :=
          sound.ordered.sending load (List.mem_append_left _ member)
        refine @Pending.advance _ _ _ _ _ _ _ [] pending same.lanes same.objects
          (grows.pushedItems_eq _) ⟨[], ?_, List.Sublist.refl _⟩
        rw [outLater, others _ (elsewhere load member)]
      · cases List.mem_singleton.1 member
        have pending := sound.ordered.sending _ here
        refine @Pending.advance _ _ _ _ _ _ _ [item] pending same.lanes
          same.objects (grows.pushedItems_eq _)
          ⟨outItems wallet events, outLater wallet, ?_⟩
        rcases outs with none | one
        · rw [none]
          exact List.nil_sublist _
        · rw [one]
    · intro other unused
      rw [same.lanes] at unused
      have placed := sound.manned.placed (wallet, lane) (by simp [loads, posts])
      have different := ne_of_lookup placed unused
      have pending := sound.ordered.resting other unused
      refine @Pending.advance _ _ _ _ _ _ _ [] pending same.lanes same.objects
        (grows.pushedItems_eq _) ⟨[], ?_, List.Sublist.refl _⟩
      rw [outLater, others other different]
  · refine ⟨?_, accounted⟩
    have before := sound.counted.conserved
    rw [grows.pushedTotal_eq, same.waitingTotal_eq, onward]
    simp only [loads, Option.toList_some, List.map_append, List.map_cons,
      List.map_nil, List.sum_append, List.sum_cons, List.sum_nil,
      List.length_cons] at before ⊢
    omega
  · exact sound.truthful.lift grows.pushes_eq (fun source => source.congr same)
        allowed head
  · exact guarded
  · exact sound.groups

theorem Sound.dropStale
    (sound : Sound options relay (some ⟨wallet, lane, item :: rest⟩) todo) :
    Sound options (dropStale wallet item relay) (some ⟨wallet, lane, rest⟩)
      todo := by
  have grows : LogGrows relay.log (Relay.dropStale wallet item relay).log
        [.stale wallet item] :=
    ⟨rfl, rfl⟩
  have counted := sound.counted.accounted
  refine sound.proceed ⟨rfl, rfl, rfl⟩ grows rfl (Or.inl rfl) (fun _ _ => rfl)
      ?_ ?_ ?_ ?_ sound.guarded
  · rw [grows.whole, settledTotal_append]
    simp only [Relay.dropStale, settledTotal, List.map_cons, List.map_nil,
      List.sum_cons, List.sum_nil, settles]
    omega
  · rw [grows.whole, settledTotal_append, drainedTotal_append, counted]
    simp only [Relay.dropStale, settledTotal, drainedTotal, List.map_cons,
      List.map_nil, List.sum_cons, List.sum_nil, settles,
      FlowRelayStats.total]
    omega
  · rw [grows.whole, whenever_snoc]
    exact ⟨sound.truthful.allowed, trivial⟩
  · rw [grows.whole, lastHead_snoc]
    exact sound.truthful.head

theorem Sound.allowed_callSend
    (sound : Sound options relay atWork todo)
    (young : ¬ age round relay.head > options.maxAgeBlocks) :
    Whenever (Allowed options) (callSend wallet round item relay).log := by
  rw [callSend, whenever_snoc]
  exact ⟨sound.truthful.allowed, sound.truthful.head, not_lt.1 young⟩

theorem Sound.threw
    {clock : ℤ}
    (sound : Sound options relay (some ⟨wallet, lane, item :: rest⟩) todo)
    (young : ¬ age round relay.head > options.maxAgeBlocks) :
    Sound options
      (countSend wallet item false clock (callSend wallet round item relay))
      (some ⟨wallet, lane, rest⟩) todo := by
  have grows : LogGrows relay.log (countSend wallet item false clock
          (callSend wallet round item relay)).log
        [.out wallet round item relay.head, .failed wallet item] :=
    ⟨by simp [countSend, callSend], rfl⟩
  have counted := sound.counted.accounted
  refine
    sound.proceed ⟨rfl, rfl, rfl⟩ grows rfl (Or.inr (by simp [outItems])) ?_
      ?_ ?_ ?_ ?_ sound.guarded
  · intro other different
    simp [outItems, different.symm]
  · rw [grows.whole, settledTotal_append]
    simp only [countSend, callSend, settledTotal, List.map_cons, List.map_nil,
      List.sum_cons, List.sum_nil, settles]
    omega
  · rw [grows.whole, settledTotal_append, drainedTotal_append, counted]
    simp only [countSend, callSend, settledTotal, drainedTotal, List.map_cons,
      List.map_nil, List.sum_cons, List.sum_nil, settles,
      FlowRelayStats.total, Bool.false_eq_true, if_false]
    omega
  · rw [countSend, whenever_snoc]
    exact ⟨sound.allowed_callSend young, trivial⟩
  · rw [countSend, lastHead_snoc]
    simp only [Bool.false_eq_true, if_false, callSend, lastHead_snoc]
    exact sound.truthful.head

theorem Sound.suspend
    {clock : ℤ}
    (sound : Sound options relay (some ⟨wallet, lane, item :: rest⟩) todo)
    (young : ¬ age round relay.head > options.maxAgeBlocks) :
    Sound options { callSend wallet round item relay with
        suspended :=
          relay.suspended ++ [⟨wallet, lane, round, item, rest, clock⟩] }
      none todo := by
  have grows : LogGrows relay.log (callSend wallet round item relay).log
        [.out wallet round item relay.head] :=
    ⟨rfl, rfl⟩
  have counted := sound.counted.accounted
  refine sound.proceed ⟨rfl, rfl, rfl⟩ grows ?_ (Or.inr (by simp [outItems])) ?_
      ?_ ?_ (sound.allowed_callSend young) ?_ ?_
  · simp [loads, loadOf]
  · intro other different
    simp [outItems, different.symm]
  · dsimp only
    rw [grows.whole, settledTotal_append]
    simp [settledTotal, settles]
    omega
  · dsimp only
    rw [grows.whole, settledTotal_append, drainedTotal_append, counted]
    simp [callSend, settledTotal, drainedTotal, settles, FlowRelayStats.total]
  · simp only [callSend, lastHead_snoc]
    exact sound.truthful.head
  · intro _
    left
    simp

theorem Sound.sendItems
    {items : List Item} {round : Option ℤ} {throwsAt : ℕ → Bool}
    (sound : Sound options relay (some ⟨wallet, lane, items⟩) todo) :
    Sound options (sendItems options throwsAt wallet lane round items relay).1
        (if (Relay.sendItems options throwsAt wallet lane round items
            relay).2 then
          none
        else
          some ⟨wallet, lane, []⟩)
        todo ∧
      (Relay.sendItems options throwsAt wallet lane round items
          relay).1.objects =
        relay.objects := by
  induction items generalizing relay with
  | nil => exact ⟨sound, rfl⟩
  | cons item rest ih =>
      rw [Relay.sendItems]
      split
      · exact ih sound.dropStale
      · next young =>
          dsimp only
          split
          · exact ih (sound.threw young)
          · exact ⟨sound.suspend young, rfl⟩

/-! ## Lanes -/

theorem setLane_self (changed : WalletLane Item) :
    (relay.setLane lane changed).objects lane = changed := by
  simp [FlowRelay.setLane]

theorem setLane_of_ne
    {id : ℕ} (different : id ≠ lane) (changed : WalletLane Item) :
    (relay.setLane lane changed).objects id = relay.objects id := by
  simp [FlowRelay.setLane, different]

theorem waitingTotal_setLane
    (bound : lane < relay.fresh) (changed : WalletLane Item) :
    waitingTotal (relay.setLane lane changed) +
        (waitingItems (relay.objects lane)).length =
      waitingTotal relay + (waitingItems changed).length := by
  have member : lane ∈ Finset.range relay.fresh := Finset.mem_range.2 bound
  have others : ∑ id ∈ (Finset.range relay.fresh).erase lane,
        (waitingItems ((relay.setLane lane changed).objects id)).length =
      ∑ id ∈ (Finset.range relay.fresh).erase lane,
        (waitingItems (relay.objects id)).length := by
    apply Finset.sum_congr rfl
    intro id other
    rw [setLane_of_ne (Finset.ne_of_mem_erase other)]
  have after := Finset.add_sum_erase (Finset.range relay.fresh) (fun id =>
        (waitingItems ((relay.setLane lane changed).objects id)).length)
      member
  have before := Finset.add_sum_erase (Finset.range relay.fresh)
      (fun id => (waitingItems (relay.objects id)).length) member
  simp only [setLane_self] at after
  rw [others] at after
  have whole : waitingTotal (relay.setLane lane changed) =
        ∑ id ∈ Finset.range relay.fresh,
          (waitingItems ((relay.setLane lane changed).objects id)).length :=
    rfl
  rw [whole, waitingTotal, ← after, ← before]
  omega

theorem Manned.lane_ne
    {posts : List (String × ℕ)} (manned : Manned relay posts)
    (here : relay.lanes.lookup wallet = some lane)
    (there : relay.lanes.lookup other = some id) (different : other ≠ wallet) :
    id ≠ lane := by
  rintro rfl
  exact different (manned.separate other wallet id there here)

theorem Manned.setLane
    {posts : List (String × ℕ)} (manned : Manned relay posts)
    (here : relay.lanes.lookup wallet = some lane)
    (changed : WalletLane Item) (busy : changed.busy = true) :
    Manned (relay.setLane lane changed) posts where
  distinct := manned.distinct
  placed := manned.placed
  manned other id known := by
    rcases manned.manned other id known with ⟨bound, works, posted⟩
    refine ⟨bound, ?_, posted⟩
    by_cases same : id = lane
    · subst same
      rw [setLane_self, busy]
    · rw [setLane_of_ne same, works]
  separate := manned.separate
  orphans id unused := by
    have different : id ≠ lane := by
      rintro rfl
      exact unused wallet here
    rw [setLane_of_ne different]
    exact manned.orphans id unused

theorem Pending.setLane
    {posts : List (String × ℕ)} (manned : Manned relay posts)
    {changed : WalletLane Item}
    (pending : Pending options relay todo other current)
    (here : relay.lanes.lookup wallet = some lane)
    (different : other ≠ wallet) :
    Pending options (relay.setLane lane changed) todo other current := by
  rcases pending with ⟨gone, skipped, whole, sent⟩
  refine ⟨gone, skipped, ?_, sent⟩
  refine whole.trans ?_
  cases there : relay.lanes.lookup other with
  | none => simp [FlowRelay.setLane, there]
  | some id =>
      have apart := manned.lane_ne here there different
      have unchanged := @setLane_of_ne _ relay lane id apart changed
      have lanes : (relay.setLane lane changed).lanes = relay.lanes := rfl
      rw [lanes, there]
      simp only [Option.elim_some, unchanged]

theorem ComesFrom.setLane
    {posts : List (String × ℕ)} (manned : Manned relay posts)
    {changed : WalletLane Item} (source : ComesFrom options relay blocks other)
    (here : relay.lanes.lookup wallet = some lane)
    (different : other ≠ wallet) :
    ComesFrom options (relay.setLane lane changed) blocks other := by
  intro id batch known waits
  rw [setLane_of_ne (manned.lane_ne here known different)] at waits
  exact source id batch known waits

theorem Sound.take
    (sound : Sound options relay (some ⟨wallet, lane, []⟩) todo)
    (waits : (relay.objects lane).waiting = some batch) :
    Sound options
      (relay.setLane lane { relay.objects lane with waiting := none })
      (some ⟨wallet, lane, batch.items⟩) todo := by
  have here : relay.lanes.lookup wallet = some lane :=
    sound.manned.placed (wallet, lane) (by simp [loads, posts])
  have post := sound.manned.manned wallet lane here
  have elsewhere := sound.manned.elsewhere
  have samePosts : posts (loads relay (some ⟨wallet, lane, batch.items⟩)) =
      posts (loads relay (some ⟨wallet, lane, []⟩)) := by
    simp [posts, loads]
  constructor
  · have manned :=
      sound.manned.setLane here { relay.objects lane with waiting := none }
        post.2.1
    rw [← samePosts] at manned
    exact manned
  · constructor
    · intro load member
      rcases List.mem_append.1 member with member | member
      · exact (sound.ordered.sending load
          (List.mem_append_left _ member)).setLane sound.manned here
          (elsewhere load member)
      · cases List.mem_singleton.1 member
        have pending :=
          sound.ordered.sending ⟨wallet, lane, []⟩ (by simp [loads])
        rcases pending with ⟨gone, skipped, whole, sent⟩
        refine
          ⟨gone ++ skipped, [], ?_, sent.trans (List.sublist_append_left _ _)⟩
        refine whole.trans ?_
        have lanes : (relay.setLane lane
              { relay.objects lane with waiting := none }).lanes =
              relay.lanes :=
          rfl
        rw [lanes, here]
        simp [setLane_self, waitingItems, waits]
    · intro other unused
      have different := ne_of_lookup here unused
      exact (sound.ordered.resting other unused).setLane sound.manned here
        different
  · refine ⟨?_, sound.counted.accounted⟩
    have before := sound.counted.conserved
    have waiting :=
      waitingTotal_setLane post.1 { relay.objects lane with waiting := none }
    simp only [waitingItems, waits, Option.map_some, Option.getD_some,
      Option.map_none, Option.getD_none, List.length_nil] at waiting
    simp only [loads, Option.toList_some, List.map_append, List.map_cons,
      List.map_nil, List.sum_append, List.sum_cons, List.sum_nil,
      List.length_nil] at before ⊢
    have log : (relay.setLane lane
          { relay.objects lane with waiting := none }).log = relay.log :=
      rfl
    have suspended : (relay.setLane lane
          { relay.objects lane with waiting := none }).suspended =
          relay.suspended :=
      rfl
    rw [log, suspended]
    omega
  · refine sound.truthful.lift rfl ?_ sound.truthful.allowed sound.truthful.head
    intro blocks other source
    by_cases same : other = wallet
    · subst same
      intro id found known waits
      have equal : id = lane := Option.some.inj (known.symm.trans here)
      subst equal
      rw [setLane_self] at waits
      cases waits
    · exact source.setLane sound.manned here same
  · exact sound.guarded
  · exact sound.groups

/-! ## Closing a lane -/

/-- A drain is done with its lane, which leaves the map. -/
structure Closes
    (wallet : String) (lane waiters : ℕ) (relay next : FlowRelay Item) :
    Prop where
  lanes : next.lanes = relay.lanes.erase wallet
  objects : next.objects = Function.update relay.objects lane
      { relay.objects lane with busy := false }
  fresh : next.fresh = relay.fresh
  suspended : next.suspended = relay.suspended
  stats : next.stats = relay.stats
  head : next.head = relay.head
  log : next.log = relay.log ++ List.replicate waiters .resolved

theorem logGrows_resolved (log : List (Event Item)) (waiters : ℕ) :
    LogGrows log (log ++ List.replicate waiters .resolved)
      (List.replicate waiters .resolved) where
  whole := rfl
  quiet := by
    rw [pushes, List.filterMap_eq_nil_iff]
    intro event member
    rw [List.eq_of_mem_replicate member]

theorem settledTotal_resolved (waiters : ℕ) :
    settledTotal (List.replicate waiters (.resolved : Event Item)) = 0 := by
  simp [settledTotal, settles]

theorem drainedTotal_resolved (waiters : ℕ) :
    drainedTotal (List.replicate waiters (.resolved : Event Item)) = 0 := by
  simp [drainedTotal]

theorem outItems_resolved (waiters : ℕ) :
    outItems wallet (List.replicate waiters (.resolved : Event Item)) = [] := by
  rw [outItems, List.filterMap_eq_nil_iff]
  intro event member
  rw [List.eq_of_mem_replicate member]

theorem lastHead_resolved (log : List (Event Item)) (waiters : ℕ) :
    lastHead (log ++ List.replicate waiters .resolved) = lastHead log := by
  induction waiters with
  | zero => simp
  | succ waiters ih =>
      rw [List.replicate_succ', ← List.append_assoc, lastHead_snoc]
      exact ih

theorem whenever_resolved
    {log : List (Event Item)} (allowed : Whenever (Allowed options) log)
    (waiters : ℕ) (settled : waiters ≠ 0 → pushedTotal log = settledTotal log) :
    Whenever (Allowed options) (log ++ List.replicate waiters .resolved) := by
  induction waiters with
  | zero => simpa using allowed
  | succ waiters ih =>
      have equal := settled (Nat.succ_ne_zero waiters)
      rw [List.replicate_succ', ← List.append_assoc, whenever_snoc]
      refine ⟨ih fun _ => equal, ?_⟩
      change pushedTotal _ = settledTotal _
      rw [(logGrows_resolved log waiters).pushedTotal_eq, settledTotal_append,
        settledTotal_resolved]
      exact equal

section Closing

variable {waiters : ℕ} (closes : Closes wallet lane waiters relay next)

include closes

theorem Closes.object_of_ne (different : id ≠ lane) :
    next.objects id = relay.objects id := by
  rw [closes.objects, Function.update_of_ne different]

theorem Closes.waiting (id : ℕ) :
    (next.objects id).waiting = (relay.objects id).waiting := by
  rw [closes.objects]
  by_cases same : id = lane
  · subst same
    rw [Function.update_self]
  · rw [Function.update_of_ne same]

theorem Closes.lookup_of_ne (different : other ≠ wallet) :
    next.lanes.lookup other = relay.lanes.lookup other := by
  rw [closes.lanes, AList.lookup_erase_ne different]

theorem Closes.lookup_self : next.lanes.lookup wallet = none := by
  rw [closes.lanes, AList.lookup_erase]

theorem Closes.waitingTotal_eq : waitingTotal next = waitingTotal relay := by
  rw [waitingTotal, waitingTotal, closes.fresh]
  apply Finset.sum_congr rfl
  intro id _
  rw [waitingItems, waitingItems, closes.waiting]

theorem Closes.comesFrom
    (source : ComesFrom options relay blocks other) :
    ComesFrom options next blocks other := by
  intro id batch known waits
  by_cases same : other = wallet
  · rw [same, closes.lookup_self] at known
    cases known
  · rw [closes.lookup_of_ne same] at known
    rw [closes.waiting] at waits
    exact source id batch known waits

theorem Closes.pending
    (pending : Pending options relay todo other current)
    (different : other ≠ wallet) :
    Pending options next todo other current := by
  rcases pending with ⟨gone, skipped, whole, sent⟩
  refine ⟨gone, skipped, ?_, ?_⟩
  · rw [closes.log, (logGrows_resolved relay.log waiters).pushedItems_eq,
      whole, closes.lookup_of_ne different]
    cases relay.lanes.lookup other with
    | none => rfl
    | some id => simp [waitingItems, closes.waiting]
  · rw [closes.log, outItems_append, outItems_resolved, List.append_nil]
    exact sent

end Closing

/-- A lane which closes leaves the others as they are. -/
theorem Sound.closes
    {waiters : ℕ} (sound : Sound options relay (some ⟨wallet, lane, []⟩) todo)
    (nothing : (relay.objects lane).waiting = none)
    (closes : Closes wallet lane waiters relay next)
    (settled : waiters ≠ 0 → pushedTotal relay.log = settledTotal relay.log)
    (guarded : next.idleWaiters ≠ 0 → next.suspended ≠ []) :
    Sound options next none todo := by
  have here : relay.lanes.lookup wallet = some lane :=
    sound.manned.placed (wallet, lane) (by simp [loads, posts])
  have elsewhere := sound.manned.elsewhere
  have whole : loads next none = relay.suspended.map loadOf := by
    simp [loads, closes.suspended]
  have grows := logGrows_resolved relay.log waiters
  rw [← closes.log] at grows
  constructor
  · rw [whole]
    constructor
    · have distinct := sound.manned.distinct
      simp only [loads, posts, List.map_append] at distinct ⊢
      exact (List.nodup_append.1 distinct).1
    · intro post member
      rcases List.mem_map.1 member with ⟨load, listed, rfl⟩
      rw [closes.lookup_of_ne (elsewhere load listed)]
      exact sound.manned.placed (load.wallet, load.lane)
        (List.mem_map.2 ⟨load, List.mem_append_left _ listed, rfl⟩)
    · intro other id known
      have different := (ne_of_lookup known closes.lookup_self).symm
      rw [closes.lookup_of_ne different] at known
      rcases sound.manned.manned other id known with ⟨bound, busy, posted⟩
      rw [closes.fresh,
        closes.object_of_ne (sound.manned.lane_ne here known different)]
      refine ⟨bound, busy, ?_⟩
      rcases List.mem_map.1 posted with ⟨load, listed, same⟩
      rcases List.mem_append.1 listed with listed | listed
      · exact List.mem_map.2 ⟨load, listed, same⟩
      · cases List.mem_singleton.1 listed
        exact absurd (congrArg Prod.fst same).symm different
    · intro first second id firstKnown secondKnown
      have firstOther := (ne_of_lookup firstKnown closes.lookup_self).symm
      have secondOther := (ne_of_lookup secondKnown closes.lookup_self).symm
      rw [closes.lookup_of_ne firstOther] at firstKnown
      rw [closes.lookup_of_ne secondOther] at secondKnown
      exact sound.manned.separate first second id firstKnown secondKnown
    · intro id unused
      rw [closes.waiting]
      by_cases same : id = lane
      · rw [same, nothing]
      · apply sound.manned.orphans
        intro other known
        have different : other ≠ wallet := by
          rintro rfl
          exact same (Option.some.inj (known.symm.trans here))
        apply unused other
        rw [closes.lookup_of_ne different, known]
  · rw [whole]
    constructor
    · intro load listed
      exact closes.pending
        (sound.ordered.sending load (List.mem_append_left _ listed))
        (elsewhere load listed)
    · intro other unused
      by_cases same : other = wallet
      · subst same
        rcases sound.ordered.sending ⟨other, lane, []⟩ (by simp [loads]) with
          ⟨gone, skipped, split, sent⟩
        refine ⟨gone, skipped, ?_, ?_⟩
        · rw [grows.pushedItems_eq, split, here, unused]
          simp [waitingItems, nothing]
        · rw [closes.log, outItems_append, outItems_resolved, List.append_nil]
          exact sent
      · rw [closes.lookup_of_ne same] at unused
        exact closes.pending (sound.ordered.resting other unused) same
  · rw [whole]
    constructor
    · have before := sound.counted.conserved
      rw [grows.pushedTotal_eq, closes.log, settledTotal_append,
        settledTotal_resolved, closes.suspended, closes.waitingTotal_eq]
      simpa [loads] using before
    · rw [closes.log, settledTotal_append, settledTotal_resolved,
        drainedTotal_append, drainedTotal_resolved, closes.stats]
      exact sound.counted.accounted
  · refine sound.truthful.lift grows.pushes_eq closes.comesFrom ?_ ?_
    · rw [closes.log]
      exact whenever_resolved sound.truthful.allowed waiters settled
    · rw [closes.log, lastHead_resolved, closes.head]
      exact sound.truthful.head
  · intro waits
    exact Or.inl (guarded waits)
  · exact sound.groups

theorem entries_eq_nil_iff {Value : Type} (map : AList fun _ : String => Value) :
    map.entries = [] ↔ ∀ key, map.lookup key = none := by
  constructor
  · intro empty key
    apply AList.lookup_eq_none.2
    rw [AList.mem_keys, AList.keys, empty]
    exact List.not_mem_nil
  · intro missing
    apply List.eq_nil_iff_forall_not_mem.2
    intro entry listed
    apply AList.lookup_eq_none.1 (missing entry.1)
    exact List.mem_map_of_mem listed

theorem Sound.settled_of_last
    (sound : Sound options relay (some ⟨wallet, lane, []⟩) todo)
    (nothing : (relay.objects lane).waiting = none)
    (empty : (relay.lanes.erase wallet).entries = [])
    (waits : relay.idleWaiters ≠ 0) :
    pushedTotal relay.log = settledTotal relay.log := by
  have here : relay.lanes.lookup wallet = some lane :=
    sound.manned.placed (wallet, lane) (by simp [loads, posts])
  have missing := (entries_eq_nil_iff _).1 empty
  have alone : relay.suspended = [] := by
    apply List.eq_nil_iff_forall_not_mem.2
    intro drain listed
    have load : loadOf drain ∈ relay.suspended.map loadOf :=
      List.mem_map_of_mem listed
    have different : drain.wallet ≠ wallet := sound.manned.elsewhere _ load
    have placed := sound.manned.placed (drain.wallet, drain.lane)
        (List.mem_map.2 ⟨loadOf drain, List.mem_append_left _ load, rfl⟩)
    have gone := missing drain.wallet
    rw [AList.lookup_erase_ne different] at gone
    rw [gone] at placed
    cases placed
  rcases sound.guarded waits with busy | ⟨done, _⟩
  · exact absurd alone busy
  · have waitingNone : waitingTotal relay = 0 := by
      apply Finset.sum_eq_zero
      intro id _
      by_cases same : id = lane
      · simp [same, waitingItems, nothing]
      · rw [waitingItems, sound.manned.orphans id]
        · rfl
        · intro other known
          have different : other ≠ wallet := by
            rintro rfl
            exact same (Option.some.inj (known.symm.trans here))
          have gone := missing other
          rw [AList.lookup_erase_ne different, known] at gone
          cases gone
    have conserved := sound.counted.conserved
    rw [waitingNone, done, alone] at conserved
    simpa [loads, alone] using conserved

theorem Sound.closeLane
    (sound : Sound options relay (some ⟨wallet, lane, []⟩) todo)
    (nothing : (relay.objects lane).waiting = none) :
    Sound options (closeLane wallet lane relay) none todo := by
  by_cases empty : (relay.lanes.erase wallet).entries = []
  · have closes : Closes wallet lane relay.idleWaiters relay
        (Relay.closeLane wallet lane relay) := by
      simp only [Relay.closeLane, if_pos empty]
      exact ⟨rfl, rfl, rfl, rfl, rfl, rfl, rfl⟩
    refine sound.closes nothing closes (sound.settled_of_last nothing empty) ?_
    intro waits
    simp [Relay.closeLane, if_pos empty] at waits
  · have closes :
        Closes wallet lane 0 relay (Relay.closeLane wallet lane relay) := by
      simp only [Relay.closeLane, if_neg empty]
      exact ⟨rfl, rfl, rfl, rfl, rfl, rfl, by simp [FlowRelay.setLane]⟩
    refine sound.closes nothing closes (fun waits => absurd rfl waits) ?_
    intro _ alone
    apply empty
    apply (entries_eq_nil_iff _).2
    intro other
    by_contra known
    rcases Option.ne_none_iff_exists'.1 known with ⟨id, there⟩
    have different : other ≠ wallet := by
      rintro rfl
      rw [AList.lookup_erase] at there
      cases there
    rw [AList.lookup_erase_ne different] at there
    rcases (sound.manned.manned other id there).2.2 |> List.mem_map.1 with
      ⟨load, listed, same⟩
    rw [closes.suspended] at alone
    rw [loads, alone] at listed
    cases List.mem_singleton.1 listed
    exact different (congrArg Prod.fst same).symm

theorem Sound.drainWaiting
    {throwsAt : ℕ → Bool}
    (sound : Sound options relay (some ⟨wallet, lane, []⟩) todo) :
    Sound options (drainWaiting options throwsAt wallet lane 2 relay) none
      todo := by
  rw [Relay.drainWaiting]
  cases waits : (relay.objects lane).waiting with
  | none => exact sound.closeLane waits
  | some batch =>
      dsimp only
      have sends :=
        @Sound.sendItems _ options _ todo wallet lane batch.items batch.round
          throwsAt (sound.take waits)
      split
      · next suspended =>
          rw [if_pos suspended] at sends
          exact sends.1
      · next finished =>
          rw [if_neg finished] at sends
          have nothing :
              ((Relay.sendItems options throwsAt wallet lane batch.round
                batch.items
                (relay.setLane lane
                  { relay.objects lane with waiting := none })).1.objects
                lane).waiting =
                none := by
            rw [sends.2, setLane_self]
          rw [Relay.drainWaiting, nothing]
          exact sends.1.closeLane nothing

theorem Sound.continueDrain
    (sound : Sound options relay (some ⟨wallet, lane, rest⟩) todo) :
    Sound options
      (continueDrain options throwsAt wallet lane round rest relay) none
      todo := by
  have sends :=
    @Sound.sendItems _ options _ todo wallet lane rest round throwsAt sound
  unfold Relay.continueDrain
  dsimp only
  split
  · next suspended =>
      rw [if_pos suspended] at sends
      exact sends.1
  · next finished =>
      rw [if_neg finished] at sends
      exact sends.1.drainWaiting

/-- A drain which awaited a send is at work again. -/
theorem Sound.resume
    {position : ℕ} {drain : Drain Item} (sound : Sound options relay none [])
    (awaited : relay.suspended[position]? = some drain) (ok : Bool) :
    Sound options (countSend drain.wallet drain.item ok drain.started
        { relay with suspended := relay.suspended.eraseIdx position })
      (some (loadOf drain)) [] := by
  rcases List.getElem?_eq_some_iff.1 awaited with ⟨bound, found⟩
  have split := List.getElem_cons_eraseIdx_perm bound
  rw [found] at split
  have moved : ((relay.suspended.eraseIdx position).map loadOf ++
          [loadOf drain]).Perm (relay.suspended.map loadOf) :=
    List.perm_append_comm.trans (split.map loadOf)
  have shorter := List.length_eraseIdx_of_lt bound
  have counted := sound.counted.accounted
  have grows : LogGrows relay.log
        (countSend drain.wallet drain.item ok drain.started
          { relay with suspended := relay.suspended.eraseIdx position }).log
        [if ok then .sent drain.wallet drain.item
          else .failed drain.wallet drain.item] :=
    ⟨rfl, by cases ok <;> rfl⟩
  refine sound.change ⟨rfl, rfl, rfl⟩ grows ?_ ?_ ?_ ?_ ?_ ?_
    fun _ => Or.inr ⟨rfl, rfl⟩
  · simpa [loads, countSend] using moved
  · intro other
    cases ok <;> rfl
  · rw [grows.whole, settledTotal_append]
    cases ok <;> simp [countSend, shorter, settledTotal, settles] <;> omega
  · rw [grows.whole, settledTotal_append, drainedTotal_append, counted]
    cases ok <;>
      simp [countSend, settledTotal, drainedTotal, settles,
        FlowRelayStats.total] <;>
      omega
  · rw [grows.whole, whenever_snoc]
    refine ⟨sound.truthful.allowed, ?_⟩
    cases ok <;> trivial
  · rw [grows.whole, lastHead_snoc]
    have head := sound.truthful.head
    cases ok <;> exact head

theorem Sound.settle
    {throwsAt : ℕ → Bool} {position : ℕ} {drain : Drain Item} {ok : Bool}
    (sound : Sound options relay none [])
    (awaited : relay.suspended[position]? = some drain) :
    Sound options (settle options throwsAt drain ok
        { relay with suspended := relay.suspended.eraseIdx position })
      none [] :=
  (sound.resume awaited ok).continueDrain

/-! ## Handing over -/

/-- A relay with a new lane, which a drain works at. -/
def openLane (wallet : String) (relay : FlowRelay Item) : FlowRelay Item :=
  { relay with
    lanes := relay.lanes.insert wallet relay.fresh
    objects := Function.update relay.objects relay.fresh ⟨true, none⟩
    fresh := relay.fresh + 1 }

section OpenLane

variable (manned : Manned relay (posts (loads relay none)))

include manned

theorem Manned.object_openLane
    (known : relay.lanes.lookup other = some id) :
    (openLane wallet relay).objects id = relay.objects id := by
  have bound := (manned.manned other id known).1
  exact Function.update_of_ne (Nat.ne_of_lt bound) _ _

theorem Manned.pending_openLane
    (pending : Pending options relay todo other current)
    (different : other ≠ wallet) :
    Pending options (openLane wallet relay) todo other current := by
  rcases pending with ⟨gone, skipped, whole, sent⟩
  refine ⟨gone, skipped, whole.trans ?_, sent⟩
  have same :
      (openLane wallet relay).lanes.lookup other = relay.lanes.lookup other :=
    AList.lookup_insert_ne different
  rw [same]
  cases known : relay.lanes.lookup other with
  | none => rfl
  | some id => simp only [Option.elim_some, manned.object_openLane known]

theorem Manned.comesFrom_openLane
    (source : ComesFrom options relay blocks other) :
    ComesFrom options (openLane wallet relay) blocks other := by
  intro id batch known waits
  by_cases same : other = wallet
  · rw [same, openLane, AList.lookup_insert] at known
    cases known
    simp [openLane] at waits
  · have there : relay.lanes.lookup other = some id := by
      rw [← known]
      exact (AList.lookup_insert_ne same).symm
    rw [manned.object_openLane there] at waits
    exact source id batch there waits

theorem Manned.openLane (missing : relay.lanes.lookup wallet = none) :
    Manned (openLane wallet relay) (posts
        (loads (RelayLaws.openLane wallet relay)
          (some ⟨wallet, relay.fresh, []⟩))) := by
  have elsewhere : ∀ post ∈ posts (loads relay none), post.1 ≠ wallet := by
    intro post member
    exact (ne_of_lookup (manned.placed post member) missing).symm
  have whole : posts (loads (RelayLaws.openLane wallet relay)
          (some ⟨wallet, relay.fresh, []⟩)) =
      posts (loads relay none) ++ [(wallet, relay.fresh)] := by
    simp [posts, loads, RelayLaws.openLane]
  have lookups : ∀ other, other ≠ wallet →
        (RelayLaws.openLane wallet relay).lanes.lookup other =
          relay.lanes.lookup other :=
    fun other different => AList.lookup_insert_ne different
  have own : (RelayLaws.openLane wallet relay).lanes.lookup wallet =
        some relay.fresh :=
    AList.lookup_insert _
  rw [whole]
  constructor
  · rw [List.map_append, List.nodup_append]
    refine ⟨manned.distinct, List.nodup_singleton _, ?_⟩
    intro first listed second added equal
    rcases List.mem_map.1 listed with ⟨post, member, rfl⟩
    rw [List.map_singleton, List.mem_singleton] at added
    exact elsewhere post member (equal.trans added)
  · intro post member
    rcases List.mem_append.1 member with member | member
    · rw [lookups _ (elsewhere post member)]
      exact manned.placed post member
    · cases List.mem_singleton.1 member
      exact own
  · intro other id known
    by_cases same : other = wallet
    · subst same
      cases own.symm.trans known
      refine ⟨Nat.lt_succ_self _, ?_, by simp⟩
      simp [RelayLaws.openLane]
    · rw [lookups other same] at known
      rcases manned.manned other id known with ⟨bound, busy, posted⟩
      refine ⟨Nat.lt_succ_of_lt bound, ?_, List.mem_append_left _ posted⟩
      rw [manned.object_openLane known]
      exact busy
  · intro first second id firstKnown secondKnown
    by_cases firstOwn : first = wallet
    · by_cases secondOwn : second = wallet
      · rw [firstOwn, secondOwn]
      · subst firstOwn
        cases own.symm.trans firstKnown
        rw [lookups second secondOwn] at secondKnown
        have bound := (manned.manned second _ secondKnown).1
        exact absurd bound (lt_irrefl _)
    · rw [lookups first firstOwn] at firstKnown
      by_cases secondOwn : second = wallet
      · subst secondOwn
        cases own.symm.trans secondKnown
        have bound := (manned.manned first _ firstKnown).1
        exact absurd bound (lt_irrefl _)
      · rw [lookups second secondOwn] at secondKnown
        exact manned.separate first second id firstKnown secondKnown
  · intro id unused
    by_cases same : id = relay.fresh
    · simp [RelayLaws.openLane, same]
    · have object :
          (RelayLaws.openLane wallet relay).objects id = relay.objects id :=
        Function.update_of_ne same _ _
      rw [object]
      apply manned.orphans
      intro other known
      have different := (ne_of_lookup known missing).symm
      apply unused other
      rw [lookups other different, known]

end OpenLane

theorem Sound.openLane
    (sound : Sound options relay none todo)
    (missing : relay.lanes.lookup wallet = none) :
    Sound options (openLane wallet relay) (some ⟨wallet, relay.fresh, []⟩)
      todo := by
  have whole : loads (RelayLaws.openLane wallet relay)
        (some ⟨wallet, relay.fresh, []⟩) =
      loads relay none ++ [⟨wallet, relay.fresh, []⟩] := by
    simp [loads, RelayLaws.openLane]
  have elsewhere : ∀ load ∈ loads relay none, load.wallet ≠ wallet := by
    intro load member
    have placed := sound.manned.placed (load.wallet, load.lane)
        (List.mem_map.2 ⟨load, member, rfl⟩)
    exact (ne_of_lookup placed missing).symm
  constructor
  · exact sound.manned.openLane missing
  · rw [whole]
    constructor
    · intro load member
      rcases List.mem_append.1 member with member | member
      · exact sound.manned.pending_openLane (sound.ordered.sending load member)
          (elsewhere load member)
      · cases List.mem_singleton.1 member
        rcases sound.ordered.resting wallet missing with
          ⟨gone, skipped, split, sent⟩
        refine ⟨gone, skipped, split.trans ?_, sent⟩
        have own : (RelayLaws.openLane wallet relay).lanes.lookup wallet =
              some relay.fresh :=
          AList.lookup_insert _
        rw [own, missing]
        simp [RelayLaws.openLane, waitingItems]
    · intro other unused
      have different : other ≠ wallet := by
        rintro rfl
        rw [RelayLaws.openLane, AList.lookup_insert] at unused
        cases unused
      have missingThere : relay.lanes.lookup other = none := by
        rw [← unused]
        exact (AList.lookup_insert_ne different).symm
      exact sound.manned.pending_openLane
        (sound.ordered.resting other missingThere) different
  · rw [whole]
    refine ⟨?_, sound.counted.accounted⟩
    have before := sound.counted.conserved
    have waiting : waitingTotal (RelayLaws.openLane wallet relay) =
        waitingTotal relay := by
      rw [waitingTotal, waitingTotal]
      simp only [RelayLaws.openLane, Finset.sum_range_succ]
      rw [Function.update_self]
      have others : ∑ id ∈ Finset.range relay.fresh, (waitingItems
              (Function.update relay.objects relay.fresh ⟨true, none⟩
                id)).length =
          ∑ id ∈ Finset.range relay.fresh,
            (waitingItems (relay.objects id)).length := by
        apply Finset.sum_congr rfl
        intro id member
        rw [Function.update_of_ne (Nat.ne_of_lt (Finset.mem_range.1 member))]
      rw [others]
      rfl
    rw [waiting]
    simpa [RelayLaws.openLane] using before
  · exact sound.truthful.lift rfl sound.manned.comesFrom_openLane
      sound.truthful.allowed sound.truthful.head
  · exact fun waits => Or.inl (sound.busy waits)
  · exact sound.groups

/-- The batch which a later one replaces. -/
def replacedEvents (wallet : String) (lane : WalletLane Item) :
    List (Event Item) :=
  match lane.waiting with
  | none => []
  | some old => [.superseded wallet old]

/-- What handing a batch to a lane changes. -/
structure Hands
    (wallet : String) (lane : ℕ) (batch : FlowRelayBatch Item)
    (relay next : FlowRelay Item) :
    Prop where
  lanes : next.lanes = relay.lanes
  objects : next.objects = Function.update relay.objects lane
      { relay.objects lane with waiting := some batch }
  fresh : next.fresh = relay.fresh
  suspended : next.suspended = relay.suspended
  idleWaiters : next.idleWaiters = relay.idleWaiters
  head : next.head = relay.head
  total : next.stats.total =
      relay.stats.total + (waitingItems (relay.objects lane)).length
  log : next.log = relay.log ++ replacedEvents wallet (relay.objects lane)

theorem hands_supersede (batch : FlowRelayBatch Item) :
    Hands wallet lane batch relay (supersede wallet lane batch relay) := by
  unfold supersede
  cases waits : (relay.objects lane).waiting with
  | none =>
      refine ⟨rfl, rfl, rfl, rfl, rfl, rfl, ?_, ?_⟩
      · simp [FlowRelay.setLane, waitingItems, waits]
      · simp [FlowRelay.setLane, replacedEvents, waits]
  | some old =>
      refine ⟨rfl, rfl, rfl, rfl, rfl, rfl, ?_, ?_⟩
      · simp [FlowRelay.setLane, waitingItems, waits, FlowRelayStats.total]
        omega
      · simp [FlowRelay.setLane, replacedEvents, waits]

theorem replacedEvents_grows (log : List (Event Item)) (held : WalletLane Item) :
    LogGrows log (log ++ replacedEvents wallet held)
        (replacedEvents wallet held) ∧
      settledTotal (replacedEvents wallet held) = (waitingItems held).length ∧
        drainedTotal (replacedEvents wallet held) = 0 ∧
          (∀ other, outItems other (replacedEvents wallet held) = []) ∧
            lastHead (log ++ replacedEvents wallet held) = lastHead log := by
  unfold replacedEvents waitingItems
  cases held.waiting with
  | none =>
      refine ⟨⟨rfl, rfl⟩, rfl, rfl, fun _ => rfl, ?_⟩
      rw [List.append_nil]
  | some old =>
      refine ⟨⟨rfl, rfl⟩, ?_, rfl, fun _ => rfl, ?_⟩
      · simp [settledTotal, settles]
      · rw [lastHead_snoc]

theorem comingItems_cons_of_ne
    (different : other ≠ wallet) :
    comingItems ((wallet, batch) :: todo) other = comingItems todo other := by
  rw [comingItems, List.filter_cons_of_neg (by simpa using different.symm)]
  rfl

theorem Pending.handed
    {posts : List (String × ℕ)} (manned : Manned relay posts)
    (pending : Pending options relay ((wallet, batch) :: todo) other current)
    (here : relay.lanes.lookup wallet = some lane)
    (hands : Hands wallet lane batch relay next) (different : other ≠ wallet) :
    Pending options next todo other current := by
  have placed : Pending options
        (relay.setLane lane { relay.objects lane with waiting := some batch })
        ((wallet, batch) :: todo) other current :=
    pending.setLane manned here different
  rcases @replacedEvents_grows _ wallet relay.log (relay.objects lane) with
    ⟨grows, -, -, silent, -⟩
  rw [← hands.log] at grows
  rcases placed with ⟨gone, skipped, whole, sent⟩
  rw [comingItems_cons_of_ne different] at whole
  refine ⟨gone, skipped, ?_, ?_⟩
  · rw [grows.pushedItems_eq, hands.lanes, hands.objects]
    exact whole
  · rw [hands.log, outItems_append, silent, List.append_nil]
    exact sent

theorem Pending.handedHere
    (pending : Pending options relay ((wallet, batch) :: todo) wallet current)
    (here : relay.lanes.lookup wallet = some lane)
    (hands : Hands wallet lane batch relay next) :
    Pending options next todo wallet current := by
  rcases @replacedEvents_grows _ wallet relay.log (relay.objects lane) with
    ⟨grows, -, -, silent, -⟩
  rw [← hands.log] at grows
  rcases pending with ⟨gone, skipped, whole, sent⟩
  refine ⟨gone, skipped ++ waitingItems (relay.objects lane), ?_, ?_⟩
  · rw [grows.pushedItems_eq, hands.lanes, hands.objects, whole, here]
    simp [comingItems, waitingItems]
  · rw [hands.log, outItems_append, silent, List.append_nil]
    exact sent

theorem ComesFrom.handed
    {posts : List (String × ℕ)} (manned : Manned relay posts)
    (source : ComesFrom options relay blocks other)
    (here : relay.lanes.lookup wallet = some lane)
    (hands : Hands wallet lane batch relay next)
    (different : other ≠ wallet) : ComesFrom options next blocks other := by
  intro id found known waits
  rw [hands.lanes] at known
  rw [hands.objects,
    Function.update_of_ne (manned.lane_ne here known different)] at waits
  exact source id found known waits

theorem Sound.hands
    (sound : Sound options relay atWork ((wallet, batch) :: todo))
    (here : relay.lanes.lookup wallet = some lane)
    (hands : Hands wallet lane batch relay next) :
    Sound options next atWork todo := by
  rcases @replacedEvents_grows _ wallet relay.log (relay.objects lane) with
    ⟨grows, settled, drained, silent, head⟩
  rw [← hands.log] at grows head
  rcases sound.truthful.coming _ List.mem_cons_self with
    ⟨older, last, split, whole, nonempty, before⟩
  have post := sound.manned.manned wallet lane here
  have groups := sound.groups
  rw [List.map_cons, List.nodup_cons] at groups
  have sameLoads : loads next atWork = loads relay atWork := by
    rw [loads, hands.suspended]
    rfl
  constructor
  · have manned := sound.manned.setLane here
        { relay.objects lane with waiting := some batch } post.2.1
    rw [sameLoads]
    exact
      manned.congr ⟨hands.lanes, hands.objects, hands.fresh⟩ (List.Perm.refl _)
  · rw [sameLoads]
    constructor
    · intro load member
      have pending := sound.ordered.sending load member
      by_cases same : load.wallet = wallet
      · rw [same] at pending ⊢
        exact pending.handedHere here hands
      · exact pending.handed sound.manned here hands same
    · intro other unused
      rw [hands.lanes] at unused
      have different := ne_of_lookup here unused
      exact (sound.ordered.resting other unused).handed sound.manned here hands
        different
  · rw [sameLoads]
    constructor
    · have conserved := sound.counted.conserved
      have waiting := waitingTotal_setLane post.1
          { relay.objects lane with waiting := some batch }
      have sameTotal : waitingTotal next = waitingTotal (relay.setLane lane
          { relay.objects lane with waiting := some batch }) := by
        rw [waitingTotal, hands.fresh, hands.objects]
        rfl
      simp only [List.map_cons, List.sum_cons] at conserved
      rw [grows.pushedTotal_eq, hands.log, settledTotal_append,
        hands.suspended, sameTotal]
      simp only [waitingItems, Option.map_some, Option.getD_some] at *
      omega
    · rw [hands.log, settledTotal_append, drainedTotal_append, drained,
        hands.total, sound.counted.accounted]
      omega
  · constructor
    · rw [hands.log, replacedEvents]
      cases waits : (relay.objects lane).waiting with
      | none =>
          rw [List.append_nil]
          exact sound.truthful.allowed
      | some old =>
          rw [whenever_snoc]
          refine ⟨sound.truthful.allowed, older, last, split, ?_, ?_⟩
          · rw [whole] at nonempty
            exact nonempty
          · exact before lane old here waits
    · rw [head, hands.head]
      exact sound.truthful.head
    · intro other
      rw [grows.pushes_eq]
      by_cases same : other = wallet
      · subst same
        intro id found known waits
        rw [hands.lanes] at known
        cases known.symm.trans here
        rw [hands.objects, Function.update_self] at waits
        cases waits
        refine ⟨last, ?_, whole⟩
        rw [split]
        simp
      · exact (sound.truthful.sources other).handed sound.manned here hands same
    · intro group member
      rcases sound.truthful.coming group (List.mem_cons_of_mem _ member) with
        ⟨others, final, parts, orders, filled, source⟩
      rw [grows.pushes_eq]
      refine ⟨others, final, parts, orders, filled, ?_⟩
      apply source.handed sound.manned here hands
      rintro rfl
      exact groups.1 (List.mem_map.2 ⟨group, member, rfl⟩)
  · intro waits
    rw [hands.idleWaiters] at waits
    rw [hands.suspended]
    rcases sound.guarded waits with busy | ⟨none, _⟩
    · exact Or.inl busy
    · cases none
  · exact groups.2

theorem supersede_openLane (batch : FlowRelayBatch Item) :
    let made : FlowRelay Item := { relay.setLane relay.fresh ⟨false, none⟩ with
        lanes := relay.lanes.insert wallet relay.fresh
        fresh := relay.fresh + 1 }
    let waiting := supersede wallet relay.fresh batch made
    (waiting.objects relay.fresh).busy = false ∧ waiting.setLane relay.fresh
          { waiting.objects relay.fresh with busy := true } =
        supersede wallet relay.fresh batch (openLane wallet relay) := by
  constructor
  · simp [supersede, FlowRelay.setLane]
  · simp [supersede, openLane, FlowRelay.setLane]

theorem Sound.pushGroup
    (sound : Sound options relay none ((wallet, ⟨round, items⟩) :: todo)) :
    Sound options (pushGroup options throwsAt round relay (wallet, items))
      none todo := by
  unfold Relay.pushGroup laneOf
  cases known : relay.lanes.lookup wallet with
  | some lane =>
      have hands := @hands_supersede _ relay wallet lane ⟨round, items⟩
      have busy :
          ((supersede wallet lane ⟨round, items⟩ relay).objects lane).busy =
            true := by
        rw [hands.objects, Function.update_self]
        exact (sound.manned.manned wallet lane known).2.1
      simp only [busy, if_true]
      exact sound.hands known hands
  | none =>
      have opened := sound.openLane known
      have own : (RelayLaws.openLane wallet relay).lanes.lookup wallet =
            some relay.fresh :=
        AList.lookup_insert _
      have hands :=
        @hands_supersede _ (RelayLaws.openLane wallet relay) wallet relay.fresh
          ⟨round, items⟩
      have works :=
        @Sound.drainWaiting _ _ _ _ _ _ throwsAt (opened.hands own hands)
      rcases @supersede_openLane _ relay wallet ⟨round, items⟩ with
        ⟨idle, same⟩
      dsimp only at idle same ⊢
      rw [if_neg (by rw [idle]; exact Bool.false_ne_true), same]
      exact works

/-! ## A block's orders -/

def groupsOf
    (options : FlowRelayOptions Item) (round : Option ℤ)
    (items : List Item) : List (String × FlowRelayBatch Item) :=
  (byWallet options items).entries.map fun group =>
    (group.1, ⟨round, group.2⟩)

theorem get_byWallet (items : List Item) :
    (byWallet options items).get wallet =
      if items.filter (options.walletOf · = wallet) = [] then
        none
      else
        some (items.filter (options.walletOf · = wallet)) := by
  rw [byWallet, InsertionMap.get_gather]
  induction items.filter (options.walletOf · = wallet) using
    List.reverseRecOn with
  | nil => rfl
  | append_singleton items item ih =>
      rw [InsertionMap.accumulate_snoc, ih]
      cases items with
      | nil => rfl
      | cons first rest => simp

theorem mem_byWallet
    {group : String × List Item}
    (listed : group ∈ (byWallet options items).entries) :
    group.2 = items.filter (options.walletOf · = group.1) ∧ group.2 ≠ [] := by
  have known := InsertionMap.get_eq_some.2 listed
  rw [get_byWallet] at known
  split at known
  · cases known
  · next nonempty =>
      have same := Option.some.inj known
      rw [same] at nonempty
      exact ⟨same.symm, nonempty⟩

theorem comingItems_groupsOf (round : Option ℤ) (items : List Item) :
    comingItems (groupsOf options round items) wallet =
      groupOf options wallet (round, items) := by
  have alone : (groupsOf options round items).filter (·.1 = wallet) =
      (((byWallet options items).entries.find?
        (·.1 = wallet)).toList).map fun group =>
            (group.1, ⟨round, group.2⟩) := by
    rw [groupsOf, List.filter_map,
      ← InsertionMap.filter_of_nodup (byWallet options items).distinct]
    rfl
  have known := @get_byWallet _ options wallet items
  rw [InsertionMap.get] at known
  rw [comingItems, alone]
  unfold groupOf
  dsimp only
  split at known
  · next empty =>
      rw [Option.map_eq_none_iff.1 known, empty]
      rfl
  · rcases Option.map_eq_some_iff.1 known with ⟨group, found, same⟩
    rw [found, ← same]
    simp

theorem sum_groupsOf (round : Option ℤ) (items : List Item) :
    ((groupsOf options round items).map (·.2.items.length)).sum =
      items.length := by
  have known : ∀ item ∈ items,
      options.walletOf item ∈ (byWallet options items).keys := by
    intro item listed
    rw [byWallet, InsertionMap.keys_gather, List.mem_eraseDups]
    exact List.mem_map_of_mem listed
  have perm :=
    RoundRobin.flatMap_filter_perm (byWallet options items).distinct known
  rw [← perm.length_eq, List.length_flatMap, groupsOf, List.map_map,
    List.map_map]
  congr 1
  apply List.map_congr_left
  intro group listed
  simp [(mem_byWallet listed).1]

theorem Sound.notePushed
    (sound : Sound options relay none []) (round : Option ℤ)
    (items : List Item) :
    Sound options (relay.note [.pushed round items]) none
      (groupsOf options round items) := by
  have pushed : pushes (relay.note [.pushed round items]).log =
        pushes relay.log ++ [(round, items)] :=
    pushes_append
  have pendings : ∀ {other : String} {current : List Item},
      Pending options relay [] other current →
        Pending options (relay.note [.pushed round items])
          (groupsOf options round items) other current := by
    rintro other current ⟨gone, skipped, whole, sent⟩
    refine ⟨gone, skipped, ?_, ?_⟩
    · rw [pushedItems, pushed, List.flatMap_append, comingItems_groupsOf]
      have before := whole
      rw [pushedItems] at before
      rw [before]
      simp [comingItems, FlowRelay.note]
    · rw [FlowRelay.note, outItems_append]
      simpa [outItems] using sent
  constructor
  · exact sound.manned.congr ⟨rfl, rfl, rfl⟩ (List.Perm.refl _)
  · constructor
    · intro load member
      exact pendings (sound.ordered.sending load member)
    · intro other unused
      exact pendings (sound.ordered.resting other unused)
  · constructor
    · have before := sound.counted.conserved
      have waiting : waitingTotal (relay.note [.pushed round items]) =
            waitingTotal relay :=
        rfl
      rw [sum_groupsOf, waiting, pushedTotal, pushed, List.map_append,
        List.sum_append]
      rw [pushedTotal] at before
      simp only [loads, FlowRelay.note, settledTotal_append, List.map_cons,
        List.map_nil, List.sum_cons, List.sum_nil] at before ⊢
      rw [before]
      simp [settledTotal, settles]
    · have before := sound.counted.accounted
      simp only [FlowRelay.note, settledTotal_append, drainedTotal_append]
      simpa [settledTotal, drainedTotal, settles] using before
  · constructor
    · rw [FlowRelay.note, whenever_snoc]
      exact ⟨sound.truthful.allowed, trivial⟩
    · rw [FlowRelay.note, lastHead_snoc]
      exact sound.truthful.head
    · intro other id batch known waits
      rcases sound.truthful.sources other id batch known waits with
        ⟨block, listed, same⟩
      rw [pushed]
      exact ⟨block, List.mem_append_left _ listed, same⟩
    · intro group member
      rcases List.mem_map.1 member with ⟨entry, listed, rfl⟩
      rcases mem_byWallet listed with ⟨whole, nonempty⟩
      refine ⟨pushes relay.log, (round, items), pushed, ?_, nonempty, ?_⟩
      · rw [whole]
        rfl
      · exact sound.truthful.sources entry.1
  · exact fun waits => Or.inl (sound.busy waits)
  · rw [groupsOf, List.map_map]
    exact (byWallet options items).distinct

theorem Sound.push
    (sound : Sound options relay none []) :
    Sound options (push options throwsAt round items relay) none [] := by
  have noted := sound.notePushed round items
  unfold Relay.push
  rw [groupsOf] at noted
  generalize relay.note [.pushed round items] = start at noted ⊢
  generalize (byWallet options items).entries = groups at noted ⊢
  induction groups generalizing start with
  | nil => exact noted
  | cons group rest ih =>
      rw [List.foldl_cons]
      apply ih
      exact noted.pushGroup

/-! ## Runs -/

theorem sound_empty (head : Option ℤ) (clock : ℤ) :
    Sound options (.empty head clock) none [] := by
  constructor
  · constructor
    · exact List.nodup_nil
    · intro post member
      cases member
    · intro other id known
      cases known
    · intro first second id known
      cases known
    · intro id _
      rfl
  · constructor
    · intro load member
      cases member
    · intro other _
      exact ⟨[], [], rfl, List.Sublist.refl _⟩
  · exact ⟨rfl, rfl⟩
  · constructor
    · have alone : (FlowRelay.empty head clock : FlowRelay Item).log =
            [] ++ [.moved head] :=
        rfl
      rw [alone, whenever_snoc]
      exact ⟨whenever_nil, trivial⟩
    · rfl
    · intro other id batch known
      cases known
    · intro group member
      cases member
  · intro waits
    exact absurd rfl waits
  · exact List.nodup_nil

theorem Sound.noteQuiet
    {event : Event Item} (sound : Sound options relay none [])
    (same : SameLanes relay next) (suspended : next.suspended = relay.suspended)
    (log : next.log = relay.log ++ [event])
    (quiet : pushes [event] = []) (silent : ∀ other, outItems other [event] = [])
    (settled : settles event = 0)
    (accounted : next.stats.total + drainedTotal [event] = relay.stats.total)
    (allowed : Allowed options relay.log event)
    (head : next.head = lastHead next.log)
    (guarded : next.idleWaiters ≠ 0 → next.suspended ≠ []) :
    Sound options next none [] := by
  have settledHere : settledTotal [event] = 0 := by
    simp [settledTotal, settled]
  have sameSettled : settledTotal next.log = settledTotal relay.log := by
    rw [log, settledTotal_append, settledHere, Nat.add_zero]
  refine sound.change same ⟨log, quiet⟩ ?_ silent ?_ ?_ ?_ head fun waits =>
      Or.inl (guarded waits)
  · rw [loads, loads, suspended]
  · rw [sameSettled, suspended]
  · rw [sameSettled, log, drainedTotal_append, sound.counted.accounted]
    omega
  · rw [log, whenever_snoc]
    exact ⟨sound.truthful.allowed, allowed⟩

theorem Sound.congr
    (sound : Sound options relay none []) (same : SameLanes relay next)
    (suspended : next.suspended = relay.suspended)
    (stats : next.stats = relay.stats) (head : next.head = relay.head)
    (log : next.log = relay.log)
    (guarded : next.idleWaiters ≠ 0 → next.suspended ≠ []) :
    Sound options next none [] := by
  have grows : LogGrows relay.log next.log [] := ⟨by simp [log], rfl⟩
  refine sound.change same grows ?_ (fun _ => rfl) ?_ ?_ ?_ ?_ fun waits =>
      Or.inl (guarded waits)
  · rw [loads, loads, suspended]
  · rw [log, suspended]
  · rw [log, stats]
    exact sound.counted.accounted
  · rw [log]
    exact sound.truthful.allowed
  · rw [head, log]
    exact sound.truthful.head

theorem Sound.idle (sound : Sound options relay none []) :
    Sound options (idle relay) none [] := by
  unfold Relay.idle
  split
  · next empty =>
      have missing := (entries_eq_nil_iff _).1 empty
      have settled : pushedTotal relay.log = settledTotal relay.log := by
        have conserved := sound.counted.conserved
        have alone : relay.suspended = [] := by
          apply List.eq_nil_iff_forall_not_mem.2
          intro drain listed
          have placed := sound.manned.placed (drain.wallet, drain.lane)
              (List.mem_map.2 ⟨loadOf drain,
                  List.mem_append_left _ (List.mem_map_of_mem listed), rfl⟩)
          rw [missing] at placed
          cases placed
        have waitingNone : waitingTotal relay = 0 := by
          apply Finset.sum_eq_zero
          intro id _
          rw [waitingItems, sound.manned.orphans id]
          · rfl
          · intro other known
            rw [missing] at known
            cases known
        rw [waitingNone, alone] at conserved
        simpa [loads, alone] using conserved
      refine sound.noteQuiet ⟨rfl, rfl, rfl⟩ rfl rfl rfl (fun _ => rfl) rfl rfl
          settled ?_ sound.busy
      rw [FlowRelay.note, lastHead_snoc]
      exact sound.truthful.head
  · next occupied =>
      refine sound.congr ⟨rfl, rfl, rfl⟩ rfl rfl rfl rfl ?_
      intro _ alone
      apply occupied
      apply (entries_eq_nil_iff _).2
      intro other
      by_contra known
      rcases Option.ne_none_iff_exists'.1 known with ⟨id, there⟩
      rcases (sound.manned.manned other id there).2.2 |> List.mem_map.1 with
        ⟨load, listed, _⟩
      have nobody : loads relay none = [] := by
        simpa [loads] using alone
      rw [nobody] at listed
      cases listed

theorem Sound.step
    {label : Label Item} (sound : Sound options relay none [])
    (performed : perform options relay label = some next) :
    Sound options next none [] := by
  cases label with
  | push round items throwsAt =>
      cases performed
      exact sound.push
  | settle position ok throwsAt =>
      simp only [perform] at performed
      split at performed
      · cases performed
      · next drain awaited =>
          cases performed
          exact sound.settle awaited
  | drainStats =>
      cases performed
      refine sound.noteQuiet ⟨rfl, rfl, rfl⟩ rfl rfl rfl (fun _ => rfl) rfl ?_
          trivial ?_ sound.busy
      · simp [Relay.drainStats, drainedTotal, emptyStats, FlowRelayStats.total]
      · rw [Relay.drainStats, lastHead_snoc]
        exact sound.truthful.head
  | idle =>
      cases performed
      exact sound.idle
  | moveHead head =>
      cases performed
      refine sound.noteQuiet ⟨rfl, rfl, rfl⟩ rfl rfl rfl (fun _ => rfl) rfl rfl
          trivial ?_ sound.busy
      rw [lastHead_snoc]
  | tick clock =>
      cases performed
      exact sound.congr ⟨rfl, rfl, rfl⟩ rfl rfl rfl rfl sound.busy

theorem sound_of_reachable
    (reachable : (relays options).Reachable System.anything relay) :
    Sound options relay none [] := by
  refine
    @System.Reachable.invariant _ _ _ _ (fun relay => Sound options relay none [])
      _ ?_ ?_ reachable
  · rintro start ⟨head, clock, rfl⟩
    exact sound_empty head clock
  · intro state label next sound _ performed
    exact sound.step performed

structure KeepsOrders
    (options : FlowRelayOptions Item) (relay : FlowRelay Item) : Prop where
  oneInFlight : (relay.suspended.map (·.wallet)).Nodup
  inOrder : ∀ wallet, (outItems wallet relay.log).Sublist
      (pushedItems options wallet relay.log)
  superseded : ∀ before wallet batch after,
      relay.log = before ++ .superseded wallet batch :: after →
        ∃ older last, pushes before = older ++ [last] ∧
          groupOf options wallet last ≠ [] ∧
            ∃ block ∈ older, batch = ⟨block.1, groupOf options wallet block⟩
  young : ∀ before wallet round item head after,
      relay.log = before ++ .out wallet round item head :: after →
        head = lastHead before ∧ age round head ≤ options.maxAgeBlocks
  conserved : pushedTotal relay.log =
      relay.stats.total + drainedTotal relay.log + waitingTotal relay +
        relay.suspended.length + (relay.suspended.map (·.rest.length)).sum
  waitingIsNext : ∀ id, (relay.objects id).waiting ≠ none →
      ∃ drain ∈ relay.suspended, drain.lane = id
  idle : ∀ before after, relay.log = before ++ .resolved :: after →
      pushedTotal before = settledTotal before

/-- No schedule loses, repeats or reorders a wallet's orders. -/
theorem keepsOrders_of_reachable
    (reachable : (relays options).Reachable System.anything relay) :
    KeepsOrders options relay := by
  have sound := sound_of_reachable reachable
  constructor
  · have distinct := sound.manned.distinct
    simpa [posts, loads, loadOf, Function.comp_def] using distinct
  · intro other
    have pending : ∃ current, Pending options relay [] other current := by
      cases known : relay.lanes.lookup other with
      | none => exact ⟨[], sound.ordered.resting other known⟩
      | some id =>
          rcases List.mem_map.1 (sound.manned.manned other id known).2.2 with
            ⟨load, listed, same⟩
          cases same
          exact ⟨load.rest, sound.ordered.sending load listed⟩
    rcases pending with ⟨current, gone, skipped, whole, sent⟩
    rw [whole]
    simp only [List.append_assoc]
    exact sent.trans (List.sublist_append_left _ _)
  · intro before other batch after split
    exact sound.truthful.allowed before _ after split
  · intro before other round item head after split
    exact sound.truthful.allowed before _ after split
  · have conserved := sound.counted.conserved
    rw [sound.counted.accounted] at conserved
    simp only [loads, Option.toList_none, List.append_nil, List.map_map,
      List.map_nil, List.sum_nil] at conserved
    have same : relay.suspended.map ((·.rest.length) ∘ loadOf) =
          relay.suspended.map (·.rest.length) :=
      rfl
    rw [same] at conserved
    omega
  · intro id waits
    by_contra nobody
    apply waits
    apply sound.manned.orphans
    intro other known
    rcases List.mem_map.1 (sound.manned.manned other id known).2.2 with
      ⟨load, listed, same⟩
    rcases List.mem_map.1 (by simpa [loads] using listed :
      load ∈ relay.suspended.map loadOf) with ⟨drain, suspended, rfl⟩
    exact nobody ⟨drain, suspended, congrArg Prod.snd same⟩
  · intro before after split
    exact sound.truthful.allowed before _ after split

/-- Orders with the wallets they are sent from. -/
def walletOptions : FlowRelayOptions (String × ℕ) where
  walletOf := Prod.fst
  maxAgeBlocks := FLOW_ORDER_MAX_AGE_BLOCKS

/-- Three blocks are handed over while the first order is in flight. -/
def busyRelay : FlowRelay (String × ℕ) :=
  push walletOptions (fun _ => false) (some 7) [("arb", 4)]
    (push walletOptions (fun _ => false) (some 6) [("arb", 3)]
      (push walletOptions (fun _ => false) (some 5) [("arb", 1), ("arb", 2)]
        (.empty (some 5) 0)))

/-- The second block's order is superseded by the third one's. -/
theorem keepsOrders_busyRelay :
    KeepsOrders walletOptions busyRelay ∧
      busyRelay.stats.superseded = 1 ∧ busyRelay.suspended.length = 1 := by
  have reachable :
      (relays walletOptions).Reachable System.anything busyRelay := by
    refine ⟨.empty (some 5) 0, ⟨some 5, 0, rfl⟩, ?_⟩
    refine ((Relation.ReflTransGen.single
      ⟨.push (some 5) [("arb", 1), ("arb", 2)] fun _ => false, trivial,
        rfl⟩).tail
      ⟨.push (some 6) [("arb", 3)] fun _ => false, trivial, rfl⟩).tail
      ⟨.push (some 7) [("arb", 4)] fun _ => false, trivial, rfl⟩
  exact ⟨keepsOrders_of_reachable reachable, by decide⟩

end Eris.Flow.RelayLaws
