import Eris.Foundation.InsertionMap
import Eris.Foundation.Transition

/-!
# The relay of flow orders

`core/src/realtime/flowRelay.ts`.  The orders of a block are handed over by
wallet.  Each wallet has a lane; a drain of the lane sends its orders one at a
time, and is suspended while a send is in flight.  A batch which waits while
its lane is busy is replaced by a later one, and an order too far behind the
head is dropped.

A lane is an object which a drain keeps while the map of lanes may change.  A
send may throw at once instead of being awaited.  The log tells what happened;
nothing in the relay reads it.
-/

namespace Eris.Flow.Relay

open Foundation Foundation.Transition

variable {Item : Type}

structure FlowRelayBatch (Item : Type) where
  round : Option ℤ
  items : List Item

structure FlowRelayStats where
  sent : ℕ
  superseded : ℕ
  stale : ℕ
  failed : ℕ
  maxAgeBlocks : ℤ
  maxSendMs : ℤ
  deriving DecidableEq

def emptyStats : FlowRelayStats := ⟨0, 0, 0, 0, 0, 0⟩

def FlowRelayStats.total (stats : FlowRelayStats) : ℕ :=
  stats.sent + stats.failed + stats.stale + stats.superseded

structure FlowRelayOptions (Item : Type) where
  walletOf : Item → String
  maxAgeBlocks : ℤ

def FLOW_ORDER_MAX_AGE_BLOCKS : ℤ := 2

structure WalletLane (Item : Type) where
  busy : Bool
  waiting : Option (FlowRelayBatch Item)

structure Drain (Item : Type) where
  wallet : String
  lane : ℕ
  round : Option ℤ
  item : Item
  rest : List Item
  started : ℤ

inductive Event (Item : Type) where
  | pushed (round : Option ℤ) (items : List Item)
  | superseded (wallet : String) (batch : FlowRelayBatch Item)
  | stale (wallet : String) (item : Item)
  | out (wallet : String) (round : Option ℤ) (item : Item) (head : Option ℤ)
  | sent (wallet : String) (item : Item)
  | failed (wallet : String) (item : Item)
  | drained (stats : FlowRelayStats)
  | moved (head : Option ℤ)
  | resolved

/-- The relay, the drains it awaits, the head and the clock it reads. -/
structure FlowRelay (Item : Type) where
  lanes : AList fun _ : String => ℕ
  objects : ℕ → WalletLane Item
  fresh : ℕ
  stats : FlowRelayStats
  idleWaiters : ℕ
  suspended : List (Drain Item)
  head : Option ℤ
  clock : ℤ
  log : List (Event Item)

def FlowRelay.empty (head : Option ℤ) (clock : ℤ) : FlowRelay Item where
  lanes := ∅
  objects _ := ⟨false, none⟩
  fresh := 0
  stats := emptyStats
  idleWaiters := 0
  suspended := []
  head := head
  clock := clock
  log := [.moved head]

namespace FlowRelay

def note (relay : FlowRelay Item) (events : List (Event Item)) :
    FlowRelay Item :=
  { relay with log := relay.log ++ events }

def setLane (relay : FlowRelay Item) (id : ℕ) (lane : WalletLane Item) :
    FlowRelay Item :=
  { relay with objects := Function.update relay.objects id lane }

end FlowRelay

def age (round head : Option ℤ) : ℤ :=
  match round, head with
  | some round, some head => head - round
  | _, _ => 0

def dropStale (wallet : String) (item : Item) (relay : FlowRelay Item) :
    FlowRelay Item :=
  { relay with
    stats := { relay.stats with stale := relay.stats.stale + 1 }
    log := relay.log ++ [.stale wallet item] }

def callSend
    (wallet : String) (round : Option ℤ) (item : Item)
    (relay : FlowRelay Item) : FlowRelay Item :=
  { relay with
    stats := { relay.stats with
        maxAgeBlocks := max relay.stats.maxAgeBlocks (age round relay.head) }
    log := relay.log ++ [.out wallet round item relay.head] }

def countSend
    (wallet : String) (item : Item) (ok : Bool) (started : ℤ)
    (relay : FlowRelay Item) : FlowRelay Item :=
  { relay with
    stats := { relay.stats with
        sent := relay.stats.sent + if ok then 1 else 0
        failed := relay.stats.failed + if ok then 0 else 1
        maxSendMs := max relay.stats.maxSendMs (relay.clock - started) }
    log :=
      relay.log ++ [if ok then .sent wallet item else .failed wallet item] }

/-- Send orders in turn until one is awaited; whether one is. -/
def sendItems
    (options : FlowRelayOptions Item) (throwsAt : ℕ → Bool)
    (wallet : String) (lane : ℕ) (round : Option ℤ) :
    List Item → FlowRelay Item → FlowRelay Item × Bool
  | [], relay => (relay, false)
  | item :: rest, relay =>
      if age round relay.head > options.maxAgeBlocks then
        sendItems options throwsAt wallet lane round rest
          (dropStale wallet item relay)
      else
        let called := callSend wallet round item relay
        if throwsAt called.log.length then
          sendItems options throwsAt wallet lane round rest
            (countSend wallet item false called.clock called)
        else
          ({ called with
              suspended := called.suspended ++
                  [⟨wallet, lane, round, item, rest, called.clock⟩] },
            true)

/-- The lane is done with: whoever waits for the relay to be idle is told. -/
def closeLane (wallet : String) (lane : ℕ) (relay : FlowRelay Item) :
    FlowRelay Item :=
  let lanes := relay.lanes.erase wallet
  let closed :=
    { relay.setLane lane { relay.objects lane with busy := false } with
      lanes := lanes }
  if lanes.entries = [] then
    { closed with
      idleWaiters := 0
      log := closed.log ++ List.replicate relay.idleWaiters .resolved }
  else
    closed

/-- Send what waits in a lane.  Nothing is handed over meanwhile. -/
def drainWaiting
    (options : FlowRelayOptions Item) (throwsAt : ℕ → Bool)
    (wallet : String) (lane : ℕ) : ℕ → FlowRelay Item → FlowRelay Item
  | 0, relay => relay
  | fuel + 1, relay =>
      match (relay.objects lane).waiting with
      | none => closeLane wallet lane relay
      | some batch =>
          let taken :=
            relay.setLane lane { relay.objects lane with waiting := none }
          let sends :=
            sendItems options throwsAt wallet lane batch.round batch.items taken
          if sends.2 then
            sends.1
          else
            drainWaiting options throwsAt wallet lane fuel sends.1

/-- Go on with a batch, then with what waits. -/
def continueDrain
    (options : FlowRelayOptions Item) (throwsAt : ℕ → Bool)
    (wallet : String) (lane : ℕ) (round : Option ℤ) (rest : List Item)
    (relay : FlowRelay Item) : FlowRelay Item :=
  let sends := sendItems options throwsAt wallet lane round rest relay
  if sends.2 then
    sends.1
  else
    drainWaiting options throwsAt wallet lane 2 sends.1

/-- The orders of each wallet, in the order of their first appearance. -/
def byWallet (options : FlowRelayOptions Item) (items : List Item) :
    InsertionMap String (List Item) :=
  InsertionMap.gather options.walletOf
    (fun item list => list.getD [] ++ [item]) items

/-- The lane of a wallet, which is made when there is none. -/
def laneOf (wallet : String) (relay : FlowRelay Item) :
    ℕ × FlowRelay Item :=
  match relay.lanes.lookup wallet with
  | some lane => (lane, relay)
  | none =>
      (relay.fresh, { relay.setLane relay.fresh ⟨false, none⟩ with
          lanes := relay.lanes.insert wallet relay.fresh
          fresh := relay.fresh + 1 })

def supersede
    (wallet : String) (lane : ℕ) (batch : FlowRelayBatch Item)
    (relay : FlowRelay Item) : FlowRelay Item :=
  let replaced := match (relay.objects lane).waiting with
    | none => relay
    | some old =>
        { relay with
          stats := { relay.stats with
              superseded := relay.stats.superseded + old.items.length }
          log := relay.log ++ [Event.superseded wallet old] }
  replaced.setLane lane { relay.objects lane with waiting := some batch }

def pushGroup
    (options : FlowRelayOptions Item) (throwsAt : ℕ → Bool)
    (round : Option ℤ) (relay : FlowRelay Item)
    (group : String × List Item) : FlowRelay Item :=
  let (lane, held) := laneOf group.1 relay
  let waiting := supersede group.1 lane ⟨round, group.2⟩ held
  if (waiting.objects lane).busy then
    waiting
  else
    drainWaiting options throwsAt group.1 lane 2
      (waiting.setLane lane { waiting.objects lane with busy := true })

def push
    (options : FlowRelayOptions Item) (throwsAt : ℕ → Bool)
    (round : Option ℤ) (items : List Item) (relay : FlowRelay Item) :
    FlowRelay Item :=
  (byWallet options items).entries.foldl (pushGroup options throwsAt round)
    (relay.note [.pushed round items])

/-- The counts since the last call, reset. -/
def drainStats (relay : FlowRelay Item) : FlowRelay Item :=
  { relay with
    stats := emptyStats
    log := relay.log ++ [.drained relay.stats] }

def idle (relay : FlowRelay Item) : FlowRelay Item :=
  if relay.lanes.entries = [] then
    relay.note [.resolved]
  else
    { relay with idleWaiters := relay.idleWaiters + 1 }

/-- A send which a drain awaits has ended. -/
def settle
    (options : FlowRelayOptions Item) (throwsAt : ℕ → Bool) (drain : Drain Item)
    (ok : Bool) (relay : FlowRelay Item) : FlowRelay Item :=
  continueDrain options throwsAt drain.wallet drain.lane drain.round drain.rest
    (countSend drain.wallet drain.item ok drain.started relay)

inductive Label (Item : Type) where
  | push (round : Option ℤ) (items : List Item) (throwsAt : ℕ → Bool)
  | settle (position : ℕ) (ok : Bool) (throwsAt : ℕ → Bool)
  | drainStats
  | idle
  | moveHead (head : Option ℤ)
  | tick (clock : ℤ)

/-- Make a step, if the drain whose send ends is there. -/
def perform (options : FlowRelayOptions Item) (relay : FlowRelay Item) :
    Label Item → Option (FlowRelay Item)
  | .push round items throwsAt =>
      some (push options throwsAt round items relay)
  | .settle position ok throwsAt =>
      match relay.suspended[position]? with
      | none => none
      | some drain =>
          some (settle options throwsAt drain ok { relay with
                suspended := relay.suspended.eraseIdx position })
  | .drainStats => some (drainStats relay)
  | .idle => some (idle relay)
  | .moveHead head =>
      some { relay with head := head, log := relay.log ++ [.moved head] }
  | .tick clock => some { relay with clock := clock }

def relays (options : FlowRelayOptions Item) :
    System (FlowRelay Item) (Label Item) where
  initial relay := ∃ head clock, relay = .empty head clock
  step relay label next := perform options relay label = some next

end Eris.Flow.Relay
