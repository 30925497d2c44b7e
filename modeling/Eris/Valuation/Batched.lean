import Eris.Evm.Word
import Eris.Foundation.InsertionMap
import Eris.Foundation.Staged

/-!
# One batch of reads for every venue's valuation

Each venue values the agents by a generator which yields the reads of a
stage and is resumed with their results.  The scorer runs all generators side
by side: it puts the reads of one stage of each into a single multicall, and
hands every generator its own span of the results.  A venue which throws for
the whole field is driven again, alone and for one agent at a time.

Below the multicall, a read whose gas the agent controls is issued alone; the
results come back in the order of the reads.
-/

namespace Eris.Valuation.Batched

open Foundation Foundation.Staged Evm.Word

section Isolated

variable {Contract Answer : Type}

/-- The places of the reads which are marked, or which are not. -/
def places
    (isolatedGas : Contract → Option Nat) (marked : Bool)
    (contracts : List Contract) : List Nat :=
  (contracts.zipIdx.filter fun entry =>
    (isolatedGas entry.1).isSome = marked).map Prod.snd

/-- Put each result in the place its read came from. -/
def scatter
    (placed : List Nat) (results : List Answer)
    (out : List (Option Answer)) : List (Option Answer) :=
  (placed.zip results).foldl
    (fun out entry => out.set entry.1 (some entry.2)) out

/-- `undefined` stands in every place no result was written to. -/
def splitIsolatedReads
    (isolatedGas : Contract → Option Nat) (undefined : Answer)
    (viaMulticall isolated : List Contract → List Answer)
    (contracts : List Contract) : List Answer :=
  let sharedIdx := places isolatedGas false contracts
  let aloneIdx := places isolatedGas true contracts
  if aloneIdx = [] then viaMulticall contracts
  else
    let read := fun place : Nat => contracts[place]?
    let shared :=
      if sharedIdx ≠ [] then viaMulticall (sharedIdx.filterMap read) else []
    let alone := isolated (aloneIdx.filterMap read)
    let out := List.replicate contracts.length none
    let out := scatter sharedIdx shared out
    let out := scatter aloneIdx alone out
    out.map (·.getD undefined)

end Isolated

structure ReconstructionAgent where
  id : String
  address : Address
deriving DecidableEq

inductive Thrown where
  | error (message : String)
  | other (text : String)
  | undefined
deriving DecidableEq

/-- `error instanceof Error ? error.message : String(error)` -/
def Thrown.message : Thrown → String
  | .error message => message
  | .other text => text
  | .undefined => "undefined"

structure UnpricedHoldingDetail where
  source : String
  amountRaw : String
  reason : String
  read : Option String
deriving DecidableEq

structure AgentProtocolValue where
  valueUsdc : ℚ
  liquidatableValueUsdc : ℚ
  unpriced : List UnpricedHoldingDetail
deriving DecidableEq

/-- A venue's values, by the id of the agent. -/
abbrev Record := String → Option AgentProtocolValue

variable {Contract Answer : Type}

abbrev ValuationRun (Contract Answer : Type) :=
  Process Contract Answer Record Thrown

structure Venue (Contract Answer : Type) where
  id : String
  start : List ReconstructionAgent → ValuationRun Contract Answer

def driveAlone
    (gen : ValuationRun Contract Answer)
    (call : List Contract → List Answer) : Except Thrown Record :=
  gen.drive call

/--
A venue between two rounds.  `next` resumes its generator; the input of the
first call is not looked at.
-/
structure Pending (Contract Answer : Type) where
  venue : Venue Contract Answer
  next : List Answer → ValuationRun Contract Answer
  done : Bool
  error : Thrown
  input : List Answer

def Pending.opened
    (agents : List ReconstructionAgent) (venue : Venue Contract Answer) :
    Pending Contract Answer where
  venue := venue
  next := fun _ => venue.start agents
  done := false
  error := .undefined
  input := []

structure Span where
  index : Nat
  start : Nat
  length : Nat
deriving DecidableEq

/-- The venues asked so far in a round, and what they asked. -/
structure Poll (Contract Answer : Type) where
  pending : List (Pending Contract Answer)
  spans : List Span
  batch : List Contract
  values : InsertionMap String Record

def Poll.ask
    (poll : Poll Contract Answer) (run : Pending Contract Answer) :
    Poll Contract Answer :=
  if run.done then { poll with pending := poll.pending ++ [run] }
  else
    match run.next run.input with
    | .threw error =>
        { poll with
          pending := poll.pending ++ [{ run with done := true, error }] }
    | .returned value =>
        { poll with
          pending := poll.pending ++ [{ run with done := true }]
          values := poll.values.alter run.venue.id fun _ => value }
    | .asking reads resume =>
        { poll with
          pending := poll.pending ++ [{ run with next := resume }]
          spans := poll.spans ++
              [⟨poll.pending.length, poll.batch.length, reads.length⟩]
          batch := poll.batch ++ reads }

def assign
    (results : List Answer) (spans : List Span)
    (pending : List (Pending Contract Answer)) :
    List (Pending Contract Answer) :=
  spans.foldl (fun pending span =>
      pending.modify span.index fun run =>
        { run with input := slice results span.start span.length })
    pending

structure Options (Contract Answer : Type) where
  runs : List (Venue Contract Answer)
  agents : List ReconstructionAgent
  scorerReads : List Contract
  call : List Contract → List Answer

/-- `onStageZero` keeps the results it is called with. -/
structure Session (Contract Answer : Type) where
  pending : List (Pending Contract Answer)
  values : InsertionMap String Record
  stage : Nat
  onStageZero : Option (List Answer)

variable (opts : Options Contract Answer)

/-- The first half of a round: ask every venue in turn. -/
def Session.poll (session : Session Contract Answer) :
    Poll Contract Answer :=
  session.pending.foldl Poll.ask
    { pending := []
      spans := []
      batch := if session.stage = 0 then opts.scorerReads else []
      values := session.values }

/-- The second half: read the batch and hand out the results. -/
def Session.answered
    (session : Session Contract Answer) (poll : Poll Contract Answer) :
    Session Contract Answer :=
  let results := opts.call poll.batch
  { pending := assign results poll.spans poll.pending
    values := poll.values
    stage := session.stage + 1
    onStageZero :=
      if session.stage = 0 then some results else session.onStageZero }

/-- Round after round, until a batch is empty or nobody asked for it. -/
def rounds : Nat → Session Contract Answer → Option (Session Contract Answer)
  | 0, _ => none
  | fuel + 1, session =>
      let poll := session.poll opts
      if poll.batch = [] then
        some { session with pending := poll.pending, values := poll.values }
      else
        let session := session.answered opts poll
        if poll.spans = [] then some session else rounds fuel session

def Session.opened : Session Contract Answer where
  pending := opts.runs.map (Pending.opened opts.agents)
  values := .empty
  stage := 0
  onStageZero := none

/-- A value of nothing, for an agent the venue says nothing about. -/
def AgentProtocolValue.zero : AgentProtocolValue where
  valueUsdc := 0
  liquidatableValueUsdc := 0
  unpriced := []

/-- A value of nothing, because the venue threw for this agent. -/
def AgentProtocolValue.threw (id : String) (error : Thrown) :
    AgentProtocolValue where
  valueUsdc := 0
  liquidatableValueUsdc := 0
  unpriced := [⟨id, "", "read-failed",
      some (id ++ " valuation threw for this agent: " ++ error.message)⟩]

/-- What driving a venue for one agent alone gives this agent. -/
def aloneValue
    (venue : Venue Contract Answer) (agent : ReconstructionAgent) :
    AgentProtocolValue :=
  match driveAlone (venue.start [agent]) opts.call with
  | .ok alone => (alone agent.id).getD .zero
  | .error error => .threw venue.id error

/-- Whether driving a venue for one agent alone throws. -/
def throwsAlone
    (venue : Venue Contract Answer) (agent : ReconstructionAgent) : Bool :=
  match driveAlone (venue.start [agent]) opts.call with
  | .ok _ => false
  | .error _ => true

/-- The record of a venue, driven for one agent after another. -/
def oneAtATime (venue : Venue Contract Answer) : Record :=
  opts.agents.foldl (fun out agent =>
      Function.update out agent.id (some (aloneValue opts venue agent)))
    fun _ => none

/-- Drive the venues which threw again; one which throws for every agent
alone makes the whole valuation throw. -/
def retry :
    List (Pending Contract Answer) → InsertionMap String Record →
      Except Thrown (InsertionMap String Record)
  | [], values => .ok values
  | run :: rest, values =>
      if run.error = .undefined then retry rest values
      else
        let threw := opts.agents.filter (throwsAlone opts run.venue)
        if threw.length = opts.agents.length ∧ 0 < opts.agents.length then
          .error run.error
        else
          retry rest
            (values.alter run.venue.id fun _ => oneAtATime opts run.venue)

/-- What is handed to `onStageZero`, and the result; nothing when the rounds
do not end within the fuel. -/
def runValuations (fuel : Nat) :
    Option (Option (List Answer) ×
      Except Thrown (InsertionMap String Record)) :=
  (rounds opts fuel (.opened opts)).map fun session =>
    (session.onStageZero, retry opts session.pending session.values)

end Eris.Valuation.Batched
