import Eris.Foundation.Transition

/-!
# The record of the inference proxy

A call which the proxy admits takes its agent's next number.  Its line is
written when its response is complete, so the lines of overlapping calls
stand in the order of their completion.  Past a cap the bodies stop: a note
says so once, and every later call leaves a stub.

A line of a file is kept as what it parses to.  How long a line is, and the
length and digest of a body, come from its encoding.
-/

namespace Eris.Inference.Recording

open Foundation.Transition

inductive Provider where
  | ollama
  | openai
  | anthropic
  deriving DecidableEq, Repr

inductive CapScope where
  | agent
  | total
  deriving DecidableEq, Repr

structure RecordedCall (Agent Body : Type) where
  ts : Int
  agentId : Agent
  seq : Nat
  path : String
  model : String
  provider : Provider
  durationMs : Int
  status : Nat
  request : Body
  response : Body
  contentType : Option String
  stream : Bool
  error : Option String
  deriving DecidableEq, Repr

structure RecordingNote (Agent : Type) where
  ts : Int
  agentId : Agent
  scope : CapScope
  recordedBytes : Nat
  cap : Nat
  seq : Nat
  deriving DecidableEq, Repr

/-- `TruncatedCall`: a call with the length and digest of each body. -/
structure TruncatedCall (Agent : Type) where
  ts : Int
  agentId : Agent
  seq : Nat
  path : String
  model : String
  provider : Provider
  durationMs : Int
  status : Nat
  requestBytes : Nat
  requestSha256 : String
  responseBytes : Nat
  responseSha256 : String
  contentType : Option String
  stream : Bool
  error : Option String
  deriving DecidableEq, Repr

inductive Line (Agent Body : Type) where
  | full (record : RecordedCall Agent Body)
  | stub (truncated : TruncatedCall Agent)
  | note (capped : RecordingNote Agent)
  deriving DecidableEq, Repr

structure Encoding (Agent Body : Type) where
  bodyBytes : Body → Nat
  bodySha256 : Body → String
  lineBytes : Line Agent Body → Nat

structure Caps where
  perAgentCap : Nat
  totalCap : Nat

/-- `RecordingStats`, as far as it is counted. -/
structure Stats where
  recordedCalls : Nat
  recordFailures : Nat
  truncatedCalls : Nat
  truncatedBytes : Nat
  deriving DecidableEq, Repr

variable {Agent Body : Type}

structure Proxy (Agent Body : Type) where
  seq : Agent → Nat
  inFlight : List (Agent × Nat)
  recordedBytes : Agent → Nat
  capped : Agent → Bool
  totalBytes : Nat
  totalCapped : Bool
  stats : Stats
  files : Agent → List (Line Agent Body)

def create : Proxy Agent Body where
  seq _ := 0
  inFlight := []
  recordedBytes _ := 0
  capped _ := false
  totalBytes := 0
  totalCapped := false
  stats := ⟨0, 0, 0, 0⟩
  files _ := []

variable [DecidableEq Agent]

/-- `append`: a line is written, or lost and counted. -/
def append
    (proxy : Proxy Agent Body) (agentId : Agent)
    (line : Line Agent Body) (written : Bool) : Proxy Agent Body :=
  if written then
    { proxy with
      files := Function.update proxy.files agentId
          (proxy.files agentId ++ [line]) }
  else
    { proxy with
      stats := { proxy.stats with
          recordFailures := proxy.stats.recordFailures + 1 } }

variable (encoding : Encoding Agent Body) (caps : Caps)

/-- `stopRecording`: no body of the agent is kept from here on. -/
def stopRecording
    (proxy : Proxy Agent Body) (entry : RecordedCall Agent Body)
    (scope : CapScope) (written : Bool) : Proxy Agent Body :=
  append { proxy with
      capped := Function.update proxy.capped entry.agentId true }
    entry.agentId
    (.note
      { ts := entry.ts + entry.durationMs
        agentId := entry.agentId
        scope := scope
        recordedBytes := match scope with
          | .agent => proxy.recordedBytes entry.agentId
          | .total => proxy.totalBytes
        cap := match scope with
          | .agent => caps.perAgentCap
          | .total => caps.totalCap
        seq := entry.seq })
    written

/-- What a call leaves once the bodies have stopped. -/
def stubOf (entry : RecordedCall Agent Body) : TruncatedCall Agent where
  ts := entry.ts
  agentId := entry.agentId
  seq := entry.seq
  path := entry.path
  model := entry.model
  provider := entry.provider
  durationMs := entry.durationMs
  status := entry.status
  requestBytes := encoding.bodyBytes entry.request
  requestSha256 := encoding.bodySha256 entry.request
  responseBytes := encoding.bodyBytes entry.response
  responseSha256 := encoding.bodySha256 entry.response
  contentType := entry.contentType
  stream := entry.stream
  error := entry.error

def appendStub
    (proxy : Proxy Agent Body) (entry : RecordedCall Agent Body)
    (written : Bool) : Proxy Agent Body :=
  let line : Line Agent Body := .stub (stubOf encoding entry)
  let appended := append proxy entry.agentId line written
  if written then
    { appended with
      stats := { appended.stats with
          truncatedBytes :=
            appended.stats.truncatedBytes + encoding.lineBytes line
          truncatedCalls := appended.stats.truncatedCalls + 1 } }
  else appended

/-- The proxy's cap is reached, by this call or by one before it. -/
def totalReached
    (proxy : Proxy Agent Body) (entry : RecordedCall Agent Body) : Bool :=
  proxy.totalCapped || decide
      (caps.totalCap < proxy.totalBytes + encoding.lineBytes (.full entry))

/-- The agent's own cap is reached by this call. -/
def agentReached
    (proxy : Proxy Agent Body) (entry : RecordedCall Agent Body) : Bool :=
  decide (caps.perAgentCap <
      proxy.recordedBytes entry.agentId + encoding.lineBytes (.full entry))

/-- Whether the appends of one `record` reach the disk. -/
structure Disk where
  note : Bool
  line : Bool

/-- The record with its bodies, and what it counts. -/
def recordFull
    (proxy : Proxy Agent Body) (entry : RecordedCall Agent Body)
    (written : Bool) : Proxy Agent Body :=
  let appended := append proxy entry.agentId (.full entry) written
  if written then
    { appended with
      recordedBytes := Function.update proxy.recordedBytes entry.agentId
          (proxy.recordedBytes entry.agentId + encoding.lineBytes (.full entry))
      totalBytes := proxy.totalBytes + encoding.lineBytes (.full entry)
      stats := { appended.stats with
          recordedCalls := appended.stats.recordedCalls + 1 } }
  else appended

def record
    (proxy : Proxy Agent Body) (entry : RecordedCall Agent Body)
    (disk : Disk) : Proxy Agent Body :=
  if proxy.capped entry.agentId then
    appendStub encoding proxy entry disk.line
  else if totalReached encoding caps proxy entry then
    appendStub encoding
      (stopRecording caps { proxy with totalCapped := true } entry .total
        disk.note)
      entry disk.line
  else if agentReached encoding caps proxy entry then
    appendStub encoding (stopRecording caps proxy entry .agent disk.note)
      entry disk.line
  else recordFull encoding proxy entry disk.line

inductive Label (Agent Body : Type) where
  | arrive (agentId : Agent)
  | complete (entry : RecordedCall Agent Body) (disk : Disk)
  | abandon (agentId : Agent) (seq : Nat)

/-- A call which is admitted takes the next number. -/
def arrive (proxy : Proxy Agent Body) (agentId : Agent) :
    Proxy Agent Body :=
  { proxy with
    seq := Function.update proxy.seq agentId (proxy.seq agentId + 1)
    inFlight := proxy.inFlight ++ [(agentId, proxy.seq agentId + 1)] }

def close (proxy : Proxy Agent Body) (agentId : Agent) (seq : Nat) :
    Proxy Agent Body :=
  { proxy with inFlight := proxy.inFlight.erase (agentId, seq) }

/-- Perform a step: any open call may end next, recorded or not. -/
def perform (proxy : Proxy Agent Body) :
    Label Agent Body → Option (Proxy Agent Body)
  | .arrive agentId => some (arrive proxy agentId)
  | .complete entry disk =>
      if (entry.agentId, entry.seq) ∈ proxy.inFlight then
        some (record encoding caps (close proxy entry.agentId entry.seq) entry
            disk)
      else none
  | .abandon agentId seq =>
      if (agentId, seq) ∈ proxy.inFlight then some (close proxy agentId seq)
      else none

def protocol : System (Proxy Agent Body) (Label Agent Body) where
  initial proxy := proxy = create
  step proxy label next := perform encoding caps proxy label = some next

end Eris.Inference.Recording
