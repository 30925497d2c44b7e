import Eris.Gateway.CallFilter
import Eris.Gateway.TxGas

/-!
# One request through the gateway

`infra/rpc-gateway/gateway.mjs`, `handle`: a body is parsed, refused or
rewritten, sent to the node, and the node's reply is sealed before it reaches
the client.  The node may answer whatever it likes to each body it is sent, so
it is a function of how many bodies went before and of the body.
-/

namespace Eris.Gateway.Handle

open Foundation Values CallFilter TxGas

variable {Number Body : Type}

/-- `JSON.parse` of a body, none where it throws, and the body of a value. -/
structure Codec (Number Body : Type) where
  parse : Body → Option (Value Number)
  stringify : Value Number → Body

/-- What `forward` hands on: whether the node failed, the status and the
body. -/
structure Answer (Body : Type) where
  failed : Bool
  status : Nat
  body : Body

/-- The node, for the bodies of one request in the order they are sent. -/
abbrev Backend (Body : Type) := Nat → Body → Answer Body

/-- What is known of the caller: its requests upstream, and whether its token
bucket affords a cost. -/
structure Caller where
  inFlight : Nat
  allow : Nat → Bool

inductive Reply (Number Body : Type) where
  | refused (status : Nat) (value : Value Number)
  | passed (status : Nat) (body : Body)

/-- The bodies sent to the node, and the reply; there is none where the
process ends. -/
structure Exchange (Number Body : Type) where
  forwarded : List Body
  reply : Option (Reply Number Body)

variable (numbers : Numbers Number) (codec : Codec Number Body)

variable (config : Config)

def errorValue (id : Value Number) (code : Int) (message : String) :
    Value Number :=
  .object [("jsonrpc", textValue "2.0"),
      ("id", id),
      ("error", .object
        [("code", .scalar (.number (numbers.ofInteger code))),
          ("message", textValue message)])]

/-- `Array.isArray(parsed)`. -/
def isBatch (parsed : Value Number) : Bool := (arrayItems parsed).isSome

/-- `isBatch ? null : (parsed?.id ?? null)`. -/
def requestId (parsed : Value Number) : Value Number :=
  if isBatch parsed then nullValue else orNull (member "id" parsed)

/-- `(!isBatch && parsed && parsed.id) || null`. -/
def truthyRequestId (parsed : Value Number) : Value Number :=
  if isBatch parsed then nullValue
  else
    orNull ((member "id" parsed).filter fun id => truthy numbers id)

def txByHashMethods : List String :=
  ["eth_getTransactionByHash", "eth_getRawTransactionByHash"]

/-- A call that reads a transaction by its hash. -/
def readsTxByHash (call : Value Number) : Bool :=
  (methodText call).any fun method => txByHashMethods.contains method

/-- `idKey`: the text of the id; nothing where it has none. -/
def idKey (call : Value Number) : Option String :=
  toText numbers (orNull (member "id" call))

/-- The calls that are objects or arrays, under the texts of their ids. -/
def keyedCalls :
    List (Value Number) → Option (List (String × Value Number))
  | [] => some []
  | call :: calls =>
      if isStructured call then do
        let key ← idKey numbers call
        let rest ← keyedCalls calls
        return (key, call) :: rest
      else keyedCalls calls

def idCount (keyed : List (String × Value Number)) (key : String) : Nat :=
  keyed.countP fun entry => entry.1 == key

/-- `sharedTxByHashId`: the id of the first read by hash of a batch that
shares it; nothing where an id has no text. -/
def sharedTxByHashId (parsed : Value Number) : Option (Option String) :=
  match parsed with
  | .array items =>
      (keyedCalls numbers items).map fun keyed =>
        (keyed.find? fun entry =>
          readsTxByHash entry.2 && 1 < idCount keyed entry.1).map Prod.fst
  | _ => some none

def rawSendMethods : List String :=
  ["eth_sendRawTransaction", "eth_sendRawTransactionSync"]

/-- A call that submits a signed transaction. -/
def sendsRaw (call : Value Number) : Bool :=
  (methodText call).any fun method => rawSendMethods.contains method

/-- The signed transaction of a submission, where it is a text. -/
def rawTransaction (call : Value Number) : Option String :=
  (paramItems call).bind fun items => items[0]?.bind stringText

/-- What is wrong with the gas of one submission. -/
def callOverGas (call : Value Number) : Option (Option Nat) :=
  match (rawTransaction call).bind txGasLimit with
  | none => some none
  | some gas => if config.maxTxGas < gas then some (some gas) else none

/-- `overCapGas`: the gas limit of the first submission past the cap, or that
it could not be read. -/
def overCapGas (parsed : Value Number) : Option (Option Nat) :=
  if config.maxTxGas ≤ 0 then none
  else ((calls parsed).filter sendsRaw).findSome? (callOverGas config)

/-- What is wrong with the fees of one submission. -/
def callFeeViolation (call : Value Number) : Option FeeViolation :=
  match (rawTransaction call).bind txFees with
  | none =>
      some
        { kind := "unreadable"
          message :=
            "could not read the transaction's fee fields; refusing it" }
  | some fees => feeRuleViolation fees config.maxPriorityFee

/-- `feeViolation`: the first submission that breaks the fee rule. -/
def feeViolation (parsed : Value Number) : Option FeeViolation :=
  ((calls parsed).filter sendsRaw).findSome? (callFeeViolation config)

/-- What becomes of a body before the node is asked. -/
inductive Screened (Number Body : Type) where
  | refused (status : Nat) (value : Value Number)
  | thrown
  | accepted (parsed : Value Number) (body : Body)

def methods (parsed : Value Number) : List (Value Number) :=
  (calls parsed).filterMap (namedMethod numbers)

/-- A parsed body with its calls rewritten. -/
def withCalls (parsed : Value Number) (rewritten : List (Value Number)) :
    Value Number :=
  match parsed with
  | .array _ => .array rewritten
  | value => rewritten.headD value

/-- The beginnings of the methods that execute on the node. -/
def heavyMethods : List String :=
  ["eth_call", "eth_estimateGas", "eth_createAccessList", "eth_getLogs",
    "debug_", "trace_", "arbtrace_"]

def weight (method : String) : Nat :=
  if heavyMethods.any fun beginning =>
      beginning.toList.isPrefixOf method.toList then
    config.heavyWeight
  else 1

/-- The tokens a request costs; nothing where a method has no text. -/
def cost (named : List (Value Number)) : Option Nat :=
  (named.mapM (toText numbers)).map fun texts =>
    if texts = [] then 1
    else
      let sum := (texts.map (weight config)).sum
      if sum = 0 then 1 else sum

/-- The limits on the caller and on the transactions it submits. -/
def limits (caller : Caller) (parsed : Value Number) (body : Body) :
    Screened Number Body :=
  match overCapGas config parsed with
  | some overCap =>
      .refused 403 (errorValue numbers (truthyRequestId numbers parsed) (-32003)
          (match overCap with
          | none =>
              "could not read the transaction's gas limit; refusing it " ++
                s!"(the per-transaction cap is {config.maxTxGas})"
          | some gas =>
              s!"transaction gas limit {gas} exceeds the per-transaction " ++
                s!"cap {config.maxTxGas}"))
  | none =>
      match feeViolation config parsed with
      | some badFee =>
          .refused 403
            (errorValue numbers (requestId parsed) (-32003) badFee.message)
      | none =>
          if 0 < config.maxInFlightPerClient ∧
              config.maxInFlightPerClient ≤ caller.inFlight then
            .refused 429 (errorValue numbers (requestId parsed) (-32005)
                ("too many requests in flight (limit " ++
                  s!"{config.maxInFlightPerClient} per client)"))
          else
            match cost numbers config (methods numbers parsed) with
            | none => .thrown
            | some tokens =>
                if caller.allow tokens then .accepted parsed body
                else
                  .refused 429
                    (errorValue numbers (truthyRequestId numbers parsed)
                      (-32005) "rate limited")

/-- The gas cap on reads, written into the body. -/
def capReads (caller : Caller) (parsed : Value Number) (body : Body) :
    Screened Number Body :=
  let capped := capCallGas numbers (calls parsed) config.maxCallGas
  let rewritten := withCalls parsed capped.1
  if isStructured parsed && 0 < capped.2 then
    limits numbers config caller rewritten (codec.stringify rewritten)
  else limits numbers config caller parsed body

/-- The refusal of a batch whose read by hash shares its id. -/
def screenIds (caller : Caller) (parsed : Value Number) (body : Body) :
    Screened Number Body :=
  match sharedTxByHashId numbers parsed with
  | none => .thrown
  | some (some sharedId) =>
      .refused 400 (errorValue numbers nullValue (-32600)
          (s!"batch members share id {sharedId}; a transaction read by " ++
            "hash needs an id of its own"))
  | some none => capReads numbers codec config caller parsed body

/-- The method filter with its two rewrites. -/
def screenMethods (caller : Caller) (parsed : Value Number) (body : Body) :
    Screened Number Body :=
  if config.filterMethods && !(methods numbers parsed).isEmpty then
    match refusedMethod numbers config (calls parsed) with
    | none => .thrown
    | some (some bad) =>
        match toText numbers bad with
        | none => .thrown
        | some text =>
            .refused 403 (errorValue numbers (requestId parsed) (-32601)
                s!"method not permitted: {text}")
    | some none =>
        match rewriteCalls numbers config (calls parsed) with
        | none => .thrown
        | some rewritten =>
            let value := withCalls parsed rewritten.1
            screenIds numbers codec config caller value
              (if rewritten.2 then codec.stringify value else body)
  else screenIds numbers codec config caller parsed body

/-- Everything `handle` does before it asks the node. -/
def screen (caller : Caller) (body : Body) : Screened Number Body :=
  let parsed := orNull (codec.parse body)
  if isNullish (some parsed) = false ∧
      someString config (fun _ => false) parsed = none then
    .refused 400 (errorValue numbers nullValue (-32600)
        (s!"request nests deeper than {config.maxParamDepth} levels or " ++
          s!"has more than {config.maxParamNodes} values"))
  else screenMethods numbers codec config caller parsed body

/-- What a reply under an id is judged by. -/
inductive HashRead (Number : Type) where
  | absent
  | ambiguous
  | call (call : Value Number)

def hashRead (keyed : List (String × Value Number)) (key : String) :
    HashRead Number :=
  match keyed.find? fun entry =>
      entry.1 == key && readsTxByHash entry.2 with
  | none => .absent
  | some entry =>
      if 1 < idCount keyed key then .ambiguous else .call entry.2

/-- The body that asks for the receipt of a raw read. -/
def receiptProbe (call : Value Number) : Value Number :=
  .object [("jsonrpc", textValue "2.0"),
      ("id", .scalar (.number (numbers.ofInteger 0))),
      ("method", textValue "eth_getTransactionReceipt"),
      ("params", .array [orNull ((paramItems call).bind (·[0]?))])]

/-- Whether the node answered a probe with a receipt. -/
def receiptFound (answer : Answer Body) : Bool :=
  !answer.failed && decide (answer.status < 400) &&
    (codec.parse answer.body).any fun value =>
      truthy numbers value && !isNullish (member "result" value)

/-- A transaction as an object, without a block. -/
def withoutBlock (result : Value Number) : Bool :=
  match member "blockNumber" result with
  | some nullValue => true
  | _ => false

/-- The node's responses after sealing: none where an id has no text, whether
any changed, and the bodies sent to look receipts up. -/
structure Sealing (Number Body : Type) where
  responses : Option (List (Value Number))
  changed : Bool
  probes : List Body

/-- A response in front of those sealed after it. -/
def Sealing.add (response : Value Number) (changed : Bool)
    (probes : List Body) (rest : Sealing Number Body) :
    Sealing Number Body where
  responses := rest.responses.map (response :: ·)
  changed := changed || rest.changed
  probes := probes ++ rest.probes

def withoutResult (response : Value Number) : Value Number :=
  withMember "result" nullValue response

variable (backend : Backend Body)

/-- The responses sealed one after the other, `sent` bodies having been sent
already. -/
def sealResponses (keyed : List (String × Value Number)) :
    Nat → List (Value Number) → Sealing Number Body
  | _, [] => { responses := some [], changed := false, probes := [] }
  | sent, response :: responses =>
      if isNullish (member "result" response) then
        (sealResponses keyed sent responses).add response false []
      else
        match idKey numbers response with
        | none => { responses := none, changed := false, probes := [] }
        | some key =>
            match hashRead keyed key with
            | .absent =>
                (sealResponses keyed sent responses).add response false []
            | .ambiguous =>
                (sealResponses keyed sent responses).add
                  (withoutResult response) true []
            | .call call =>
                if methodText call = some "eth_getTransactionByHash" then
                  if withoutBlock (orNull (member "result" response)) then
                    (sealResponses keyed sent responses).add
                      (withoutResult response) true []
                  else
                    (sealResponses keyed sent responses).add response false []
                else
                  let probe := codec.stringify (receiptProbe numbers call)
                  if receiptFound numbers codec (backend sent probe) then
                    (sealResponses keyed (sent + 1) responses).add
                      response false [probe]
                  else
                    (sealResponses keyed (sent + 1) responses).add
                      (withoutResult response) true [probe]

/-- `sealPending`: the bodies sent to look receipts up, and the body for the
client, none where it throws. -/
def sealPending (parsed : Value Number) (upBody : Body) :
    List Body × Option Body :=
  match keyedCalls numbers (calls parsed) with
  | none => ([], none)
  | some keyed =>
      if keyed.any fun entry => readsTxByHash entry.2 then
        match codec.parse upBody with
        | none => ([], some upBody)
        | some reply =>
            let sealing :=
              sealResponses numbers codec backend keyed 1 (calls reply)
            (sealing.probes, sealing.responses.map fun responses =>
                if sealing.changed then
                  codec.stringify (withCalls reply responses)
                else upBody)
      else ([], some upBody)

/-- `handle`, with the `try` around it. -/
def handle (caller : Caller) (body : Body) : Exchange Number Body :=
  match screen numbers codec config caller body with
  | .refused status value =>
      { forwarded := [], reply := some (.refused status value) }
  | .thrown =>
      { forwarded := []
        reply := some (.refused 500 (errorValue numbers nullValue (-32603)
            "gateway internal error")) }
  | .accepted parsed sent =>
      let answer := backend 0 sent
      let sealing := sealPending numbers codec backend parsed answer.body
      { forwarded := sent :: sealing.1
        reply := sealing.2.map (.passed answer.status) }

end Eris.Gateway.Handle
