import Eris.Actions.Adapters

/-!
# Reading an action

The runtime reads the object an agent has sent.  A leaf action is the first one
the enabled adapters read; a bundle reads its items as leaf actions, looks for
the adapter of what was read, and asks it whether the action can be bundled.
-/

namespace Eris.Actions.ParseAction

open Foundation.Validation ActionTypes Adapters

variable (setup : Setup)

/-- The first adapter which reads the value, and what it has read. -/
def firstRead (value : Doc) :
    List ProtocolId → Except String (Option (ProtocolId × Doc))
  | [] => .ok none
  | protocol :: protocols =>
      (parse setup protocol value).bind fun read =>
        match read with
        | some action => .ok (some (protocol, action))
        | none => firstRead value protocols

def parseLeafAction (value : Doc) : Except String Doc :=
  (firstRead setup value setup.enabled).bind fun read =>
    match read with
    | some (_, action) => .ok action
    | none =>
        .error ("unknown or disabled action type: " ++
            setup.spelled (member "type" value))

def adapterForAction (action : Doc) : Except String ProtocolId :=
  (firstRead setup action setup.enabled).bind fun read =>
    match read with
    | some (protocol, _) => .ok protocol
    | none =>
        .error ("no adapter owns action type: " ++
            setup.spelled (member "type" action))

def parseItem (item : Doc) : Except String Doc :=
  if !isStructured item then .error "bundle action must be an object"
  else if typeIs "noop" item then .error "bundle cannot contain noop"
  else if typeIs "bundle" item then
    .error "bundle cannot contain nested bundle"
  else
    (parseLeafAction setup item).bind fun action =>
      (adapterForAction setup action).bind fun protocol =>
        if bundleable protocol then .ok action
        else
          .error ("action type " ++ setup.spelled (member "type" item) ++
              " cannot be bundled")

/-- The items are read one after the other. -/
def parseItems : List Doc → Except String (List Doc)
  | [] => .ok []
  | item :: items =>
      (parseItem setup item).bind fun action =>
        (parseItems items).map fun actions => action :: actions

def parseBundleAction (value : Doc) : Except String Doc :=
  match member "actions" value with
  | some (.array items) =>
      (parseItems setup items).bind fun actions =>
        (readRules [priorityFee] value).map fun fee =>
          .object
            (("type", textDoc "bundle") :: ("actions", .array actions) :: fee)
  | _ => .error "bundle actions must be an array"

/-- Without a receiver, or with a null one, the transaction deploys. -/
def isDeploy (tx : Doc) : Bool := isMissing (member "to" tx)

/-- Creation code is longer than the mark of a hexadecimal text. -/
def hasCode : Option Doc → Bool := textThat fun data => 2 < data.length

def rawTxRules (deploys : Bool) : List Rule :=
  [{ key := "to"
     skips := isMissing
     written := none
     tests := [⟨isHex, "raw tx to must be a hex string (omit it to deploy)"⟩] },
    .required "data"
      [⟨isHex, "raw tx data must be a hex string"⟩,
        ⟨fun data => !deploys || hasCode data,
          "a deployment needs creation bytecode in data"⟩],
    .optional "value"
      [⟨isDecimal, "raw tx value must be a decimal integer string"⟩]]

def parseRawTx (tx : Doc) : Except String Doc :=
  (readRules (rawTxRules (isDeploy tx)) tx).map .object

def parseRawTxAction (value : Doc) : Except String Doc :=
  match member "tx" value with
  | some tx =>
      if isStructured tx then
        (parseRawTx tx).bind fun read =>
          (readRules [priorityFee] value).map fun fee =>
            .object (("type", textDoc "rawTx") :: ("tx", read) :: fee)
      else .error "rawTx must have a tx object"
  | none => .error "rawTx must have a tx object"

/-- The transactions of a raw bundle, the first of them at a place. -/
def parseRawTxs : ℕ → List Doc → Except String (List Doc)
  | _, [] => .ok []
  | place, tx :: txs =>
      if isStructured tx then
        (parseRawTx tx).bind fun read =>
          (parseRawTxs (place + 1) txs).map fun reads => read :: reads
      else
        .error ("rawBundle txs[" ++ toString place ++ "] must be an object")

def parseRawBundleAction (value : Doc) : Except String Doc :=
  match member "txs" value with
  | some (.array []) => .error "rawBundle txs must not be empty"
  | some (.array txs) =>
      (parseRawTxs 0 txs).bind fun reads =>
        (readRules [priorityFee] value).map fun fee =>
          .object
            (("type", textDoc "rawBundle") :: ("txs", .array reads) :: fee)
  | _ => .error "rawBundle txs must be an array"

/-- The reason of doing nothing is kept when it is a text. -/
def noopRules : List Rule := [.kept "reason" isText]

def parseAction (value : Doc) : Except String Doc :=
  if !isStructured value then .error "action must be an object"
  else if typeIs "noop" value then
    readObject ("type", textDoc "noop") noopRules value
  else if typeIs "bundle" value then parseBundleAction setup value
  else if typeIs "rawTx" value then parseRawTxAction value
  else if typeIs "rawBundle" value then parseRawBundleAction value
  else parseLeafAction setup value

end Eris.Actions.ParseAction
