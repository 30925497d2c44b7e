import Eris.Gateway.Values

/-!
# What the gateway lets a call ask for

`infra/rpc-gateway/gateway.mjs`: the methods a caller may name, the walk that
looks for the pending block tag, and the two rewrites that keep a call from
reading the pool, `defaultBlockTag` and `sealSenderPending`.
-/

namespace Eris.Gateway.CallFilter

open Foundation Values

variable {Number : Type} (numbers : Numbers Number)

/-- `METHOD_ALLOW`: the explicit list, or a pattern that replaces it. -/
inductive MethodAllow where
  | listed (methods : List String)
  | pattern (matched : String → Bool)

structure Config where
  filterMethods : Bool
  methodAllow : MethodAllow
  methodDeny : String → Bool
  maxParamDepth : Nat
  maxParamNodes : Nat
  pendingSealedSenders : List String
  maxTxGas : Int
  maxCallGas : Int
  maxPriorityFee : Int
  maxInFlightPerClient : Nat
  heavyWeight : Nat

def allowedMethods : List String :=
  ["web3_clientVersion", "net_version", "net_listening",
    "eth_chainId", "eth_blockNumber", "eth_syncing", "eth_gasPrice",
    "eth_maxPriorityFeePerGas", "eth_feeHistory", "eth_blobBaseFee",
    "eth_getBalance", "eth_getCode", "eth_getStorageAt",
    "eth_getTransactionCount", "eth_getProof",
    "eth_call", "eth_estimateGas", "eth_createAccessList",
    "eth_getBlockByNumber", "eth_getBlockByHash",
    "eth_getBlockTransactionCountByNumber",
    "eth_getBlockTransactionCountByHash",
    "eth_getTransactionByHash", "eth_getRawTransactionByHash",
    "eth_getTransactionByBlockNumberAndIndex",
    "eth_getTransactionByBlockHashAndIndex",
    "eth_getRawTransactionByBlockNumberAndIndex",
    "eth_getRawTransactionByBlockHashAndIndex",
    "eth_getTransactionReceipt", "eth_getBlockReceipts",
    "eth_getLogs", "eth_newFilter", "eth_newBlockFilter",
    "eth_uninstallFilter", "eth_sendRawTransaction"]

/-- `METHOD_DENY`, the default pattern: some beginnings and some methods. -/
def deniedByDefault (method : String) : Bool :=
  (["eth_accounts", "eth_sendTransaction", "eth_sign"].any fun beginning =>
      beginning.toList.isPrefixOf method.toList) ||
    ["eth_pendingTransactions", "eth_newPendingTransactionFilter",
      "eth_getFilterChanges", "eth_getFilterLogs",
      "eth_subscribe"].contains method

/-- The configuration without any setting in the environment. -/
def defaultConfig : Config where
  filterMethods := true
  methodAllow := .listed allowedMethods
  methodDeny := deniedByDefault
  maxParamDepth := 64
  maxParamNodes := 100000
  pendingSealedSenders := []
  maxTxGas := 10000000
  maxCallGas := 10000000
  maxPriorityFee := 5000000000
  maxInFlightPerClient := 16
  heavyWeight := 5

variable (config : Config)

/-- `METHOD_ALLOW.test`; nothing where it throws.  The list knows strings
only, a pattern is tried on the text of whatever it is given. -/
def MethodAllow.test : MethodAllow → Value Number → Option Bool
  | .listed methods, method =>
      some ((stringText method).any fun text => methods.contains text)
  | .pattern matched, method => (toText numbers method).map matched

/-- The walk of `someString` with a budget of values left to visit, over the
values still on the stack with their depths. -/
def scan (accepts : String → Bool) :
    Nat → List (Value Number × Nat) → Option Bool
  | _, [] => some false
  | 0, _ :: _ => none
  | left + 1, (value, depth) :: stack =>
      if config.maxParamDepth < depth then none
      else if (stringText value).any accepts then some true
      else
        scan accepts left
          ((children value).reverse.map (fun child => (child, depth + 1)) ++
            stack)

/-- `someString`: whether some string in the value is accepted; nothing past
the limits on depth and size. -/
def someString (accepts : String → Bool) (value : Value Number) :
    Option Bool :=
  scan config accepts config.maxParamNodes [(value, 0)]

/-- `text.toLowerCase()`, of the letters the gateway compares with. -/
def toLowerCase (text : String) : String :=
  String.ofList (text.toList.map Char.toLower)

def isPending (text : String) : Bool := toLowerCase text == "pending"

theorem not_mentions_of_children
    {accepts : String → Bool} {value : Value Number}
    (itself : (stringText value).any accepts = false)
    (inside : ∀ child ∈ children value, ¬Mentions accepts child) :
    ¬Mentions accepts value := by
  cases value with
  | scalar primitive =>
      rintro ⟨text, written, accepted⟩
      cases primitive with
      | string own =>
          rw [strings, List.mem_singleton] at written
          rw [written] at accepted
          rw [stringText, Option.any_some, accepted] at itself
          cases itself
      | null => cases written
      | boolean value => cases written
      | number value => cases written
  | array items =>
      rw [mentions_array]
      rintro ⟨item, listed, mentioned⟩
      exact inside item listed mentioned
  | object members =>
      rw [mentions_object]
      rintro ⟨entry, listed, mentioned⟩
      exact inside entry.2 (List.mem_map_of_mem listed) mentioned

theorem scan_sound
    {accepts : String → Bool} {left : Nat} {stack : List (Value Number × Nat)}
    (nothing : scan config accepts left stack = some false) :
    ∀ entry ∈ stack, ¬Mentions accepts entry.1 := by
  induction left generalizing stack with
  | zero =>
      cases stack with
      | nil => exact fun _ listed => nomatch listed
      | cons entry stack => cases nothing
  | succ left ih =>
      cases stack with
      | nil => exact fun _ listed => nomatch listed
      | cons entry stack =>
          obtain ⟨value, depth⟩ := entry
          rw [scan] at nothing
          split at nothing
          · cases nothing
          split at nothing
          · cases nothing
          rename_i itself
          have rest := ih nothing
          intro entry listed
          rcases List.mem_cons.mp listed with rfl | later
          · apply not_mentions_of_children
            · simpa using itself
            · intro child inside
              apply rest (child, depth + 1)
              apply List.mem_append_left
              exact List.mem_map_of_mem (List.mem_reverse.mpr inside)
          · exact rest entry (List.mem_append_right _ later)

theorem someString_sound
    {accepts : String → Bool} {value : Value Number}
    (nothing : someString config accepts value = some false) :
    ¬Mentions accepts value :=
  scan_sound config nothing (value, 0) List.mem_cons_self

/-- The calls of a body: the members of a batch, or the body itself. -/
def calls : Value Number → List (Value Number)
  | .array items => items
  | value => [value]

/-- `c.method` where it counts as true. -/
def namedMethod (call : Value Number) : Option (Value Number) :=
  (member "method" call).filter fun method => truthy numbers method

/-- The text of a method that is a string. -/
def methodText (call : Value Number) : Option String :=
  (member "method" call).bind stringText

def paramItems (call : Value Number) : Option (List (Value Number)) :=
  (member "params" call).bind arrayItems

def pendingTagExempt (method : Value Number) : Bool :=
  stringText method == some "eth_getTransactionCount"

/-- Whether a call that names a method is refused for it; nothing where a
pattern is tried on a value without a text. -/
def forbidden (method call : Value Number) : Option Bool := do
  let allowed ← config.methodAllow.test numbers method
  if !allowed then return true
  let text ← toText numbers method
  if config.methodDeny text then return true
  return !pendingTagExempt method &&
    someString config isPending (orNull (member "params" call)) != some false

/-- The method of the first call that is refused. -/
def refusedMethod : List (Value Number) → Option (Option (Value Number))
  | [] => some none
  | call :: calls =>
      match namedMethod numbers call with
      | none => refusedMethod calls
      | some method =>
          match forbidden numbers config method call with
          | none => none
          | some true => some (some method)
          | some false => refusedMethod calls

/-- What every object inherits: names that `BLOCK_PARAM_INDEX` answers to
without listing them. -/
def inheritedKeys : List String :=
  ["constructor", "__defineGetter__", "__defineSetter__", "hasOwnProperty",
    "__lookupGetter__", "__lookupSetter__", "isPrototypeOf",
    "propertyIsEnumerable", "toString", "valueOf", "__proto__",
    "toLocaleString"]

def methodKey (call : Value Number) : Option String :=
  match member "method" call with
  | none => some "undefined"
  | some method => toText numbers method

/-- `defaultBlockTag`: an estimate without a block parameter is one as of the
latest block.  For an inherited name the tag is written to a property that is
not an item, so that the call stays as it is and counts as rewritten. -/
def defaultBlockTag (call : Value Number) : Option (Value Number × Bool) :=
  (methodKey numbers call).map fun key =>
    match paramItems call with
    | none => (call, false)
    | some items =>
        if key = "eth_estimateGas" then
          if items.length < 1 || !isNullish items[1]? then (call, false)
          else
            (withMember "params"
              (.array (writeItem 1 (textValue "latest") items)) call, true)
        else (call, inheritedKeys.contains key)

def canonicalAddress (text : String) : Bool :=
  match text.toList with
  | '0' :: 'x' :: digits =>
      digits.length == 40 && digits.all fun digit =>
        ('0' ≤ digit && digit ≤ '9') || ('a' ≤ digit && digit ≤ 'f') ||
          ('A' ≤ digit && digit ≤ 'F')
  | _ => false

/-- An address whose pending count anyone may read. -/
def unsealedSender (address : String) : Bool :=
  canonicalAddress address &&
    !config.pendingSealedSenders.contains (toLowerCase address)

/-- `sealSenderPending`: the pending count of a sealed sender, or of one the
list cannot be checked for, is answered as of the latest block. -/
def sealSenderPending (call : Value Number) : Value Number × Bool :=
  if methodText call = some "eth_getTransactionCount" then
    match paramItems call with
    | none => (call, false)
    | some items =>
        if someString config isPending (orNull items[1]?) = some false then
          (call, false)
        else if (items[0]?.bind stringText).any (unsealedSender config) then
          (call, false)
        else
          (withMember "params"
            (.array (writeItem 1 (textValue "latest") items)) call, true)
  else (call, false)

/-- Both rewrites of one call, and whether either changed it. -/
def rewriteCall (call : Value Number) : Option (Value Number × Bool) :=
  (defaultBlockTag numbers call).map fun tagged =>
    let sealedCall := sealSenderPending config tagged.1
    (sealedCall.1, tagged.2 || sealedCall.2)

def rewriteCalls :
    List (Value Number) → Option (List (Value Number) × Bool)
  | [] => some ([], false)
  | call :: calls => do
      let first ← rewriteCall numbers config call
      let rest ← rewriteCalls calls
      return (first.1 :: rest.1, first.2 || rest.2)

end Eris.Gateway.CallFilter
