import Eris.Foundation.IntegerText
import Eris.Gateway.Values

/-!
# Gas and fees read without executing anything

`infra/rpc-gateway/txGas.mjs`: the reader of the gas limit and of the fee
fields of a signed transaction, the fee rule the gateway refuses by, and the
cap written into reads that name their own gas.
-/

namespace Eris.Gateway.TxGas

open Foundation IntegerText Values

/-- The bytes from one position up to another, as `subarray` has them. -/
def subarray (buf : List UInt8) (start stop : Nat) : List UInt8 :=
  (buf.drop start).take (stop - start)

def byteDigits (byte : UInt8) : List Char :=
  [(byte.toNat / 16).digitChar, (byte.toNat % 16).digitChar]

/-- `toString("hex")`. -/
def hexDigits (bytes : List UInt8) : List Char := bytes.flatMap byteDigits

/-- `BigInt("0x" + …)` of a text of digits; an empty one is refused. -/
def bigInt (digits : List Char) : Option Nat := readNatural 16 digits

/-- One item of an encoding: a byte string, or the bounds of a list, with the
position after it. -/
inductive Item where
  | bytes (value : List UInt8) (next : Nat)
  | list (start stop next : Nat)
  deriving DecidableEq

def Item.next : Item → Nat
  | .bytes _ next => next
  | .list _ _ next => next

/-- `rlpDecode`; nothing past the end, or where a length cannot be read. -/
def rlpDecode (buf : List UInt8) (pos : Nat) : Option Item := do
  let head ← buf[pos]?
  let b := head.toNat
  if b ≤ 0x7f then
    return .bytes (subarray buf pos (pos + 1)) (pos + 1)
  if b ≤ 0xb7 then
    let n := b - 0x80
    return .bytes (subarray buf (pos + 1) (pos + 1 + n)) (pos + 1 + n)
  if b ≤ 0xbf then
    let lenLen := b - 0xb7
    let n ← bigInt (hexDigits (subarray buf (pos + 1) (pos + 1 + lenLen)))
    return .bytes (subarray buf (pos + 1 + lenLen) (pos + 1 + lenLen + n))
      (pos + 1 + lenLen + n)
  if b ≤ 0xf7 then
    let n := b - 0xc0
    return .list (pos + 1) (pos + 1 + n) (pos + 1 + n)
  let lenLen := b - 0xf7
  let n ← bigInt (hexDigits (subarray buf (pos + 1) (pos + 1 + lenLen)))
  return .list (pos + 1 + lenLen) (pos + 1 + lenLen + n) (pos + 1 + lenLen + n)

/-- The digit pairs of a text, up to the first that is not one. -/
def hexPairs : List Char → List UInt8
  | high :: low :: digits =>
      match digitValue high, digitValue low with
      | some first, some second =>
          UInt8.ofNat (16 * first + second) :: hexPairs digits
      | _, _ => []
  | _ => []

/-- The bytes of a text of digits, with or without its mark. -/
def hexBytes (rawHex : String) : List UInt8 :=
  match rawHex.toList with
  | '0' :: 'x' :: digits => hexPairs digits
  | digits => hexPairs digits

/-- Where the gas and the fees of a transaction stand. -/
inductive FieldPositions where
  | priced (gasPrice gas : Nat)
  | typed (maxPriorityFeePerGas maxFeePerGas gas : Nat)
  deriving DecidableEq

def FieldPositions.gas : FieldPositions → Nat
  | .priced _ gas => gas
  | .typed _ _ gas => gas

/-- The envelope of a signed transaction. -/
structure Envelope where
  type : Nat
  body : List UInt8
  positions : FieldPositions
  deriving DecidableEq

/-- `envelope`; nothing for a type that is not known. -/
def envelope (rawHex : String) : Option Envelope :=
  let buf := hexBytes rawHex
  match buf with
  | [] => none
  | head :: rest =>
      let type := head.toNat
      if type = 0x01 then some ⟨type, rest, .priced 2 3⟩
      else if type = 0x02 ∨ type = 0x03 ∨ type = 0x04 then
        some ⟨type, rest, .typed 2 3 4⟩
      else if 0xc0 ≤ type then some ⟨0, buf, .priced 1 2⟩
      else none

def scalarFrom (body : List UInt8) : Nat → Nat → Option Nat
  | pos, 0 =>
      match rlpDecode body pos with
      | some (.bytes value _) =>
          if value = [] then bigInt ['0'] else bigInt (hexDigits value)
      | _ => none
  | pos, index + 1 =>
      match rlpDecode body pos with
      | some item => scalarFrom body item.next index
      | none => none

/-- `scalarAt`: the scalar at an index of the list a body is. -/
def scalarAt (body : List UInt8) (index : Nat) : Option Nat :=
  match rlpDecode body 0 with
  | some (.list start _ _) => scalarFrom body start index
  | _ => none

def txGasLimit (rawHex : String) : Option Nat :=
  match envelope rawHex with
  | none => none
  | some env => scalarAt env.body env.positions.gas

inductive TxFees where
  | priced (type gasPrice : Nat)
  | typed (type maxPriorityFeePerGas maxFeePerGas : Nat)
  deriving DecidableEq

def txFees (rawHex : String) : Option TxFees := do
  let env ← envelope rawHex
  match env.positions with
  | .priced gasPrice _ =>
      let gasPrice ← scalarAt env.body gasPrice
      return .priced env.type gasPrice
  | .typed maxPriorityFeePerGas maxFeePerGas _ =>
      let maxPriorityFeePerGas ← scalarAt env.body maxPriorityFeePerGas
      let maxFeePerGas ← scalarAt env.body maxFeePerGas
      return .typed env.type maxPriorityFeePerGas maxFeePerGas

/-- Why a transaction is refused for its fees. -/
structure FeeViolation where
  kind : String
  message : String
  deriving DecidableEq

/-- `feeRuleViolation`; a cap of zero leaves the cap out. -/
def feeRuleViolation (fees : TxFees) (capWei : Int) : Option FeeViolation :=
  match fees with
  | .priced _ gasPrice =>
      if 0 < capWei ∧ capWei < gasPrice then
        some
          { kind := "over_cap"
            message :=
              s!"gasPrice {gasPrice} exceeds the priority-fee cap {capWei} wei" }
      else none
  | .typed _ maxPriorityFeePerGas maxFeePerGas =>
      if maxPriorityFeePerGas < maxFeePerGas then
        some
          { kind := "max_fee_above_tip"
            message :=
              s!"maxFeePerGas {maxFeePerGas} exceeds maxPriorityFeePerGas " ++
                s!"{maxPriorityFeePerGas}: " ++
                "blocks here are ordered by maxFeePerGas while a " ++
                "transaction pays only min(maxFeePerGas, tip) at base fee " ++
                "0, so the excess would buy position without paying for " ++
                "it. Sign maxFeePerGas equal to maxPriorityFeePerGas" }
      else if 0 < capWei ∧ capWei < maxPriorityFeePerGas then
        some
          { kind := "over_cap"
            message :=
              s!"maxPriorityFeePerGas {maxPriorityFeePerGas} exceeds the " ++
                s!"priority-fee cap {capWei} wei" }
      else none

variable {Number : Type} (numbers : Numbers Number)

def callGasMethods : List String :=
  ["eth_call", "eth_estimateGas", "eth_createAccessList"]

/-- The gas a read names; nothing where there is none or it cannot be read. -/
def namedGas (tx : Value Number) : Option Int :=
  match member "gas" tx with
  | some (.scalar (.string text)) => readInteger text
  | some (.scalar (.number value)) => numbers.integer value
  | _ => none

/-- An object without one of its members. -/
def withoutMember (key : String) : Value Number → Value Number
  | .object members => .object (dropEntry key members)
  | value => value

/-- The gas is missing, unreadable or past the cap. -/
def gasPastCap (gas : Option Int) (capGas : Int) : Bool :=
  match gas with
  | none => true
  | some gas => gas < 0 || capGas < gas

/-- The transaction of one read with its gas capped, and whether it changed. -/
def capTx (tx : Value Number) (capGas : Int) : Value Number × Bool :=
  let aliased := (member "gasLimit" tx).isSome
  let dropped := if aliased then withoutMember "gasLimit" tx else tx
  if gasPastCap (namedGas numbers tx) capGas then
    (withMember "gas" (textValue (hexText capGas.toNat)) dropped, true)
  else (dropped, aliased)

/-- One call of `capCallGas`. -/
def capCall (capGas : Int) (call : Value Number) : Value Number × Bool :=
  let named := (member "method" call).bind stringText
  if named.any fun method => callGasMethods.contains method then
    match (member "params" call).bind arrayItems with
    | some (tx :: items) =>
        if isObject tx then
          let capped := capTx numbers tx capGas
          if capped.2 then
            (withMember "params" (.array (capped.1 :: items)) call, true)
          else (call, false)
        else (call, false)
    | _ => (call, false)
  else (call, false)

/-- `capCallGas`: the calls with their gas capped, and how many changed. -/
def capCallGas (calls : List (Value Number)) (capGas : Int) :
    List (Value Number) × Nat :=
  if capGas ≤ 0 then (calls, 0)
  else
    (calls.map fun call => (capCall numbers capGas call).1,
      calls.countP fun call => (capCall numbers capGas call).2)

end Eris.Gateway.TxGas
