import Eris.Foundation.InsertionMap
import Eris.PostRun.BlocksCsv
import Eris.PostRun.FeeRule

/-!
# The checks after a run

`core/src/postRunCheck.ts`.  The rules of fees and of gas are checked on the
rows of the file, and so is that every transaction of an agent was logged by
it.  A row is an agent's by its role, or by its sender where the sender was
found to be an agent's later.
-/

namespace Eris.PostRun.RunChecks

open Foundation Foundation.IntegerText BlocksCsv FeeRule

/-- Numbers as the readers convert texts to them and print them. -/
structure Numbers (Number : Type) where
  ofText : Text → Number
  toText : Number → Text
  ofBigint : Nat → Number
  ofText_toString :
    ∀ value : Nat, ofText (BlocksCsv.toString value) = ofBigint value
  toText_injective : ∀ first second : Nat,
      toText (ofBigint first) = toText (ofBigint second) →
        ofBigint first = ofBigint second
  unbarred : ∀ number, .scalar '|' ∉ toText number

/-- `BigInt(text)`; nothing where it throws. -/
def bigInt (text : Text) : Option Int :=
  readLiteral (trimmed (text.map CodePoint.char))

/-- A column which may be missing or empty. -/
def measuredColumn (cols : List Text) (name : Column) : Option Int :=
  (column cols name).bind fun raw => if raw = [] then none else bigInt raw

/-- A column before the role of a line which has one. -/
def earlier (cols : List Text) (name : Column) : Text :=
  (column cols name).getD []

def AGENT : Text := literal "agent".toList

def EXTERNAL : Text := literal "external".toList

section Checks

variable {Number : Type} [DecidableEq Number] (numbers : Numbers Number)
    (toLowerCase : Text → Text) (derived : Text → Option Text)

def agentRowOwner (cols : List Text) : Option Text :=
  if column cols .role = some AGENT then column cols .ownerId
  else if column cols .role = some EXTERNAL then
    derived (toLowerCase (earlier cols .sender))
  else none

inductive BreachKind where
  | maxFeeAboveTip
  | overCap
deriving DecidableEq

def breachKind : FeeRuleBreach → BreachKind
  | .maxFeeAboveTip _ _ => .maxFeeAboveTip
  | .overCap _ _ _ => .overCap

structure FeeViolation (Number : Type) where
  ownerId : Text
  hash : Text
  blockNumber : Number
  priorityFeeWei : Text
  maxPriorityFeeWei : Text
  kind : BreachKind
  maxFeePerGasWei : Option Text
deriving DecidableEq

def feeViolation (capWei : Int) (cols : List Text) :
    Option (FeeViolation Number) :=
  (agentRowOwner toLowerCase derived cols).bind fun ownerId =>
    ((column cols .priorityFeeWei).bind bigInt).bind fun tip =>
      let maxFee := measuredColumn cols .maxFeePerGasWei
      (checkFeeRule ⟨maxFee, some tip, none⟩ capWei).map fun breach =>
        { ownerId := ownerId
          hash := earlier cols .hash
          blockNumber := numbers.ofText (earlier cols .blockNumber)
          priorityFeeWei := earlier cols .priorityFeeWei
          maxPriorityFeeWei := BlocksCsv.toString capWei
          kind := breachKind breach
          maxFeePerGasWei := maxFee.map BlocksCsv.toString }

def checkFeeViolations (blocksCsv : Text) (maxPriorityFeeWei : Int) :
    List (FeeViolation Number) :=
  (csvRows blocksCsv).filterMap
    (feeViolation numbers toLowerCase derived maxPriorityFeeWei)

structure GasLimits where
  maxTxGas : Int
  maxAgentBlockGas : Int

inductive GasKind where
  | perTx
  | perBlock
deriving DecidableEq

structure GasViolation (Number : Type) where
  ownerId : Text
  kind : GasKind
  blockNumber : Number
  hash : Text
  gasUsed : Text
  limit : Text
deriving DecidableEq

/-- The gas of one transaction of an agent. -/
structure Burn (Number : Type) where
  ownerId : Text
  blockNumber : Number
  hash : Text
  gas : Int
deriving DecidableEq

structure BlockGas (Number : Type) where
  ownerId : Text
  block : Number
  gas : Int
deriving DecidableEq

def burnOf (cols : List Text) : Option (Burn Number) :=
  (agentRowOwner toLowerCase derived cols).bind fun ownerId =>
    (measuredColumn cols .gasUsed).map fun gas =>
      { ownerId := ownerId
        blockNumber := numbers.ofText (earlier cols .blockNumber)
        hash := earlier cols .hash
        gas := gas }

/-- The key of the gas of an agent in a block. -/
def blockKey (burn : Burn Number) : Text :=
  burn.ownerId ++ .scalar '|' :: numbers.toText burn.blockNumber

/-- Add the gas of a transaction to that of its block. -/
def addGas (burn : Burn Number) (entry : Option (BlockGas Number)) :
    BlockGas Number :=
  match entry with
  | some entry => { entry with gas := entry.gas + burn.gas }
  | none => ⟨burn.ownerId, burn.blockNumber, burn.gas⟩

/-- A transaction over its limit; a limit of zero is none. -/
def overTxLimit (limit : Int) (burn : Burn Number) :
    Option (GasViolation Number) :=
  if 0 < limit ∧ limit < burn.gas then
    some
      { ownerId := burn.ownerId
        kind := .perTx
        blockNumber := burn.blockNumber
        hash := burn.hash
        gasUsed := BlocksCsv.toString burn.gas
        limit := BlocksCsv.toString limit }
  else none

/-- An agent over its limit in a block; a limit of zero is none. -/
def overBlockLimit (limit : Int) (entry : BlockGas Number) :
    Option (GasViolation Number) :=
  if 0 < limit ∧ limit < entry.gas then
    some
      { ownerId := entry.ownerId
        kind := .perBlock
        blockNumber := entry.block
        hash := []
        gasUsed := BlocksCsv.toString entry.gas
        limit := BlocksCsv.toString limit }
  else none

def checkGasViolations (blocksCsv : Text) (limits : GasLimits) :
    List (GasViolation Number) :=
  let burns :=
    (csvRows blocksCsv).filterMap (burnOf numbers toLowerCase derived)
  let perBlock := InsertionMap.gather (blockKey numbers) addGas burns
  burns.filterMap (overTxLimit limits.maxTxGas) ++
    perBlock.values.filterMap (overBlockLimit limits.maxAgentBlockGas)

structure UnloggedAgentTx (Number : Type) where
  ownerId : Text
  hash : Text
  blockNumber : Number
deriving DecidableEq

/-- The transaction of one line, where its owner did not log it. -/
def unloggedTx (submittedByOwner : Text → Option (List Text))
    (cols : List Text) : Option (UnloggedAgentTx Number) :=
  (agentRowOwner toLowerCase derived cols).bind fun ownerId =>
    (submittedByOwner ownerId).bind fun submitted =>
      let hash := toLowerCase (earlier cols .hash)
      if hash ∈ submitted then none
      else
        some
          { ownerId := ownerId
            hash := hash
            blockNumber := numbers.ofText (earlier cols .blockNumber) }

def findUnloggedAgentTxs (blocksCsv : Text)
    (submittedByOwner : Text → Option (List Text)) :
    List (UnloggedAgentTx Number) :=
  (csvRows blocksCsv).filterMap
    (unloggedTx numbers toLowerCase derived submittedByOwner)

end Checks

end Eris.PostRun.RunChecks
