import Eris.Foundation.IntegerText
import Eris.Foundation.Validation

/-!
# The types of actions

The protocols, the leaf actions each of them takes and the patterns their
fields are written in.  A setup is what the readers of actions look up: the
markets of each protocol, the stables with a market of their own, and the
protocols which the run has enabled.
-/

namespace Eris.Actions.ActionTypes

open Foundation.IntegerText Foundation.Validation

inductive ProtocolId
  | uniswap
  | balancer
  | curve
  | aave
  | gmx
  | lst
  | liquity
  | lending
deriving DecidableEq

def ProtocolId.text : ProtocolId → String
  | .uniswap => "uniswap"
  | .balancer => "balancer"
  | .curve => "curve"
  | .aave => "aave"
  | .gmx => "gmx"
  | .lst => "lst"
  | .liquity => "liquity"
  | .lending => "lending"

inductive LeafType
  | swap
  | mintLiquidity
  | removeLiquidity
  | collectFees
  | createPool
  | balancerSwap
  | curveSwap
  | stableSwap
  | aaveSupply
  | aaveWithdraw
  | aaveBorrow
  | aaveRepay
  | gmxIncrease
  | gmxDecrease
  | gmxCancelOrder
  | lstDeposit
  | lstSwap
  | lstRequestWithdraw
  | lstClaimWithdraw
  | liquityOpenTrove
  | liquityAdjustTrove
  | liquityCloseTrove
  | liquityRedeem
  | liquityProvideToSP
  | liquityWithdrawFromSP
  | liquityLiquidate
  | liquitySwapEusd
  | createLendingMarket
  | lendingSupply
  | lendingWithdraw
  | lendingSupplyCollateral
  | lendingWithdrawCollateral
  | lendingBorrow
  | lendingRepay
  | lendingLiquidate
deriving DecidableEq

namespace LeafType

/-- The text a leaf action carries as its type. -/
def text : LeafType → String
  | .swap => "swap"
  | .mintLiquidity => "mintLiquidity"
  | .removeLiquidity => "removeLiquidity"
  | .collectFees => "collectFees"
  | .createPool => "createPool"
  | .balancerSwap => "balancerSwap"
  | .curveSwap => "curveSwap"
  | .stableSwap => "stableSwap"
  | .aaveSupply => "aaveSupply"
  | .aaveWithdraw => "aaveWithdraw"
  | .aaveBorrow => "aaveBorrow"
  | .aaveRepay => "aaveRepay"
  | .gmxIncrease => "gmxIncrease"
  | .gmxDecrease => "gmxDecrease"
  | .gmxCancelOrder => "gmxCancelOrder"
  | .lstDeposit => "lstDeposit"
  | .lstSwap => "lstSwap"
  | .lstRequestWithdraw => "lstRequestWithdraw"
  | .lstClaimWithdraw => "lstClaimWithdraw"
  | .liquityOpenTrove => "liquityOpenTrove"
  | .liquityAdjustTrove => "liquityAdjustTrove"
  | .liquityCloseTrove => "liquityCloseTrove"
  | .liquityRedeem => "liquityRedeem"
  | .liquityProvideToSP => "liquityProvideToSP"
  | .liquityWithdrawFromSP => "liquityWithdrawFromSP"
  | .liquityLiquidate => "liquityLiquidate"
  | .liquitySwapEusd => "liquitySwapEusd"
  | .createLendingMarket => "createLendingMarket"
  | .lendingSupply => "lendingSupply"
  | .lendingWithdraw => "lendingWithdraw"
  | .lendingSupplyCollateral => "lendingSupplyCollateral"
  | .lendingWithdrawCollateral => "lendingWithdrawCollateral"
  | .lendingBorrow => "lendingBorrow"
  | .lendingRepay => "lendingRepay"
  | .lendingLiquidate => "lendingLiquidate"

def all : List LeafType :=
  [.swap, .mintLiquidity, .removeLiquidity, .collectFees, .createPool,
    .balancerSwap, .curveSwap, .stableSwap, .aaveSupply, .aaveWithdraw,
    .aaveBorrow, .aaveRepay, .gmxIncrease, .gmxDecrease, .gmxCancelOrder,
    .lstDeposit, .lstSwap, .lstRequestWithdraw, .lstClaimWithdraw,
    .liquityOpenTrove, .liquityAdjustTrove, .liquityCloseTrove,
    .liquityRedeem, .liquityProvideToSP, .liquityWithdrawFromSP,
    .liquityLiquidate, .liquitySwapEusd, .createLendingMarket,
    .lendingSupply, .lendingWithdraw, .lendingSupplyCollateral,
    .lendingWithdrawCollateral, .lendingBorrow, .lendingRepay,
    .lendingLiquidate]

/-- The leaf action with a text as its type. -/
def ofText (text : String) : Option LeafType :=
  all.find? fun type => type.text = text

theorem ofText_text (type : LeafType) : ofText type.text = some type := by
  cases type <;> rfl

theorem text_of_ofText
    {text : String} {type : LeafType} (found : ofText text = some type) :
    type.text = text := by
  simpa using List.find?_some found

end LeafType

/-- The value carries a text as its type. -/
def typeIs (text : String) (value : Doc) : Bool :=
  textThat (fun other => other = text) (member "type" value)

/-- The leaf action whose type the value carries. -/
def leafType? (value : Doc) : Option LeafType :=
  match member "type" value with
  | some (.scalar (.text text)) => LeafType.ofText text
  | _ => none

theorem leafType?_eq_some (value : Doc) (type : LeafType) :
    leafType? value = some type ↔ typeIs type.text value = true := by
  unfold leafType? typeIs
  constructor
  · intro found
    split at found
    · next text carried =>
        rw [carried]
        simpa [textThat] using (LeafType.text_of_ofText found).symm
    · cases found
  · intro carries
    rcases carried : member "type" value with
      _ | (_ | _ | _ | _ | text) | _ | _
    case some.scalar.text =>
      rw [carried] at carries
      obtain rfl : text = type.text := by
        simpa [textThat] using carries
      exact LeafType.ofText_text type
    all_goals
      rw [carried] at carries
      cases carries

theorem typeIs_unique
    {value : Doc} {text other : String} (carries : typeIs text value = true) :
    typeIs other value = decide (text = other) := by
  unfold typeIs at carries ⊢
  match carried : member "type" value with
  | some (.scalar (.text own)) =>
      rw [carried] at carries
      obtain rfl : own = text := by
        simpa [textThat] using carries
      rfl
  | some (.scalar .null) | some (.scalar (.boolean _))
  | some (.scalar (.number _)) | some (.scalar (.infinite _))
  | some (.array _) | some (.object _) | none =>
      rw [carried] at carries
      cases carries

theorem leafType?_of_typeIs
    {value : Doc} {text : String} (carries : typeIs text value = true)
    (foreign : LeafType.ofText text = none) :
    leafType? value = none := by
  cases typed : leafType? value with
  | none => rfl
  | some type =>
      have own := (leafType?_eq_some value type).mp typed
      rw [typeIs_unique carries, decide_eq_true_eq] at own
      rw [own, LeafType.ofText_text] at foreign
      cases foreign

def decimalInteger (text : String) : Bool :=
  !text.isEmpty && text.toList.all Char.isDigit

def isHexDigit (char : Char) : Bool :=
  char.isDigit || ('a' ≤ char && char ≤ 'f') || ('A' ≤ char && char ≤ 'F')

/-- A text of hexadecimal digits after `0x`, as many as a test allows. -/
def hexDigits (count : ℕ → Bool) (text : String) : Bool :=
  match text.toList with
  | '0' :: 'x' :: digits => digits.all isHexDigit && count digits.length
  | _ => false

def hexPattern : String → Bool := hexDigits fun _ => true

def hexAddressPattern : String → Bool := hexDigits fun count => count = 40

/-- `HEX_32`. -/
def hex32Pattern : String → Bool := hexDigits fun count => count = 64

/-- Capital letters and digits, one at least. -/
def upperCase (text : String) : Bool :=
  !text.isEmpty && text.toList.all fun char => char.isUpper || char.isDigit

/-- The number a text of decimal digits stands for. -/
def decimalValue (text : String) : ℕ := (readDigits 10 0 text.toList).getD 0

def isDecimal : Option Doc → Bool := textThat decimalInteger

/-- A text of decimal digits, or `max`. -/
def isDecimalOrMax : Option Doc → Bool :=
  textThat fun text => decimalInteger text || text = "max"

/-- A text of hexadecimal digits after `0x`. -/
def isHex : Option Doc → Bool := textThat hexPattern

def isHexAddress : Option Doc → Bool := textThat hexAddressPattern

/-- A text of sixty-four hexadecimal digits. -/
def isHex32 : Option Doc → Bool := textThat hex32Pattern

def isText : Option Doc → Bool := textThat fun _ => true

def isSymbol : Option Doc → Bool := textThat upperCase

def isOneOf (texts : List String) : Option Doc → Bool :=
  textThat fun text => texts.contains text

/-- A market of a base against the quote of its protocol. -/
structure Market where
  base : String
  quote : String
  gmxLeg : Bool

structure StableMarket where
  symbol : String
  venue : ProtocolId

/-- The deployment and the enabled protocols.  `spelled` is the text the
language gives to a value in a message. -/
structure Setup where
  markets : ProtocolId → List Market
  stables : List StableMarket
  lstListed : Bool
  enabled : List ProtocolId
  spelled : Option Doc → String

namespace Setup

def marketFor (setup : Setup) (protocol : ProtocolId) (base : String) :
    Option Market :=
  (setup.markets protocol).find? fun market => market.base = base

def aaveReserveSymbols (setup : Setup) : List String :=
  (setup.markets .aave).map Market.base ++ ["USDC"] ++
    if setup.lstListed && setup.enabled.contains .lst then ["LST"] else []

def marketPricedStables (setup : Setup) : List StableMarket :=
  setup.stables.filter fun market => setup.enabled.contains market.venue

def stableMarketBySymbol (setup : Setup) (symbol : String) :
    Option StableMarket :=
  setup.marketPricedStables.find? fun market => market.symbol = symbol

end Setup

/-- The base a value asks for, the default one unless it names a base. -/
def baseOf (value : Doc) : String :=
  match member "base" value with
  | some (.scalar (.text base)) => base
  | _ => "WETH"

end Eris.Actions.ActionTypes
