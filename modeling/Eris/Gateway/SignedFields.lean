import Eris.Foundation.Rlp
import Eris.Gateway.TxGas

/-!
# What a signed transaction says

`infra/rpc-gateway/txGas.mjs` reads three layouts: a list of fields, after a
byte of the type unless the transaction is a legacy one.  A transaction is
written here as its signer encodes it, and the gateway reads from it the gas
limit and the fees which were signed.
-/

namespace Eris.Gateway.SignedFields

open Foundation IntegerText Rlp TxGas

/-- The types whose fees are a tip and a ceiling. -/
inductive FeeMarketType where
  | eip1559
  | eip4844
  | eip7702

def FeeMarketType.byte : FeeMarketType → UInt8
  | .eip1559 => 0x02
  | .eip4844 => 0x03
  | .eip7702 => 0x04

/-- The fields which depend on the type. -/
inductive Pricing where
  | legacy (gasPrice : ℕ)
  | accessList (chainId gasPrice : ℕ)
  | feeMarket
      (type : FeeMarketType) (chainId maxPriorityFeePerGas maxFeePerGas : ℕ)

/-- A transaction; `rest` encodes the fields after its gas limit. -/
structure SignedTx where
  pricing : Pricing
  nonce : ℕ
  gas : ℕ
  rest : List UInt8

def encodeScalars (scalars : List ℕ) : List UInt8 :=
  scalars.flatMap fun scalar => encodeBytes (bigEndian scalar)

namespace SignedTx

variable (tx : SignedTx)

/-- The fields up to the gas limit. -/
def scalars : List ℕ :=
  match tx.pricing with
  | .legacy gasPrice => [tx.nonce, gasPrice, tx.gas]
  | .accessList chainId gasPrice => [chainId, tx.nonce, gasPrice, tx.gas]
  | .feeMarket _ chainId maxPriorityFeePerGas maxFeePerGas =>
      [chainId, tx.nonce, maxPriorityFeePerGas, maxFeePerGas, tx.gas]

def typeBytes : List UInt8 :=
  match tx.pricing with
  | .legacy _ => []
  | .accessList _ _ => [0x01]
  | .feeMarket type _ _ _ => [type.byte]

def payload : List UInt8 := encodeScalars tx.scalars ++ tx.rest

/-- The text which is sent to the gateway. -/
def raw : String :=
  "0x" ++ String.ofList (hexDigits (tx.typeBytes ++ encodeList tx.payload))

def fees : TxFees :=
  match tx.pricing with
  | .legacy gasPrice => .priced 0 gasPrice
  | .accessList _ gasPrice => .priced 1 gasPrice
  | .feeMarket type _ maxPriorityFeePerGas maxFeePerGas =>
      .typed type.byte.toNat maxPriorityFeePerGas maxFeePerGas

/-- The envelope the gateway should find. -/
def envelope : Envelope :=
  match tx.pricing with
  | .legacy _ => ⟨0, encodeList tx.payload, .priced 1 2⟩
  | .accessList _ _ => ⟨1, encodeList tx.payload, .priced 2 3⟩
  | .feeMarket type _ _ _ =>
      ⟨type.byte.toNat, encodeList tx.payload, .typed 2 3 4⟩

end SignedTx

/-! ## Digits -/

theorem hexDigits_cons (byte : UInt8) (bytes : List UInt8) :
    hexDigits (byte :: bytes) =
      (byte.toNat / 16).digitChar :: (byte.toNat % 16).digitChar ::
        hexDigits bytes :=
  rfl

theorem hexPairs_hexDigits (bytes : List UInt8) :
    hexPairs (hexDigits bytes) = bytes := by
  induction bytes with
  | nil => rfl
  | cons byte bytes ih =>
      have small := byte.toNat_lt
      have whole := Nat.div_add_mod byte.toNat 16
      rw [hexDigits_cons, hexPairs, digitValue_digitChar (by omega),
        digitValue_digitChar (by omega)]
      simp only [ih, whole, UInt8.ofNat_toNat]

theorem readDigits_hexDigits (value : ℕ) (bytes : List UInt8) :
    readDigits 16 value (hexDigits bytes) = some (readBytes value bytes) := by
  induction bytes generalizing value with
  | nil => rfl
  | cons byte bytes ih =>
      have small := byte.toNat_lt
      have next : 16 * (16 * value + byte.toNat / 16) + byte.toNat % 16 =
          256 * value + byte.toNat := by
        omega
      rw [hexDigits_cons, readDigits, digitValue_digitChar (by omega)]
      dsimp only
      rw [if_pos (by omega), readDigits, digitValue_digitChar (by omega)]
      dsimp only
      rw [if_pos (by omega), next, ih]
      rfl

theorem bigInt_hexDigits
    {bytes : List UInt8} (filled : bytes ≠ []) :
    bigInt (hexDigits bytes) = some (readBytes 0 bytes) := by
  cases bytes with
  | nil => exact absurd rfl filled
  | cons byte bytes => exact readDigits_hexDigits 0 (byte :: bytes)

theorem bigInt_bigEndian {value : ℕ} (positive : 0 < value) :
    bigInt (hexDigits (bigEndian value)) = some value := by
  rw [bigInt_hexDigits (bigEndian_ne_nil positive), readBytes_bigEndian]

variable {body bytes after : List UInt8} {pos : ℕ}

theorem drop_past (standing : body.drop pos = bytes ++ after) :
    body.drop (pos + bytes.length) = after := by
  rw [← List.drop_drop, standing, List.drop_left]

theorem subarray_standing (standing : body.drop pos = bytes ++ after) :
    subarray body pos (pos + bytes.length) = bytes := by
  rw [subarray, standing, Nat.add_sub_cancel_left, List.take_left]

theorem head_standing
    {head : UInt8} (standing : body.drop pos = head :: after) :
    body[pos]? = some head ∧ body.drop (pos + 1) = after := by
  constructor
  · rw [← List.head?_drop, standing]
    rfl
  · exact @drop_past body [head] after pos standing

theorem toNat_head {mark : ℕ} (small : mark ≤ 0xff) :
    (UInt8.ofNat mark).toNat = mark :=
  UInt8.toNat_ofNat_of_lt' (Nat.lt_succ_of_le small)

/-- The item which a payload after its head is read as. -/
def itemAt (mark start : ℕ) (payload : List UInt8) : Item :=
  if mark = 0x80 then .bytes payload (start + payload.length)
  else .list start (start + payload.length) (start + payload.length)

theorem rlpDecode_header
    {mark : ℕ} {payload : List UInt8} (marked : mark = 0x80 ∨ mark = 0xc0)
    (short : payload.length < 256 ^ 8)
    (standing : body.drop pos =
      header mark payload.length ++ (payload ++ after)) :
    rlpDecode body pos = some (itemAt mark
      (pos + (header mark payload.length).length) payload) := by
  have past := drop_past standing
  unfold header at standing past ⊢
  split at standing
  next few =>
    have head : (UInt8.ofNat (mark + payload.length)).toNat =
        mark + payload.length := toNat_head (by omega)
    rw [if_pos few] at past ⊢
    have whole := subarray_standing past
    rw [rlpDecode, (head_standing standing).1]
    simp only [Option.bind_eq_bind, Option.bind_some, head,
      List.length_singleton] at whole ⊢
    rcases marked with rfl | rfl
    · rw [if_neg (by omega), if_pos (by omega), Nat.add_sub_cancel_left, whole]
      rfl
    · rw [if_neg (by omega), if_neg (by omega), if_neg (by omega),
        if_pos (by omega), Nat.add_sub_cancel_left]
      rfl
  next many =>
    have digits := length_bigEndian_le short
    have filled := List.length_pos_iff.2
      (bigEndian_ne_nil (by omega : 0 < payload.length))
    have head :
        (UInt8.ofNat (mark + 55 + (bigEndian payload.length).length)).toNat =
          mark + 55 + (bigEndian payload.length).length :=
      toNat_head (by omega)
    rw [if_neg many] at past ⊢
    have found := @head_standing body
      (bigEndian payload.length ++ (payload ++ after)) pos _ standing
    have length := bigInt_bigEndian (by omega : 0 < payload.length)
    have whole := subarray_standing past
    rw [← subarray_standing found.2] at length
    rw [List.length_cons, Nat.add_comm _ 1, ← Nat.add_assoc] at whole ⊢
    rw [rlpDecode, found.1]
    simp only [Option.bind_eq_bind, Option.bind_some, head]
    rcases marked with rfl | rfl
    · rw [if_neg (by omega), if_neg (by omega), if_pos (by omega),
        Nat.add_sub_cancel_left, length, Option.bind_some, whole]
      rfl
    · rw [if_neg (by omega), if_neg (by omega), if_neg (by omega),
        if_neg (by omega), Nat.add_sub_cancel_left, length, Option.bind_some]
      rfl

theorem rlpDecode_bytes {value : List UInt8}
    (short : value.length < 256 ^ 8)
    (standing : body.drop pos = encodeBytes value ++ after) :
    rlpDecode body pos =
      some (.bytes value (pos + (encodeBytes value).length)) := by
  unfold encodeBytes at standing ⊢
  split at standing
  next single =>
    rw [if_pos single]
    rcases List.length_eq_one_iff.1 single.1 with ⟨byte, rfl⟩
    have small := single.2 byte List.mem_cons_self
    have whole : subarray body pos (pos + 1) = [byte] :=
      subarray_standing standing
    rw [rlpDecode, (head_standing standing).1]
    simp [small, whole]
  next several =>
    rw [List.append_assoc] at standing
    rw [if_neg several, rlpDecode_header (.inl rfl) short standing, itemAt,
      if_pos rfl, List.length_append, Nat.add_assoc]

/-! ## Fields -/

theorem scalarFrom_scalars
    {scalars : List ℕ} {rest : List UInt8} {index scalar : ℕ}
    (short : (encodeScalars scalars).length < 256 ^ 8)
    (standing : body.drop pos = encodeScalars scalars ++ rest)
    (listed : scalars[index]? = some scalar) :
    scalarFrom body pos index = some scalar := by
  induction scalars generalizing pos index with
  | nil => cases listed
  | cons first scalars ih =>
      rw [encodeScalars, List.flatMap_cons, List.length_append] at short
      rw [encodeScalars, List.flatMap_cons, List.append_assoc] at standing
      have small := le_length_encodeBytes (bigEndian first)
      have decoded := rlpDecode_bytes (by omega) standing
      cases index with
      | zero =>
          cases listed
          rw [scalarFrom, decoded]
          dsimp only
          split
          next empty =>
            rcases Nat.eq_zero_or_pos scalar with rfl | positive
            · rfl
            · exact absurd empty (bigEndian_ne_nil positive)
          next filled => rw [bigInt_hexDigits filled, readBytes_bigEndian]
      | succ index =>
          rw [scalarFrom, decoded]
          exact ih (by unfold encodeScalars; omega) (drop_past standing) listed

namespace SignedTx

variable (tx : SignedTx) {index scalar : ℕ}

/-- A length which is written and read exactly. -/
abbrev Short : Prop := tx.payload.length < 2 ^ 53

theorem scalarAt_payload
    (short : tx.Short) (listed : tx.scalars[index]? = some scalar) :
    scalarAt (encodeList tx.payload) index = some scalar := by
  have small : tx.payload.length < 256 ^ 8 := lt_trans short (by decide)
  have standing : (encodeList tx.payload).drop 0 =
      header 0xc0 tx.payload.length ++ (tx.payload ++ []) := by
    rw [List.append_nil]
    rfl
  have inner := drop_past standing
  rw [scalarAt, rlpDecode_header (.inr rfl) small standing, itemAt,
    if_neg (by decide)]
  rw [List.append_nil] at inner
  apply scalarFrom_scalars _ inner listed
  rw [payload, List.length_append] at small
  omega

theorem hexBytes_raw :
    hexBytes tx.raw = tx.typeBytes ++ encodeList tx.payload := by
  have chars : tx.raw.toList = '0' :: 'x' ::
      hexDigits (tx.typeBytes ++ encodeList tx.payload) := by
    rw [raw, String.toList_append, @String.toList_ofList (hexDigits _)]
    rfl
  rw [hexBytes, chars]
  exact hexPairs_hexDigits _

variable {tx}

theorem list_head (short : tx.Short) :
    ∃ head tail, encodeList tx.payload = head :: tail ∧
      0xc0 ≤ head.toNat := by
  rw [encodeList, header]
  split
  · refine ⟨_, _, rfl, ?_⟩
    rw [toNat_head (by omega)]
    exact Nat.le_add_right _ _
  · have digits := length_bigEndian_le
      (lt_trans short (by decide) : tx.payload.length < 256 ^ 8)
    refine ⟨_, _, rfl, ?_⟩
    rw [toNat_head (by omega)]
    omega

theorem envelope_raw (short : tx.Short) :
    TxGas.envelope tx.raw = some tx.envelope := by
  rcases list_head short with ⟨head, tail, encoded, high⟩
  unfold TxGas.envelope
  rw [hexBytes_raw, envelope, typeBytes, encoded]
  cases tx.pricing with
  | legacy gasPrice =>
      rw [List.nil_append]
      dsimp only
      rw [if_neg (by omega), if_neg (by omega), if_pos high]
  | accessList chainId gasPrice => rfl
  | feeMarket type chainId maxPriorityFeePerGas maxFeePerGas =>
      cases type with
      | eip1559 => rfl
      | eip4844 => rfl
      | eip7702 => rfl

end SignedTx

section Reads

variable {tx : SignedTx}

theorem txGasLimit_raw (short : tx.Short) : txGasLimit tx.raw = some tx.gas := by
  have reads := @tx.scalarAt_payload
  rw [txGasLimit, tx.envelope_raw short]
  rcases tx with ⟨⟨gasPrice⟩ | ⟨chainId, gasPrice⟩ |
    ⟨type, chainId, maxPriorityFeePerGas, maxFeePerGas⟩, nonce, gas, rest⟩
  · exact reads short rfl
  · exact reads short rfl
  · exact reads short rfl

theorem txFees_raw (short : tx.Short) : txFees tx.raw = some tx.fees := by
  have reads := @tx.scalarAt_payload
  rw [txFees, tx.envelope_raw short]
  rcases tx with ⟨⟨gasPrice⟩ | ⟨chainId, gasPrice⟩ |
    ⟨type, chainId, maxPriorityFeePerGas, maxFeePerGas⟩, nonce, gas, rest⟩
  · have price := reads short (rfl : _[1]? = some gasPrice)
    simp [SignedTx.envelope, SignedTx.fees, price]
  · have price := reads short (rfl : _[2]? = some gasPrice)
    simp [SignedTx.envelope, SignedTx.fees, price]
  · have tip := reads short (rfl : _[2]? = some maxPriorityFeePerGas)
    have maxFee := reads short (rfl : _[3]? = some maxFeePerGas)
    simp [SignedTx.envelope, SignedTx.fees, tip, maxFee]

end Reads

/-- The gateway reads the gas limit and the fees which were signed, whatever
the type and whatever comes after the gas. -/
theorem reads_signed (tx : SignedTx) (short : tx.Short) :
    txGasLimit tx.raw = some tx.gas ∧ txFees tx.raw = some tx.fees :=
  ⟨txGasLimit_raw short, txFees_raw short⟩

theorem reads_signed_transfer :
    txGasLimit (SignedTx.raw ⟨.feeMarket .eip1559 31337 9 9, 1, 21000, []⟩) =
        some 21000 ∧
      txFees (SignedTx.raw ⟨.feeMarket .eip1559 31337 9 9, 1, 21000, []⟩) =
        some (.typed 2 9 9) :=
  reads_signed _ (by decide +kernel)

end Eris.Gateway.SignedFields
