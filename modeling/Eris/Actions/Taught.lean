import Eris.Actions.ActionSchema
import Eris.Actions.Drifts

/-!
# The schema against the drifts

Every validator accepts a value under the schema of actions exactly when the
value has the shape which the schema shares with the reader and none of the
traits only the schema refuses.
-/

namespace Eris.Actions.Taught

open Foundation Foundation.Validation ActionTypes ActionSchema ParseAction
  Drifts
open Adapters (integerWithin isTexts)

/-! ## Fields -/

section Fields

variable (zod : Validator) (value : Option Doc)

theorem accepts_decimalString :
    zod.accepts decimalString value = isDecimal value := by
  rw [decimalString, zod.string]
  simp [isDecimal]

theorem accepts_optional (inner : Schema) :
    zod.accepts (.optional inner) value =
      absentOr (zod.accepts inner) value := by
  rw [zod.optional]

theorem accepts_optionalDecimal :
    zod.accepts (.optional decimalString) value = absentOr isDecimal value := by
  rw [accepts_optional]
  cases value with
  | none => rfl
  | some doc => exact accepts_decimalString zod (some doc)

theorem accepts_decimalOrMax :
    zod.accepts decimalOrMax value = isDecimalOrMax value := by
  rw [decimalOrMax, zod.union, List.any_cons, List.any_cons, List.any_nil,
    accepts_decimalString, zod.literal, Bool.or_false]
  rcases value with _ | (_ | _ | _ | _ | _) | _ | _ <;> rfl

theorem accepts_hexString :
    zod.accepts hexString value = isHex value := by
  rw [hexString, zod.string]
  simp [isHex]

theorem accepts_hexAddress :
    zod.accepts hexAddress value = isHexAddress value := by
  rw [hexAddress, zod.string]
  simp [isHexAddress]

theorem accepts_hex32 :
    zod.accepts hex32 value = isHex32 value := by
  rw [hex32, zod.string]
  simp [isHex32]

theorem accepts_tokenSymbol :
    zod.accepts tokenSymbol value = isSymbol value := by
  rw [tokenSymbol, zod.string, isSymbol]
  congr 1
  funext text
  simp [upperCase]

theorem accepts_marketBase :
    zod.accepts marketBase value = absentOr isSymbol value := by
  rw [marketBase, accepts_optional]
  cases value with
  | none => rfl
  | some doc => exact accepts_tokenSymbol zod (some doc)

theorem accepts_slippageBps (obj : Doc) :
    zod.accepts slippageBps (member "slippageBps" obj) =
      (slippageDrift obj).taught := by
  rw [slippageBps, accepts_optional, zod.number]
  simp [slippageDrift, Drift.taught, NumberCheck.holds]

theorem accepts_integer (key : String) (obj : Doc) :
    zod.accepts (.number [.int]) (member key obj) =
      (integerDrift obj key).taught := by
  rw [zod.number, integerDrift, Drift.taught]
  generalize member key obj = value
  rcases value with _ | (_ | _ | number | _ | _) | _ | _
  case some.scalar.number =>
    cases safe : isSafeInteger number with
    | false => simp [numberThat, NumberCheck.holds, safe]
    | true =>
        simp [numberThat, NumberCheck.holds, safe,
          isInteger_of_isSafeInteger safe]
  all_goals rfl

theorem accepts_count
    {check : NumberCheck} {bounded : ℚ → Bool}
    (same : ∀ number, check.holds number = bounded number)
    (key : String) (obj : Doc) :
    zod.accepts (.optional (.number [.int, check])) (member key obj) =
      (countDrift obj bounded key).taught := by
  rw [accepts_optional, zod.number, countDrift, Drift.taught]
  generalize member key obj = value
  rcases value with _ | (_ | _ | number | _ | _) | _ | _
  case some.scalar.number =>
    cases safe : isSafeInteger number with
    | false =>
        simp [absentOr, numberThat, NumberCheck.holds, safe]
    | true =>
        have int : NumberCheck.int.holds number = true := safe
        simp [absentOr, numberThat, int, safe, same,
          isInteger_of_isSafeInteger safe]
  all_goals rfl

theorem accepts_maxIterations (obj : Doc) :
    zod.accepts (.optional (.number [.int, .nonnegative]))
        (member "maxIterations" obj) =
      (countDrift obj (fun count => decide (0 ≤ count))
        "maxIterations").taught :=
  accepts_count zod (fun _ => rfl) "maxIterations" obj

theorem accepts_maxTroves (obj : Doc) :
    zod.accepts (.optional (.number [.int, .positive]))
        (member "maxTroves" obj) =
      (countDrift obj (fun count => decide (0 < count)) "maxTroves").taught :=
  accepts_count zod (fun _ => rfl) "maxTroves" obj

theorem accepts_liquityMaxFeeBps :
    zod.accepts liquityMaxFeeBps value =
      absentOr (integerWithin 1 10000) value := by
  rw [liquityMaxFeeBps, accepts_optional, zod.number]
  rcases value with _ | (_ | _ | number | _ | _) | _ | _
  case some.scalar.number =>
    simp only [absentOr, numberThat, integerWithin, List.all_cons,
      List.all_nil, Bool.and_true, NumberCheck.holds, Nat.cast_ofNat]
    cases integer : isInteger number with
    | false =>
        simp [isSafeInteger, integer]
    | true =>
        by_cases small : number ≤ 10000
        · by_cases positive : 0 < number
          · have safe :=
              isSafeInteger_of_le positive.le (small.trans (by norm_num))
            simp [safe, integer, pos_iff_one_le integer]
          · simp [positive, ← pos_iff_one_le integer]
        · simp [small]
  all_goals rfl

theorem accepts_boolean :
    zod.accepts .boolean value = isBoolean value := by
  rw [zod.boolean]

theorem accepts_orderKey :
    zod.accepts (.string [hex32Pattern]) value = isHex32 value :=
  accepts_hex32 zod value

theorem accepts_optionalBoolean :
    zod.accepts (.optional .boolean) value = absentOr isBoolean value := by
  rw [accepts_optional, zod.boolean]

theorem accepts_oneOf (texts : List String) :
    zod.accepts (.oneOf texts) value = isOneOf texts value := by
  rw [zod.oneOf, isOneOf]

theorem accepts_borrowers (obj : Doc) :
    zod.accepts (.optional (.array hexString 0)) (member "borrowers" obj) =
      (borrowersDrift obj).taught := by
  rw [accepts_optional, zod.array, borrowersDrift, Drift.taught]
  generalize member "borrowers" obj = value
  rcases value with _ | (_ | _ | _ | _ | _) | items | _
  case some.array =>
    cases named : items.all fun item => isHex (some item) with
    | false =>
        simp [absentOr, itemsThat, accepts_hexString, named]
    | true =>
        have texts : items.all (fun item => isText (some item)) = true := by
          rw [List.all_eq_true] at named ⊢
          intro item listed
          have hex := named item listed
          rcases item with (_ | _ | _ | _ | _) | _ | _
          case scalar.text => rfl
          all_goals exact hex
        simp [absentOr, itemsThat, accepts_hexString, named, isTexts, texts]
  all_goals rfl

end Fields

/-! ## Traits only the reader refuses -/

section Traits

variable (setup : Setup) (obj : Doc)

theorem taught_field (test : Option Doc → Bool) (key : String) :
    (field obj test key).taught = test (member key obj) :=
  Drift.taught_shared _

theorem taught_feeDrift :
    (feeDrift obj).taught =
      absentOr isDecimal (member "maxPriorityFeePerGasWei" obj) :=
  Drift.taught_shared _

theorem taught_maxFeeDrift :
    (maxFeeDrift obj).taught =
      absentOr (integerWithin 1 10000) (member "maxFeeBps" obj) :=
  Drift.taught_shared _

theorem taught_baseDrift (protocol : ProtocolId) :
    (baseDrift setup obj protocol).taught =
      absentOr isSymbol (member "base" obj) :=
  Bool.not_not _

theorem taught_keptBaseDrift :
    (keptBaseDrift obj).taught = absentOr isSymbol (member "base" obj) :=
  Bool.not_not _

theorem taught_gmxBaseDrift :
    (gmxBaseDrift setup obj).taught = absentOr isSymbol (member "base" obj) :=
  Bool.not_not _

theorem taught_symbolDrift (known : Option Doc → Bool) (key : String) :
    (symbolDrift obj known key).taught = isSymbol (member key obj) := by
  rw [symbolDrift, Drift.taught, Bool.not_not]
  generalize member key obj = value
  rcases value with _ | (_ | _ | _ | _ | _) | _ | _ <;> rfl

theorem taught_gmxCollateral (value : Option Doc) :
    Drift.taught
        ⟨textThat (fun text => !text.isEmpty) value, !isSymbol value, false⟩ =
      isSymbol value := by
  rw [Drift.taught, Bool.not_not]
  rcases value with _ | (_ | _ | _ | _ | text) | _ | _
  case some.scalar.text =>
    cases empty : text.isEmpty <;>
      simp [textThat, isSymbol, upperCase, empty]
  all_goals rfl

theorem taught_defaultAmountDrift (key : String) :
    (defaultAmountDrift obj key).taught = isDecimal (member key obj) := by
  unfold defaultAmountDrift
  split
  · exact taught_field obj isDecimal key
  · exact Bool.not_not _

theorem taught_otherAmountDrift (key : String) :
    (otherAmountDrift obj key).taught =
      absentOr isDecimal (member key obj) := by
  unfold otherAmountDrift
  split
  · exact Bool.not_not _
  · exact Bool.and_true _

theorem taught_tierDrift :
    (tierDrift obj).taught = (integerDrift obj "fee").taught := by
  rw [tierDrift, integerDrift, Drift.taught, Drift.taught]
  generalize member "fee" obj = value
  rcases value with _ | (_ | _ | number | _ | _) | _ | _
  case some.scalar.number =>
    cases safe : isSafeInteger number with
    | false => simp [numberThat, safe]
    | true => simp [numberThat, safe, isInteger_of_isSafeInteger safe]
  all_goals rfl

theorem taught_priceDrift :
    (priceDrift obj).taught = isDecimal (member "sqrtPriceX96" obj) :=
  Bool.and_true _

theorem taught_requestDrift :
    (requestDrift obj).taught =
      absentOr isDecimal (member "requestId" obj) := by
  rw [requestDrift, Drift.taught]
  generalize member "requestId" obj = value
  rcases value with _ | (_ | _ | _ | _ | text) | _ | _
  case some.scalar.text =>
    by_cases every : text = "all"
    · subst every
      decide
    · simp [Adapters.everyRequest, absentOr, textThat, isDecimal, every]
  all_goals rfl

theorem taught_irmDrift :
    (irmDrift obj).taught = isHexAddress (member "irm" obj) := by
  rw [irmDrift, Drift.taught]
  generalize member "irm" obj = value
  rcases value with _ | (_ | _ | _ | _ | _) | _ | _
  case some.scalar.text => exact Bool.and_true _
  all_goals rfl

theorem taught_lltvDrift :
    (lltvDrift obj).taught = isDecimal (member "lltv" obj) :=
  Bool.and_true _

end Traits

def schemaOf : LeafType → Schema
  | .swap => swapSchema
  | .mintLiquidity => mintLiquiditySchema
  | .removeLiquidity => removeLiquiditySchema
  | .collectFees => collectFeesSchema
  | .createPool => createPoolSchema
  | .balancerSwap => balancerSwapSchema
  | .curveSwap => curveSwapSchema
  | .stableSwap => stableSwapSchema
  | .aaveSupply => aaveSupplySchema
  | .aaveWithdraw => aaveWithdrawSchema
  | .aaveBorrow => aaveBorrowSchema
  | .aaveRepay => aaveRepaySchema
  | .gmxIncrease => gmxIncreaseSchema
  | .gmxDecrease => gmxDecreaseSchema
  | .gmxCancelOrder => gmxCancelOrderSchema
  | .lstDeposit => lstDepositSchema
  | .lstSwap => lstSwapSchema
  | .lstRequestWithdraw => lstRequestWithdrawSchema
  | .lstClaimWithdraw => lstClaimWithdrawSchema
  | .liquityOpenTrove => liquityOpenTroveSchema
  | .liquityAdjustTrove => liquityAdjustTroveSchema
  | .liquityCloseTrove => liquityCloseTroveSchema
  | .liquityRedeem => liquityRedeemSchema
  | .liquityProvideToSP => liquityProvideToSpSchema
  | .liquityWithdrawFromSP => liquityWithdrawFromSpSchema
  | .liquityLiquidate => liquityLiquidateSchema
  | .liquitySwapEusd => liquitySwapEusdSchema
  | .createLendingMarket => createLendingMarketSchema
  | .lendingSupply => lendingSupplySchema
  | .lendingWithdraw => lendingWithdrawSchema
  | .lendingSupplyCollateral => lendingSupplyCollateralSchema
  | .lendingWithdrawCollateral => lendingWithdrawCollateralSchema
  | .lendingBorrow => lendingBorrowSchema
  | .lendingRepay => lendingRepaySchema
  | .lendingLiquidate => lendingLiquidateSchema

variable (zod : Validator) (setup : Setup) (obj : Doc)

theorem accepts_typed (text : String) (fields : List (String × Schema)) :
    zod.accepts (.object (("type", .literal text) :: fields)) (some obj) =
      (typeIs text obj &&
        fields.all fun field => zod.accepts field.2 (member field.1 obj)) := by
  rw [zod.object]
  rcases obj with _ | _ | members
  · rfl
  · rfl
  · rw [objectThat, List.all_cons, zod.literal]
    rfl

theorem accepts_leaf
    {type : LeafType} {fields : List (String × Schema)} {drifts : List Drift}
    (same : (fields ++ priorityFee).map
          (fun field => zod.accepts field.2 (member field.1 obj)) =
        drifts.map Drift.taught) :
    zod.accepts (leaf type fields) (some obj) =
      (typeIs type.text obj && (Drift.all drifts).taught) := by
  have parts : (fields ++ priorityFee).all
        (fun field => zod.accepts field.2 (member field.1 obj)) =
      drifts.all Drift.taught := by
    have all := congrArg (fun results => results.all id) same
    simpa only [List.all_map, Function.id_comp] using all
  rw [leaf, accepts_typed, parts, Drift.taught_all]

theorem accepts_schemaOf (type : LeafType) :
    zod.accepts (schemaOf type) (some obj) = (typeIs type.text obj &&
        (Drift.all (leafDrifts setup obj type)).taught) := by
  cases type
  all_goals
    apply accepts_leaf
    simp only [priorityFee, lendingMarketRef, leafDrifts, swapDrifts,
      aaveDrifts, gmxDrifts, lendingDrifts, List.cons_append,
      List.nil_append, List.map_cons, List.map_nil, accepts_decimalString,
      accepts_optionalDecimal, accepts_decimalOrMax, accepts_hexAddress,
      accepts_hex32, accepts_tokenSymbol, accepts_marketBase,
      accepts_slippageBps, accepts_integer, accepts_liquityMaxFeeBps,
      accepts_boolean, accepts_orderKey, accepts_maxIterations,
      accepts_maxTroves, accepts_optionalBoolean, accepts_oneOf,
      accepts_borrowers, taught_field, taught_feeDrift, taught_maxFeeDrift, taught_baseDrift,
      taught_keptBaseDrift, taught_gmxBaseDrift, taught_symbolDrift,
      taught_gmxCollateral, taught_defaultAmountDrift,
      taught_otherAmountDrift, taught_tierDrift, taught_priceDrift,
      taught_requestDrift, taught_irmDrift, taught_lltvDrift]

theorem leafSchemas_perm (protocol : ProtocolId) :
    (leafSchemasByProtocol protocol).Perm
      ((Adapters.typesOf protocol).map schemaOf) := by
  cases protocol
  case uniswap =>
    change List.Perm ([_, _, _, _] ++ [_]) ([_] ++ [_, _, _, _])
    exact List.perm_append_comm
  case curve => exact List.Perm.swap _ _ _
  case gmx =>
    change List.Perm ([_, _] ++ [_]) ([_] ++ [_, _])
    exact List.perm_append_comm
  all_goals exact List.Perm.refl _

theorem any_leafSchemas (protocols : List ProtocolId) :
    ((protocols.flatMap leafSchemasByProtocol).any fun schema =>
        zod.accepts schema (some obj)) =
      match leafType? obj with
      | some type =>
          protocols.contains (protocolOf type) &&
            (Drift.all (leafDrifts setup obj type)).taught
      | none => false := by
  have accepted : ((protocols.flatMap leafSchemasByProtocol).any fun schema =>
          zod.accepts schema (some obj)) = true ↔
        ∃ type, protocolOf type ∈ protocols ∧ leafType? obj = some type ∧
            (Drift.all (leafDrifts setup obj type)).taught = true := by
    simp only [List.any_eq_true, List.mem_flatMap]
    constructor
    · rintro ⟨schema, ⟨protocol, enabled, listed⟩, accepts⟩
      obtain ⟨type, own, rfl⟩ :=
        List.mem_map.mp ((leafSchemas_perm protocol).subset listed)
      have owner := contains_typesOf protocol type
      rw [List.contains_iff_mem.mpr own, eq_comm, decide_eq_true_eq] at owner
      rw [accepts_schemaOf zod setup, Bool.and_eq_true] at accepts
      exact ⟨type, owner ▸ enabled,
        (leafType?_eq_some obj type).mpr accepts.1, accepts.2⟩
    · rintro ⟨type, enabled, typed, taught⟩
      have own : type ∈ Adapters.typesOf (protocolOf type) := by
        rw [← List.contains_iff_mem, contains_typesOf, decide_eq_true_eq]
      refine ⟨schemaOf type, ⟨protocolOf type, enabled, ?_⟩, ?_⟩
      · exact (leafSchemas_perm _).symm.subset (List.mem_map_of_mem own)
      · rw [accepts_schemaOf zod setup, taught, Bool.and_true]
        exact (leafType?_eq_some obj type).mp typed
  rw [Bool.eq_iff_iff, accepted]
  cases leafType? obj with
  | none => simp
  | some type => simp

theorem taught_leafDrift :
    (leafDrift setup obj).taught = match leafType? obj with
      | some type =>
          setup.enabled.contains (protocolOf type) &&
            (Drift.all (leafDrifts setup obj type)).taught
      | none => false := by
  rw [leafDrift]
  cases leafType? obj with
  | none => rfl
  | some type =>
      dsimp only
      split
      · next enabled => rw [enabled, Bool.true_and]
      · next disabled =>
          rw [Bool.eq_false_of_not_eq_true disabled]
          rfl

/-! ## Bundles and raw transactions -/

theorem contains_bundleableProtocols (protocol : ProtocolId) :
    bundleableProtocols.contains protocol =
      (decide (protocol ≠ .gmx) && !decide (protocol = .liquity)) := by
  cases protocol <;> rfl

theorem accepts_item :
    zod.accepts (.union (bundleableSchemas setup.enabled)) (some obj) =
      (itemDrift setup obj).taught := by
  rw [zod.union, bundleableSchemas, any_leafSchemas zod setup, itemDrift]
  cases typed : leafType? obj with
  | none => rfl
  | some type =>
      have filtered : (setup.enabled.filter fun protocol =>
                bundleableProtocols.contains protocol).contains
              (protocolOf type) =
            (setup.enabled.contains (protocolOf type) &&
              bundleableProtocols.contains (protocolOf type)) := by
        rw [Bool.eq_iff_iff]
        simp
      rw [Drift.taught_all]
      simp only [filtered, List.all_cons, List.all_nil, Bool.and_true,
        taught_leafDrift, typed]
      have allowed : bundleableProtocols.contains (protocolOf type) =
            Drift.taught
              ⟨protocolOf type ≠ .gmx, protocolOf type = .liquity, false⟩ :=
        contains_bundleableProtocols _
      rw [allowed, Bool.and_comm (setup.enabled.contains _), Bool.and_assoc]

theorem accepts_items (value : Option Doc) :
    zod.accepts (.array (.union (bundleableSchemas setup.enabled)) 1) value =
      (itemsDrift setup value).taught := by
  rw [zod.array]
  rcases value with _ | (_ | _ | _ | _ | _) | items | _
  case some.array =>
    have nonempty : decide (1 ≤ items.length) = !items.isEmpty := by
      cases items <;> rfl
    rw [itemsThat, itemsDrift, Drift.taught_all, List.all_cons, List.all_map,
      nonempty]
    simp only [accepts_item]
    rfl
  all_goals rfl

theorem accepts_bundleSchema :
    zod.accepts (bundleSchema (bundleableSchemas setup.enabled)) (some obj) =
      (typeIs "bundle" obj &&
        (Drift.all
          [itemsDrift setup (member "actions" obj), feeDrift obj]).taught) := by
  rw [bundleSchema, List.cons_append, accepts_typed, Drift.taught_all]
  simp only [priorityFee, List.cons_append, List.nil_append, List.all_cons,
    List.all_nil, accepts_items, accepts_optionalDecimal, taught_feeDrift]

theorem accepts_bundleSchema_nil :
    zod.accepts (bundleSchema []) (some obj) = false := by
  have noItems : ∀ value, zod.accepts (.array (.union []) 1) value = false := by
    intro value
    rw [zod.array]
    rcases value with _ | (_ | _ | _ | _ | _) | items | _
    case some.array =>
      cases items with
      | nil => rfl
      | cons item items =>
          rw [itemsThat, List.all_cons, zod.union, List.any_nil,
            Bool.false_and, Bool.and_false]
    all_goals rfl
  rw [bundleSchema, List.cons_append, accepts_typed, List.cons_append,
    List.all_cons, noItems, Bool.false_and, Bool.and_false]

theorem accepts_rawTxSchema (tx : Doc) :
    zod.accepts rawTxSchema (some tx) = (rawTxDrift tx).taught := by
  have receiver : ∀ value, zod.accepts (.optional hexString) value =
      ((Adapters.isMissing value || isHex value) && !isNull value) := by
    intro value
    rw [accepts_optional]
    rcases value with _ | (_ | _ | _ | _ | _) | _ | _
    case some.scalar.text => exact (accepts_hexString zod _).trans (by simp [
      Adapters.isMissing, absentOr, isNull])
    all_goals
      first
      | rfl
      | exact accepts_hexString zod _
  rw [rawTxSchema, zod.object, rawTxDrift, Drift.taught_all]
  rcases tx with _ | _ | members
  · rfl
  · rfl
  · simp only [objectThat, List.all_cons, List.all_nil, receiver,
      accepts_hexString, accepts_optionalDecimal, taught_field]
    simp only [Drift.taught, Bool.not_false, Bool.and_true]

theorem accepts_txs (value : Option Doc) :
    zod.accepts (.array rawTxSchema 1) value = (txsDrift value).taught := by
  rw [zod.array]
  rcases value with _ | (_ | _ | _ | _ | _) | txs | _
  case some.array =>
    have nonempty : decide (1 ≤ txs.length) = !txs.isEmpty := by
      cases txs <;> rfl
    rw [itemsThat, txsDrift, Drift.taught_all, List.all_cons, List.all_map,
      nonempty, Drift.taught_shared]
    simp only [accepts_rawTxSchema]
    rfl
  all_goals rfl

theorem accepts_tx (value : Option Doc) :
    zod.accepts rawTxSchema value = (txDrift value).taught := by
  cases value with
  | some tx => exact accepts_rawTxSchema zod tx
  | none =>
      rw [rawTxSchema, zod.object]
      rfl

theorem accepts_rawTxActionSchema :
    zod.accepts rawTxActionSchema (some obj) = (typeIs "rawTx" obj &&
        (Drift.all [txDrift (member "tx" obj), feeDrift obj]).taught) := by
  rw [rawTxActionSchema, List.cons_append, accepts_typed, Drift.taught_all]
  simp only [priorityFee, List.cons_append, List.nil_append, List.all_cons,
    List.all_nil, accepts_tx, accepts_optionalDecimal, taught_feeDrift]

theorem accepts_rawBundleActionSchema :
    zod.accepts rawBundleActionSchema (some obj) = (typeIs "rawBundle" obj &&
        (Drift.all [txsDrift (member "txs" obj), feeDrift obj]).taught) := by
  rw [rawBundleActionSchema, List.cons_append, accepts_typed, Drift.taught_all]
  simp only [priorityFee, List.cons_append, List.nil_append, List.all_cons,
    List.all_nil, accepts_txs, accepts_optionalDecimal, taught_feeDrift]

theorem accepts_noopSchema :
    zod.accepts noopSchema (some obj) =
      (typeIs "noop" obj && (noopDrift obj).taught) := by
  have reason : ∀ value,
      zod.accepts (.optional (.string [])) value = absentOr isText value := by
    intro value
    rw [accepts_optional, zod.string]
    rfl
  rw [noopSchema, accepts_typed]
  simp only [List.all_cons, List.all_nil, reason, noopDrift, Drift.taught,
    Bool.not_not, Bool.true_and, Bool.and_true]

theorem accepts_members :
    zod.accepts (agentActionSchemaFor setup.enabled) (some obj) =
      (typeIs "noop" obj && (noopDrift obj).taught ||
        ((leafDrift setup obj).taught || (typeIs "bundle" obj &&
              (Drift.all [itemsDrift setup (member "actions" obj),
                  feeDrift obj]).taught ||
            (typeIs "rawTx" obj &&
                (Drift.all [txDrift (member "tx" obj), feeDrift obj]).taught ||
              typeIs "rawBundle" obj &&
                (Drift.all
                  [txsDrift (member "txs" obj), feeDrift obj]).taught)))) := by
  have bundles : ((if (bundleableSchemas setup.enabled).length > 0 then
            [bundleSchema (bundleableSchemas setup.enabled)]
          else []).any fun schema => zod.accepts schema (some obj)) =
        zod.accepts (bundleSchema (bundleableSchemas setup.enabled))
          (some obj) := by
    split
    · simp
    · next none =>
        have empty : bundleableSchemas setup.enabled = [] :=
          List.eq_nil_of_length_eq_zero (Nat.eq_zero_of_not_pos none)
        rw [empty, accepts_bundleSchema_nil, List.any_nil]
  have leaves : ((setup.enabled.flatMap leafSchemasByProtocol).any fun schema =>
          zod.accepts schema (some obj)) =
        (leafDrift setup obj).taught := by
    rw [any_leafSchemas zod setup, taught_leafDrift]
  rw [agentActionSchemaFor, zod.union]
  simp only [List.any_cons, List.any_append, List.any_nil, Bool.or_false,
    bundles, leaves, accepts_noopSchema, accepts_bundleSchema,
    accepts_rawTxActionSchema, accepts_rawBundleActionSchema, Bool.or_assoc]

theorem leafDrift_of_typeIs
    {text : String} (carries : typeIs text obj = true)
    (foreign : LeafType.ofText text = none) :
    leafDrift setup obj = .never := by
  rw [leafDrift, leafType?_of_typeIs carries foreign]

theorem accepts_agentActionSchemaFor :
    zod.accepts (agentActionSchemaFor setup.enabled) (some obj) =
      (actionDrift setup obj).taught := by
  rw [accepts_members, actionDrift]
  by_cases noop : typeIs "noop" obj = true
  · simp [typeIs_unique noop, leafDrift_of_typeIs setup obj noop rfl]
  · by_cases bundle : typeIs "bundle" obj = true
    · simp [typeIs_unique bundle, leafDrift_of_typeIs setup obj bundle rfl]
    · by_cases raw : typeIs "rawTx" obj = true
      · simp [typeIs_unique raw, leafDrift_of_typeIs setup obj raw rfl]
      · by_cases rawBundle : typeIs "rawBundle" obj = true
        · simp [typeIs_unique rawBundle,
            leafDrift_of_typeIs setup obj rawBundle rfl]
        · simp [noop, bundle, raw, rawBundle]

end Eris.Actions.Taught
