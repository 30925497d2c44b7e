import Eris.Actions.Drifts

/-!
# The reader against the drifts

The reader accepts a value exactly when the value has the shape which the
reader shares with the schema and none of the traits only the reader refuses.
What it has read as a leaf action it reads again, so that the adapter of a
bundled action is found.
-/

namespace Eris.Actions.Enforced

open Foundation Foundation.Validation ActionTypes Adapters ParseAction Drifts

/-! ## Rules -/

section Rules

variable (key refusal : String) (value : Option Doc)

theorem accepts_required (test : Option Doc → Bool) :
    (Rule.required key [⟨test, refusal⟩]).accepts value = test value :=
  Bool.and_true _

theorem accepts_requiredBoth (test other : Option Doc → Bool)
    (otherRefusal : String) :
    (Rule.required key [⟨test, refusal⟩, ⟨other, otherRefusal⟩]).accepts value =
      (test value && other value) := by
  rw [Rule.accepts, Rule.required, Bool.false_or, List.all_cons,
    List.all_cons, List.all_nil, Bool.and_true]

theorem accepts_optional (test : Option Doc → Bool) :
    (Rule.optional key [⟨test, refusal⟩]).accepts value =
      absentOr test value := by
  cases value with
  | none => rfl
  | some doc => exact Bool.and_true _

theorem accepts_skipping
    (skips test : Option Doc → Bool) (written : Option Doc) :
    Rule.accepts ⟨key, skips, written, [⟨test, refusal⟩]⟩ value =
      (skips value || test value) := by
  rw [Rule.accepts, List.all_cons, List.all_nil, Bool.and_true]

theorem accepts_kept (test : Option Doc → Bool) :
    (Rule.kept key test).accepts value = true :=
  Bool.or_true _

theorem accepts_fixed (doc : Doc) :
    (Rule.fixed key doc).accepts value = true :=
  rfl

theorem accepts_decimal :
    (decimal key).accepts value = isDecimal value :=
  Bool.and_true _

theorem accepts_optionalDecimal :
    (optionalDecimal key).accepts value = absentOr isDecimal value :=
  accepts_optional _ _ _ _

theorem accepts_priorityFee :
    Rule.accepts priorityFee value = absentOr isDecimal value :=
  accepts_optional _ _ _ _

theorem accepts_decimalOrMax :
    (decimalOrMax key).accepts value = isDecimalOrMax value :=
  Bool.and_true _

theorem accepts_address :
    (address key).accepts value = isHexAddress value :=
  Bool.and_true _

theorem accepts_integer :
    (integer key).accepts value = numberThat isInteger value :=
  Bool.and_true _

theorem accepts_slippage :
    slippage.accepts value = absentOr (integerWithin 0 1000) value :=
  accepts_optional _ _ _ _

theorem accepts_addSlippage :
    addSlippage.accepts value = absentOr (integerWithin 0 1000) value := by
  rcases value with _ | (_ | _ | number | _ | _) | _ | _
  case some.scalar.number =>
    change (isInteger number && (isInteger number && decide (0 ≤ number) &&
          decide (number ≤ 1000) && true)) =
      (isInteger number && decide (0 ≤ number) && decide (number ≤ 1000))
    cases isInteger number <;> simp
  all_goals rfl

theorem accepts_optionalBps :
    (optionalBps key).accepts value = absentOr (integerWithin 1 10000) value :=
  accepts_optional _ _ _ _

theorem accepts_base : base.accepts value = true := accepts_kept _ _ _

theorem accepts_tokenIn (market : Market) :
    (tokenIn market).accepts value =
      isOneOf [market.base, market.quote] value :=
  Bool.and_true _

theorem accepts_asset (setup : Setup) :
    (asset setup).accepts value = isOneOf setup.aaveReserveSymbols value := by
  rcases value with _ | (_ | _ | _ | _ | text) | _ | _
  case some.scalar.text => exact Bool.and_true _
  all_goals rfl

theorem accepts_gmxBase (setup : Setup) (obj : Doc) :
    (gmxBase setup obj).accepts value =
      !textThat (fun base => base ≠ "WETH" && !hasGmxMarket setup base)
        value := by
  rcases value with _ | (_ | _ | _ | _ | text) | _ | _
  case some.scalar.text =>
    change (!decide (text ≠ "WETH") || (hasGmxMarket setup text && true)) =
      !(decide (text ≠ "WETH") && !hasGmxMarket setup text)
    rw [Bool.and_true, Bool.not_and, Bool.not_not]
  all_goals rfl

theorem accepts_marketId : marketId.accepts value = isHex32 value :=
  Bool.and_true _

theorem key_required (tests : List FieldTest) :
    (Rule.required key tests).key = key :=
  rfl

theorem key_optional (tests : List FieldTest) :
    (Rule.optional key tests).key = key :=
  rfl

theorem key_decimal : (decimal key).key = key := rfl

theorem key_optionalDecimal : (optionalDecimal key).key = key := rfl

theorem key_decimalOrMax : (decimalOrMax key).key = key := rfl

theorem key_address : (address key).key = key := rfl

theorem key_integer : (integer key).key = key := rfl

theorem key_optionalBps : (optionalBps key).key = key := rfl

theorem key_priorityFee :
    Rule.key priorityFee = "maxPriorityFeePerGasWei" :=
  rfl

theorem key_addSlippage : addSlippage.key = "slippageBps" := rfl

theorem key_slippage : slippage.key = "slippageBps" := rfl

theorem key_asset (setup : Setup) : (asset setup).key = "asset" := rfl

theorem key_gmxBase (setup : Setup) (obj : Doc) :
    (gmxBase setup obj).key = "base" :=
  rfl

theorem key_marketId : marketId.key = "marketId" := rfl

end Rules

/-! ## Traits only the schema refuses -/

section Traits

variable (setup : Setup) (obj : Doc)

theorem enforced_field (test : Option Doc → Bool) (key : String) :
    (field obj test key).enforced = test (member key obj) :=
  Drift.enforced_shared _

theorem enforced_feeDrift :
    (feeDrift obj).enforced =
      absentOr isDecimal (member "maxPriorityFeePerGasWei" obj) :=
  Drift.enforced_shared _

theorem enforced_maxFeeDrift :
    (maxFeeDrift obj).enforced =
      absentOr (integerWithin 1 10000) (member "maxFeeBps" obj) :=
  Drift.enforced_shared _

theorem enforced_slippageDrift :
    (slippageDrift obj).enforced =
      absentOr (integerWithin 0 1000) (member "slippageBps" obj) := by
  rw [slippageDrift, Drift.enforced]
  generalize member "slippageBps" obj = value
  rcases value with _ | (_ | _ | number | _ | _) | _ | _
  case some.scalar.number =>
    by_cases nonneg : 0 ≤ number
    · by_cases small : number ≤ 1000
      · have safe := isSafeInteger_of_le nonneg (small.trans (by norm_num))
        simp [absentOr, numberThat, integerWithin, nonneg, small, safe]
      · simp [absentOr, numberThat, integerWithin, nonneg, small, lt_of_not_ge]
    · simp [absentOr, numberThat, integerWithin, nonneg]
  all_goals rfl

theorem enforced_integerDrift (key : String) :
    (integerDrift obj key).enforced = numberThat isInteger (member key obj) :=
  Bool.and_true _

theorem enforced_countDrift (bounded : ℚ → Bool) (key : String) :
    (countDrift obj bounded key).enforced =
      absentOr (numberThat fun count => isInteger count && bounded count)
        (member key obj) :=
  Bool.and_true _

theorem enforced_keptBaseDrift : (keptBaseDrift obj).enforced = true := rfl

theorem enforced_untaught (untaught : Bool) :
    Drift.enforced ⟨true, untaught, false⟩ = true :=
  rfl

theorem enforced_present (value : Option Doc) :
    Drift.enforced ⟨absentOr isDecimal value, false, value.isNone⟩ =
      isDecimal value := by
  cases value with
  | none => rfl
  | some doc => exact Bool.and_true _

theorem enforced_baseDrift (protocol : ProtocolId) :
    (baseDrift setup obj protocol).enforced =
      (setup.marketFor protocol (baseOf obj)).isSome := by
  rw [baseDrift, Drift.enforced]
  cases setup.marketFor protocol (baseOf obj) <;> rfl

theorem enforced_gmxBaseDrift :
    (gmxBaseDrift setup obj).enforced =
      !textThat (fun base => base ≠ "WETH" && !hasGmxMarket setup base)
        (member "base" obj) :=
  rfl

theorem enforced_symbolDrift
    {known : Option Doc → Bool}
    (texts : ∀ value, known value = true → isText value = true) (key : String) :
    (symbolDrift obj known key).enforced = known (member key obj) := by
  rw [symbolDrift, Drift.enforced, Bool.not_not]
  cases listed : known (member key obj) with
  | false => exact Bool.and_false _
  | true => rw [texts _ listed, Bool.and_true]

theorem isText_of_textThat
    {test : String → Bool} (value : Option Doc)
    (passed : textThat test value = true) :
    isText value = true := by
  rcases value with _ | (_ | _ | _ | _ | _) | _ | _
  case some.scalar.text => rfl
  all_goals exact passed

theorem isText_of_isOneOf
    (texts : List String) (value : Option Doc)
    (listed : isOneOf texts value = true) :
    isText value = true :=
  isText_of_textThat value listed

theorem isText_of_isPricedStable
    (value : Option Doc) (priced : isPricedStable setup value = true) :
    isText value = true :=
  isText_of_textThat value priced

theorem isText_of_isMarketToken
    (protocol : ProtocolId) (value : Option Doc)
    (token : isMarketToken setup obj protocol value = true) :
    isText value = true := by
  unfold isMarketToken at token
  split at token
  · exact isText_of_textThat value token
  · cases token

theorem isText_of_isStableToken
    (value : Option Doc) (token : isStableToken obj value = true) :
    isText value = true := by
  unfold isStableToken at token
  split at token
  · exact isText_of_textThat value token
  · cases token

theorem enforced_gmxCollateral (value : Option Doc) :
    Drift.enforced
        ⟨textThat (fun text => !text.isEmpty) value, !isSymbol value, false⟩ =
      textThat (fun text => !text.isEmpty) value :=
  Bool.and_true _

theorem enforced_tierDrift :
    (tierDrift obj).enforced = (numberThat isInteger (member "fee" obj) &&
        numberThat enabledFeeTiers.contains (member "fee" obj)) := by
  rw [tierDrift, Drift.enforced, Bool.not_not]
  generalize member "fee" obj = value
  rcases value with _ | (_ | _ | number | _ | _) | _ | _
  case some.scalar.number =>
    change (isSafeInteger number && enabledFeeTiers.contains number) =
      (isInteger number && enabledFeeTiers.contains number)
    cases tier : enabledFeeTiers.contains number with
    | false => rw [Bool.and_false, Bool.and_false]
    | true =>
        have bounds : 0 ≤ number ∧ number ≤ 10000 := by
          have listed : number ∈ enabledFeeTiers := by simpa using tier
          simp only [enabledFeeTiers, List.mem_cons, List.not_mem_nil,
            or_false] at listed
          rcases listed with rfl | rfl | rfl | rfl <;> norm_num
        rw [isSafeInteger_of_le bounds.1 (bounds.2.trans (by norm_num))]
  all_goals rfl

theorem enforced_priceDrift :
    (priceDrift obj).enforced = (isDecimal (member "sqrtPriceX96" obj) &&
        lowerText (member "tokenA" obj) != lowerText (member "tokenB" obj)) :=
  rfl

theorem enforced_requestDrift :
    (requestDrift obj).enforced = (everyRequest (member "requestId" obj) ||
        isDecimal (member "requestId" obj)) :=
  Bool.and_true _

theorem enforced_borrowersDrift :
    (borrowersDrift obj).enforced = absentOr isTexts (member "borrowers" obj) :=
  Bool.and_true _

theorem enforced_irmDrift :
    (irmDrift obj).enforced =
      (isMissing (member "irm" obj) || isHexAddress (member "irm" obj)) :=
  Bool.and_true _

theorem enforced_lltvDrift :
    (lltvDrift obj).enforced = (isDecimal (member "lltv" obj) &&
        textThat (fun lltv => decimalValue lltv < wad)
          (member "lltv" obj)) := by
  rw [lltvDrift, Drift.enforced, Bool.not_not]

end Traits

/-! ## Leaf actions -/

section Leaves

variable (setup : Setup) (obj : Doc) {type : LeafType} {action : Doc}

theorem readLeaf_isOk_of
    {rules : List Rule} {drifts : List Drift}
    (ruled : rulesOf setup obj type = .ok rules)
    (same : (rules.all fun rule => rule.accepts (member rule.key obj)) =
        drifts.all Drift.enforced) :
    (readLeaf setup type obj).isOk = (Drift.all drifts).enforced := by
  rw [readLeaf, ruled, Drift.enforced_all, ← same]
  exact readObject_isOk _ rules obj

theorem swapRules_enforced
    {protocol : ProtocolId} {market : Market}
    (found : setup.marketFor protocol (baseOf obj) = some market)
    (slippageRule : Rule)
    (slips : slippageRule.key = "slippageBps" ∧
        ∀ value,
          slippageRule.accepts value = absentOr (integerWithin 0 1000) value) :
    ([tokenIn market, decimal "amountIn", base, priorityFee,
          slippageRule].all
        fun rule => rule.accepts (member rule.key obj)) =
      (swapDrifts setup obj protocol).all Drift.enforced := by
  have token : (symbolDrift obj (isMarketToken setup obj protocol)
        "tokenIn").enforced =
      isOneOf [market.base, market.quote] (member "tokenIn" obj) := by
    rw [enforced_symbolDrift obj (isText_of_isMarketToken setup obj protocol),
      isMarketToken, found]
  simp only [swapDrifts, List.all_cons, List.all_nil, accepts_tokenIn,
    accepts_decimal, accepts_base, accepts_priorityFee, slips.1, slips.2,
    token, enforced_baseDrift, found, enforced_field,
    enforced_slippageDrift, enforced_feeDrift, Option.isSome_some,
    Bool.true_and, Bool.and_true]
  change (isOneOf [market.base, market.quote] (member "tokenIn" obj) &&
    (isDecimal (member "amountIn" obj) &&
      (absentOr isDecimal (member "maxPriorityFeePerGasWei" obj) &&
        absentOr (integerWithin 0 1000) (member "slippageBps" obj)))) = _
  rw [Bool.and_comm (absentOr isDecimal _)]

theorem readLeaf_isOk_of_base
    {protocol : ProtocolId} {rules : Market → List Rule} {drifts : List Drift}
    (ruled : rulesOf setup obj type = (parseBase setup protocol obj).map rules)
    (based : baseDrift setup obj protocol ∈ drifts)
    (same : ∀ market, setup.marketFor protocol (baseOf obj) = some market →
        ((rules market).all fun rule =>
              rule.accepts (member rule.key obj)) =
            drifts.all Drift.enforced) :
    (readLeaf setup type obj).isOk = (Drift.all drifts).enforced := by
  cases found : setup.marketFor protocol (baseOf obj) with
  | some market =>
      have read : rulesOf setup obj type = .ok (rules market) := by
        rw [ruled, parseBase, found]
        rfl
      exact readLeaf_isOk_of setup obj read (same market found)
  | none =>
      have unruled : (readLeaf setup type obj).isOk = false := by
        rw [readLeaf, ruled, parseBase, found]
        rfl
      have refused : drifts.all Drift.enforced = false := by
        rw [List.all_eq_false]
        refine ⟨_, based, ?_⟩
        rw [enforced_baseDrift, found]
        exact Bool.false_ne_true
      rw [unruled, Drift.enforced_all, refused]

theorem mintLiquidityRules_enforced
    {market : Market}
    (found : setup.marketFor .uniswap (baseOf obj) = some market) :
    ((mintLiquidityRules (baseOf obj)).all fun rule =>
        rule.accepts (member rule.key obj)) =
      (leafDrifts setup obj .mintLiquidity).all Drift.enforced := by
  by_cases weth : baseOf obj = "WETH"
  · simp only [mintLiquidityRules, leafDrifts, if_pos weth,
      defaultAmountDrift, otherAmountDrift, List.cons_append,
      List.nil_append, List.all_cons, List.all_nil, enforced_baseDrift,
      enforced_integerDrift, enforced_field, enforced_slippageDrift,
      enforced_feeDrift, enforced_untaught, found, accepts_integer,
      accepts_decimal, accepts_priorityFee, accepts_addSlippage, key_integer,
      key_decimal, key_priorityFee, key_addSlippage, Option.isSome_some,
      Bool.true_and, Bool.and_true]
    rw [Bool.and_comm (absentOr (integerWithin 0 1000) _)]
  · simp only [mintLiquidityRules, leafDrifts, if_neg weth,
      defaultAmountDrift, otherAmountDrift, List.cons_append,
      List.nil_append, List.all_cons, List.all_nil, enforced_baseDrift,
      enforced_integerDrift, enforced_slippageDrift, enforced_feeDrift,
      enforced_untaught, enforced_present, found, accepts_integer,
      accepts_decimal, accepts_fixed, accepts_base, accepts_priorityFee,
      accepts_addSlippage, key_integer, key_decimal, key_priorityFee,
      key_addSlippage, Option.isSome_some, Bool.true_and, Bool.and_true]
    rw [Bool.and_comm (absentOr (integerWithin 0 1000) _)]

theorem symbol_of_stableMarketBySymbol
    {symbol : String} {market : StableMarket}
    (found : setup.stableMarketBySymbol symbol = some market) :
    market.symbol = symbol := by
  simpa using List.find?_some found

theorem readLeaf_stableSwap_isOk :
    (readLeaf setup .stableSwap obj).isOk =
      (Drift.all (leafDrifts setup obj .stableSwap)).enforced := by
  have unread : ∀ refusal, parseStable setup obj = .error refusal →
      isPricedStable setup (member "stable" obj) = false →
        (readLeaf setup .stableSwap obj).isOk =
          (Drift.all (leafDrifts setup obj .stableSwap)).enforced := by
    intro refusal failed unpriced
    have unruled : (readLeaf setup .stableSwap obj).isOk = false := by
      rw [readLeaf, rulesOf, failed]
      rfl
    rw [unruled, Drift.enforced_all, leafDrifts, List.all_cons,
      enforced_symbolDrift obj (isText_of_isPricedStable setup), unpriced,
      Bool.false_and]
  match named : member "stable" obj with
  | some (.scalar (.text symbol)) =>
      cases found : setup.stableMarketBySymbol symbol with
      | none =>
          have failed : ∃ refusal, parseStable setup obj = .error refusal := by
            rw [parseStable, named]
            dsimp only
            rw [found]
            exact ⟨_, rfl⟩
          obtain ⟨refusal, failed⟩ := failed
          apply unread refusal failed
          rw [named]
          change (setup.stableMarketBySymbol symbol).isSome = false
          rw [found]
          rfl
      | some market =>
          obtain rfl := symbol_of_stableMarketBySymbol setup found
          have ruled :
              rulesOf setup obj .stableSwap = .ok (stableSwapRules market) := by
            rw [rulesOf, parseStable, named]
            dsimp only
            rw [found]
            rfl
          apply readLeaf_isOk_of setup obj ruled
          have priced : isPricedStable setup (member "stable" obj) = true := by
            rw [named]
            change (setup.stableMarketBySymbol market.symbol).isSome = true
            rw [found]
            rfl
          have token : isStableToken obj (member "tokenIn" obj) =
              isOneOf [market.symbol, "USDC"] (member "tokenIn" obj) := by
            rw [isStableToken, named]
          simp only [stableSwapRules, leafDrifts, List.all_cons, List.all_nil,
            enforced_symbolDrift obj (isText_of_isPricedStable setup),
            enforced_symbolDrift obj (isText_of_isStableToken obj),
            priced, token, accepts_fixed, accepts_required, accepts_decimal,
            accepts_priorityFee, accepts_slippage, key_required, key_decimal,
            key_priorityFee, key_slippage, enforced_field,
            enforced_slippageDrift, enforced_feeDrift, Bool.true_and,
            Bool.and_true]
          rw [Bool.and_comm (absentOr (integerWithin 0 1000) _)]
  | some (.scalar .null) | some (.scalar (.boolean _))
  | some (.scalar (.number _)) | some (.scalar (.infinite _))
  | some (.array _) | some (.object _) | none =>
      exact unread "stable must be a token symbol string"
        (by rw [parseStable, named]) (by rw [named]; rfl)

theorem readLeaf_isOk (type : LeafType) :
    (readLeaf setup type obj).isOk =
      (Drift.all (leafDrifts setup obj type)).enforced := by
  cases type
  case swap =>
    exact readLeaf_isOk_of_base setup obj rfl
      (List.mem_cons_of_mem _ List.mem_cons_self)
      fun market found =>
          swapRules_enforced setup obj found addSlippage
            ⟨rfl, accepts_addSlippage⟩
  case balancerSwap =>
    exact readLeaf_isOk_of_base setup obj rfl
      (List.mem_cons_of_mem _ List.mem_cons_self)
      fun market found =>
          swapRules_enforced setup obj found slippage ⟨rfl, accepts_slippage⟩
  case curveSwap =>
    exact readLeaf_isOk_of_base setup obj rfl
      (List.mem_cons_of_mem _ List.mem_cons_self)
      fun market found =>
          swapRules_enforced setup obj found slippage ⟨rfl, accepts_slippage⟩
  case mintLiquidity =>
    exact readLeaf_isOk_of_base setup obj rfl List.mem_cons_self
      fun market found => mintLiquidityRules_enforced setup obj found
  case stableSwap => exact readLeaf_stableSwap_isOk setup obj
  all_goals
    apply readLeaf_isOk_of setup obj rfl
    simp only [createPoolRules, removeLiquidityRules, collectFeesRules,
      aaveRules, gmxRules, gmxCancelOrderRules, lstDepositRules,
      lstSwapRules, lstRequestWithdrawRules, lstClaimWithdrawRules,
      liquityOpenTroveRules, liquityAdjustTroveRules,
      liquityCloseTroveRules, liquityRedeemRules, liquityProvideToSpRules,
      liquityWithdrawFromSpRules, liquityLiquidateRules,
      liquitySwapEusdRules, createLendingMarketRules, lendingRules,
      lendingLiquidateRules, leafDrifts, aaveDrifts, gmxDrifts,
      lendingDrifts, List.all_cons, List.all_nil, accepts_required,
      accepts_optional, accepts_decimal, accepts_optionalDecimal,
      accepts_decimalOrMax, accepts_address, accepts_priorityFee,
      accepts_slippage, accepts_optionalBps, accepts_base, accepts_asset,
      accepts_gmxBase, accepts_marketId, key_required, key_optional,
      key_decimal, key_optionalDecimal, key_decimalOrMax, key_address,
      key_optionalBps, key_priorityFee, key_slippage, key_asset,
      key_gmxBase, key_marketId, enforced_field, enforced_feeDrift,
      enforced_maxFeeDrift, enforced_slippageDrift, enforced_countDrift,
      enforced_keptBaseDrift, enforced_gmxBaseDrift,
      enforced_gmxCollateral, enforced_tierDrift, enforced_priceDrift,
      enforced_requestDrift, enforced_borrowersDrift, enforced_irmDrift,
      enforced_lltvDrift, enforced_symbolDrift obj (isText_of_isOneOf _),
      accepts_requiredBoth, accepts_skipping, if_true, if_false,
      Bool.false_eq_true, Bool.true_and, Bool.and_true]
  all_goals ac_rfl

/-! ## Reading again -/

theorem settled_gmxBase (own : Doc) : (gmxBase setup own).Settled := by
  intro value skipped
  rfl

theorem settled_request (tests : List FieldTest) :
    Rule.Settled ⟨"requestId", everyRequest, none, tests⟩ := by
  intro value skipped
  rfl

theorem settled_irm :
    Rule.Settled ⟨"irm", isMissing, some (textDoc zeroAddress),
        ⟨isHexAddress, "irm must be a 20-byte hex address"⟩ :: []⟩ := by
  intro value skipped
  decide

theorem exists_of_map {α β : Type} {result : Except String α} {f : α → β}
    {mapped : β} (read : result.map f = .ok mapped) :
    ∃ found, result = .ok found ∧ f found = mapped := by
  cases result with
  | error refusal => cases read
  | ok found => exact ⟨found, rfl, Except.ok.inj read⟩

theorem kept_rulesOf
    {rules : List Rule} (ruled : rulesOf setup obj type = .ok rules) :
    Kept (head type) rules := by
  cases type
  case mintLiquidity =>
    obtain ⟨market, _, rfl⟩ := exists_of_map ruled
    by_cases weth : baseOf obj = "WETH"
    · rw [weth]
      constructor
      · simp [mintLiquidityRules, integer, decimal, priorityFee,
          optionalDecimal, addSlippage, Rule.settled_required,
          Rule.settled_optional]
      · decide
    · constructor
      · simp [mintLiquidityRules, weth, integer, decimal, priorityFee,
          optionalDecimal, addSlippage, base, Rule.settled_required,
          Rule.settled_optional, Rule.settled_fixed, Rule.settled_kept]
      · rw [mintLiquidityRules, if_neg weth]
        decide
  case swap | balancerSwap | curveSwap | stableSwap =>
    obtain ⟨market, _, rfl⟩ := exists_of_map ruled
    constructor
    · simp [swapRules, balancerSwapRules, curveSwapRules, stableSwapRules,
        tokenIn, decimal, priorityFee, optionalDecimal, addSlippage,
        slippage, base, Rule.settled_required, Rule.settled_optional,
        Rule.settled_fixed, Rule.settled_kept]
    · exact of_decide_eq_true rfl
  all_goals
    obtain rfl := Except.ok.inj ruled
    constructor
    · simp [createPoolRules, removeLiquidityRules, collectFeesRules,
        aaveRules, gmxRules, gmxCancelOrderRules, lstDepositRules,
        lstSwapRules, lstRequestWithdrawRules, lstClaimWithdrawRules,
        liquityOpenTroveRules, liquityAdjustTroveRules,
        liquityCloseTroveRules, liquityRedeemRules,
        liquityProvideToSpRules, liquityWithdrawFromSpRules,
        liquityLiquidateRules, liquitySwapEusdRules,
        createLendingMarketRules, lendingRules, lendingLiquidateRules,
        decimal, optionalDecimal, decimalOrMax, address, priorityFee,
        slippage, optionalBps, base, asset, marketId,
        Rule.settled_required, Rule.settled_optional, Rule.settled_kept,
        settled_gmxBase, settled_request, settled_irm]
    · exact of_decide_eq_true rfl

theorem baseOf_again
    {rules : List Rule} (ruled : rulesOf setup obj type = .ok rules)
    (read : readObject (head type) rules obj = .ok action)
    {tests : List FieldTest}
    (listed :
      ⟨"base", fun value => !textThat (fun base => base ≠ "WETH") value,
          none, tests⟩ ∈ rules) :
    baseOf action = baseOf obj := by
  have result := member_readObject (kept_rulesOf setup obj ruled) read listed
  have written := Rule.read_of_accepts (Rule.accepts_of_read result)
  rw [result] at written
  have stored := Except.ok.inj written
  dsimp only at stored
  rw [baseOf, baseOf, stored]
  match member "base" obj with
  | some (.scalar (.text base)) =>
      by_cases weth : base = "WETH"
      · subst weth
        rfl
      · simp [textThat, weth]
  | some (.scalar .null) | some (.scalar (.boolean _))
  | some (.scalar (.number _)) | some (.scalar (.infinite _))
  | some (.array _) | some (.object _) | none => rfl

theorem rulesOf_again
    {rules : List Rule} (ruled : rulesOf setup obj type = .ok rules)
    (read : readObject (head type) rules obj = .ok action) :
    rulesOf setup action type = .ok rules := by
  cases type
  case swap | balancerSwap | curveSwap =>
    obtain ⟨market, found, rfl⟩ := exists_of_map ruled
    have same := baseOf_again setup obj ruled read
      (List.mem_cons_of_mem _ (List.mem_cons_of_mem _ List.mem_cons_self))
    rw [← ruled, rulesOf, rulesOf, parseBase, parseBase, same]
  case mintLiquidity =>
    obtain ⟨market, found, rfl⟩ := exists_of_map ruled
    have same : baseOf action = baseOf obj := by
      by_cases weth : baseOf obj = "WETH"
      · have unwritten : member "base" action = none := by
          apply member_of_not_mem read
          rw [weth]
          decide
        rw [weth, baseOf, unwritten]
      · apply baseOf_again setup obj ruled read
        rw [mintLiquidityRules, if_neg weth]
        exact List.mem_cons_of_mem _ (List.mem_cons_of_mem _
          (List.mem_cons_of_mem _ (List.mem_cons_of_mem _ List.mem_cons_self)))
    rw [← ruled, rulesOf, rulesOf, parseBase, parseBase, same]
  case stableSwap =>
    obtain ⟨market, found, rfl⟩ := exists_of_map ruled
    have kept := kept_rulesOf setup obj ruled
    have stored : member "stable" action = some (textDoc market.symbol) :=
      (Except.ok.inj (member_readObject kept read List.mem_cons_self)).symm
    have known : setup.stableMarketBySymbol market.symbol = some market := by
      rw [parseStable] at found
      split at found
      · next symbol named =>
          cases priced : setup.stableMarketBySymbol symbol with
          | none => rw [priced] at found; cases found
          | some other =>
              rw [priced] at found
              cases found
              rw [symbol_of_stableMarketBySymbol setup priced, priced]
      · cases found
    rw [rulesOf, parseStable, stored, textDoc]
    dsimp only
    rw [known]
    rfl
  case createPool =>
    obtain rfl := Except.ok.inj ruled
    have kept := kept_rulesOf setup obj ruled
    have tokenA := member_required kept read List.mem_cons_self fun _ => rfl
    have tokenB := member_required kept read
        (List.mem_cons_of_mem _ List.mem_cons_self) fun _ => rfl
    change member "tokenA" action = member "tokenA" obj at tokenA
    change member "tokenB" action = member "tokenB" obj at tokenB
    rw [rulesOf, tokenA, tokenB]
  case gmxIncrease | gmxDecrease =>
    obtain rfl := Except.ok.inj ruled
    have same := baseOf_again setup obj ruled read
      (List.mem_cons_of_mem _ (List.mem_cons_of_mem _
        (List.mem_cons_of_mem _ List.mem_cons_self)))
    rw [rulesOf, gmxRules, gmxRules, gmxBase, gmxBase, same]
  all_goals exact ruled

theorem readLeaf_again
    (read : readLeaf setup type obj = .ok action) :
    leafType? action = some type ∧
      (readLeaf setup type action).isOk = true := by
  rw [readLeaf] at read
  cases ruled : rulesOf setup obj type with
  | error refusal => rw [ruled] at read; cases read
  | ok rules =>
      rw [ruled] at read
      change readObject (head type) rules obj = .ok action at read
      constructor
      · have typed : member "type" action = some (textDoc type.text) :=
          head_readObject read
        rw [leafType?_eq_some, typeIs, typed]
        exact decide_eq_true rfl
      · rw [readLeaf, rulesOf_again setup obj ruled read]
        exact readObject_again (kept_rulesOf setup obj ruled) read

/-! ## The enabled adapters -/

theorem parse_of_typed
    (typed : leafType? obj = some type) (protocol : ProtocolId) :
    parse setup protocol obj = if protocolOf type = protocol then
        (readLeaf setup type obj).map some
      else .ok none := by
  rw [parse, typed]
  simp only [contains_typesOf, decide_eq_true_eq]

theorem firstRead_of_untyped
    (untyped : leafType? obj = none) (protocols : List ProtocolId) :
    firstRead setup obj protocols = .ok none := by
  induction protocols with
  | nil => rfl
  | cons protocol protocols ih =>
      rw [firstRead, parse, untyped]
      exact ih

theorem firstRead_of_typed
    (typed : leafType? obj = some type) (protocols : List ProtocolId) :
    firstRead setup obj protocols = if protocols.contains (protocolOf type) then
        (readLeaf setup type obj).map fun action =>
          some (protocolOf type, action)
      else .ok none := by
  induction protocols with
  | nil => rfl
  | cons protocol protocols ih =>
      rw [firstRead, parse_of_typed setup obj typed, List.contains_cons]
      by_cases own : protocolOf type = protocol
      · subst own
        rw [if_pos rfl, beq_self_eq_true, Bool.true_or, if_pos rfl]
        cases readLeaf setup type obj <;> rfl
      · rw [if_neg own, beq_false_of_ne own, Bool.false_or]
        exact ih

theorem parseLeafAction_isOk :
    (parseLeafAction setup obj).isOk = (leafDrift setup obj).enforced := by
  rw [parseLeafAction, leafDrift]
  cases typed : leafType? obj with
  | none =>
      rw [firstRead_of_untyped setup obj typed]
      rfl
  | some type =>
      rw [firstRead_of_typed setup obj typed]
      dsimp only
      split
      · rw [← readLeaf_isOk]
        cases readLeaf setup type obj <;> rfl
      · rfl

theorem adapterForAction_of_read
    (read : parseLeafAction setup obj = .ok action) :
    ∃ type, leafType? obj = some type ∧
        adapterForAction setup action = .ok (protocolOf type) := by
  rw [parseLeafAction] at read
  cases typed : leafType? obj with
  | none =>
      rw [firstRead_of_untyped setup obj typed] at read
      cases read
  | some type =>
      rw [firstRead_of_typed setup obj typed] at read
      split at read
      · next enabled =>
          cases leaf : readLeaf setup type obj with
          | error refusal => rw [leaf] at read; cases read
          | ok own =>
              rw [leaf] at read
              cases read
              obtain ⟨typedAgain, readAgain⟩ := readLeaf_again setup obj leaf
              refine ⟨type, rfl, ?_⟩
              rw [adapterForAction,
                firstRead_of_typed setup _ typedAgain, if_pos enabled]
              cases again : readLeaf setup type action with
              | error refusal => rw [again] at readAgain; cases readAgain
              | ok other => rfl
      · cases read

theorem bundleable_eq (protocol : ProtocolId) :
    bundleable protocol = decide (protocol ≠ .gmx) := by
  cases protocol <;> rfl

theorem leafType?_of_unstructured
    (unstructured : isStructured obj = false) :
    leafType? obj = none := by
  cases obj with
  | scalar value => rfl
  | array items => rfl
  | object members => cases unstructured

theorem itemDrift_of_untyped (untyped : leafType? obj = none) :
    (itemDrift setup obj).enforced = false := by
  rw [itemDrift, untyped]
  rfl

theorem parseItem_isOk :
    (parseItem setup obj).isOk = (itemDrift setup obj).enforced := by
  rw [parseItem]
  cases structured : isStructured obj with
  | false =>
      rw [itemDrift_of_untyped setup obj
        (leafType?_of_unstructured obj structured)]
      rfl
  | true =>
      rw [if_neg (by decide)]
      split
      · next noop =>
          rw [itemDrift_of_untyped setup obj (leafType?_of_typeIs noop rfl)]
          rfl
      · split
        · next bundle =>
            rw [itemDrift_of_untyped setup obj (leafType?_of_typeIs bundle rfl)]
            rfl
        · have leaf := parseLeafAction_isOk setup obj
          cases read : parseLeafAction setup obj with
          | error refusal =>
              rw [read] at leaf
              rw [itemDrift]
              cases leafType? obj with
              | none => rfl
              | some type =>
                  rw [Drift.enforced_all, List.all_cons, List.all_cons, ← leaf]
                  exact (Bool.and_false _).symm
          | ok action =>
              obtain ⟨type, typed, adapter⟩ :=
                adapterForAction_of_read setup obj read
              rw [read] at leaf
              rw [itemDrift, typed]
              dsimp only
              have entry : Drift.enforced
                    ⟨protocolOf type ≠ .gmx, protocolOf type = .liquity,
                      false⟩ =
                  bundleable (protocolOf type) := by
                rw [bundleable_eq]
                exact Bool.and_true _
              rw [Drift.enforced_all, List.all_cons, List.all_cons, ← leaf,
                entry]
              change ((adapterForAction setup action).bind fun protocol =>
                    if bundleable protocol = true then .ok action
                    else _).isOk = _
              rw [adapter, Except.bind]
              cases bundleable (protocolOf type) <;> rfl

theorem parseItems_isOk (items : List Doc) :
    (parseItems setup items).isOk =
      items.all fun item => (itemDrift setup item).enforced := by
  induction items with
  | nil => rfl
  | cons item items ih =>
      rw [List.all_cons, ← parseItem_isOk, ← ih, parseItems]
      cases parseItem setup item with
      | error refusal => rfl
      | ok action => cases parseItems setup items <;> rfl

theorem fee_isOk :
    (readRules [priorityFee] obj).isOk = (feeDrift obj).enforced := by
  rw [readRules_isOk, enforced_feeDrift, List.all_cons, List.all_nil,
    accepts_priorityFee, Bool.and_true]
  rfl

theorem bind_map_isOk {α β γ : Type}
    (first : Except String α) (second : Except String β) (combine : α → β → γ) :
    (first.bind fun read => second.map (combine read)).isOk =
      (first.isOk && second.isOk) := by
  cases first <;> cases second <;> rfl

theorem parseBundleAction_isOk :
    (parseBundleAction setup obj).isOk = (Drift.all
        [itemsDrift setup (member "actions" obj), feeDrift obj]).enforced := by
  rw [Drift.enforced_all, List.all_cons, List.all_cons, List.all_nil,
    Bool.and_true, ← fee_isOk, parseBundleAction]
  match member "actions" obj with
  | some (.array items) =>
      rw [bind_map_isOk, parseItems_isOk, itemsDrift, Drift.enforced_all,
        List.all_cons, List.all_map, enforced_untaught, Bool.true_and]
      rfl
  | some (.scalar _) | some (.object _) | none => rfl

theorem parseRawTx_isOk (tx : Doc) :
    (parseRawTx tx).isOk = (rawTxDrift tx).enforced := by
  have read : (parseRawTx tx).isOk = (rawTxRules (isDeploy tx)).all fun rule =>
          rule.accepts (member rule.key tx) := by
    rw [← readRules_isOk, parseRawTx]
    cases readRules (rawTxRules (isDeploy tx)) tx <;> rfl
  have code : Drift.enforced ⟨isHex (member "data" tx), false,
          isDeploy tx && !hasCode (member "data" tx)⟩ =
      (isHex (member "data" tx) &&
        (!isDeploy tx || hasCode (member "data" tx))) := by
    rw [Drift.enforced, Bool.not_and, Bool.not_not]
  have receiver : Drift.enforced
          ⟨isMissing (member "to" tx) || isHex (member "to" tx),
            isNull (member "to" tx), false⟩ =
        (isMissing (member "to" tx) || isHex (member "to" tx)) :=
    Bool.and_true _
  rw [read, rawTxDrift, Drift.enforced_all]
  simp only [rawTxRules, List.all_cons, List.all_nil, accepts_skipping,
    accepts_requiredBoth, accepts_optional, key_required, key_optional, code,
    receiver, enforced_field]

theorem rawTxDrift_of_unstructured
    {tx : Doc} (unstructured : isStructured tx = false) :
    (rawTxDrift tx).enforced = false := by
  cases tx with
  | scalar value => rfl
  | array items => rfl
  | object members => cases unstructured

theorem parseRawTxAction_isOk :
    (parseRawTxAction obj).isOk = (Drift.all
        [txDrift (member "tx" obj), feeDrift obj]).enforced := by
  rw [Drift.enforced_all, List.all_cons, List.all_cons, List.all_nil,
    Bool.and_true, ← fee_isOk, parseRawTxAction]
  cases member "tx" obj with
  | none => rfl
  | some tx =>
      dsimp only
      split
      · rw [bind_map_isOk, parseRawTx_isOk, txDrift]
      · next unstructured =>
          rw [txDrift, rawTxDrift_of_unstructured
            (Bool.eq_false_of_not_eq_true unstructured)]
          rfl

theorem parseRawTxs_isOk (place : ℕ) (txs : List Doc) :
    (parseRawTxs place txs).isOk =
      txs.all fun tx => (rawTxDrift tx).enforced := by
  induction txs generalizing place with
  | nil => rfl
  | cons tx txs ih =>
      rw [List.all_cons, parseRawTxs]
      split
      · rw [← parseRawTx_isOk, ← ih (place + 1)]
        cases parseRawTx tx with
        | error refusal => rfl
        | ok read => cases parseRawTxs (place + 1) txs <;> rfl
      · next unstructured =>
          rw [rawTxDrift_of_unstructured
            (Bool.eq_false_of_not_eq_true unstructured)]
          rfl

theorem parseRawBundleAction_isOk :
    (parseRawBundleAction obj).isOk = (Drift.all
        [txsDrift (member "txs" obj), feeDrift obj]).enforced := by
  rw [Drift.enforced_all, List.all_cons, List.all_cons, List.all_nil,
    Bool.and_true, ← fee_isOk, parseRawBundleAction]
  match member "txs" obj with
  | some (.array []) => rfl
  | some (.array (tx :: txs)) =>
      dsimp only
      have parts : (txsDrift (some (.array (tx :: txs)))).enforced =
          (tx :: txs).all fun one => (rawTxDrift one).enforced := by
        rw [txsDrift, Drift.enforced_all, List.all_cons,
          Drift.enforced_shared, List.all_map]
        rfl
      rw [bind_map_isOk, parseRawTxs_isOk, parts]
  | some (.scalar _) | some (.object _) | none => rfl

theorem readNoop_isOk :
    (readObject ("type", textDoc "noop") noopRules obj).isOk = true := by
  rw [readObject_isOk]
  simp only [noopRules, List.all_cons, List.all_nil, accepts_kept,
    Bool.and_true]

theorem parseAction_isOk :
    (parseAction setup obj).isOk = (actionDrift setup obj).enforced := by
  rw [parseAction, actionDrift]
  cases structured : isStructured obj with
  | false =>
      have untyped : ∀ text, typeIs text obj = false := by
        intro text
        cases obj with
        | scalar value => rfl
        | array items => rfl
        | object members => cases structured
      rw [leafDrift, leafType?_of_unstructured obj structured]
      simp only [untyped, Bool.false_eq_true, if_false]
      rfl
  | true =>
      rw [if_neg (by decide)]
      split
      · exact readNoop_isOk obj
      · split
        · exact parseBundleAction_isOk setup obj
        · split
          · exact parseRawTxAction_isOk obj
          · split
            · exact parseRawBundleAction_isOk obj
            · exact parseLeafAction_isOk setup obj

end Leaves

end Eris.Actions.Enforced
