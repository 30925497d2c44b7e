import Eris.Gateway.Handle

/-!
# What a screened body may ask of the node

A call is accepted when the method it names is allowed, the pending tag stands
only where it is permitted, and a read that names its own gas names no more
than the cap.  Every rewrite of the gateway keeps what the earlier ones
established, and a call no rewrite changes already had what it is rewritten
for.
-/

namespace Eris.Gateway.Screening

open Foundation IntegerText Values CallFilter TxGas Handle

variable {Number Body : Type} (numbers : Numbers Number)

variable (config : Config)
    {call value tx : Value Number} {items : List (Value Number)}
    {accepts : String → Bool} {result : Value Number × Bool} {capGas : Int}

/-! ## What is asked of a call -/

/-- The method passes the list and the ban. -/
def MethodAllowed (method : Value Number) : Prop :=
  config.methodAllow.test numbers method = some true ∧
    ∃ text, toText numbers method = some text ∧ config.methodDeny text = false

/-- The pending tag stands nowhere, or in a transaction count whose block
parameter carries it only for an address that may be read so. -/
def PendingPermitted (call : Value Number) : Prop :=
  ¬Mentions isPending (orNull (member "params" call)) ∨
    (methodText call = some "eth_getTransactionCount" ∧
      ∀ items tag, paramItems call = some items → items[1]? = some tag →
          Mentions isPending tag →
            ∃ address, items[0]?.bind stringText = some address ∧
              unsealedSender config address = true)

/-- A call that names a method names an allowed one, and carries the pending
tag only where that is permitted. -/
def CallPermitted (call : Value Number) : Prop :=
  ∀ method, namedMethod numbers call = some method →
    MethodAllowed numbers config method ∧ PendingPermitted config call

/-- A read that names its own gas names no more than the cap, under one name
only. -/
def GasCapped (capGas : Int) (call : Value Number) : Prop :=
  ∀ method tx items, methodText call = some method → method ∈ callGasMethods →
      paramItems call = some (tx :: items) → isObject tx = true →
        member "gasLimit" tx = none ∧
          ∃ gas, namedGas numbers tx = some gas ∧ 0 ≤ gas ∧ gas ≤ capGas

theorem namedMethod_withParams
    (written : Value Number) (call : Value Number) :
    namedMethod numbers (withMember "params" written call) =
      namedMethod numbers call := by
  cases call with
  | scalar primitive => rfl
  | array items => rfl
  | object members =>
      rw [namedMethod, member_withMember "params" "method" written rfl,
        if_neg (by decide), namedMethod]

theorem methodText_withParams
    (written : Value Number) (call : Value Number) :
    methodText (withMember "params" written call) = methodText call := by
  cases call with
  | scalar primitive => rfl
  | array items => rfl
  | object members =>
      rw [methodText, member_withMember "params" "method" written rfl,
        if_neg (by decide), methodText]

theorem isObject_of_paramItems
    (positional : paramItems call = some items) : isObject call = true := by
  obtain ⟨params, present, _⟩ := Option.bind_eq_some_iff.mp positional
  exact isObject_of_member present

theorem member_params_of_paramItems
    (positional : paramItems call = some items) :
    member "params" call = some (.array items) := by
  obtain ⟨params, present, array⟩ := Option.bind_eq_some_iff.mp positional
  cases params with
  | scalar primitive => cases array
  | array listed =>
      rw [present]
      cases array
      rfl
  | object members => cases array

theorem member_params_withParams
    (positional : paramItems call = some items) (written : Value Number) :
    member "params" (withMember "params" written call) = some written := by
  rw [member_withMember "params" "params" written
    (isObject_of_paramItems positional), if_pos rfl]

theorem paramItems_withParams
    (positional : paramItems call = some items)
    (written : List (Value Number)) :
    paramItems (withMember "params" (.array written) call) = some written := by
  rw [paramItems, member_params_withParams positional]
  rfl

theorem methodText_of_stringText
    {method : Value Number} {text : String}
    (named : member "method" call = some method)
    (string : stringText method = some text) :
    methodText call = some text := by
  rw [methodText, named]
  exact string

theorem member_method_of_namedMethod
    {method : Value Number} (named : namedMethod numbers call = some method) :
    member "method" call = some method :=
  (Option.filter_eq_some_iff.mp named).1

/-- A call that mentions no tag mentions none once other parameters, none of
which mentions it, are written. -/
theorem not_mentions_withParams
    {written : List (Value Number)} (positional : paramItems call = some items)
    (absent : ¬Mentions accepts (orNull (member "params" call)))
    (fresh : ∀ item ∈ written, Mentions accepts item →
      ∃ old ∈ items, Mentions accepts old) :
    ¬Mentions accepts
      (orNull (member "params" (withMember "params" (.array written) call))) := by
  rw [member_params_withParams positional, orNull, Option.getD_some,
    mentions_array]
  rintro ⟨item, listed, mentioned⟩
  apply absent
  rw [member_params_of_paramItems positional, orNull, Option.getD_some,
    mentions_array]
  exact fresh item listed mentioned

theorem methodAllowed_of_forbidden
    {method : Value Number}
    (passed : forbidden numbers config method call = some false) :
    MethodAllowed numbers config method ∧ (pendingTagExempt method = true ∨
        ¬Mentions isPending (orNull (member "params" call))) := by
  rw [forbidden] at passed
  obtain ⟨allowed, allows, passed⟩ := Option.bind_eq_some_iff.mp passed
  cases allowed with
  | false => cases passed
  | true =>
      obtain ⟨text, written, passed⟩ := Option.bind_eq_some_iff.mp passed
      cases denied : config.methodDeny text with
      | true =>
          rw [denied] at passed
          cases passed
      | false =>
          rw [denied] at passed
          refine ⟨⟨allows, text, written, denied⟩, ?_⟩
          have clear := Option.some.inj passed
          rw [Bool.and_eq_false_iff] at clear
          rcases clear with exempt | scanned
          · exact Or.inl (by simpa using exempt)
          · exact Or.inr (someString_sound config (by simpa using scanned))

theorem forbidden_of_refusedMethod
    {listed : List (Value Number)}
    (none_refused : refusedMethod numbers config listed = some none) :
    ∀ call ∈ listed, ∀ method, namedMethod numbers call = some method →
      forbidden numbers config method call = some false := by
  induction listed with
  | nil => exact fun _ absent => nomatch absent
  | cons first listed ih =>
      rw [refusedMethod] at none_refused
      intro call member method named
      cases firstNamed : namedMethod numbers first with
      | none =>
          rw [firstNamed] at none_refused
          rcases List.mem_cons.mp member with rfl | later
          · rw [named] at firstNamed
            cases firstNamed
          · exact ih none_refused call later method named
      | some firstMethod =>
          rw [firstNamed] at none_refused
          dsimp only at none_refused
          cases verdict : forbidden numbers config firstMethod first with
          | none =>
              rw [verdict] at none_refused
              cases none_refused
          | some refused =>
              rw [verdict] at none_refused
              cases refused with
              | true => cases none_refused
              | false =>
                  rcases List.mem_cons.mp member with rfl | later
                  · rw [named] at firstNamed
                    cases firstNamed
                    exact verdict
                  · exact ih none_refused call later method named

/-! ## The two rewrites -/

@[simp]
theorem isPending_latest : isPending "latest" = false := by
  decide

theorem mentions_writeLatest
    {index : Nat} :
    ∀ item ∈ writeItem index (textValue "latest") items,
      Mentions isPending item → ∃ old ∈ items, Mentions isPending old := by
  intro item listed mentioned
  rcases mem_writeItem listed with rfl | rfl | old
  · rw [mentions_textValue, isPending_latest] at mentioned
    cases mentioned
  · exact absurd mentioned not_mentions_null
  · exact ⟨item, old, mentioned⟩

/-- Writing the tag into an estimate leaves the call, or replaces its
parameters without a new mention of the pool. -/
theorem defaultBlockTag_cases
    {tagged : Value Number × Bool}
    (rewritten : defaultBlockTag numbers call = some tagged) :
    tagged.1 = call ∨ (tagged.2 = true ∧
        methodKey numbers call = some "eth_estimateGas" ∧
        ∃ items, paramItems call = some items ∧ tagged.1 = withMember "params"
            (.array (writeItem 1 (textValue "latest") items)) call) := by
  obtain ⟨key, keyed, rfl⟩ := Option.map_eq_some_iff.mp rewritten
  cases positional : paramItems call with
  | none => exact Or.inl rfl
  | some items =>
      dsimp only
      by_cases estimate : key = "eth_estimateGas"
      · rw [if_pos estimate]
        split
        · exact Or.inl rfl
        · rw [estimate] at keyed
          exact Or.inr ⟨rfl, keyed, items, rfl, rfl⟩
      · rw [if_neg estimate]
        exact Or.inl rfl

/-- Sealing a count leaves the call, the tag it carries being permitted, or
writes its block parameter. -/
theorem sealSenderPending_cases (call : Value Number) :
    (sealSenderPending config call = (call, false) ∧
        (methodText call = some "eth_getTransactionCount" →
          PendingPermitted config call)) ∨
      (methodText call = some "eth_getTransactionCount" ∧
        ∃ items, paramItems call = some items ∧ sealSenderPending config call =
            (withMember "params"
              (.array (writeItem 1 (textValue "latest") items)) call,
              true)) := by
  rw [sealSenderPending]
  split
  · rename_i count
    cases positional : paramItems call with
    | none =>
        refine Or.inl ⟨rfl, fun _ => Or.inr ⟨count, ?_⟩⟩
        intro items tag present
        rw [positional] at present
        cases present
    | some items =>
        dsimp only
        split
        · rename_i scanned
          refine Or.inl ⟨rfl, fun _ => Or.inr ⟨count, ?_⟩⟩
          intro found tag present second mentioned
          rw [positional] at present
          cases present
          rw [second] at scanned
          exact absurd mentioned (someString_sound config scanned)
        split
        · rename_i unsealed
          refine Or.inl ⟨rfl, fun _ => Or.inr ⟨count, ?_⟩⟩
          intro found tag present second mentioned
          rw [positional] at present
          cases present
          exact (Option.any_eq_true _ _).mp unsealed
        · exact Or.inr ⟨count, items, rfl, rfl⟩
  · rename_i other
    exact Or.inl ⟨rfl, fun count => absurd count other⟩

def rewritten (call : Value Number) : Value Number :=
  ((rewriteCall numbers config call).map Prod.fst).getD call

theorem rewriteCall_eq_some
    (rewrites : rewriteCall numbers config call = some result) :
    ∃ tagged, defaultBlockTag numbers call = some tagged ∧
      result.1 = (sealSenderPending config tagged.1).1 ∧
      result.2 = (tagged.2 || (sealSenderPending config tagged.1).2) := by
  obtain ⟨tagged, tags, rfl⟩ := Option.map_eq_some_iff.mp rewrites
  exact ⟨tagged, tags, rfl, rfl⟩

theorem rewriteCall_method
    (rewrites : rewriteCall numbers config call = some result) :
    namedMethod numbers result.1 = namedMethod numbers call ∧
      methodText result.1 = methodText call := by
  obtain ⟨tagged, tags, value, _⟩ := rewriteCall_eq_some numbers config rewrites
  have first : namedMethod numbers tagged.1 = namedMethod numbers call ∧
      methodText tagged.1 = methodText call := by
    rcases defaultBlockTag_cases numbers tags with same | ⟨_, _, written⟩
    · rw [same]
      exact ⟨rfl, rfl⟩
    · obtain ⟨items, _, equal⟩ := written
      rw [equal, namedMethod_withParams, methodText_withParams]
      exact ⟨rfl, rfl⟩
  rw [value]
  rcases sealSenderPending_cases config tagged.1 with ⟨same, _⟩ | written
  · rw [same]
    exact first
  · obtain ⟨_, items, _, equal⟩ := written
    rw [equal, namedMethod_withParams, methodText_withParams]
    exact first

theorem rewriteCall_unchanged
    (rewrites : rewriteCall numbers config call = some result)
    (unchanged : result.2 = false) : result.1 = call := by
  obtain ⟨tagged, tags, value, changed⟩ :=
    rewriteCall_eq_some numbers config rewrites
  rw [changed, Bool.or_eq_false_iff] at unchanged
  have same : tagged.1 = call := by
    rcases defaultBlockTag_cases numbers tags with same | ⟨written, _⟩
    · exact same
    · rw [unchanged.1] at written
      cases written
  rcases sealSenderPending_cases config tagged.1 with ⟨kept, _⟩ | written
  · rw [value, kept]
    exact same
  · obtain ⟨_, items, _, equal⟩ := written
    rw [equal] at unchanged
    cases unchanged.2

/-- A call with a method of its own, outside the two the rewrites are about,
is left as it is. -/
theorem rewriteCall_other
    {method : String} (rewrites : rewriteCall numbers config call = some result)
    (named : methodText call = some method)
    (estimate : method ≠ "eth_estimateGas")
    (count : method ≠ "eth_getTransactionCount") : result.1 = call := by
  obtain ⟨tagged, tags, value, _⟩ := rewriteCall_eq_some numbers config rewrites
  have same : tagged.1 = call := by
    rcases defaultBlockTag_cases numbers tags with same | ⟨_, keyed, _⟩
    · exact same
    · obtain ⟨found, present, string⟩ := Option.bind_eq_some_iff.mp named
      rw [methodKey, present, eq_textValue string] at keyed
      dsimp only at keyed
      rw [toText_textValue] at keyed
      exact absurd (Option.some.inj keyed) estimate
  rcases sealSenderPending_cases config tagged.1 with ⟨kept, _⟩ | written
  · rw [value, kept]
    exact same
  · rw [same, named] at written
    exact absurd (Option.some.inj written.1) count

theorem permitted_of_rewriteCall
    (rewrites : rewriteCall numbers config call = some result)
    (passed : ∀ method, namedMethod numbers call = some method →
      forbidden numbers config method call = some false) :
    CallPermitted numbers config result.1 := by
  intro method named
  have kept := rewriteCall_method numbers config rewrites
  rw [kept.1] at named
  have allowed :=
    methodAllowed_of_forbidden numbers config (passed method named)
  refine ⟨allowed.1, ?_⟩
  have present := member_method_of_namedMethod numbers named
  obtain ⟨tagged, tags, value, _⟩ := rewriteCall_eq_some numbers config rewrites
  have clear : ¬Mentions isPending (orNull (member "params" call)) →
      ¬Mentions isPending (orNull (member "params" tagged.1)) := by
    intro absent
    rcases defaultBlockTag_cases numbers tags with same | ⟨_, _, written⟩
    · rw [same]
      exact absent
    · obtain ⟨items, positional, equal⟩ := written
      rw [equal]
      exact not_mentions_withParams positional absent mentions_writeLatest
  rcases sealSenderPending_cases config tagged.1 with
    ⟨same, permitted⟩ | ⟨count, items, positional, equal⟩
  · rw [value, same]
    rcases allowed.2 with exempt | absent
    · apply permitted
      have survived := kept.2
      rw [value, same] at survived
      rw [survived]
      exact methodText_of_stringText present (beq_iff_eq.mp exempt)
    · exact Or.inl (clear absent)
  · rw [value, equal]
    refine Or.inr ⟨?_, ?_⟩
    · rw [methodText_withParams]
      exact count
    · intro found tag read second mentioned
      rw [paramItems_withParams positional] at read
      cases read
      rw [getElem_writeItem] at second
      cases second
      rw [mentions_textValue, isPending_latest] at mentioned
      cases mentioned

/-! ## The gas cap -/

theorem member_withoutMember
    (key other : String) (value : Value Number) :
    member other (withoutMember key value) =
      if other = key then none else member other value := by
  cases value with
  | scalar primitive => simp [withoutMember, member]
  | array items => simp [withoutMember, member]
  | object members =>
      rw [withoutMember, member, member, dropEntry, List.find?_filter]
      split
      · rename_i same
        subst same
        rw [List.find?_eq_none.mpr, Option.map_none]
        intro entry _
        simp
      · rename_i different
        congr 2
        funext entry
        by_cases named : entry.1 = other
        · simp [named, different]
        · simp [named]

theorem isObject_withoutMember
    (key : String) (object : isObject value = true) :
    isObject (withoutMember key value) = true := by
  cases value with
  | scalar primitive => cases object
  | array items => cases object
  | object members => rfl

theorem mentions_withoutMember
    {key : String} (mentioned : Mentions accepts (withoutMember key value)) :
    Mentions accepts value := by
  cases value with
  | scalar primitive => exact mentioned
  | array items => exact mentioned
  | object members =>
      rw [withoutMember, mentions_object] at mentioned
      obtain ⟨entry, listed, inside⟩ := mentioned
      exact mentions_object.mpr ⟨entry, (List.mem_filter.mp listed).1, inside⟩

theorem mentions_withMember
    {key : String} {written : Value Number}
    (mentioned : Mentions accepts (withMember key written value)) :
    Mentions accepts written ∨ Mentions accepts value := by
  cases value with
  | scalar primitive => exact Or.inr mentioned
  | array items => exact Or.inr mentioned
  | object members =>
      rw [withMember, mentions_object] at mentioned
      obtain ⟨entry, listed, inside⟩ := mentioned
      rcases mem_setEntry listed with equal | old
      · rw [equal] at inside
        exact Or.inl inside
      · exact Or.inr (mentions_object.mpr ⟨entry, old, inside⟩)

@[simp]
theorem isPending_hexText (value : Nat) :
    isPending (hexText value) = false := by
  rw [isPending, beq_eq_false_iff_ne]
  intro same
  have chars := congrArg String.toList same
  rw [toLowerCase, String.toList_ofList, hexText, String.toList_append,
    List.map_append] at chars
  have mark : ("0x".toList.map Char.toLower).head? = some '0' := by
    decide
  have first := congrArg List.head? chars
  rw [List.head?_append, mark, Option.some_or] at first
  exact absurd first (by decide)

/-- A transaction without the alias of its gas. -/
def unaliased (tx : Value Number) : Value Number :=
  if (member "gasLimit" tx).isSome then withoutMember "gasLimit" tx else tx

theorem member_unaliased (key : String) (tx : Value Number) :
    member key (unaliased tx) =
      if key = "gasLimit" then none else member key tx := by
  rw [unaliased]
  cases aliased : member "gasLimit" tx with
  | none =>
      rw [if_neg (by simp)]
      split
      · rename_i same
        rw [same]
        exact aliased
      · rfl
  | some value =>
      rw [if_pos (by simp)]
      exact member_withoutMember "gasLimit" key tx

theorem isObject_unaliased
    (object : isObject tx = true) :
    isObject (unaliased tx) = true := by
  rw [unaliased]
  split
  · exact isObject_withoutMember "gasLimit" object
  · exact object

theorem namedGas_eq_of_member_eq
    {other : Value Number} (same : member "gas" tx = member "gas" other) :
    namedGas numbers tx = namedGas numbers other := by
  rw [namedGas, namedGas, same]

theorem capTx_eq (tx : Value Number) (capGas : Int) :
    capTx numbers tx capGas = if gasPastCap (namedGas numbers tx) capGas then
        (withMember "gas" (textValue (hexText capGas.toNat)) (unaliased tx),
          true)
      else (unaliased tx, (member "gasLimit" tx).isSome) :=
  rfl

theorem capTx_capped
    (object : isObject tx = true) (positive : 0 < capGas) :
    member "gasLimit" (capTx numbers tx capGas).1 = none ∧
      ∃ gas, namedGas numbers (capTx numbers tx capGas).1 = some gas ∧
        0 ≤ gas ∧ gas ≤ capGas := by
  rw [capTx_eq]
  split
  · dsimp only
    constructor
    · rw [member_withMember "gas" "gasLimit" _ (isObject_unaliased object),
        if_neg (by decide), member_unaliased, if_pos rfl]
    · refine ⟨capGas, ?_, positive.le, le_rfl⟩
      rw [namedGas, member_withMember "gas" "gas" _ (isObject_unaliased object),
        if_pos rfl]
      dsimp only
      rw [readInteger_hexText, Int.ofNat_eq_natCast,
        Int.toNat_of_nonneg positive.le]
  · rename_i within
    dsimp only
    have kept : member "gas" (unaliased tx) = member "gas" tx := by
      rw [member_unaliased, if_neg (by decide)]
    constructor
    · rw [member_unaliased, if_pos rfl]
    · rw [namedGas_eq_of_member_eq numbers kept]
      cases named : namedGas numbers tx with
      | none =>
          rw [named, gasPastCap] at within
          exact absurd rfl within
      | some gas =>
          rw [named, gasPastCap, Bool.or_eq_true, decide_eq_true_eq,
            decide_eq_true_eq, not_or, not_lt, not_lt] at within
          exact ⟨gas, rfl, within.1, within.2⟩

theorem capTx_unchanged
    (unchanged : (capTx numbers tx capGas).2 = false) :
    (capTx numbers tx capGas).1 = tx := by
  rw [capTx_eq] at unchanged ⊢
  split
  · rename_i past
    rw [if_pos past] at unchanged
    cases unchanged
  · rename_i within
    rw [if_neg within] at unchanged
    dsimp only at unchanged ⊢
    rw [unaliased, if_neg (by rw [unchanged]; exact Bool.false_ne_true)]

theorem mentions_capTx
    (mentioned : Mentions isPending (capTx numbers tx capGas).1) :
    Mentions isPending tx := by
  have dropped : Mentions isPending (unaliased tx) → Mentions isPending tx := by
    intro inside
    rw [unaliased] at inside
    split at inside
    · exact mentions_withoutMember inside
    · exact inside
  rw [capTx_eq] at mentioned
  split at mentioned
  · rcases mentions_withMember mentioned with written | inside
    · rw [mentions_textValue, isPending_hexText] at written
      cases written
    · exact dropped inside
  · exact dropped mentioned

/-- Capping leaves a call, which then had its gas capped, or rewrites its
first parameter. -/
theorem capCall_cases
    (positive : 0 < capGas) (call : Value Number) :
    (capCall numbers capGas call = (call, false) ∧
        GasCapped numbers capGas call) ∨
      ∃ method tx items,
        methodText call = some method ∧ method ∈ callGasMethods ∧
          paramItems call = some (tx :: items) ∧ isObject tx = true ∧
            capCall numbers capGas call = (withMember "params"
                (.array ((capTx numbers tx capGas).1 :: items)) call,
                true) := by
  rw [capCall]
  dsimp only
  split
  · rename_i executes
    obtain ⟨method, named, listed⟩ := (Option.any_eq_true _ _).mp executes
    cases positional : (member "params" call).bind arrayItems with
    | none =>
        refine Or.inl ⟨rfl, ?_⟩
        intro other tx items _ _ present
        rw [paramItems, positional] at present
        cases present
    | some listedItems =>
        cases listedItems with
        | nil =>
            refine Or.inl ⟨rfl, ?_⟩
            intro other tx items _ _ present
            rw [paramItems, positional] at present
            cases present
        | cons tx items =>
            dsimp only
            split
            · rename_i object
              split
              · exact Or.inr
                  ⟨method, tx, items, named, by simpa using listed,
                    positional, object, rfl⟩
              · rename_i unchanged
                refine Or.inl ⟨rfl, ?_⟩
                intro other first rest _ _ present _
                rw [paramItems, positional] at present
                cases present
                have capped := capTx_capped numbers object positive
                rwa [capTx_unchanged numbers (by simpa using unchanged)]
                  at capped
            · rename_i scalar
              refine Or.inl ⟨rfl, ?_⟩
              intro other first rest _ _ present object
              rw [paramItems, positional] at present
              cases present
              exact absurd object scalar
  · rename_i other
    refine Or.inl ⟨rfl, ?_⟩
    intro method tx items named executes
    refine absurd ?_ other
    rw [methodText] at named
    rw [named, Option.any_some]
    simpa using executes

theorem gasCapped_capCall
    (positive : 0 < capGas) (call : Value Number) :
    GasCapped numbers capGas (capCall numbers capGas call).1 := by
  rcases capCall_cases numbers positive call with
    ⟨same, capped⟩ | ⟨method, tx, items, _, _, positional, object, equal⟩
  · rw [same]
    exact capped
  · rw [equal]
    intro other first rest _ _ present _
    rw [paramItems_withParams positional] at present
    cases present
    exact capTx_capped numbers object positive

theorem capCall_method
    (positive : 0 < capGas) (call : Value Number) :
    namedMethod numbers (capCall numbers capGas call).1 =
        namedMethod numbers call ∧
      methodText (capCall numbers capGas call).1 = methodText call := by
  rcases capCall_cases numbers positive call with
    ⟨same, _⟩ | ⟨method, tx, items, _, _, _, _, equal⟩
  · rw [same]
    exact ⟨rfl, rfl⟩
  · rw [equal, namedMethod_withParams, methodText_withParams]
    exact ⟨rfl, rfl⟩

theorem capCall_other
    (positive : 0 < capGas)
    (other : ∀ method, methodText call = some method →
      method ∉ callGasMethods) :
    (capCall numbers capGas call).1 = call := by
  rcases capCall_cases numbers positive call with
    ⟨same, _⟩ | ⟨method, tx, items, named, executes, _⟩
  · rw [same]
  · exact absurd executes (other method named)

theorem pendingPermitted_capCall
    (positive : 0 < capGas) (permitted : PendingPermitted config call) :
    PendingPermitted config (capCall numbers capGas call).1 := by
  rcases capCall_cases numbers positive call with
    ⟨same, _⟩ | ⟨method, tx, items, named, executes, positional, _, equal⟩
  · rw [same]
    exact permitted
  · rw [equal]
    rcases permitted with absent | ⟨count, _⟩
    · apply Or.inl
      apply not_mentions_withParams positional absent
      intro item listed mentioned
      rcases List.mem_cons.mp listed with rfl | old
      · exact ⟨tx, List.mem_cons_self, mentions_capTx numbers mentioned⟩
      · exact ⟨item, List.mem_cons_of_mem _ old, mentioned⟩
    · rw [count] at named
      cases named
      exact absurd executes (by decide)

theorem callPermitted_capCall
    (positive : 0 < capGas) (permitted : CallPermitted numbers config call) :
    CallPermitted numbers config (capCall numbers capGas call).1 := by
  intro method named
  rw [(capCall_method numbers positive call).1] at named
  have asked := permitted method named
  exact ⟨asked.1, pendingPermitted_capCall numbers config positive asked.2⟩

end Eris.Gateway.Screening
