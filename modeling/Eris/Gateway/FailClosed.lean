import Eris.Gateway.Screening

/-!
# The gateway fails closed

Every body sent to the node is one the gateway could not read and passes on as
it came, a JSON value whose calls are all accepted, or the lookup of a receipt
that a raw read costs.  No reply to a read by hash shows a transaction without
a block.
-/

namespace Eris.Gateway.FailClosed

open Foundation Values CallFilter TxGas Handle Screening

variable {Number Body : Type} (numbers : Numbers Number)

variable (codec : Codec Number Body) (config : Config)
    {key : String} {listed : List (Value Number)} {caller : Caller}
    {parsed accepted call : Value Number} {body sent : Body}

/-- A call that may reach the node under a configuration. -/
structure CallAccepted (call : Value Number) : Prop where
  permitted : config.filterMethods = true → CallPermitted numbers config call
  capped : 0 < config.maxCallGas → GasCapped numbers config.maxCallGas call

/-- The body is the text of a value: it was read from it or written of it. -/
def Carries (body : Body) (value : Value Number) : Prop :=
  codec.parse body = some value ∨ body = codec.stringify value

/-! ## The calls of a rewritten body -/

theorem withCalls_calls (parsed : Value Number) :
    withCalls parsed (calls parsed) = parsed := by
  cases parsed with
  | scalar primitive => rfl
  | array items => rfl
  | object members => rfl

theorem calls_of_not_array
    {value : Value Number} (single : arrayItems value = none) :
    calls value = [value] := by
  cases value with
  | scalar primitive => rfl
  | array items => cases single
  | object members => rfl

theorem calls_withCalls
    {rewrite : Value Number → Value Number}
    (keeps : ∀ call, arrayItems call = none → arrayItems (rewrite call) = none)
    (parsed : Value Number) :
    calls (withCalls parsed ((calls parsed).map rewrite)) =
      (calls parsed).map rewrite := by
  cases parsed with
  | scalar primitive => exact calls_of_not_array (keeps _ rfl)
  | array items => rfl
  | object members => exact calls_of_not_array (keeps _ rfl)

theorem arrayItems_withMember
    {written value : Value Number} (single : arrayItems value = none) :
    arrayItems (withMember key written value) = none := by
  cases value with
  | scalar primitive => rfl
  | array items => cases single
  | object members => rfl

theorem arrayItems_rewritten
    (call : Value Number) (single : arrayItems call = none) :
    arrayItems (rewritten numbers config call) = none := by
  rw [rewritten]
  cases rewrites : rewriteCall numbers config call with
  | none => exact single
  | some result =>
      obtain ⟨tagged, tags, value, _⟩ :=
        rewriteCall_eq_some numbers config rewrites
      have first : arrayItems tagged.1 = none := by
        rcases defaultBlockTag_cases numbers tags with same | ⟨_, _, written⟩
        · rw [same]
          exact single
        · obtain ⟨items, _, equal⟩ := written
          rw [equal]
          exact arrayItems_withMember single
      rw [Option.map_some, Option.getD_some, value]
      rcases sealSenderPending_cases config tagged.1 with ⟨same, _⟩ | written
      · rw [same]
        exact first
      · obtain ⟨_, items, _, equal⟩ := written
        rw [equal]
        exact arrayItems_withMember first

/-- A call with its gas capped, where there is a cap. -/
def cappedCall (call : Value Number) : Value Number :=
  if 0 < config.maxCallGas then (capCall numbers config.maxCallGas call).1
  else call

theorem arrayItems_cappedCall
    (call : Value Number) (single : arrayItems call = none) :
    arrayItems (cappedCall numbers config call) = none := by
  rw [cappedCall]
  split
  · rename_i positive
    rcases capCall_cases numbers positive call with ⟨same, _⟩ | written
    · rw [same]
      exact single
    · obtain ⟨_, _, _, _, _, _, _, equal⟩ := written
      rw [equal]
      exact arrayItems_withMember single
  · exact single

theorem rewriteCalls_eq_some
    {result : List (Value Number) × Bool}
    (rewrites : rewriteCalls numbers config listed = some result) :
    result.1 = listed.map (rewritten numbers config) ∧
      (result.2 = false → result.1 = listed) ∧
      ∀ call ∈ listed, ∃ outcome,
        rewriteCall numbers config call = some outcome ∧
          rewritten numbers config call = outcome.1 := by
  induction listed generalizing result with
  | nil =>
      cases rewrites
      exact ⟨rfl, fun _ => rfl, fun _ absent => nomatch absent⟩
  | cons call listed ih =>
      obtain ⟨first, firstRewrites, rewrites⟩ :=
        Option.bind_eq_some_iff.mp rewrites
      obtain ⟨rest, restRewrites, rewrites⟩ :=
        Option.bind_eq_some_iff.mp rewrites
      cases rewrites
      obtain ⟨values, unchanged, outcomes⟩ := ih restRewrites
      have value : rewritten numbers config call = first.1 := by
        rw [rewritten, firstRewrites]
        rfl
      refine ⟨?_, ?_, ?_⟩
      · rw [List.map_cons, value, ← values]
      · intro quiet
        rw [Bool.or_eq_false_iff] at quiet
        dsimp only
        rw [unchanged quiet.2,
          rewriteCall_unchanged numbers config firstRewrites quiet.1]
      · intro other listedOther
        rcases List.mem_cons.mp listedOther with rfl | later
        · exact ⟨first, firstRewrites, value⟩
        · exact outcomes other later

/-- What a stage does to a value and its body: nothing, or the body is
written anew. -/
def Rewrites (value next : Value Number) (body sent : Body) : Prop :=
  (next = value ∧ sent = body) ∨ sent = codec.stringify next

theorem limits_accepted
    (passed : limits numbers config caller parsed body =
      .accepted accepted sent) :
    accepted = parsed ∧ sent = body := by
  rw [limits] at passed
  split at passed
  · cases passed
  split at passed
  · cases passed
  split at passed
  · cases passed
  split at passed
  · cases passed
  split at passed
  · cases passed
    exact ⟨rfl, rfl⟩
  · cases passed

theorem cappedCall_scalar
    (primitive : Primitive Number) :
    cappedCall numbers config (.scalar primitive) = .scalar primitive := by
  rw [cappedCall]
  split
  · rename_i positive
    apply capCall_other numbers positive
    intro method named
    cases named
  · rfl

theorem cappedCall_of_quiet
    (positive : 0 < config.maxCallGas)
    (quiet : ¬(isStructured parsed && decide (0 <
        (calls parsed).countP fun call =>
            (capCall numbers config.maxCallGas call).2)) = true) :
    ∀ call ∈ calls parsed, cappedCall numbers config call = call := by
  intro call listed
  cases structured : isStructured parsed with
  | false =>
      cases parsed with
      | scalar primitive =>
          rw [List.mem_singleton.mp listed]
          exact cappedCall_scalar numbers config primitive
      | array items => cases structured
      | object members => cases structured
  | true =>
      rw [structured, Bool.true_and, decide_eq_true_eq,
        Nat.pos_iff_ne_zero, not_not, List.countP_eq_zero] at quiet
      rw [cappedCall, if_pos positive]
      rcases capCall_cases numbers positive call with ⟨same, _⟩ | written
      · rw [same]
      · obtain ⟨_, _, _, _, _, _, _, equal⟩ := written
        refine absurd ?_ (quiet call listed)
        rw [equal]

theorem capReads_accepted
    (passed : capReads numbers codec config caller parsed body =
      .accepted accepted sent) :
    calls accepted = (calls parsed).map (cappedCall numbers config) ∧
      Rewrites codec parsed accepted body sent := by
  rw [capReads] at passed
  by_cases positive : 0 < config.maxCallGas
  · have values : cappedCall numbers config =
        fun call => (capCall numbers config.maxCallGas call).1 := by
      funext call
      rw [cappedCall, if_pos positive]
    rw [capCallGas, if_neg (not_le.mpr positive)] at passed
    dsimp only at passed
    rw [← values] at passed
    split at passed
    · obtain ⟨rfl, rfl⟩ := limits_accepted numbers config passed
      exact ⟨calls_withCalls (arrayItems_cappedCall numbers config) parsed,
        Or.inr rfl⟩
    · rename_i quiet
      obtain ⟨rfl, rfl⟩ := limits_accepted numbers config passed
      refine ⟨?_, Or.inl ⟨rfl, rfl⟩⟩
      have unchanged :
          ∀ call ∈ calls accepted, cappedCall numbers config call = call :=
        cappedCall_of_quiet numbers config positive quiet
      exact ((List.map_congr_left unchanged).trans (List.map_id _)).symm
  · have values : cappedCall numbers config = id := by
      funext call
      rw [cappedCall, if_neg positive, id]
    rw [capCallGas, if_pos (not_lt.mp positive)] at passed
    rw [if_neg (by simp)] at passed
    obtain ⟨rfl, rfl⟩ := limits_accepted numbers config passed
    rw [values, List.map_id]
    exact ⟨rfl, Or.inl ⟨rfl, rfl⟩⟩

theorem screenIds_accepted
    (passed : screenIds numbers codec config caller parsed body =
      .accepted accepted sent) :
    calls accepted = (calls parsed).map (cappedCall numbers config) ∧
      Rewrites codec parsed accepted body sent := by
  rw [screenIds] at passed
  split at passed
  · cases passed
  · cases passed
  · exact capReads_accepted numbers codec config passed

theorem namedMethod_of_methods_nil
    (nameless : methods numbers parsed = []) (listed : call ∈ calls parsed) :
    namedMethod numbers call = none := by
  rw [methods, List.filterMap_eq_nil_iff] at nameless
  exact nameless call listed

theorem screenMethods_accepted
    (passed : screenMethods numbers codec config caller parsed body =
      .accepted accepted sent) :
    ∃ value middle, screenIds numbers codec config caller value middle =
          .accepted accepted sent ∧
        Rewrites codec parsed value body middle ∧
        (config.filterMethods = true →
          ∀ call ∈ calls value, CallPermitted numbers config call) ∧
        (calls value = calls parsed ∨
          (calls value = (calls parsed).map (rewritten numbers config) ∧
            ∀ call ∈ calls parsed, ∃ outcome,
              rewriteCall numbers config call = some outcome ∧
                rewritten numbers config call = outcome.1)) := by
  rw [screenMethods] at passed
  split at passed
  · split at passed
    · cases passed
    · split at passed
      · cases passed
      · cases passed
    rename_i clear
    split at passed
    · cases passed
    rename_i result rewrites
    obtain ⟨values, quiet, outcomes⟩ :=
      rewriteCalls_eq_some numbers config rewrites
    have listed : calls (withCalls parsed result.1) =
        (calls parsed).map (rewritten numbers config) := by
      rw [values]
      exact calls_withCalls (arrayItems_rewritten numbers config) parsed
    refine ⟨_, _, passed, ?_, ?_, Or.inr ⟨listed, outcomes⟩⟩
    · cases changed : result.2 with
      | true => exact Or.inr (if_pos rfl)
      | false =>
          refine Or.inl ⟨?_, if_neg Bool.false_ne_true⟩
          rw [quiet changed, withCalls_calls]
    · intro _ call member
      rw [listed] at member
      obtain ⟨original, originalListed, rfl⟩ := List.mem_map.mp member
      obtain ⟨outcome, rewritesOne, value⟩ := outcomes original originalListed
      rw [value]
      apply permitted_of_rewriteCall numbers config rewritesOne
      intro method named
      exact forbidden_of_refusedMethod numbers config clear original
        originalListed method named
  · rename_i unfiltered
    refine ⟨_, _, passed, Or.inl ⟨rfl, rfl⟩, ?_, Or.inl rfl⟩
    intro filters call listed method named
    rw [filters, Bool.true_and, Bool.not_eq_true', Bool.not_eq_false,
      List.isEmpty_iff] at unfiltered
    rw [namedMethod_of_methods_nil numbers unfiltered listed] at named
    cases named

theorem screen_accepted
    (passed : screen numbers codec config caller body =
      .accepted accepted sent) :
    screenMethods numbers codec config caller (orNull (codec.parse body)) body =
      .accepted accepted sent := by
  rw [screen] at passed
  split at passed
  · cases passed
  · exact passed

/-- A screened body is one that was no JSON, passed on as it came, or the
text of a value. -/
theorem screen_text
    (passed : screen numbers codec config caller body =
      .accepted accepted sent) :
    (codec.parse body = none ∧ sent = body) ∨ Carries codec sent accepted := by
  obtain ⟨value, middle, rest, first, _⟩ :=
    screenMethods_accepted numbers codec config
      (screen_accepted numbers codec config passed)
  have second := (screenIds_accepted numbers codec config rest).2
  rcases second with ⟨rfl, rfl⟩ | written
  · rcases first with ⟨rfl, rfl⟩ | written
    · cases parsed : codec.parse sent with
      | none => exact Or.inl ⟨rfl, rfl⟩
      | some request => exact Or.inr (Or.inl parsed)
    · exact Or.inr (Or.inr written)
  · exact Or.inr (Or.inr written)

theorem screen_calls
    (passed : screen numbers codec config caller body =
      .accepted accepted sent) :
    ∀ call ∈ calls accepted, CallAccepted numbers config call := by
  obtain ⟨value, middle, rest, _, permitted, _⟩ :=
    screenMethods_accepted numbers codec config
      (screen_accepted numbers codec config passed)
  have listed := (screenIds_accepted numbers codec config rest).1
  intro call member
  rw [listed] at member
  obtain ⟨original, originalListed, rfl⟩ := List.mem_map.mp member
  rw [cappedCall]
  constructor
  · intro filters
    have asked := permitted filters original originalListed
    split
    · rename_i positive
      exact callPermitted_capCall numbers config positive asked
    · exact asked
  · intro positive
    rw [if_pos positive]
    exact gasCapped_capCall numbers positive original

theorem hashMethod_cases
    (reads : readsTxByHash call = true) :
    ∃ method, methodText call = some method ∧ method ≠ "" ∧
      method ≠ "eth_estimateGas" ∧ method ≠ "eth_getTransactionCount" ∧
        method ∉ callGasMethods := by
  obtain ⟨method, named, read⟩ := (Option.any_eq_true _ _).mp reads
  have hashMethod : method ∈ txByHashMethods := by simpa using read
  simp only [txByHashMethods, List.mem_cons, List.not_mem_nil,
    or_false] at hashMethod
  refine ⟨method, named, ?_⟩
  rcases hashMethod with rfl | rfl
  · decide
  · decide

theorem cappedCall_of_hashRead
    (reads : readsTxByHash call = true) :
    cappedCall numbers config call = call := by
  obtain ⟨method, named, _, _, _, uncapped⟩ := hashMethod_cases reads
  rw [cappedCall]
  split
  · rename_i positive
    apply capCall_other numbers positive
    intro other otherNamed
    rw [named] at otherNamed
    cases otherNamed
    exact uncapped
  · rfl

theorem methodText_cappedCall (call : Value Number) :
    methodText (cappedCall numbers config call) = methodText call := by
  rw [cappedCall]
  split
  · rename_i positive
    exact (capCall_method numbers positive call).2
  · rfl

theorem screen_hashReads
    (passed : screen numbers codec config caller body = .accepted accepted sent)
    (reads : readsTxByHash call = true) :
    call ∈ calls accepted ↔ call ∈ calls (orNull (codec.parse body)) := by
  obtain ⟨value, middle, rest, _, _, kept⟩ :=
    screenMethods_accepted numbers codec config
      (screen_accepted numbers codec config passed)
  have sameText {first second : Value Number}
      (texts : methodText first = methodText second) :
      readsTxByHash first = readsTxByHash second := by
    rw [readsTxByHash, readsTxByHash, texts]
  have filtered :
      call ∈ calls value ↔ call ∈ calls (orNull (codec.parse body)) := by
    rcases kept with same | ⟨mapped, outcomes⟩
    · rw [same]
    rw [mapped, List.mem_map]
    constructor
    · rintro ⟨original, listed, equal⟩
      obtain ⟨outcome, rewrites, result⟩ := outcomes original listed
      have texts := (rewriteCall_method numbers config rewrites).2
      rw [← result, equal] at texts
      rw [sameText texts] at reads
      obtain ⟨method, named, _, estimate, count, _⟩ := hashMethod_cases reads
      have same :=
        rewriteCall_other numbers config rewrites named estimate count
      rw [← equal, result, same]
      exact listed
    · intro listed
      obtain ⟨outcome, rewrites, result⟩ := outcomes call listed
      obtain ⟨method, named, _, estimate, count, _⟩ := hashMethod_cases reads
      refine ⟨call, listed, ?_⟩
      rw [result]
      exact rewriteCall_other numbers config rewrites named estimate count
  rw [(screenIds_accepted numbers codec config rest).1, List.mem_map,
    ← filtered]
  constructor
  · rintro ⟨original, listed, equal⟩
    have texts := methodText_cappedCall numbers config original
    rw [equal] at texts
    rw [sameText texts] at reads
    rw [← equal, cappedCall_of_hashRead numbers config reads]
    exact listed
  · intro listed
    exact ⟨call, listed, cappedCall_of_hashRead numbers config reads⟩

/-! ## Sealing -/

variable (backend : Backend Body)

/-- A response to a read by hash that shows no transaction without a block:
it has no result, its result has a block, or the node has the receipt of the
raw bytes it shows. -/
def Sealed (call response : Value Number) : Prop :=
  isNullish (member "result" response) = true ∨
    (methodText call = some "eth_getTransactionByHash" ∧
      withoutBlock (orNull (member "result" response)) = false) ∨
    ∃ sent, receiptFound numbers codec
        (backend sent (codec.stringify (receiptProbe numbers call))) = true

theorem result_withoutResult (response : Value Number) :
    isNullish (member "result" (withoutResult response)) = true := by
  rw [withoutResult]
  cases response with
  | scalar primitive => rfl
  | array items => rfl
  | object members =>
      rw [member_withMember "result" "result" _ rfl, if_pos rfl]
      rfl

theorem mem_keyedCalls
    {keyed : List (String × Value Number)}
    (keys : keyedCalls numbers listed = some keyed) (member : call ∈ listed)
    (structured : isStructured call = true) :
    ∃ key, idKey numbers call = some key ∧ (key, call) ∈ keyed := by
  induction listed generalizing keyed with
  | nil => cases member
  | cons first listed ih =>
      rw [keyedCalls] at keys
      split at keys
      · obtain ⟨key, keyRead, keys⟩ := Option.bind_eq_some_iff.mp keys
        obtain ⟨rest, restKeys, keys⟩ := Option.bind_eq_some_iff.mp keys
        cases keys
        rcases List.mem_cons.mp member with rfl | later
        · exact ⟨key, keyRead, List.mem_cons_self⟩
        · obtain ⟨other, otherRead, otherListed⟩ := ih restKeys later
          exact ⟨other, otherRead, List.mem_cons_of_mem _ otherListed⟩
      · rename_i scalar
        rcases List.mem_cons.mp member with rfl | later
        · exact absurd structured scalar
        · exact ih keys later

theorem keyedCalls_sound
    {keyed : List (String × Value Number)}
    (keys : keyedCalls numbers listed = some keyed) :
    ∀ entry ∈ keyed,
      entry.2 ∈ listed ∧ idKey numbers entry.2 = some entry.1 := by
  induction listed generalizing keyed with
  | nil =>
      cases keys
      exact fun _ absent => nomatch absent
  | cons first listed ih =>
      rw [keyedCalls] at keys
      split at keys
      · obtain ⟨key, keyRead, keys⟩ := Option.bind_eq_some_iff.mp keys
        obtain ⟨rest, restKeys, keys⟩ := Option.bind_eq_some_iff.mp keys
        cases keys
        intro entry member
        rcases List.mem_cons.mp member with rfl | later
        · exact ⟨List.mem_cons_self, keyRead⟩
        · obtain ⟨listedEntry, read⟩ := ih restKeys entry later
          exact ⟨List.mem_cons_of_mem _ listedEntry, read⟩
      · intro entry member
        obtain ⟨listedEntry, read⟩ := ih keys entry member
        exact ⟨List.mem_cons_of_mem _ listedEntry, read⟩

theorem eq_of_idCount_le_one
    {keyed : List (String × Value Number)} (single : idCount keyed key ≤ 1)
    {entry other : String × Value Number}
    (listed : entry ∈ keyed) (otherListed : other ∈ keyed)
    (named : entry.1 = key) (otherNamed : other.1 = key) :
    entry = other := by
  rw [idCount, List.countP_eq_length_filter] at single
  have member : entry ∈ keyed.filter fun listed => listed.1 == key :=
    List.mem_filter.mpr ⟨listed, beq_iff_eq.mpr named⟩
  have otherMember : other ∈ keyed.filter fun listed => listed.1 == key :=
    List.mem_filter.mpr ⟨otherListed, beq_iff_eq.mpr otherNamed⟩
  cases kept : keyed.filter fun listed => listed.1 == key with
  | nil =>
      rw [kept] at member
      cases member
  | cons first rest =>
      rw [kept] at member otherMember single
      have empty : rest = [] := by
        apply List.eq_nil_of_length_eq_zero
        rw [List.length_cons] at single
        omega
      rw [empty, List.mem_singleton] at member otherMember
      rw [member, otherMember]

theorem hashRead_of_mem
    {keyed : List (String × Value Number)} (listed : (key, call) ∈ keyed)
    (reads : readsTxByHash call = true) :
    hashRead keyed key = .ambiguous ∨ hashRead keyed key = .call call := by
  rw [hashRead]
  split
  · rename_i absent
    exact absurd (by simpa using reads)
        (List.find?_eq_none.mp absent (key, call) listed)
  · rename_i entry found
    split
    · exact Or.inl rfl
    · rename_i single
      have accepted := List.find?_some found
      rw [Bool.and_eq_true, beq_iff_eq] at accepted
      have same := eq_of_idCount_le_one (not_lt.mp single)
          (List.mem_of_find?_eq_some found) listed accepted.1 rfl
      rw [same]
      exact Or.inr rfl

theorem mem_of_hashRead
    {keyed : List (String × Value Number)}
    (read : hashRead keyed key = .call call) :
    ∃ entry ∈ keyed, entry.2 = call ∧ readsTxByHash call = true := by
  rw [hashRead] at read
  split at read
  · cases read
  · rename_i entry found
    split at read
    · cases read
    · cases read
      have accepted := List.find?_some found
      rw [Bool.and_eq_true] at accepted
      exact ⟨entry, List.mem_of_find?_eq_some found, rfl, accepted.2⟩

/-- A response that may reach the client, whatever call it answers. -/
def Safe (keyed : List (String × Value Number)) (response : Value Number) :
    Prop :=
  ∀ key call, (key, call) ∈ keyed → readsTxByHash call = true →
    idKey numbers response = some key →
      Sealed numbers codec backend call response

/-- A body that looks up the receipt of a read by hash. -/
def LooksUp (keyed : List (String × Value Number)) (probe : Body) : Prop :=
  ∃ entry ∈ keyed, readsTxByHash entry.2 = true ∧
    probe = codec.stringify (receiptProbe numbers entry.2)

variable {keyed : List (String × Value Number)}

theorem safe_withoutResult (response : Value Number) :
    Safe numbers codec backend keyed (withoutResult response) :=
  fun _ _ _ _ _ => Or.inl (result_withoutResult response)

theorem sealResponses_cons
    (sent : Nat) (response : Value Number) (responses : List (Value Number)) :
    (sealResponses numbers codec backend keyed sent
        (response :: responses)).responses = none ∧
        (sealResponses numbers codec backend keyed sent
          (response :: responses)).probes = [] ∨
      ∃ next shown changed probes,
        sealResponses numbers codec backend keyed sent (response :: responses) =
          (sealResponses numbers codec backend keyed next responses).add
            shown changed probes ∧
        Safe numbers codec backend keyed shown ∧
        (changed = false ∧ shown = response ∨
          changed = true ∧ shown = withoutResult response) ∧
        ∀ probe ∈ probes, LooksUp numbers codec keyed probe := by
  rw [sealResponses]
  split
  · rename_i empty
    exact Or.inr
      ⟨sent, response, false, [], rfl, fun _ _ _ _ _ => Or.inl empty,
        Or.inl ⟨rfl, rfl⟩, fun _ absent => (nomatch absent)⟩
  split
  · exact Or.inl ⟨rfl, rfl⟩
  rename_i key keyRead
  have judged : ∀ call, hashRead keyed key = .call call →
      Sealed numbers codec backend call response →
        Safe numbers codec backend keyed response := by
    intro call read fine other otherCall listed reads otherRead
    rw [keyRead] at otherRead
    cases otherRead
    rcases hashRead_of_mem listed reads with ambiguous | single
    · rw [ambiguous] at read
      cases read
    · rw [single] at read
      cases read
      exact fine
  cases read : hashRead keyed key with
  | absent =>
      refine Or.inr ⟨sent, response, false, [], rfl, ?_, Or.inl ⟨rfl, rfl⟩,
        fun _ absent => (nomatch absent)⟩
      intro other otherCall listed reads otherRead
      rw [keyRead] at otherRead
      cases otherRead
      rcases hashRead_of_mem listed reads with ambiguous | single
      · rw [ambiguous] at read
        cases read
      · rw [single] at read
        cases read
  | ambiguous =>
      exact Or.inr ⟨sent, withoutResult response, true, [], rfl,
        safe_withoutResult numbers codec backend response,
        Or.inr ⟨rfl, rfl⟩, fun _ absent => (nomatch absent)⟩
  | call call =>
      dsimp only
      split
      · rename_i byHash
        split
        · exact Or.inr ⟨sent, withoutResult response, true, [], rfl,
            safe_withoutResult numbers codec backend response,
            Or.inr ⟨rfl, rfl⟩, fun _ absent => (nomatch absent)⟩
        · rename_i mined
          exact Or.inr ⟨sent, response, false, [], rfl, judged call read
              (Or.inr (Or.inl ⟨byHash, by simpa using mined⟩)),
            Or.inl ⟨rfl, rfl⟩, fun _ absent => (nomatch absent)⟩
      · have lookup : ∀ probe ∈ [codec.stringify (receiptProbe numbers call)],
            LooksUp numbers codec keyed probe := by
          intro probe listed
          obtain ⟨entry, entryListed, equal, reads⟩ := mem_of_hashRead read
          subst equal
          exact ⟨entry, entryListed, reads, List.mem_singleton.mp listed⟩
        split
        · rename_i found
          exact Or.inr ⟨sent + 1, response, false, _, rfl,
            judged call read (Or.inr (Or.inr ⟨sent, found⟩)),
            Or.inl ⟨rfl, rfl⟩, lookup⟩
        · exact Or.inr ⟨sent + 1, withoutResult response, true, _, rfl,
            safe_withoutResult numbers codec backend response,
            Or.inr ⟨rfl, rfl⟩, lookup⟩

/-- What the client is shown of a response. -/
def Shown (shown response : Value Number) : Prop :=
  shown = response ∨ shown = withoutResult response

/-- Every response left by the seal may reach the client and is one of the
node's, with its result or without; where nothing changed they are the node's
own; and every body sent looks a receipt up. -/
theorem sealResponses_sound
    (sent : Nat) (responses : List (Value Number)) :
    (∀ result,
      (sealResponses numbers codec backend keyed sent responses).responses =
          some result →
        (∀ response ∈ result, Safe numbers codec backend keyed response) ∧
          List.Forall₂ Shown result responses ∧
          ((sealResponses numbers codec backend keyed sent responses).changed =
              false →
            result = responses)) ∧
      ∀ probe ∈
          (sealResponses numbers codec backend keyed sent responses).probes,
        LooksUp numbers codec keyed probe := by
  induction responses generalizing sent with
  | nil =>
      rw [sealResponses]
      constructor
      · intro result finished
        cases finished
        exact ⟨fun _ absent => (nomatch absent), List.Forall₂.nil, fun _ => rfl⟩
      · exact fun _ absent => (nomatch absent)
  | cons response responses ih =>
      rcases sealResponses_cons numbers codec backend sent response responses
        with ⟨thrown, silent⟩ | ⟨next, shown, changed, probes, step, safe,
          same, lookups⟩
      · rw [thrown, silent]
        constructor
        · intro result finished
          cases finished
        · exact fun _ absent => (nomatch absent)
      · obtain ⟨rest, restLookups⟩ := ih next
        rw [step]
        constructor
        · intro result finished
          obtain ⟨later, laterFinished, rfl⟩ :=
            Option.map_eq_some_iff.mp finished
          obtain ⟨laterSafe, laterShown, laterSame⟩ := rest later laterFinished
          refine ⟨?_, List.Forall₂.cons ?_ laterShown, ?_⟩
          · intro other listed
            rcases List.mem_cons.mp listed with rfl | member
            · exact safe
            · exact laterSafe other member
          · rcases same with ⟨_, kept⟩ | ⟨_, dropped⟩
            · exact Or.inl kept
            · exact Or.inr dropped
          · intro quiet
            rw [Sealing.add, Bool.or_eq_false_iff] at quiet
            rcases same with ⟨_, kept⟩ | ⟨loud, _⟩
            · rw [kept, laterSame quiet.2]
            · rw [quiet.1] at loud
              cases loud
        · intro probe listed
          rcases List.mem_append.mp listed with first | later
          · exact lookups probe first
          · exact restLookups probe later

theorem calls_withCalls_of_shown
    {reply : Value Number} {responses : List (Value Number)}
    (shown : List.Forall₂ Shown responses (calls reply)) :
    calls (withCalls reply responses) = responses := by
  cases array : arrayItems reply with
  | some items =>
      cases reply with
      | scalar primitive => cases array
      | array listed => rfl
      | object members => cases array
  | none =>
      rw [calls_of_not_array array] at shown
      obtain ⟨response, rest, kept, ended, rfl⟩ :=
        List.forall₂_cons_right_iff.mp shown
      rw [List.forall₂_nil_right_iff.mp ended]
      have single : arrayItems response = none := by
        rcases kept with rfl | rfl
        · exact array
        · exact arrayItems_withMember array
      cases reply with
      | scalar primitive => exact calls_of_not_array single
      | array items => cases array
      | object members => exact calls_of_not_array single

theorem sealPending_probes
    (parsed : Value Number) (upBody : Body) :
    ∀ probe ∈ (sealPending numbers codec backend parsed upBody).1,
      ∃ call ∈ calls parsed, readsTxByHash call = true ∧
        probe = codec.stringify (receiptProbe numbers call) := by
  intro probe listed
  rw [sealPending] at listed
  split at listed
  · cases listed
  rename_i keyed keys
  split at listed
  · split at listed
    · cases listed
    · rename_i reply _
      obtain ⟨entry, entryListed, reads, equal⟩ :=
        (sealResponses_sound numbers codec backend 1 (calls reply)).2 probe
          listed
      exact
        ⟨entry.2, (keyedCalls_sound numbers keys entry entryListed).1, reads,
          equal⟩
  · cases listed

theorem isStructured_of_readsTxByHash
    (reads : readsTxByHash call = true) :
    isStructured call = true := by
  cases call with
  | scalar primitive => cases reads
  | array items => rfl
  | object members => rfl

/-- What the client is sent is no JSON, or the text of a value whose every
response to a read by hash is sealed. -/
theorem sealPending_reply
    {upBody shown : Body}
    (finished :
      (sealPending numbers codec backend parsed upBody).2 = some shown)
    (listed : call ∈ calls parsed) (reads : readsTxByHash call = true) :
    codec.parse shown = none ∨ ∃ value, Carries codec shown value ∧
        ∀ response ∈ calls value, idKey numbers response = idKey numbers call →
            Sealed numbers codec backend call response := by
  rw [sealPending] at finished
  split at finished
  · cases finished
  rename_i keyed keys
  obtain ⟨key, keyRead, keyedCall⟩ :=
    mem_keyedCalls numbers keys listed (isStructured_of_readsTxByHash reads)
  have anyReads : (keyed.any fun entry => readsTxByHash entry.2) = true :=
    List.any_eq_true.mpr ⟨(key, call), keyedCall, reads⟩
  rw [if_pos anyReads] at finished
  split at finished
  · rename_i refused
    cases finished
    exact Or.inl refused
  · rename_i reply replied
    obtain ⟨responses, done, equal⟩ := Option.map_eq_some_iff.mp finished
    obtain ⟨safe, kept, same⟩ :=
      (sealResponses_sound numbers codec backend 1 (calls reply)).1 responses
        done
    have fine : ∀ response ∈ responses,
        idKey numbers response = idKey numbers call →
          Sealed numbers codec backend call response := by
      intro response shownResponse sameId
      exact safe response shownResponse key call keyedCall reads
        (sameId.trans keyRead)
    split at equal
    · refine Or.inr ⟨withCalls reply responses, Or.inr equal.symm, ?_⟩
      rw [calls_withCalls_of_shown kept]
      exact fine
    · rename_i quiet
      refine Or.inr ⟨reply, Or.inl (by rw [← equal, replied]), ?_⟩
      rw [← same (by simpa using quiet)]
      exact fine

/-! ## The whole request -/

/-- What a body sent to the node may be: one that is no JSON, sent as it came;
the text of a value with accepted calls; or the lookup of a receipt, without
a pending tag where the filter is on. -/
inductive Forwardable (received sent : Body) : Prop
  | unread (refused : codec.parse received = none) (same : sent = received)
  | accepted (value : Value Number) (text : Carries codec sent value)
      (fine : ∀ call ∈ calls value, CallAccepted numbers config call)
  | lookup (call : Value Number)
      (listed : call ∈ calls (orNull (codec.parse received)))
      (reads : readsTxByHash call = true)
      (text : sent = codec.stringify (receiptProbe numbers call))
      (clear : config.filterMethods = true → ¬Mentions isPending
          (orNull (member "params" (receiptProbe numbers call))))

/-- What the gateway promises of one request: what it sends to the node, and
that no reply to a read by hash shows a transaction without a block. -/
structure Closed (received : Body) (exchange : Exchange Number Body) :
    Prop where
  forwarded :
    ∀ sent ∈ exchange.forwarded, Forwardable numbers codec config received sent
  reply : ∀ status shown, exchange.reply = some (.passed status shown) →
      ∀ call ∈ calls (orNull (codec.parse received)),
        readsTxByHash call = true → codec.parse shown = none ∨
            ∃ value, Carries codec shown value ∧ ∀ response ∈ calls value,
                idKey numbers response = idKey numbers call →
                  Sealed numbers codec backend call response

theorem receiptProbe_clear
    (reads : readsTxByHash call = true)
    (permitted : CallPermitted numbers config call) :
    ¬Mentions isPending
      (orNull (member "params" (receiptProbe numbers call))) := by
  obtain ⟨method, named, filled, _, count, _⟩ := hashMethod_cases reads
  obtain ⟨found, present, string⟩ := Option.bind_eq_some_iff.mp named
  have named' : namedMethod numbers call = some (textValue method) := by
    rw [namedMethod, present, eq_textValue string, Option.filter_some,
      if_pos (by simpa [truthy] using filled)]
  have absent : ¬Mentions isPending (orNull (member "params" call)) := by
    rcases (permitted _ named').2 with absent | ⟨counts, _⟩
    · exact absent
    · rw [named] at counts
      exact absurd (Option.some.inj counts) count
  change ¬Mentions isPending (.array [orNull ((paramItems call).bind (·[0]?))])
  rw [mentions_array]
  rintro ⟨item, listed, mentioned⟩
  rw [List.mem_singleton] at listed
  subst listed
  apply absent
  cases positional : paramItems call with
  | none =>
      rw [positional] at mentioned
      exact absurd mentioned not_mentions_null
  | some items =>
      rw [positional, Option.bind_some] at mentioned
      rw [member_params_of_paramItems positional, orNull, Option.getD_some,
        mentions_array]
      cases first : items[0]? with
      | none =>
          rw [first] at mentioned
          exact absurd mentioned not_mentions_null
      | some item =>
          rw [first] at mentioned
          exact ⟨item, List.mem_of_getElem? first, mentioned⟩

/-- Whatever a client sends and whatever the node answers, the gateway keeps
its promise. -/
theorem handle_closed
    (caller : Caller) (received : Body) :
    Closed numbers codec config backend received
      (handle numbers codec config backend caller received) := by
  rw [handle]
  cases verdict : screen numbers codec config caller received with
  | refused status value =>
      constructor
      · exact fun _ absent => (nomatch absent)
      · intro shownStatus shown replied
        cases replied
  | thrown =>
      constructor
      · exact fun _ absent => (nomatch absent)
      · intro shownStatus shown replied
        cases replied
  | accepted parsed sent =>
      dsimp only
      have fine := screen_calls numbers codec config verdict
      constructor
      · intro other listed
        rcases List.mem_cons.mp listed with rfl | probed
        · rcases screen_text numbers codec config verdict with
            ⟨refused, same⟩ | text
          · exact .unread refused same
          · exact .accepted parsed text fine
        · obtain ⟨call, callListed, reads, equal⟩ :=
            sealPending_probes numbers codec backend parsed _ other probed
          refine .lookup call
            ((screen_hashReads numbers codec config verdict reads).mp
              callListed)
            reads equal ?_
          intro filters
          exact receiptProbe_clear numbers config reads
            ((fine call callListed).permitted filters)
      · intro status shown replied call listed reads
        obtain ⟨body, finished, equal⟩ := Option.map_eq_some_iff.mp replied
        cases equal
        exact sealPending_reply numbers codec backend finished
          ((screen_hashReads numbers codec config verdict reads).mpr listed)
          reads

/-- Every body sent is the text of a value whose every call names an allowed
method. -/
def EveryCallNamed (exchange : Exchange Number Body) : Prop :=
  ∀ sent ∈ exchange.forwarded, ∃ value, Carries codec sent value ∧
    ∀ call ∈ calls value, ∃ method, namedMethod numbers call = some method ∧
        MethodAllowed numbers config method

def integerNumbers : Numbers Int where
  isZero value := value == 0
  integer := some
  text value := toString value
  ofInteger value := value

/-- A reader that knows one batch, of one member that is `null`. -/
def nullBatchCodec : Codec Int String where
  parse body := if body = "[null]" then some (.array [nullValue]) else none
  stringify _ := "null"

/-- A node that answers `null` to everything. -/
def nullBackend : Backend String :=
  fun _ _ => { failed := false, status := 200, body := "null" }

/-- A caller with nothing in flight and tokens for everything. -/
def idleCaller : Caller where
  inFlight := 0
  allow _ := true

/-- A body that is no JSON and a batch whose member names no method are both
sent to the node. -/
theorem unread_and_nameless_forwarded :
    ¬EveryCallNamed integerNumbers nullBatchCodec defaultConfig
        (handle integerNumbers nullBatchCodec defaultConfig nullBackend
          idleCaller "not json") ∧
      ¬EveryCallNamed integerNumbers nullBatchCodec defaultConfig
        (handle integerNumbers nullBatchCodec defaultConfig nullBackend
          idleCaller "[null]") := by
  have unread : (handle integerNumbers nullBatchCodec defaultConfig nullBackend
      idleCaller "not json").forwarded = ["not json"] := by
    decide
  have nameless :
      (handle integerNumbers nullBatchCodec defaultConfig nullBackend
        idleCaller "[null]").forwarded = ["[null]"] := by
    decide
  constructor
  · intro named
    obtain ⟨value, text, _⟩ :=
      named "not json" (by rw [unread]; exact List.mem_singleton_self _)
    rcases text with read | written
    · cases read
    · change "not json" = "null" at written
      exact absurd written (by decide)
  · intro named
    obtain ⟨value, text, calls⟩ :=
      named "[null]" (by rw [nameless]; exact List.mem_singleton_self _)
    rcases text with read | written
    · cases read
      obtain ⟨method, namesOne, _⟩ := calls nullValue List.mem_cons_self
      cases namesOne
    · change "[null]" = "null" at written
      exact absurd written (by decide)

end Eris.Gateway.FailClosed
