import Eris.Uniswap.Boundary

/-!
# Gifts do not count

Transfers into an agent which it did not send, and what happens to such
positions while the agent has not obtained them itself, change no token id
which the ledger counts for the agent.  No position is counted for two
accounts at one block.
-/

namespace Eris.Uniswap.Ownership

open Foundation.LogFeed

variable {Account : Type} [DecidableEq Account]

/-- The last arrival of a position at an agent was in a transaction which the
agent did not send. -/
def receivedGift
    (agent : Account) (tokenId : TokenId)
    (before : List (LpTransfer Account)) : Bool :=
  (before.reverse.find? fun transfer =>
    transfer.toAccount = agent ∧ transfer.tokenId = tokenId).any
      (·.txFrom ≠ some agent)

/-- A transfer which others can add after given ones: into the agent only in
a transaction the agent did not send, and out of the agent only of a position
which it received as a gift. -/
structure Unsolicited
    (agent : Account) (before : List (LpTransfer Account))
    (transfer : LpTransfer Account) : Prop where
  arrival : transfer.toAccount = agent → transfer.txFrom ≠ some agent
  departure :
    transfer.fromAccount = agent → receivedGift agent transfer.tokenId before

/-- A sequence with unsolicited transfers added to it, after given ones. -/
inductive WithGifts (agent : Account) :
    List (LpTransfer Account) → List (LpTransfer Account) →
      List (LpTransfer Account) → Prop
  | nil (before : List (LpTransfer Account)) : WithGifts agent before [] []
  | shared {before base extended : List (LpTransfer Account)}
      (transfer : LpTransfer Account)
      (rest : WithGifts agent (before ++ [transfer]) base extended) :
      WithGifts agent before (transfer :: base) (transfer :: extended)
  | added {before base extended : List (LpTransfer Account)}
      (transfer : LpTransfer Account)
      (unsolicited : Unsolicited agent before transfer)
      (rest : WithGifts agent (before ++ [transfer]) base extended) :
      WithGifts agent before base (transfer :: extended)

/-- Two accounts with the same positions; their overflow counts may differ. -/
structure SameHoldings (first second : TrackedAccount) : Prop where
  own : first.own = second.own
  seeded : first.seeded = second.seeded
  index : first.index = second.index
  openOwn : first.openOwn = second.openOwn
  nextReference : first.nextReference = second.nextReference

/-- An agent has the same positions in two ledgers, or is in neither. -/
def SamePositions
    (agent : Account) (first second : LpOwnershipLedger Account) : Prop :=
  Option.Rel SameHoldings (first.state agent) (second.state agent)

variable
  {agent : Account} {first second : TrackedAccount} {tokenId : TokenId}
  {block : Nat}

theorem SameHoldings.refl (current : TrackedAccount) :
    SameHoldings current current :=
  ⟨rfl, rfl, rfl, rfl, rfl⟩

theorem SameHoldings.release (same : SameHoldings first second) :
    SameHoldings (first.release tokenId block)
      (second.release tokenId block) := by
  rcases same with ⟨own, seeded, index, openOwn, nextReference⟩
  cases found : second.index tokenId with
  | some stored =>
      have foundFirst : first.index tokenId = some stored := by
        rw [index, found]
      constructor <;>
        simp [TrackedAccount.release, found, foundFirst, own, seeded,
          index, openOwn, nextReference]
  | none =>
      have foundFirst : first.index tokenId = none := by
        rw [index, found]
      simp only [TrackedAccount.release, found, foundFirst]
      split <;> split <;>
        exact ⟨own, seeded, index, openOwn, nextReference⟩

theorem SameHoldings.acquire (same : SameHoldings first second) :
    SameHoldings (first.acquire tokenId block)
      (second.acquire tokenId block) := by
  rcases same with ⟨own, seeded, index, openOwn, nextReference⟩
  unfold TrackedAccount.acquire
  rw [openOwn]
  split
  · constructor <;> simp [own, seeded, index, nextReference]
  · exact ⟨own, seeded, index, rfl, nextReference⟩

theorem SameHoldings.release_unknown
    (same : SameHoldings first second) (unknown : second.index tokenId = none) :
    SameHoldings first (second.release tokenId block) := by
  rcases same with ⟨own, seeded, index, openOwn, nextReference⟩
  simp only [TrackedAccount.release, unknown]
  split <;> exact ⟨own, seeded, index, openOwn, nextReference⟩

theorem SameHoldings.tokenIds (same : SameHoldings first second) :
    (first.saved.heldAt block).tokenIds =
      (second.saved.heldAt block).tokenIds := by
  simp only [AccountState.heldAt, TrackedAccount.saved, same.own, same.seeded]

section Ledgers

variable
  {base extended ledger : LpOwnershipLedger Account}
  {transfer : LpTransfer Account}
  {tracked : Account → Bool} {custody : Custody Account}
    {before : List (LpTransfer Account)}

theorem state_depart_self (leaves : transfer.fromAccount = agent) :
    (ledger.depart transfer).state agent = (ledger.state agent).map
        (·.release transfer.tokenId transfer.blockNumber) := by
  subst leaves
  unfold LpOwnershipLedger.depart
  split
  · simp [LpOwnershipLedger.modify]
  · rename_i untracked
    have absent : ledger.state transfer.fromAccount = none := by
      simpa [LpOwnershipLedger.tracks] using untracked
    rw [absent, Option.map_none]

theorem state_depart_other (stays : transfer.fromAccount ≠ agent) :
    (ledger.depart transfer).state agent = ledger.state agent := by
  unfold LpOwnershipLedger.depart
  split
  · exact Function.update_of_ne stays.symm _ _
  · rfl

theorem state_arrive_self
    (arrives : transfer.toAccount = agent)
    (sent : transfer.txFrom = some agent) :
    (ledger.arrive transfer).state agent = (ledger.state agent).map
        (·.acquire transfer.tokenId transfer.blockNumber) := by
  subst arrives
  unfold LpOwnershipLedger.arrive
  split
  · simp [LpOwnershipLedger.modify]
  · rename_i unread
    have absent : ledger.state transfer.toAccount = none := by
      simpa [LpOwnershipLedger.tracks, sent] using unread
    rw [absent, Option.map_none]

theorem state_arrive_other
    (unsent : ¬ (transfer.toAccount = agent ∧ transfer.txFrom = some agent)) :
    (ledger.arrive transfer).state agent = ledger.state agent := by
  unfold LpOwnershipLedger.arrive
  split
  · rename_i own
    apply Function.update_of_ne
    rintro rfl
    exact unsent ⟨rfl, own.2⟩
  · rfl

omit [DecidableEq Account] in
theorem SamePositions.map
    {change : TrackedAccount → TrackedAccount}
    (same : SamePositions agent base extended)
    (stable : ∀ first second, SameHoldings first second →
        SameHoldings (change first) (change second)) :
    Option.Rel SameHoldings ((base.state agent).map change)
      ((extended.state agent).map change) := by
  unfold SamePositions at same
  generalize base.state agent = start at same
  generalize extended.state agent = current at same
  cases same with
  | none => exact Option.Rel.none
  | some holdings => exact Option.Rel.some (stable _ _ holdings)

theorem SamePositions.ingestOne
    (same : SamePositions agent base extended) :
    SamePositions agent (base.ingestOne transfer)
      (extended.ingestOne transfer) := by
  have departed : SamePositions agent (base.depart transfer)
      (extended.depart transfer) := by
    unfold SamePositions
    by_cases leaves : transfer.fromAccount = agent
    · rw [state_depart_self leaves, state_depart_self leaves]
      exact same.map fun _ _ holdings => holdings.release
    · rw [state_depart_other leaves, state_depart_other leaves]
      exact same
  unfold LpOwnershipLedger.ingestOne SamePositions
  by_cases own : transfer.toAccount = agent ∧ transfer.txFrom = some agent
  · rw [state_arrive_self own.1 own.2, state_arrive_self own.1 own.2]
    exact departed.map fun _ _ holdings => holdings.acquire
  · rw [state_arrive_other own, state_arrive_other own]
    exact departed

/-- The agent indexes no position which it received as a gift. -/
def GiftsUnindexed
    (agent : Account) (before : List (LpTransfer Account))
    (ledger : LpOwnershipLedger Account) : Prop :=
  ∀ current tokenId, ledger.state agent = some current →
      receivedGift agent tokenId before → current.index tokenId = none

theorem receivedGift_snoc_self
    (arrives : transfer.toAccount = agent ∧ transfer.tokenId = tokenId) :
    receivedGift agent tokenId (before ++ [transfer]) =
      decide (transfer.txFrom ≠ some agent) := by
  unfold receivedGift
  rw [List.reverse_append, List.reverse_singleton,
    List.singleton_append, List.find?_cons_of_pos (by simpa using arrives)]
  rfl

theorem receivedGift_snoc_other
    (elsewhere : ¬ (transfer.toAccount = agent ∧ transfer.tokenId = tokenId)) :
    receivedGift agent tokenId (before ++ [transfer]) =
      receivedGift agent tokenId before := by
  unfold receivedGift
  rw [List.reverse_append, List.reverse_singleton, List.singleton_append,
    List.find?_cons_of_neg (by simpa using elsewhere)]

theorem depart_index
    (tokenId : TokenId) {current : TrackedAccount}
    (found : (ledger.depart transfer).state agent = some current) :
    ∃ before, ledger.state agent = some before ∧
      (tokenId ≠ transfer.tokenId ∨ transfer.fromAccount ≠ agent →
        current.index tokenId = before.index tokenId) ∧
      (transfer.fromAccount = agent →
        current.index transfer.tokenId = none) := by
  by_cases leaves : transfer.fromAccount = agent
  · rw [state_depart_self leaves, Option.map_eq_some_iff] at found
    rcases found with ⟨before, known, rfl⟩
    refine ⟨before, known, ?_, ?_⟩
    · rintro (different | stays)
      · rw [release_index, Function.update_of_ne different]
      · exact (stays leaves).elim
    · intro
      rw [release_index, Function.update_self]
  · rw [state_depart_other leaves] at found
    exact ⟨current, found, fun _ => rfl, fun same => (leaves same).elim⟩

theorem GiftsUnindexed.ingestOne
    (sound : Sound tracked custody ledger)
    (allowed : custody.Allows tracked transfer)
    (unindexed : GiftsUnindexed agent before ledger) :
    GiftsUnindexed agent (before ++ [transfer])
      (ledger.ingestOne transfer) := by
  intro current tokenId found gift
  have departed := sound.depart allowed
  unfold LpOwnershipLedger.ingestOne at found
  have stays (middle : TrackedAccount)
      (known : (ledger.depart transfer).state agent = some middle)
      (giftBefore : tokenId = transfer.tokenId ∨
        receivedGift agent tokenId before) :
      middle.index tokenId = none := by
    rcases giftBefore with rfl | giftBefore
    · exact departed.index_none known (by simp [Function.update_self])
    · by_cases same : tokenId = transfer.tokenId
      · subst same
        exact departed.index_none known (by simp [Function.update_self])
      · rcases depart_index tokenId known with
          ⟨start, knownStart, unchanged, -⟩
        rw [unchanged (Or.inl same)]
        exact unindexed start tokenId knownStart giftBefore
  by_cases own : transfer.toAccount = agent ∧ transfer.txFrom = some agent
  · rw [state_arrive_self own.1 own.2, Option.map_eq_some_iff] at found
    rcases found with ⟨middle, known, rfl⟩
    by_cases same : transfer.tokenId = tokenId
    · rw [receivedGift_snoc_self ⟨own.1, same⟩] at gift
      simp [own.2] at gift
    · rw [receivedGift_snoc_other (fun both => same both.2)] at gift
      have old := stays middle known (Or.inr gift)
      cases entry : (middle.acquire transfer.tokenId transfer.blockNumber).index
        tokenId with
      | none => rfl
      | some stored =>
          rcases acquire_index entry with arrived | earlier
          · exact (same arrived.symm).elim
          · rw [old] at earlier
            cases earlier
  · rw [state_arrive_other own] at found
    by_cases same : tokenId = transfer.tokenId
    · exact stays current found (Or.inl same)
    · rw [receivedGift_snoc_other (fun both => same both.2.symm)] at gift
      exact stays current found (Or.inr gift)

theorem SamePositions.added
    (same : SamePositions agent base extended)
    (unindexed : GiftsUnindexed agent before extended)
    (unsolicited : Unsolicited agent before transfer) :
    SamePositions agent base (extended.ingestOne transfer) := by
  unfold LpOwnershipLedger.ingestOne SamePositions
  rw [state_arrive_other fun own => unsolicited.arrival own.1 own.2]
  by_cases leaves : transfer.fromAccount = agent
  · rw [state_depart_self leaves]
    have gift := unsolicited.departure leaves
    unfold SamePositions at same
    cases baseState : base.state agent with
    | none =>
        rw [baseState] at same
        cases extendedState : extended.state agent with
        | none => exact Option.Rel.none
        | some current =>
            rw [extendedState] at same
            cases same
    | some start =>
        rw [baseState] at same
        cases extendedState : extended.state agent with
        | none =>
            rw [extendedState] at same
            cases same
        | some current =>
            rw [extendedState] at same
            rcases same with holdings | _
            exact Option.Rel.some (holdings.release_unknown
              (unindexed current _ extendedState gift))
  · rw [state_depart_other leaves]
    exact same

theorem SamePositions.foldl
    {baseTransfers extendedTransfers : List (LpTransfer Account)}
    (gifts : WithGifts agent before baseTransfers extendedTransfers)
    (sound : Sound tracked custody extended)
    (history : History tracked custody extendedTransfers)
    (unindexed : GiftsUnindexed agent before extended)
    (same : SamePositions agent base extended) :
    SamePositions agent (baseTransfers.foldl LpOwnershipLedger.ingestOne base)
      (extendedTransfers.foldl LpOwnershipLedger.ingestOne extended) := by
  induction gifts generalizing base extended custody with
  | nil before => exact same
  | shared transfer rest ih =>
      exact ih (sound.ingestOne history.1) history.2
        (unindexed.ingestOne sound history.1) same.ingestOne
  | added transfer unsolicited rest ih =>
      exact ih (sound.ingestOne history.1) history.2
        (unindexed.ingestOne sound history.1)
        (same.added unindexed unsolicited)

end Ledgers

section Counted

variable
  {tracked : Account → Bool} {custody : Custody Account}
  {ledger : LpOwnershipLedger Account} {boundary : Nat}

/-- Every release of an account is at or before a block. -/
def ReleasedBy (block : Nat) (state : AccountState) : Prop :=
  ∀ holding ∈ state.holdings, holding.untilBlock.all (· ≤ block)

theorem ReleasedBy.release
    {state : AccountState} (released : ReleasedBy boundary state)
    (early : block ≤ boundary) :
    ReleasedBy boundary (state.release tokenId block) := by
  unfold AccountState.release
  split
  · intro holding member
    rw [AccountState.holdings, ← List.map_append] at member
    rcases List.mem_map.1 member with ⟨before, listed, rfl⟩
    unfold Holding.close
    split
    · simpa using early
    · exact released before listed
  · split
    · exact released
    · exact released

theorem ReleasedBy.acquire
    {state : AccountState} (released : ReleasedBy boundary state) :
    ReleasedBy boundary (state.acquire tokenId block) := by
  unfold AccountState.acquire
  split
  · intro holding member
    simp only [AccountState.holdings, List.mem_append,
      List.mem_singleton] at member
    rcases member with (own | rfl) | seeded
    · exact released holding (List.mem_append_left _ own)
    · rfl
    · exact released holding (List.mem_append_right _ seeded)
  · exact released

/-- Every release in a serialized ledger is at or before a block. -/
def AllReleasedBy
    (block : Nat) (state : LpOwnershipLedgerState Account) : Prop :=
  ∀ account current,
    state.accounts account = some current → ReleasedBy block current

theorem AllReleasedBy.modify
    {state : LpOwnershipLedgerState Account}
    {changed : Account} {change : AccountState → AccountState}
    (released : AllReleasedBy boundary state)
    (keeps : ∀ current,
        ReleasedBy boundary current → ReleasedBy boundary (change current)) :
    AllReleasedBy boundary (state.modify changed change) := by
  intro account current found
  unfold LpOwnershipLedgerState.modify at found
  by_cases same : account = changed
  · subst same
    simp only [Function.update_self, Option.map_eq_some_iff] at found
    rcases found with ⟨before, known, rfl⟩
    exact keeps before (released _ before known)
  · simp only [Function.update_of_ne same] at found
    exact released account current found

theorem AllReleasedBy.foldl
    {state : LpOwnershipLedgerState Account}
    {transfers : List (LpTransfer Account)}
    (released : AllReleasedBy boundary state)
    (early : ∀ transfer ∈ transfers, transfer.blockNumber ≤ boundary) :
    AllReleasedBy boundary
      (transfers.foldl LpOwnershipLedgerState.ingestOne state) := by
  induction transfers generalizing state with
  | nil => exact released
  | cons transfer rest ih =>
      apply ih _
        (fun other member => early other (List.mem_cons_of_mem _ member))
      have first := early transfer List.mem_cons_self
      have departed : AllReleasedBy boundary (state.modify transfer.fromAccount
              (·.release transfer.tokenId transfer.blockNumber)) :=
        released.modify fun _ before => before.release first
      unfold LpOwnershipLedgerState.ingestOne
      split
      · exact departed.modify fun _ before => before.acquire
      · exact departed

omit [DecidableEq Account] in
/-- A position which is counted at a block which no release is after is held
by the account. -/
theorem custodian_of_counted
    {account : Account} {current : TrackedAccount}
    (sound : Sound tracked custody ledger)
    (found : ledger.state account = some current)
    (released : ReleasedBy boundary current.saved)
    (counted : tokenId ∈ (current.saved.heldAt boundary).tokenIds) :
    custody tokenId = some account := by
  rcases List.mem_map.1 counted with ⟨holding, taken, rfl⟩
  have listed : holding ∈ current.saved.holdings ∧ holding.held boundary := by
    have member := List.mem_of_mem_take taken
    rw [← List.filter_append] at member
    exact List.mem_filter.1 member
  have isOpen : holding.isOpen := by
    have by_boundary := released holding listed.1
    have held := listed.2
    unfold Holding.held at held
    unfold Holding.isOpen
    cases release : holding.untilBlock with
    | none => rfl
    | some block =>
        simp only [release, Option.all_some, decide_eq_true_eq,
          Bool.and_eq_true] at by_boundary held
        omega
  rw [saved_holdings] at listed
  rcases List.mem_map.1 listed.1 with ⟨stored, inside, rfl⟩
  exact sound.custodian account current _ stored found
    ((sound.indexed account current found).complete stored inside isOpen)

/-- No holding of an account was released. -/
def Unreleased (account : TrackedAccount) : Prop :=
  ∀ stored ∈ account.holdings, stored.holding.isOpen

theorem Unreleased.seedOne
    {account : TrackedAccount} (unreleased : Unreleased account) :
    Unreleased (account.seedOne tokenId) := by
  unfold TrackedAccount.seedOne
  split
  · exact unreleased
  · intro stored member
    simp only [TrackedAccount.holdings, List.mem_append,
      List.mem_singleton] at member
    rcases member with own | seeded | rfl
    · exact unreleased stored (List.mem_append_left _ own)
    · exact unreleased stored (List.mem_append_right _ seeded)
    · rfl

theorem Unreleased.seed
    {account : TrackedAccount} (unreleased : Unreleased account)
    (tokenIds : List TokenId) : Unreleased (account.seed tokenIds) := by
  unfold TrackedAccount.seed
  have start : Unreleased account.unseed := by
    intro stored member
    apply unreleased
    simp only [TrackedAccount.holdings, TrackedAccount.unseed,
      List.append_nil] at member
    exact List.mem_append_left _ member
  generalize account.unseed = current at start
  induction tokenIds.take lpPositionsLimit generalizing current with
  | nil => exact start
  | cons tokenId rest ih =>
      exact ih _ start.seedOne

/-- No account of a ledger released a holding. -/
def AllUnreleased (ledger : LpOwnershipLedger Account) : Prop :=
  ∀ account current, ledger.state account = some current → Unreleased current

theorem AllUnreleased.track
    (unreleased : AllUnreleased ledger) (account : Account) :
    AllUnreleased (ledger.track account) := by
  intro other current found
  rcases state_track found with rfl | known
  · intro stored member
    cases member
  · exact unreleased other current known

theorem AllUnreleased.seed
    (unreleased : AllUnreleased ledger) (account : Account)
    (tokenIds : List TokenId) :
    AllUnreleased (ledger.seed account tokenIds) := by
  intro other current found
  rcases state_modify found with ⟨rfl, before, known, rfl⟩ | ⟨-, known⟩
  · exact (unreleased.track other other before known).seed tokenIds
  · exact unreleased.track account other current known

theorem seededLedger_unreleased
    (accounts : List Account) (seeds : List (Account × List TokenId)) :
    AllUnreleased (seededLedger accounts seeds) := by
  have tracking : ∀ (list : List Account) (start : LpOwnershipLedger Account),
      AllUnreleased start →
        AllUnreleased (list.foldl LpOwnershipLedger.track start) := by
    intro list
    induction list with
    | nil => exact fun _ unreleased => unreleased
    | cons account rest ih =>
        exact fun _ unreleased =>
          ih _ (unreleased.track account)
  have start : AllUnreleased (LpOwnershipLedger.new accounts) := by
    apply tracking
    intro account current found
    cases found
  unfold seededLedger
  generalize LpOwnershipLedger.new accounts = ledger at start
  induction seeds generalizing ledger with
  | nil => exact start
  | cons seed rest ih =>
      exact ih _ (start.seed seed.1 seed.2)

omit [DecidableEq Account] in
theorem AllUnreleased.releasedBy
    (unreleased : AllUnreleased ledger) (block : Nat) :
    AllReleasedBy block ledger.snapshot := by
  intro account saved found
  rcases Option.map_eq_some_iff.1 found with ⟨current, known, rfl⟩
  intro holding member
  rw [saved_holdings] at member
  rcases List.mem_map.1 member with ⟨stored, listed, rfl⟩
  have isOpen := unreleased account current known stored listed
  unfold Holding.isOpen at isOpen
  simp [Option.isNone_iff_eq_none.1 isOpen]

/-- A position which a ledger counts for an account at a block is held by that
account after the transfers up to the block. -/
theorem custodian_at_boundary
    {transfers : List (LpTransfer Account)} {account : Account}
    {positions : LpHeldAt} (sound : Sound tracked custody ledger)
    (unreleased : AllUnreleased ledger)
    (history : History tracked custody (ordered LpTransfer.position transfers))
    (held : (ledger.ingest transfers).heldAt account boundary = some positions)
    (counted : tokenId ∈ positions.tokenIds) :
    custody.after tracked (ordered LpTransfer.position
          (through LpTransfer.position boundary transfers)) tokenId =
      some account := by
  have split := history
  rw [ordered_split boundary] at split
  rcases sound.foldl (History.append.1 split).1 with
    ⟨soundEarly, snapshotEarly⟩
  have released : AllReleasedBy boundary (ledger.ingest
      (through LpTransfer.position boundary transfers)).snapshot := by
    unfold LpOwnershipLedger.ingest feed
    rw [snapshotEarly]
    apply (unreleased.releasedBy boundary).foldl
    intro transfer member
    exact (mem_through.1 (mem_ordered.1 member)).2
  have early : (ledger.ingest
      (through LpTransfer.position boundary transfers)).heldAt account
        boundary = some positions := by
    rw [← sound.heldAt_through history account, ← held, heldAt_snapshot,
      show (ledger.ingest transfers).snapshot = _ from
        (sound.foldl history).2]
  rcases Option.map_eq_some_iff.1 early with ⟨current, found, rfl⟩
  apply custodian_of_counted soundEarly found _ counted
  apply released account
  simp [LpOwnershipLedger.snapshot, found]

end Counted

/-- Unsolicited transfers change no token id which is counted for the agent,
at any block, and no position is counted for two accounts. -/
theorem gifts_change_no_counted_position
    (accounts : List Account) (seeds : List (Account × List TokenId))
    (custody : Custody Account)
    (baseCalls extendedCalls : List (List (LpTransfer Account)))
    (agent : Account)
    (holds : ∀ seed ∈ seeds, ∀ tokenId ∈ seed.2, custody tokenId = some seed.1)
    (baseInOrder : InOrder LpTransfer.position baseCalls)
    (extendedInOrder : InOrder LpTransfer.position extendedCalls)
    (history : History (seededLedger accounts seeds).tracks custody
        (ordered LpTransfer.position extendedCalls.flatten))
    (gifts : WithGifts agent [] (ordered LpTransfer.position baseCalls.flatten)
        (ordered LpTransfer.position extendedCalls.flatten)) :
    let base :=
      baseCalls.foldl LpOwnershipLedger.ingest (seededLedger accounts seeds)
    let extended := extendedCalls.foldl LpOwnershipLedger.ingest
        (seededLedger accounts seeds)
    (∀ boundary, (base.heldAt agent boundary).map LpHeldAt.tokenIds =
          (extended.heldAt agent boundary).map LpHeldAt.tokenIds) ∧
      ∀ boundary first second firstHeld secondHeld tokenId,
        extended.heldAt first boundary = some firstHeld →
          extended.heldAt second boundary = some secondHeld →
            tokenId ∈ firstHeld.tokenIds →
              tokenId ∈ secondHeld.tokenIds → first = second := by
  intro base extended
  have sound := seededLedger_sound accounts seeds holds
  have unreleased := seededLedger_unreleased accounts seeds
  have base_eq :
      base = (seededLedger accounts seeds).ingest baseCalls.flatten :=
    feed_parts baseInOrder
  have extended_eq :
      extended = (seededLedger accounts seeds).ingest extendedCalls.flatten :=
    feed_parts extendedInOrder
  refine ⟨?_, ?_⟩
  · intro boundary
    have start : SamePositions agent (seededLedger accounts seeds)
        (seededLedger accounts seeds) := by
      unfold SamePositions
      cases (seededLedger accounts seeds).state agent with
      | none => exact Option.Rel.none
      | some current => exact Option.Rel.some (SameHoldings.refl current)
    have unindexed : GiftsUnindexed agent [] (seededLedger accounts seeds) := by
      intro current tokenId found gift
      cases gift
    have same := SamePositions.foldl gifts sound history unindexed start
    rw [base_eq, extended_eq]
    unfold LpOwnershipLedger.heldAt LpOwnershipLedger.ingest feed
    unfold SamePositions at same
    generalize LpOwnershipLedger.state _ agent = first at same
    generalize LpOwnershipLedger.state _ agent = second at same
    cases same with
    | none => rfl
    | some holdings =>
        simp only [Option.map_some, Option.some.injEq]
        exact holdings.tokenIds
  · rw [extended_eq]
    intro boundary first second firstHeld secondHeld tokenId
      heldFirst heldSecond countedFirst countedSecond
    have custodianFirst :=
      custodian_at_boundary sound unreleased history heldFirst countedFirst
    have custodianSecond :=
      custodian_at_boundary sound unreleased history heldSecond countedSecond
    rw [custodianFirst, Option.some.injEq] at custodianSecond
    exact custodianSecond

/-- Account 9 gives position 7 to agent 1 while agent 1 mints position 8, and
agent 1 passes the gift on. -/
def giftedPositions : List (LpTransfer Nat) :=
  [⟨9, 1, 7, 2, 0, some 9⟩, ⟨0, 1, 8, 3, 0, some 1⟩, ⟨1, 9, 7, 4, 0, some 1⟩]

/-- The gift is not counted, before or after it is passed on. -/
theorem gifts_change_no_counted_position_of_giftedPositions :
    let base := [[⟨0, 1, 8, 3, 0, some 1⟩]].foldl LpOwnershipLedger.ingest
        (seededLedger [1, 9] [(9, [7])])
    let extended := [giftedPositions].foldl LpOwnershipLedger.ingest
        (seededLedger [1, 9] [(9, [7])])
    (∀ boundary, (base.heldAt 1 boundary).map LpHeldAt.tokenIds =
          (extended.heldAt 1 boundary).map LpHeldAt.tokenIds) ∧
      ∀ boundary first second firstHeld secondHeld tokenId,
        extended.heldAt first boundary = some firstHeld →
          extended.heldAt second boundary = some secondHeld →
            tokenId ∈ firstHeld.tokenIds →
              tokenId ∈ secondHeld.tokenIds → first = second :=
  gifts_change_no_counted_position [1, 9] [(9, [7])]
    (Function.update (fun _ => none) 7 (some 9))
    [[⟨0, 1, 8, 3, 0, some 1⟩]] [giftedPositions] 1
    (by decide) (by decide) (by decide)
    (by decide)
    (.added ⟨9, 1, 7, 2, 0, some 9⟩ ⟨by decide, by decide⟩
      (.shared ⟨0, 1, 8, 3, 0, some 1⟩ (.added ⟨1, 9, 7, 4, 0, some 1⟩
          ⟨by decide, by decide⟩ (.nil _))))

/-- A gift which the agent then moves to itself in its own transaction is
counted from then on: a later move of a gift does change what is counted. -/
theorem gift_counts_once_moved :
    let gift : LpTransfer Nat := ⟨9, 1, 7, 2, 0, some 9⟩
    let moved : LpTransfer Nat := ⟨1, 1, 7, 3, 0, some 1⟩
    let ledger := seededLedger [1, 9] [(9, [7])]
    History ledger.tracks
        (Function.update (fun _ => none) 7 (some 9)) [gift, moved] ∧
      gift.toAccount = 1 ∧ gift.txFrom ≠ some 1 ∧
      moved.tokenId = gift.tokenId ∧
      ((ledger.ingest []).heldAt 1 4).map LpHeldAt.tokenIds = some [] ∧
      ((ledger.ingest [gift, moved]).heldAt 1 4).map LpHeldAt.tokenIds =
        some [7] := by
  decide

end Eris.Uniswap.Ownership
