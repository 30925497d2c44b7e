import Eris.Uniswap.Ownership

/-!
# The derived index of an account

The index and the count of open own positions are derived from the holdings
of an account and are not serialized.  While at most one open holding has a
token id, they agree with the holdings, and every operation is the operation
on the serialized state which looks the holdings up instead.
-/

namespace Eris.Uniswap.Ownership

variable {Account : Type} [DecidableEq Account]

/-- Release the open holding of a token id at a block. -/
def Holding.close (tokenId : TokenId) (block : Nat) (holding : Holding) :
    Holding :=
  if holding.isOpen ∧ holding.tokenId = tokenId then
    { holding with untilBlock := some block }
  else
    holding

namespace AccountState

def holdings (state : AccountState) : List Holding := state.own ++ state.seeded

def holds (state : AccountState) (tokenId : TokenId) : Bool :=
  state.holdings.any fun holding =>
    holding.isOpen && decide (holding.tokenId = tokenId)

def openOwn (state : AccountState) : Nat := (state.own.filter (·.isOpen)).length

def release (state : AccountState) (tokenId : TokenId) (block : Nat) :
    AccountState :=
  if state.holds tokenId then
    { state with
      own := state.own.map (Holding.close tokenId block)
      seeded := state.seeded.map (Holding.close tokenId block) }
  else if 0 < state.overflowNow then
    { state with overflow := state.overflow ++ [(block, -1)] }
  else
    state

/-- A position arrives in a transaction which the account sent. -/
def acquire (state : AccountState) (tokenId : TokenId) (block : Nat) :
    AccountState :=
  if state.openOwn < lpOwnTrackLimit then
    { state with own := state.own ++ [⟨tokenId, block, none⟩] }
  else
    { state with overflow := state.overflow ++ [(block, 1)] }

end AccountState

/-- The derived part of an account agrees with its holdings. -/
structure WellIndexed (account : TrackedAccount) : Prop where
  distinct : (account.holdings.map Stored.reference).Nodup
  fresh : ∀ stored ∈ account.holdings, stored.reference < account.nextReference
  sound : ∀ tokenId stored, account.index tokenId = some stored →
      stored ∈ account.holdings ∧
        stored.holding.isOpen ∧ stored.holding.tokenId = tokenId
  complete : ∀ stored ∈ account.holdings,
      stored.holding.isOpen → account.index stored.holding.tokenId = some stored
  ownFrom : ∀ stored ∈ account.own, stored.holding.fromBlock.isSome
  seededFrom : ∀ stored ∈ account.seeded, stored.holding.fromBlock = none
  counted : account.openOwn = account.saved.openOwn

variable
  {account : TrackedAccount} {tokenId : TokenId} {block : Nat}
  {stored other : Stored}

theorem empty_wellIndexed : WellIndexed TrackedAccount.empty := by
  constructor <;> simp [TrackedAccount.empty, TrackedAccount.holdings,
    TrackedAccount.saved, AccountState.openOwn]

theorem saved_holdings :
    account.saved.holdings = account.holdings.map Stored.holding := by
  simp [AccountState.holdings, TrackedAccount.holdings, TrackedAccount.saved]

theorem WellIndexed.eq_of_reference
    (indexed : WellIndexed account) (here : stored ∈ account.holdings)
    (there : other ∈ account.holdings)
    (same : stored.reference = other.reference) :
    stored = other :=
  List.inj_on_of_nodup_map indexed.distinct here there same

theorem WellIndexed.holds_iff (indexed : WellIndexed account) :
    account.saved.holds tokenId ↔ (account.index tokenId).isSome := by
  rw [AccountState.holds, saved_holdings, List.any_eq_true]
  constructor
  · rintro ⟨holding, member, matching⟩
    rcases List.mem_map.1 member with ⟨stored, listed, rfl⟩
    rw [Bool.and_eq_true, decide_eq_true_eq] at matching
    rw [← matching.2, indexed.complete stored listed matching.1]
    rfl
  · intro known
    rcases Option.isSome_iff_exists.1 known with ⟨stored, found⟩
    rcases indexed.sound tokenId stored found with
      ⟨listed, isOpen, sameToken⟩
    refine ⟨stored.holding, List.mem_map_of_mem listed, ?_⟩
    simp [isOpen, sameToken]

/-! ## Release -/

theorem WellIndexed.close_holding
    (indexed : WellIndexed account)
    (found : account.index tokenId = some stored)
    (listed : other ∈ account.holdings) :
    (other.close stored.reference block).holding =
      other.holding.close tokenId block := by
  rcases indexed.sound tokenId stored found with
    ⟨here, isOpen, sameToken⟩
  unfold Stored.close Holding.close
  by_cases same : other.reference = stored.reference
  · have identical := indexed.eq_of_reference listed here same
    subst identical
    rw [if_pos rfl, if_pos ⟨isOpen, sameToken⟩]
  · rw [if_neg same, if_neg]
    rintro ⟨otherOpen, otherToken⟩
    have foundOther := indexed.complete other listed otherOpen
    rw [otherToken, found, Option.some.injEq] at foundOther
    exact same (congrArg Stored.reference foundOther.symm)

theorem close_reference :
    (stored.close other.reference block).reference = stored.reference := by
  unfold Stored.close
  split <;> rfl

theorem close_fromBlock :
    (stored.close other.reference block).holding.fromBlock =
      stored.holding.fromBlock := by
  unfold Stored.close
  split <;> rfl

theorem close_of_ne (different : stored.reference ≠ other.reference) :
    stored.close other.reference block = stored :=
  if_neg different

theorem WellIndexed.map_close
    (indexed : WellIndexed account)
    (found : account.index tokenId = some stored)
    {list : List Stored} (inside : list ⊆ account.holdings) :
    (list.map (Stored.close stored.reference block)).map Stored.holding =
      (list.map Stored.holding).map (Holding.close tokenId block) := by
  rw [List.map_map, List.map_map]
  apply List.map_congr_left
  intro other member
  exact indexed.close_holding found (inside member)

theorem WellIndexed.release_saved (indexed : WellIndexed account) :
    (account.release tokenId block).saved =
      account.saved.release tokenId block := by
  unfold AccountState.release
  cases found : account.index tokenId with
  | none =>
      rw [if_neg (by simp [indexed.holds_iff, found])]
      simp only [TrackedAccount.release, found]
      split <;> rfl
  | some stored =>
      rw [if_pos (by simp [indexed.holds_iff, found])]
      simp only [TrackedAccount.release, found, TrackedAccount.saved,
        AccountState.mk.injEq, and_true]
      constructor
      · exact indexed.map_close found (List.subset_append_left _ _)
      · exact indexed.map_close found (List.subset_append_right _ _)

theorem map_close_of_absent
    {list : List Stored} {reference : Nat}
    (absent : reference ∉ list.map Stored.reference) :
    list.map (Stored.close reference block) = list := by
  have unchanged :
      ∀ other ∈ list, Stored.close reference block other = id other := by
    intro other member
    apply if_neg
    rintro rfl
    exact absent (List.mem_map_of_mem member)
  exact (List.map_congr_left unchanged).trans (List.map_id list)

theorem count_close
    (block : Nat) {list : List Stored}
    (distinct : (list.map Stored.reference).Nodup)
    (listed : stored ∈ list) (isOpen : stored.holding.isOpen) :
    ((list.map (Stored.close stored.reference block)).filter
        (·.holding.isOpen)).length + 1 =
      (list.filter (·.holding.isOpen)).length := by
  have perm := List.perm_cons_erase listed
  have apart := (perm.map Stored.reference).nodup_iff.1 distinct
  rw [List.map_cons, List.nodup_cons] at apart
  have closed := ((perm.map (Stored.close stored.reference block)).filter
      (·.holding.isOpen)).length_eq
  have before := (perm.filter (·.holding.isOpen)).length_eq
  rw [List.map_cons, map_close_of_absent apart.1,
    List.filter_cons_of_neg (by simp [Stored.close, Holding.isOpen])]
    at closed
  rw [closed, before, List.filter_cons_of_pos (by exact isOpen),
    List.length_cons]

theorem openOwn_saved :
    account.saved.openOwn = (account.own.filter (·.holding.isOpen)).length := by
  unfold AccountState.openOwn TrackedAccount.saved
  rw [List.filter_map, List.length_map]
  rfl

theorem WellIndexed.own_nodup (indexed : WellIndexed account) :
    (account.own.map Stored.reference).Nodup := by
  have distinct := indexed.distinct
  rw [TrackedAccount.holdings, List.map_append] at distinct
  exact distinct.of_append_left

theorem WellIndexed.release_counted
    (indexed : WellIndexed account)
    (found : account.index tokenId = some stored) :
    (account.release tokenId block).openOwn = ((account.own.map
        (Stored.close stored.reference block)).filter
          (·.holding.isOpen)).length := by
  rcases indexed.sound tokenId stored found with ⟨here, isOpen, -⟩
  have counted := indexed.counted
  rw [openOwn_saved] at counted
  simp only [TrackedAccount.release, found, counted]
  rcases List.mem_append.1 here with ownStored | seededStored
  · rw [if_pos (indexed.ownFrom stored ownStored)]
    have closed := count_close block indexed.own_nodup ownStored isOpen
    omega
  · rw [if_neg (by simp [indexed.seededFrom stored seededStored])]
    have distinct := indexed.distinct
    rw [TrackedAccount.holdings, List.map_append] at distinct
    rw [map_close_of_absent]
    intro member
    exact (List.nodup_append'.1 distinct).2.2 member
      (List.mem_map_of_mem seededStored)

theorem holdings_release_of_some
    (found : account.index tokenId = some stored) :
    (account.release tokenId block).holdings =
      account.holdings.map (Stored.close stored.reference block) := by
  simp [TrackedAccount.release, found, TrackedAccount.holdings]

theorem WellIndexed.release_some
    (indexed : WellIndexed account)
    (found : account.index tokenId = some stored) :
    WellIndexed (account.release tokenId block) := by
  rcases indexed.sound tokenId stored found with
    ⟨here, isOpen, sameToken⟩
  have index_release : (account.release tokenId block).index =
      Function.update account.index tokenId none := by
    simp [TrackedAccount.release, found]
  have next_release : (account.release tokenId block).nextReference =
      account.nextReference := by
    simp [TrackedAccount.release, found]
  constructor
  · rw [holdings_release_of_some found, List.map_map]
    have same : Stored.reference ∘ Stored.close stored.reference block =
          Stored.reference :=
      funext fun _ => close_reference
    rw [same]
    exact indexed.distinct
  · rw [holdings_release_of_some found, next_release]
    intro other member
    rcases List.mem_map.1 member with ⟨before, listed, rfl⟩
    rw [close_reference]
    exact indexed.fresh before listed
  · rw [holdings_release_of_some found, index_release]
    intro otherToken other known
    by_cases same : otherToken = tokenId
    · rw [same, Function.update_self] at known
      cases known
    · rw [Function.update_of_ne same] at known
      rcases indexed.sound otherToken other known with
        ⟨listed, otherOpen, tokenOther⟩
      refine ⟨?_, otherOpen, tokenOther⟩
      apply List.mem_map.2
      refine ⟨other, listed, close_of_ne ?_⟩
      intro sameReference
      have identical := indexed.eq_of_reference listed here sameReference
      rw [identical, sameToken] at tokenOther
      exact same tokenOther.symm
  · rw [holdings_release_of_some found, index_release]
    intro other member stillOpen
    rcases List.mem_map.1 member with ⟨before, listed, rfl⟩
    by_cases same : before.reference = stored.reference
    · have closed :
          (before.close stored.reference block).holding.isOpen = false := by
        simp [Stored.close, same, Holding.isOpen]
      rw [closed] at stillOpen
      cases stillOpen
    · rw [close_of_ne same] at stillOpen ⊢
      have known := indexed.complete before listed stillOpen
      rw [Function.update_of_ne, known]
      intro sameId
      rw [sameId, found, Option.some.injEq] at known
      exact same (congrArg Stored.reference known.symm)
  · intro other member
    simp only [TrackedAccount.release, found] at member
    rcases List.mem_map.1 member with ⟨before, listed, rfl⟩
    rw [close_fromBlock]
    exact indexed.ownFrom before listed
  · intro other member
    simp only [TrackedAccount.release, found] at member
    rcases List.mem_map.1 member with ⟨before, listed, rfl⟩
    rw [close_fromBlock]
    exact indexed.seededFrom before listed
  · rw [indexed.release_counted found, openOwn_saved]
    simp only [TrackedAccount.release, found]

theorem WellIndexed.release_none
    (indexed : WellIndexed account) (unknown : account.index tokenId = none) :
    WellIndexed (account.release tokenId block) := by
  simp only [TrackedAccount.release, unknown]
  split
  · exact ⟨indexed.distinct, indexed.fresh, indexed.sound,
      indexed.complete, indexed.ownFrom, indexed.seededFrom,
      indexed.counted⟩
  · exact indexed

theorem WellIndexed.release (indexed : WellIndexed account) :
    WellIndexed (account.release tokenId block) := by
  cases found : account.index tokenId with
  | none => exact indexed.release_none found
  | some stored => exact indexed.release_some found

/-! ## Acquisition -/

theorem WellIndexed.acquire_saved (indexed : WellIndexed account) :
    (account.acquire tokenId block).saved =
      account.saved.acquire tokenId block := by
  unfold TrackedAccount.acquire AccountState.acquire
  by_cases room : account.saved.openOwn < lpOwnTrackLimit
  · rw [if_pos room, if_pos (by rw [indexed.counted]; exact_mod_cast room)]
    simp [TrackedAccount.saved]
  · rw [if_neg room, if_neg (by rw [indexed.counted]; exact_mod_cast room)]
    rfl

theorem WellIndexed.join
    (indexed : WellIndexed account) (stored : Stored)
    (unknown : account.index stored.holding.tokenId = none)
    (isOpen : stored.holding.isOpen)
    (isNew : stored.reference = account.nextReference) {next : TrackedAccount}
    (holdings_next : ∀ other, other ∈ next.holdings ↔
        other = stored ∨ other ∈ account.holdings)
    (distinct : (next.holdings.map Stored.reference).Nodup)
    (index_next : next.index =
        Function.update account.index stored.holding.tokenId (some stored))
    (reference_next : next.nextReference = account.nextReference + 1)
    (ownFrom : ∀ other ∈ next.own, other.holding.fromBlock.isSome)
    (seededFrom : ∀ other ∈ next.seeded, other.holding.fromBlock = none)
    (counted : next.openOwn = next.saved.openOwn) :
    WellIndexed next := by
  refine ⟨distinct, ?_, ?_, ?_, ownFrom, seededFrom, counted⟩
  · rw [reference_next]
    intro other member
    rcases (holdings_next other).1 member with rfl | old
    · rw [isNew]
      exact Nat.lt_succ_self _
    · exact Nat.lt_succ_of_lt (indexed.fresh other old)
  · rw [index_next]
    intro otherToken other known
    by_cases same : otherToken = stored.holding.tokenId
    · rw [same, Function.update_self, Option.some.injEq] at known
      subst known
      exact ⟨(holdings_next stored).2 (Or.inl rfl), isOpen, same.symm⟩
    · rw [Function.update_of_ne same] at known
      rcases indexed.sound otherToken other known with
        ⟨listed, otherOpen, tokenOther⟩
      exact ⟨(holdings_next other).2 (Or.inr listed), otherOpen, tokenOther⟩
  · rw [index_next]
    intro other member otherOpen
    rcases (holdings_next other).1 member with rfl | old
    · exact Function.update_self _ _ _
    · have known := indexed.complete other old otherOpen
      rw [Function.update_of_ne, known]
      intro same
      rw [same, unknown] at known
      cases known

theorem WellIndexed.new_notMem (indexed : WellIndexed account) :
    account.nextReference ∉ account.holdings.map Stored.reference := by
  intro member
  rcases List.mem_map.1 member with ⟨stored, listed, same⟩
  exact (indexed.fresh stored listed).ne same

theorem WellIndexed.acquire
    (indexed : WellIndexed account) (unknown : account.index tokenId = none) :
    WellIndexed (account.acquire tokenId block) := by
  unfold TrackedAccount.acquire
  split
  · apply indexed.join ⟨account.nextReference, tokenId, block, none⟩
      unknown rfl rfl
    · intro other
      simp only [TrackedAccount.holdings, List.mem_append, List.mem_singleton]
      tauto
    · let acquired : Stored :=
        ⟨account.nextReference, tokenId, some block, none⟩
      have middle : (account.own ++ [acquired] ++ account.seeded).Perm
          (acquired :: account.holdings) := by
        rw [List.append_assoc]
        exact List.perm_middle
      apply ((middle.map Stored.reference).nodup_iff).2
      exact List.nodup_cons.2 ⟨indexed.new_notMem, indexed.distinct⟩
    · rfl
    · rfl
    · intro other member
      rcases List.mem_append.1 member with old | isNew
      · exact indexed.ownFrom other old
      · rw [List.mem_singleton.1 isNew]
        rfl
    · exact indexed.seededFrom
    · have counted := indexed.counted
      rw [openOwn_saved] at counted ⊢
      simp only [List.filter_append, List.length_append, counted]
      rfl
  · exact ⟨indexed.distinct, indexed.fresh, indexed.sound,
      indexed.complete, indexed.ownFrom, indexed.seededFrom,
      indexed.counted⟩

theorem WellIndexed.seedOne (indexed : WellIndexed account) :
    WellIndexed (account.seedOne tokenId) := by
  unfold TrackedAccount.seedOne
  split
  · exact indexed
  · rename_i unknown
    apply indexed.join ⟨account.nextReference, tokenId, none, none⟩
      (by simpa using unknown) rfl rfl
    · intro other
      simp only [TrackedAccount.holdings, List.mem_append, List.mem_singleton]
      tauto
    · let arrived : Stored := ⟨account.nextReference, tokenId, none, none⟩
      have last : (account.own ++ (account.seeded ++ [arrived])).Perm
          (arrived :: account.holdings) := by
        rw [← List.append_assoc]
        exact List.perm_append_singleton _ _
      apply ((last.map Stored.reference).nodup_iff).2
      exact List.nodup_cons.2 ⟨indexed.new_notMem, indexed.distinct⟩
    · rfl
    · rfl
    · exact indexed.ownFrom
    · intro other member
      rcases List.mem_append.1 member with old | isNew
      · exact indexed.seededFrom other old
      · rw [List.mem_singleton.1 isNew]
    · exact indexed.counted

theorem foldl_delete
    (list : List Stored) (index : TokenId → Option Stored) (tokenId : TokenId) :
    list.foldl (fun (index : TokenId → Option Stored) stored =>
          Function.update index stored.holding.tokenId none)
        index tokenId =
      if tokenId ∈ list.map (·.holding.tokenId) then
        none
      else
        index tokenId := by
  induction list generalizing index with
  | nil => simp
  | cons stored rest ih =>
      rw [List.foldl_cons, ih, List.map_cons]
      by_cases later : tokenId ∈ rest.map (·.holding.tokenId)
      · rw [if_pos later, if_pos (List.mem_cons_of_mem _ later)]
      · rw [if_neg later]
        by_cases same : tokenId = stored.holding.tokenId
        · rw [if_pos (by simp [same]), same, Function.update_self]
        · rw [if_neg (by simp [same, later]), Function.update_of_ne same]

theorem WellIndexed.unseed (indexed : WellIndexed account) :
    WellIndexed account.unseed := by
  have index_unseed (tokenId : TokenId) : account.unseed.index tokenId =
      if tokenId ∈ (account.seeded.filter (·.holding.isOpen)).map
            (·.holding.tokenId) then
          none
        else
          account.index tokenId :=
    foldl_delete _ _ _
  have own_holdings : account.unseed.holdings = account.own := by
    simp [TrackedAccount.holdings, TrackedAccount.unseed]
  refine ⟨?_, ?_, ?_, ?_, indexed.ownFrom, ?_, ?_⟩
  · rw [own_holdings]
    exact indexed.own_nodup
  · rw [own_holdings]
    intro stored member
    exact indexed.fresh stored (List.mem_append_left _ member)
  · rw [own_holdings]
    intro tokenId stored known
    rw [index_unseed] at known
    split at known
    · cases known
    · rename_i absent
      rcases indexed.sound tokenId stored known with
        ⟨listed, isOpen, sameToken⟩
      refine ⟨?_, isOpen, sameToken⟩
      rcases List.mem_append.1 listed with own | seeded
      · exact own
      · apply False.elim
        apply absent
        rw [← sameToken]
        exact List.mem_map_of_mem (List.mem_filter.2 ⟨seeded, isOpen⟩)
  · rw [own_holdings]
    intro stored member isOpen
    have known := indexed.complete stored (List.mem_append_left _ member) isOpen
    rw [index_unseed, if_neg, known]
    intro seededToken
    rcases List.mem_map.1 seededToken with ⟨other, inside, sameToken⟩
    rcases List.mem_filter.1 inside with ⟨seeded, otherOpen⟩
    have knownOther :=
      indexed.complete other (List.mem_append_right _ seeded) otherOpen
    rw [show other.holding.tokenId = stored.holding.tokenId from
      sameToken, known, Option.some.injEq] at knownOther
    rw [← knownOther] at seeded
    have distinct := indexed.distinct
    rw [TrackedAccount.holdings, List.map_append] at distinct
    exact (List.nodup_append'.1 distinct).2.2
      (List.mem_map_of_mem member) (List.mem_map_of_mem seeded)
  · intro stored member
    cases member
  · exact indexed.counted

theorem WellIndexed.seed
    (indexed : WellIndexed account) (tokenIds : List TokenId) :
    WellIndexed (account.seed tokenIds) := by
  unfold TrackedAccount.seed
  have start := indexed.unseed
  generalize account.unseed = current at start
  induction tokenIds.take lpPositionsLimit generalizing current with
  | nil => exact start
  | cons tokenId rest ih =>
      exact ih _ start.seedOne

theorem prune_saved :
    (account.prune block).saved = account.saved.prune block := by
  simp only [TrackedAccount.saved, TrackedAccount.prune,
    AccountState.prune, List.filter_map]
  rfl

theorem mem_holdings_prune :
    stored ∈ (account.prune block).holdings ↔
      stored ∈ account.holdings ∧ stored.holding.outlives block := by
  simp only [TrackedAccount.holdings, TrackedAccount.prune,
    List.mem_append, List.mem_filter]
  tauto

theorem outlives_of_isOpen
    {holding : Holding} (isOpen : holding.isOpen) :
    holding.outlives block := by
  unfold Holding.isOpen at isOpen
  simp [Holding.outlives, Option.isNone_iff_eq_none.1 isOpen]

theorem prune_openOwn (state : AccountState) :
    (state.prune block).openOwn = state.openOwn := by
  unfold AccountState.openOwn AccountState.prune
  rw [List.filter_filter]
  congr 1
  apply List.filter_congr
  intro holding member
  cases isOpen : holding.isOpen with
  | false => rfl
  | true => simp [outlives_of_isOpen isOpen]

theorem WellIndexed.prune (indexed : WellIndexed account) :
    WellIndexed (account.prune block) := by
  refine ⟨?_, ?_, ?_, ?_, ?_, ?_, ?_⟩
  · have sublist : (account.prune block).holdings.Sublist account.holdings := by
      unfold TrackedAccount.holdings TrackedAccount.prune
      exact List.filter_sublist.append List.filter_sublist
    exact (sublist.map Stored.reference).nodup indexed.distinct
  · intro stored member
    exact indexed.fresh stored (mem_holdings_prune.1 member).1
  · intro tokenId stored known
    rcases indexed.sound tokenId stored known with
      ⟨listed, isOpen, sameToken⟩
    exact ⟨mem_holdings_prune.2 ⟨listed, outlives_of_isOpen isOpen⟩,
      isOpen, sameToken⟩
  · intro stored member isOpen
    exact indexed.complete stored (mem_holdings_prune.1 member).1 isOpen
  · intro stored member
    exact indexed.ownFrom stored (List.mem_filter.1 member).1
  · intro stored member
    exact indexed.seededFrom stored (List.mem_filter.1 member).1
  · rw [prune_saved, prune_openOwn]
    exact indexed.counted

/-! ## Restoring -/

/-- What the serialized state of an account satisfies. -/
structure WellFormed (state : AccountState) : Prop where
  apart : state.holdings.Pairwise fun first second =>
      first.isOpen → second.isOpen → first.tokenId ≠ second.tokenId
  ownFrom : ∀ holding ∈ state.own, holding.fromBlock.isSome
  seededFrom : ∀ holding ∈ state.seeded, holding.fromBlock = none

theorem WellIndexed.wellFormed (indexed : WellIndexed account) :
    WellFormed account.saved := by
  refine ⟨?_, ?_, ?_⟩
  · rw [saved_holdings, List.pairwise_map]
    apply List.Pairwise.imp_of_mem _ (List.pairwise_map.1 indexed.distinct)
    intro first second here there different firstOpen secondOpen same
    have knownFirst := indexed.complete first here firstOpen
    have knownSecond := indexed.complete second there secondOpen
    rw [same, knownSecond, Option.some.injEq] at knownFirst
    exact different (congrArg Stored.reference knownFirst.symm)
  · intro holding member
    rcases List.mem_map.1 member with ⟨stored, listed, rfl⟩
    exact indexed.ownFrom stored listed
  · intro holding member
    rcases List.mem_map.1 member with ⟨stored, listed, rfl⟩
    exact indexed.seededFrom stored listed

namespace TrackedAccount

theorem store_holding (first : Nat) (holdings : List Holding) :
    (store first holdings).map Stored.holding = holdings := by
  unfold store
  rw [List.map_map]
  exact List.zipIdx_map_fst first holdings

theorem store_reference (first : Nat) (holdings : List Holding) :
    (store first holdings).map Stored.reference =
      List.range' first holdings.length := by
  unfold store
  rw [List.map_map]
  exact List.zipIdx_map_snd first holdings

theorem restore_saved (state : AccountState) :
    (restore state).saved = state := by
  simp [restore, saved, store_holding]

theorem restore_holdings (state : AccountState) :
    (restore state).holdings =
      store 0 state.own ++ store state.own.length state.seeded :=
  rfl

theorem restore_references (state : AccountState) :
    (restore state).holdings.map Stored.reference =
      List.range' 0 (state.own.length + state.seeded.length) := by
  rw [restore_holdings, List.map_append, store_reference, store_reference]
  calc
    List.range' 0 state.own.length ++
        List.range' state.own.length state.seeded.length =
      List.range' 0 state.own.length ++
        List.range' (0 + state.own.length) state.seeded.length := by
      rw [Nat.zero_add]
    _ = List.range' 0 (state.own.length + state.seeded.length) :=
      List.range'_append_1

end TrackedAccount

/-- Entering the objects of a list into an index. -/
def enter
    (index : TokenId → Option Stored) (list : List Stored) :
    TokenId → Option Stored :=
  list.foldl (fun index stored =>
      Function.update index stored.holding.tokenId (some stored))
    index

section Enter

variable {index : TokenId → Option Stored} {list : List Stored}

theorem enter_cons :
    enter index (stored :: list) = enter
        (Function.update index stored.holding.tokenId (some stored))
        list :=
  rfl

theorem enter_of_absent
    (absent : tokenId ∉ list.map (·.holding.tokenId)) :
    enter index list tokenId = index tokenId := by
  induction list generalizing index with
  | nil => rfl
  | cons stored rest ih =>
      rw [List.map_cons, List.mem_cons, not_or] at absent
      rw [enter_cons, ih absent.2, Function.update_of_ne absent.1]

theorem enter_sound (known : enter index list tokenId = some stored) :
    (stored ∈ list ∧ stored.holding.tokenId = tokenId) ∨
      index tokenId = some stored := by
  induction list generalizing index with
  | nil => exact Or.inr known
  | cons first rest ih =>
      rw [enter_cons] at known
      rcases ih known with ⟨listed, same⟩ | before
      · exact Or.inl ⟨List.mem_cons_of_mem _ listed, same⟩
      · by_cases same : tokenId = first.holding.tokenId
        · rw [same, Function.update_self, Option.some.injEq] at before
          subst before
          exact Or.inl ⟨List.mem_cons_self, same.symm⟩
        · rw [Function.update_of_ne same] at before
          exact Or.inr before

theorem enter_complete
    (apart : list.Pairwise fun first second =>
        first.holding.tokenId ≠ second.holding.tokenId)
    (listed : stored ∈ list) :
    enter index list stored.holding.tokenId = some stored := by
  induction list generalizing index with
  | nil => cases listed
  | cons first rest ih =>
      rcases List.pairwise_cons.1 apart with ⟨here, later⟩
      rcases List.mem_cons.1 listed with rfl | inside
      · rw [enter_cons, enter_of_absent, Function.update_self]
        intro member
        rcases List.mem_map.1 member with ⟨other, other_mem, same⟩
        exact here other other_mem same.symm
      · exact ih later inside

end Enter

theorem WellFormed.restore
    {state : AccountState} (formed : WellFormed state) :
    WellIndexed (TrackedAccount.restore state) := by
  have holdings_restore :
      (TrackedAccount.restore state).holdings.map Stored.holding =
        state.holdings := by
    rw [← saved_holdings, TrackedAccount.restore_saved]
  have index_restore : (TrackedAccount.restore state).index =
      enter (fun _ => none)
        ((TrackedAccount.restore state).holdings.filter
          (·.holding.isOpen)) := rfl
  refine ⟨?_, ?_, ?_, ?_, ?_, ?_, ?_⟩
  · rw [TrackedAccount.restore_references]
    exact List.nodup_range'
  · intro stored member
    have inRange := List.mem_map_of_mem (f := Stored.reference) member
    rw [TrackedAccount.restore_references, List.mem_range'_1,
      Nat.zero_add] at inRange
    exact inRange.2
  · rw [index_restore]
    intro tokenId stored known
    rcases enter_sound known with ⟨listed, same⟩ | before
    · rcases List.mem_filter.1 listed with ⟨member, isOpen⟩
      exact ⟨member, isOpen, same⟩
    · cases before
  · rw [index_restore]
    intro stored member isOpen
    apply enter_complete _ (List.mem_filter.2 ⟨member, isOpen⟩)
    have apart := formed.apart
    rw [← holdings_restore, List.pairwise_map] at apart
    rw [List.pairwise_filter]
    exact apart.imp fun different firstOpen secondOpen =>
      different firstOpen secondOpen
  · intro stored member
    apply formed.ownFrom
    rw [← TrackedAccount.store_holding 0 state.own]
    exact List.mem_map_of_mem member
  · intro stored member
    apply formed.seededFrom
    rw [← TrackedAccount.store_holding state.own.length state.seeded]
    exact List.mem_map_of_mem member
  · rw [openOwn_saved]
    rfl

end Eris.Uniswap.Ownership
