import Eris.Uniswap.Indexed

/-!
# What an account holds is a function of the boundary

A ledger which is fed part by part, pruned below the boundary and written
down and read back in between answers for the boundary like one which was fed
the transfers up to the boundary in one call.

The serialized states of the accounts carry the argument: two ledgers whose
states agree after pruning at the boundary stay so under every operation, and
transfers beyond the boundary change no answer for it.
-/

namespace Eris.Uniswap.Ownership

open Foundation.LogFeed

variable {Account : Type} [DecidableEq Account]
    {changed : Account} {current : TrackedAccount} {stored : Stored}

/-! ## Pruning the state of an account -/

namespace AccountState

variable
  {state other : AccountState} {tokenId : TokenId}
  {block later boundary : Nat}

theorem sum_split
    (early : block ≤ boundary) (entries : List (Nat × Int)) :
    ((entries.filter (·.1 ≤ boundary)).map Prod.snd).sum =
      ((entries.filter (·.1 ≤ block)).map Prod.snd).sum +
        (((entries.filter (block < ·.1)).filter
          (·.1 ≤ boundary)).map Prod.snd).sum := by
  induction entries with
  | nil => rfl
  | cons entry rest ih =>
      by_cases first : entry.1 ≤ block
      · have second : entry.1 ≤ boundary := first.trans early
        simp [first, second, ih, not_lt.2 first]
        ring
      · by_cases second : entry.1 ≤ boundary
        · simp [first, second, ih, not_le.1 first]
          ring
        · simp [first, second, ih, not_le.1 first]

theorem sum_split_all (block : Nat) (entries : List (Nat × Int)) :
    (entries.map Prod.snd).sum =
      ((entries.filter (·.1 ≤ block)).map Prod.snd).sum +
        ((entries.filter (block < ·.1)).map Prod.snd).sum := by
  induction entries with
  | nil => rfl
  | cons entry rest ih =>
      by_cases first : entry.1 ≤ block
      · simp [first, ih, not_lt.2 first]
        ring
      · simp [first, ih, not_le.1 first]
        ring

theorem overflowAt_prune (early : block ≤ boundary) :
    (state.prune block).overflowAt boundary = state.overflowAt boundary := by
  have split := sum_split early state.overflow
  simp only [overflowAt, prune]
  rw [split]
  ring

theorem overflowNow_prune :
    (state.prune block).overflowNow = state.overflowNow := by
  unfold overflowNow prune
  rw [sum_split_all block state.overflow, overflowAt]
  ring

theorem filter_outlives
    (early : block ≤ boundary) (list : List Holding) :
    (list.filter (·.outlives block)).filter (·.outlives boundary) =
      list.filter (·.outlives boundary) := by
  rw [List.filter_filter]
  apply List.filter_congr
  intro holding member
  unfold Holding.outlives
  cases holding.untilBlock with
  | none => rfl
  | some released =>
      simp only [Option.all_some, ← Bool.decide_and, decide_eq_decide]
      omega

theorem prune_prune (early : block ≤ boundary) :
    (state.prune block).prune boundary = state.prune boundary := by
  have base : (state.prune block).overflowAt boundary = _ :=
    overflowAt_prune early
  unfold prune at base ⊢
  rw [base]
  simp only [filter_outlives early, mk.injEq, and_true, true_and,
    List.filter_filter]
  apply List.filter_congr
  intro entry member
  simp only [← Bool.decide_and, decide_eq_decide]
  omega

theorem holds_prune :
    (state.prune block).holds tokenId = state.holds tokenId := by
  unfold holds holdings prune
  rw [← List.filter_append, List.any_filter]
  congr 1
  funext holding
  cases isOpen : holding.isOpen with
  | false => simp
  | true => simp [outlives_of_isOpen isOpen]

theorem close_filter (list : List Holding) :
    ((list.filter (·.outlives boundary)).map
        (Holding.close tokenId block)).filter (·.outlives boundary) =
      (list.map (Holding.close tokenId block)).filter
        (·.outlives boundary) := by
  induction list with
  | nil => rfl
  | cons holding rest ih =>
      by_cases outlives : holding.outlives boundary
      · rw [List.filter_cons_of_pos outlives, List.map_cons,
          List.map_cons, List.filter_cons, List.filter_cons,
          ih]
      · have unchanged : holding.close tokenId block = holding := by
          apply if_neg
          rintro ⟨isOpen, -⟩
          exact outlives (outlives_of_isOpen isOpen)
        rw [List.filter_cons_of_neg outlives, List.map_cons, unchanged,
          List.filter_cons_of_neg outlives, ih]

def push (state : AccountState) (entry : Nat × Int) : AccountState :=
  { state with overflow := state.overflow ++ [entry] }

theorem prune_push (entry : Nat × Int) :
    ((state.prune boundary).push entry).prune boundary =
      (state.push entry).prune boundary := by
  unfold push prune overflowAt
  simp only [filter_outlives le_rfl, List.filter_append, mk.injEq,
    List.map_append, List.sum_append, List.filter_filter, Bool.and_self,
    true_and]
  have none : state.overflow.filter (fun entry =>
          decide (entry.1 ≤ boundary) && decide (boundary < entry.1)) =
        [] := by
    apply List.filter_eq_nil_iff.2
    intro entry member
    simp only [← Bool.decide_and, decide_eq_true_eq]
    omega
  rw [none]
  simp
  ring

theorem prune_release :
    ((state.prune boundary).release tokenId block).prune boundary =
      (state.release tokenId block).prune boundary := by
  unfold release
  rw [holds_prune, overflowNow_prune]
  split
  · unfold prune
    simp only [close_filter, mk.injEq, true_and]
    constructor
    · simp
    · exact overflowAt_prune le_rfl
  · split
    · exact prune_push _
    · exact prune_prune le_rfl

theorem prune_acquire :
    ((state.prune boundary).acquire tokenId block).prune boundary =
      (state.acquire tokenId block).prune boundary := by
  unfold acquire
  rw [prune_openOwn]
  split
  · unfold prune
    simp only [List.filter_append, filter_outlives le_rfl, mk.injEq, true_and]
    constructor
    · simp
    · exact overflowAt_prune le_rfl
  · exact prune_push _

theorem filter_held (list : List Holding) :
    (list.filter (·.outlives boundary)).filter (·.held boundary) =
      list.filter (·.held boundary) := by
  rw [List.filter_filter]
  apply List.filter_congr
  intro holding member
  unfold Holding.held Holding.outlives
  rw [Bool.and_assoc, Bool.and_self]

theorem heldAt_prune :
    (state.prune boundary).heldAt boundary = state.heldAt boundary := by
  have overflow : (state.prune boundary).overflowAt boundary = _ :=
    overflowAt_prune le_rfl
  unfold heldAt
  rw [overflow]
  unfold prune
  simp only [filter_held]

theorem held_close (late : boundary < block) (holding : Holding) :
    (holding.close tokenId block).held boundary = holding.held boundary := by
  unfold Holding.close
  split
  · rename_i closing
    have isOpen := closing.1
    unfold Holding.isOpen at isOpen
    simp [Holding.held, Option.isNone_iff_eq_none.1 isOpen, late]
  · rfl

theorem close_tokenId (holding : Holding) :
    (holding.close tokenId block).tokenId = holding.tokenId := by
  unfold Holding.close
  split <;> rfl

theorem filter_held_close
    (late : boundary < block) (list : List Holding) :
    (list.map (Holding.close tokenId block)).filter (·.held boundary) =
      (list.filter (·.held boundary)).map (Holding.close tokenId block) := by
  rw [List.filter_map]
  congr 1
  apply List.filter_congr
  intro holding member
  exact held_close late holding

theorem heldAt_push {entry : Nat × Int} (late : boundary < entry.1) :
    (state.push entry).heldAt boundary = state.heldAt boundary := by
  simp [heldAt, push, overflowAt, not_le.2 late]

theorem heldAt_release (late : boundary < block) :
    (state.release tokenId block).heldAt boundary = state.heldAt boundary := by
  unfold release
  split
  · unfold heldAt overflowAt
    simp only [filter_held_close late, ← List.map_append,
      ← List.map_take, List.map_map, List.length_map]
    congr 1
    apply List.map_congr_left
    intro holding member
    exact close_tokenId holding
  · split
    · exact heldAt_push late
    · rfl

theorem heldAt_acquire (late : boundary < block) :
    (state.acquire tokenId block).heldAt boundary = state.heldAt boundary := by
  unfold acquire
  split
  · have notHeld :
        (Holding.mk tokenId (some block) none).held boundary = false := by
      simp [Holding.held, late]
    simp [heldAt, overflowAt, List.filter_append, notHeld]
  · exact heldAt_push late

end AccountState

/-! ## The serialized ledger -/

namespace LpOwnershipLedgerState

variable
  {state other : LpOwnershipLedgerState Account}
  {account : Account} {transfer : LpTransfer Account}
  {transfers : List (LpTransfer Account)} {block boundary : Nat}

def modify
    (state : LpOwnershipLedgerState Account) (account : Account)
    (change : AccountState → AccountState) :
    LpOwnershipLedgerState Account :=
  ⟨Function.update state.accounts account ((state.accounts account).map change)⟩

def ingestOne
    (state : LpOwnershipLedgerState Account)
    (transfer : LpTransfer Account) : LpOwnershipLedgerState Account :=
  let departed := state.modify transfer.fromAccount
      (·.release transfer.tokenId transfer.blockNumber)
  if transfer.txFrom = some transfer.toAccount then
    departed.modify transfer.toAccount
      (·.acquire transfer.tokenId transfer.blockNumber)
  else
    departed

def prune (block : Nat) (state : LpOwnershipLedgerState Account) :
    LpOwnershipLedgerState Account :=
  ⟨fun account => (state.accounts account).map (·.prune block)⟩

def heldAt
    (state : LpOwnershipLedgerState Account) (account : Account)
    (block : Nat) : Option LpHeldAt :=
  (state.accounts account).map (·.heldAt block)

omit [DecidableEq Account] in
theorem prune_prune (early : block ≤ boundary) :
    (state.prune block).prune boundary = state.prune boundary := by
  unfold prune
  simp only [Option.map_map, mk.injEq]
  funext account
  congr 1
  funext account
  exact AccountState.prune_prune early

omit [DecidableEq Account] in
theorem heldAt_prune :
    (state.prune boundary).heldAt account boundary =
      state.heldAt account boundary := by
  unfold heldAt prune
  rw [Option.map_map]
  congr 1
  funext account
  exact AccountState.heldAt_prune

theorem prune_modify
    {change : AccountState → AccountState}
    (stable : ∀ state : AccountState,
        (change (state.prune boundary)).prune boundary =
          (change state).prune boundary) :
    ((state.prune boundary).modify account change).prune boundary =
      (state.modify account change).prune boundary := by
  unfold modify prune
  simp only [mk.injEq]
  funext other
  by_cases same : other = account
  · subst same
    simp only [Function.update_self, Option.map_map]
    congr 1
    funext current
    exact stable current
  · simp only [Function.update_of_ne same, Option.map_map]
    congr 1
    funext current
    exact AccountState.prune_prune le_rfl

/-- Ledgers which agree beyond a boundary. -/
def Agree
    (boundary : Nat) (first second : LpOwnershipLedgerState Account) :
    Prop :=
  first.prune boundary = second.prune boundary

theorem Agree.modify
    {change : AccountState → AccountState} (agree : Agree boundary state other)
    (stable : ∀ state : AccountState,
        (change (state.prune boundary)).prune boundary =
          (change state).prune boundary) :
    Agree boundary (state.modify account change)
      (other.modify account change) := by
  have same : state.prune boundary = other.prune boundary := agree
  rw [Agree, ← prune_modify stable, same, prune_modify stable]

theorem Agree.ingestOne (agree : Agree boundary state other) :
    Agree boundary (state.ingestOne transfer) (other.ingestOne transfer) := by
  have departed : Agree boundary (state.modify transfer.fromAccount
          (·.release transfer.tokenId transfer.blockNumber))
        (other.modify transfer.fromAccount
          (·.release transfer.tokenId transfer.blockNumber)) :=
    agree.modify fun _ => AccountState.prune_release
  unfold LpOwnershipLedgerState.ingestOne
  split
  · exact departed.modify fun _ => AccountState.prune_acquire
  · exact departed

omit [DecidableEq Account] in
theorem Agree.prune
    (agree : Agree boundary state other) (early : block ≤ boundary) :
    Agree boundary (state.prune block) other := by
  unfold Agree
  rw [prune_prune early, agree]

omit [DecidableEq Account] in
theorem Agree.heldAt (agree : Agree boundary state other) :
    state.heldAt account boundary = other.heldAt account boundary := by
  rw [← heldAt_prune, agree, heldAt_prune]

theorem Agree.foldl (agree : Agree boundary state other) :
    Agree boundary (transfers.foldl LpOwnershipLedgerState.ingestOne state)
      (transfers.foldl LpOwnershipLedgerState.ingestOne other) := by
  induction transfers generalizing state other with
  | nil => exact agree
  | cons transfer rest ih =>
      exact ih agree.ingestOne

theorem heldAt_modify
    {change : AccountState → AccountState}
    (quiet : ∀ state : AccountState,
        (change state).heldAt boundary = state.heldAt boundary) :
    (state.modify changed change).heldAt account boundary =
      state.heldAt account boundary := by
  unfold heldAt modify
  by_cases same : account = changed
  · subst same
    simp only [Function.update_self, Option.map_map]
    congr 1
    funext current
    exact quiet current
  · simp only [Function.update_of_ne same]

theorem heldAt_foldl
    (late : ∀ transfer ∈ transfers, boundary < transfer.blockNumber) :
    (transfers.foldl ingestOne state).heldAt account boundary =
      state.heldAt account boundary := by
  induction transfers generalizing state with
  | nil => rfl
  | cons transfer rest ih =>
      have lateFirst := late transfer List.mem_cons_self
      rw [List.foldl_cons, ih fun other member =>
          late other (List.mem_cons_of_mem _ member)]
      unfold ingestOne
      split
      · rw [heldAt_modify fun _ => AccountState.heldAt_acquire lateFirst,
          heldAt_modify fun _ => AccountState.heldAt_release lateFirst]
      · exact heldAt_modify fun _ => AccountState.heldAt_release lateFirst

end LpOwnershipLedgerState

/-! ## Histories of one position manager -/

/-- Which of the tracked accounts holds a position, if any. -/
abbrev Custody (Account : Type) := TokenId → Option Account

def amongTracked (tracked : Account → Bool) (account : Account) :
    Option Account :=
  if tracked account then some account else none

/-- A transfer moves its position from the account which holds it. -/
def Custody.Allows
    (tracked : Account → Bool) (custody : Custody Account)
    (transfer : LpTransfer Account) : Prop :=
  custody transfer.tokenId = amongTracked tracked transfer.fromAccount

def Custody.move
    (tracked : Account → Bool) (custody : Custody Account)
    (transfer : LpTransfer Account) : Custody Account :=
  Function.update custody transfer.tokenId
    (amongTracked tracked transfer.toAccount)

/-- The transfers are those of one position manager, in chain order: each
moves its position from the account which holds it, as far as that account is
tracked. -/
def History (tracked : Account → Bool) :
    Custody Account → List (LpTransfer Account) → Prop
  | _, [] => True
  | custody, transfer :: rest =>
      custody.Allows tracked transfer ∧
        History tracked (custody.move tracked transfer) rest

instance decidableHistory (tracked : Account → Bool) :
    ∀ (custody : Custody Account) (transfers : List (LpTransfer Account)),
      Decidable (History tracked custody transfers)
  | _, [] => isTrue trivial
  | custody, transfer :: rest =>
      letI := decidableHistory tracked (custody.move tracked transfer) rest
      inferInstanceAs (Decidable (custody transfer.tokenId =
            amongTracked tracked transfer.fromAccount ∧
          History tracked (custody.move tracked transfer) rest))

/-- A ledger tracks given accounts, its derived part agrees with its
holdings, and it indexes positions only for the account which holds them. -/
structure Sound
    (tracked : Account → Bool) (custody : Custody Account)
    (ledger : LpOwnershipLedger Account) : Prop where
  tracks : ledger.tracks = tracked
  indexed :
    ∀ account current, ledger.state account = some current → WellIndexed current
  custodian : ∀ account current tokenId stored,
      ledger.state account = some current →
        current.index tokenId = some stored → custody tokenId = some account

section Sound

variable
  {tracked : Account → Bool} {custody : Custody Account}
  {ledger : LpOwnershipLedger Account} {account : Account}
  {transfer : LpTransfer Account}

theorem tracks_modify
    {change : TrackedAccount → TrackedAccount} :
    (ledger.modify changed change).tracks = ledger.tracks := by
  funext other
  unfold LpOwnershipLedger.tracks LpOwnershipLedger.modify
  by_cases same : other = changed
  · subst same
    simp
  · simp only [Function.update_of_ne same]

theorem state_modify
    {change : TrackedAccount → TrackedAccount}
    (found : (ledger.modify changed change).state account = some current) :
    (account = changed ∧ ∃ before, ledger.state account = some before ∧
          current = change before) ∨
      (account ≠ changed ∧ ledger.state account = some current) := by
  unfold LpOwnershipLedger.modify at found
  by_cases same : account = changed
  · subst same
    simp only [Function.update_self, Option.map_eq_some_iff] at found
    rcases found with ⟨before, known, rfl⟩
    exact Or.inl ⟨rfl, before, known, rfl⟩
  · simp only [Function.update_of_ne same] at found
    exact Or.inr ⟨same, found⟩

omit [DecidableEq Account] in
theorem Sound.index_none
    (sound : Sound tracked custody ledger) {tokenId : TokenId}
    (found : ledger.state account = some current)
    (elsewhere : custody tokenId ≠ some account) :
    current.index tokenId = none := by
  cases known : current.index tokenId with
  | none => rfl
  | some stored =>
      exact (elsewhere
        (sound.custodian account current tokenId stored found known)).elim

theorem release_index (current : TrackedAccount) (tokenId : TokenId)
    (block : Nat) :
    (current.release tokenId block).index =
      Function.update current.index tokenId none := by
  cases found : current.index tokenId with
  | some stored => simp [TrackedAccount.release, found]
  | none =>
      rw [← found, Function.update_eq_self]
      simp only [TrackedAccount.release, found]
      split <;> rfl

theorem Sound.depart
    (sound : Sound tracked custody ledger)
    (allowed : custody.Allows tracked transfer) :
    Sound tracked (Function.update custody transfer.tokenId none)
      (ledger.depart transfer) := by
  unfold LpOwnershipLedger.depart
  have here := sound.tracks
  split
  · rename_i trackedFrom
    have holder : custody transfer.tokenId = some transfer.fromAccount := by
      rw [allowed, amongTracked, ← here, if_pos trackedFrom]
    refine ⟨tracks_modify.trans here, ?_, ?_⟩
    · intro account current found
      rcases state_modify found with ⟨rfl, before, known, rfl⟩ | ⟨-, known⟩
      · exact (sound.indexed _ before known).release
      · exact sound.indexed account current known
    · intro account current tokenId stored found entry
      rcases state_modify found with
        ⟨rfl, before, known, rfl⟩ | ⟨other, known⟩
      · rw [release_index] at entry
        by_cases same : tokenId = transfer.tokenId
        · rw [same, Function.update_self] at entry
          cases entry
        · rw [Function.update_of_ne same] at entry
          rw [Function.update_of_ne same]
          exact sound.custodian _ before tokenId stored known entry
      · have custodian :=
          sound.custodian account current tokenId stored known entry
        rw [Function.update_of_ne, custodian]
        rintro rfl
        rw [holder, Option.some.injEq] at custodian
        exact other custodian.symm
  · rename_i untracked
    have holder : custody transfer.tokenId = none := by
      rw [allowed, amongTracked, ← here, if_neg untracked]
    refine ⟨here, sound.indexed, ?_⟩
    intro account current tokenId stored found entry
    have custodian := sound.custodian account current tokenId stored found entry
    rw [Function.update_of_ne, custodian]
    rintro rfl
    rw [holder] at custodian
    cases custodian

theorem acquire_index
    {tokenId other : TokenId} {block : Nat}
    (entry : (current.acquire tokenId block).index other = some stored) :
    other = tokenId ∨ current.index other = some stored := by
  unfold TrackedAccount.acquire at entry
  split at entry
  · by_cases same : other = tokenId
    · exact Or.inl same
    · exact Or.inr (by simpa [Function.update_of_ne same] using entry)
  · exact Or.inr entry

theorem Sound.arrive
    (sound : Sound tracked custody ledger)
    (unheld : custody transfer.tokenId = none) :
    Sound tracked (custody.move tracked transfer) (ledger.arrive transfer) := by
  have absent (account : Account) (current : TrackedAccount)
      (found : ledger.state account = some current) :
      current.index transfer.tokenId = none :=
    sound.index_none found (by simp [unheld])
  have elsewhere (account : Account) (current : TrackedAccount)
      (tokenId : TokenId) (stored : Stored)
      (found : ledger.state account = some current)
      (entry : current.index tokenId = some stored) :
      custody.move tracked transfer tokenId = some account := by
    unfold Custody.move
    rw [Function.update_of_ne,
      sound.custodian account current tokenId stored found entry]
    rintro rfl
    rw [absent account current found] at entry
    cases entry
  unfold LpOwnershipLedger.arrive
  split
  · rename_i own
    refine ⟨tracks_modify.trans sound.tracks, ?_, ?_⟩
    · intro account current found
      rcases state_modify found with ⟨rfl, before, known, rfl⟩ | ⟨-, known⟩
      · exact (sound.indexed _ before known).acquire (absent _ before known)
      · exact sound.indexed account current known
    · intro account current tokenId stored found entry
      rcases state_modify found with ⟨rfl, before, known, rfl⟩ | ⟨-, known⟩
      · rcases acquire_index entry with rfl | old
        · unfold Custody.move amongTracked
          rw [Function.update_self, ← sound.tracks, if_pos own.1]
        · exact elsewhere _ before tokenId stored known old
      · exact elsewhere account current tokenId stored known entry
  · exact ⟨sound.tracks, sound.indexed, elsewhere⟩

theorem Sound.ingestOne
    (sound : Sound tracked custody ledger)
    (allowed : custody.Allows tracked transfer) :
    Sound tracked (custody.move tracked transfer)
      (ledger.ingestOne transfer) := by
  have arrived := (sound.depart allowed).arrive (Function.update_self _ _ _)
  unfold Custody.move at arrived ⊢
  rw [Function.update_idem] at arrived
  exact arrived

/-! ## The ledger and its serialized state -/

theorem snapshot_modify
    {change : TrackedAccount → TrackedAccount}
    {changeSaved : AccountState → AccountState}
    (same : ∀ current, ledger.state changed = some current →
        (change current).saved = changeSaved current.saved) :
    (ledger.modify changed change).snapshot =
      ledger.snapshot.modify changed changeSaved := by
  unfold LpOwnershipLedger.snapshot LpOwnershipLedger.modify
    LpOwnershipLedgerState.modify
  simp only [LpOwnershipLedgerState.mk.injEq]
  funext other
  by_cases isChanged : other = changed
  · subst isChanged
    simp only [Function.update_self, Option.map_map]
    cases found : ledger.state other with
    | none => rfl
    | some current =>
        simp only [Option.map_some, Function.comp_apply]
        rw [same current found]
  · simp only [Function.update_of_ne isChanged]

theorem snapshot_modify_untracked
    {changeSaved : AccountState → AccountState}
    (untracked : ledger.tracks changed = false) :
    ledger.snapshot.modify changed changeSaved = ledger.snapshot := by
  unfold LpOwnershipLedgerState.modify LpOwnershipLedger.snapshot
  have absent : ledger.state changed = none := by
    simpa [LpOwnershipLedger.tracks] using untracked
  simp only [LpOwnershipLedgerState.mk.injEq]
  funext other
  by_cases isChanged : other = changed
  · subst isChanged
    simp [absent]
  · simp only [Function.update_of_ne isChanged]

theorem Sound.snapshot_depart
    (sound : Sound tracked custody ledger) :
    (ledger.depart transfer).snapshot =
      ledger.snapshot.modify transfer.fromAccount
        (·.release transfer.tokenId transfer.blockNumber) := by
  unfold LpOwnershipLedger.depart
  split
  · apply snapshot_modify
    intro current found
    exact (sound.indexed _ current found).release_saved
  · rename_i untracked
    rw [snapshot_modify_untracked]
    simpa using untracked

theorem Sound.snapshot_arrive
    (sound : Sound tracked custody ledger) :
    (ledger.arrive transfer).snapshot =
      if transfer.txFrom = some transfer.toAccount then
        ledger.snapshot.modify transfer.toAccount
          (·.acquire transfer.tokenId transfer.blockNumber)
      else
        ledger.snapshot := by
  unfold LpOwnershipLedger.arrive
  by_cases sent : transfer.txFrom = some transfer.toAccount
  · rw [if_pos sent]
    split
    · apply snapshot_modify
      intro current found
      exact (sound.indexed _ current found).acquire_saved
    · rename_i unread
      rw [snapshot_modify_untracked]
      simpa [sent] using unread
  · rw [if_neg sent, if_neg (fun both => sent both.2)]

theorem Sound.snapshot_ingestOne
    (sound : Sound tracked custody ledger)
    (allowed : custody.Allows tracked transfer) :
    (ledger.ingestOne transfer).snapshot =
      ledger.snapshot.ingestOne transfer := by
  unfold LpOwnershipLedger.ingestOne LpOwnershipLedgerState.ingestOne
  rw [(sound.depart allowed).snapshot_arrive, sound.snapshot_depart]

/-- Who holds what after a sequence of transfers. -/
def Custody.after
    (tracked : Account → Bool) (custody : Custody Account)
    (transfers : List (LpTransfer Account)) : Custody Account :=
  transfers.foldl (Custody.move tracked) custody

omit [DecidableEq Account] in
theorem History.append
    {first second : List (LpTransfer Account)} :
    History tracked custody (first ++ second) ↔ History tracked custody first ∧
        History tracked (custody.after tracked first) second := by
  induction first generalizing custody with
  | nil => simp [History, Custody.after]
  | cons transfer rest ih =>
      simp only [List.cons_append, History, ih,
        Custody.after, List.foldl_cons, and_assoc]

/-- Reading a history keeps a ledger sound, and its serialized state is what
the serialized ledger reads. -/
theorem Sound.foldl
    {transfers : List (LpTransfer Account)}
    (sound : Sound tracked custody ledger)
    (history : History tracked custody transfers) :
    Sound tracked (custody.after tracked transfers)
        (transfers.foldl LpOwnershipLedger.ingestOne ledger) ∧
      (transfers.foldl LpOwnershipLedger.ingestOne ledger).snapshot =
        transfers.foldl LpOwnershipLedgerState.ingestOne ledger.snapshot := by
  induction transfers generalizing custody ledger with
  | nil => exact ⟨sound, rfl⟩
  | cons transfer rest ih =>
      rcases history with ⟨allowed, later⟩
      rcases ih (sound.ingestOne allowed) later with
        ⟨soundRest, snapshotRest⟩
      refine ⟨soundRest, snapshotRest.trans ?_⟩
      rw [sound.snapshot_ingestOne allowed]
      rfl

end Sound

section Seeds

variable
  {tracked : Account → Bool} {custody : Custody Account}
  {ledger : LpOwnershipLedger Account}

theorem unseed_index
    {tokenId : TokenId} (entry : current.unseed.index tokenId = some stored) :
    current.index tokenId = some stored := by
  have cleared :=
    foldl_delete (current.seeded.filter (·.holding.isOpen)) current.index
      tokenId
  rw [show current.unseed.index tokenId = _ from cleared] at entry
  split at entry
  · cases entry
  · exact entry

theorem seedOne_index
    {tokenId other : TokenId}
    (entry : (current.seedOne tokenId).index other = some stored) :
    other = tokenId ∨ current.index other = some stored := by
  unfold TrackedAccount.seedOne at entry
  split at entry
  · exact Or.inr entry
  · by_cases same : other = tokenId
    · exact Or.inl same
    · exact Or.inr (by simpa [Function.update_of_ne same] using entry)

theorem seed_index
    {tokenIds : List TokenId} {tokenId : TokenId}
    (entry : (current.seed tokenIds).index tokenId = some stored) :
    tokenId ∈ tokenIds ∨ ∃ before, current.index tokenId = some before := by
  have step : ∀ (list : List TokenId) (start : TrackedAccount),
      (list.foldl TrackedAccount.seedOne start).index tokenId = some stored →
        tokenId ∈ list ∨ start.index tokenId = some stored := by
    intro list
    induction list with
    | nil => exact fun start known => Or.inr known
    | cons first rest ih =>
        intro start known
        rcases ih _ known with later | before
        · exact Or.inl (List.mem_cons_of_mem _ later)
        · rcases seedOne_index before with rfl | earlier
          · exact Or.inl List.mem_cons_self
          · exact Or.inr earlier
  rcases step _ _ entry with listed | before
  · exact Or.inl (List.mem_of_mem_take listed)
  · exact Or.inr ⟨stored, unseed_index before⟩

theorem state_track
    {account other : Account}
    (found : (ledger.track account).state other = some current) :
    current = TrackedAccount.empty ∨ ledger.state other = some current := by
  unfold LpOwnershipLedger.track at found
  split at found
  · exact Or.inr found
  · by_cases same : other = account
    · left
      simpa [same, eq_comm] using found
    · right
      simpa [Function.update_of_ne same] using found

theorem Sound.track
    (sound : Sound tracked custody ledger) (account : Account) :
    Sound (ledger.track account).tracks custody (ledger.track account) := by
  refine ⟨rfl, ?_, ?_⟩
  · intro other current found
    rcases state_track found with rfl | known
    · exact empty_wellIndexed
    · exact sound.indexed other current known
  · intro other current tokenId stored found entry
    rcases state_track found with rfl | known
    · cases entry
    · exact sound.custodian other current tokenId stored known entry

theorem Sound.seed
    (sound : Sound tracked custody ledger)
    (account : Account) (tokenIds : List TokenId)
    (holds : ∀ tokenId ∈ tokenIds, custody tokenId = some account) :
    Sound (ledger.seed account tokenIds).tracks custody
      (ledger.seed account tokenIds) := by
  have start := sound.track account
  refine ⟨rfl, ?_, ?_⟩
  · intro other current found
    rcases state_modify found with ⟨rfl, before, known, rfl⟩ | ⟨-, known⟩
    · exact (start.indexed _ before known).seed tokenIds
    · exact start.indexed other current known
  · intro other current tokenId stored found entry
    rcases state_modify found with ⟨rfl, before, known, rfl⟩ | ⟨-, known⟩
    · rcases seed_index entry with listed | ⟨earlier, old⟩
      · exact holds tokenId listed
      · exact start.custodian _ before tokenId earlier known old
    · exact start.custodian other current tokenId stored known entry

/-- A ledger of given accounts which are seeded with what they hold. -/
def seededLedger
    (accounts : List Account) (seeds : List (Account × List TokenId)) :
    LpOwnershipLedger Account :=
  seeds.foldl (fun ledger seed => ledger.seed seed.1 seed.2)
    (LpOwnershipLedger.new accounts)

theorem new_sound (accounts : List Account) :
    Sound (LpOwnershipLedger.new accounts).tracks custody
      (LpOwnershipLedger.new accounts) := by
  have step : ∀ (list : List Account) (start : LpOwnershipLedger Account),
      Sound start.tracks custody start →
        Sound (list.foldl LpOwnershipLedger.track start).tracks custody
          (list.foldl LpOwnershipLedger.track start) := by
    intro list
    induction list with
    | nil => exact fun start sound => sound
    | cons account rest ih =>
        intro start sound
        exact ih _ (sound.track account)
  apply step
  refine ⟨rfl, ?_, ?_⟩
  · intro account current found
    cases found
  · intro account current tokenId stored found
    cases found

theorem seededLedger_sound
    (accounts : List Account) (seeds : List (Account × List TokenId))
    (holds :
      ∀ seed ∈ seeds, ∀ tokenId ∈ seed.2, custody tokenId = some seed.1) :
    Sound (seededLedger accounts seeds).tracks custody
      (seededLedger accounts seeds) := by
  have start : Sound _ custody (LpOwnershipLedger.new accounts) :=
    new_sound accounts
  unfold seededLedger
  generalize LpOwnershipLedger.new accounts = ledger at start
  induction seeds generalizing ledger with
  | nil => exact start
  | cons seed rest ih =>
      exact ih (fun other member =>
            holds other (List.mem_cons_of_mem _ member))
          _ (start.seed seed.1 seed.2 (holds seed List.mem_cons_self))

end Seeds

/-! ## Runs of operations -/

/-- What happens to a ledger: it reads the transfers of a call, is pruned, or
is written down and read back. -/
inductive Operation (Account : Type)
  | ingest (transfers : List (LpTransfer Account))
  | prune (block : Nat)
  | restore

namespace Operation

def perform
    (ledger : LpOwnershipLedger Account) :
    Operation Account → LpOwnershipLedger Account
  | .ingest transfers => ledger.ingest transfers
  | .prune block => ledger.prune block
  | .restore => .restore ledger.snapshot

/-- The transfers which an operation reads. -/
def transfers : Operation Account → Option (List (LpTransfer Account))
  | .ingest transfers => some transfers
  | _ => none

end Operation

/-- Perform operations one after another. -/
def run
    (ledger : LpOwnershipLedger Account)
    (operations : List (Operation Account)) : LpOwnershipLedger Account :=
  operations.foldl Operation.perform ledger

/-- The transfers which each call of a run reads. -/
def reads (operations : List (Operation Account)) :
    List (List (LpTransfer Account)) :=
  operations.filterMap Operation.transfers

section Runs

variable
  {tracked : Account → Bool} {custody : Custody Account}
  {ledger : LpOwnershipLedger Account}
  {operations : List (Operation Account)} {block boundary : Nat}

omit [DecidableEq Account] in
theorem snapshot_prune :
    (ledger.prune block).snapshot = ledger.snapshot.prune block := by
  unfold LpOwnershipLedger.snapshot LpOwnershipLedger.prune
    LpOwnershipLedgerState.prune
  simp only [Option.map_map, LpOwnershipLedgerState.mk.injEq]
  funext account
  congr 1
  funext current
  exact prune_saved

omit [DecidableEq Account] in
theorem snapshot_restore (state : LpOwnershipLedgerState Account) :
    (LpOwnershipLedger.restore state).snapshot = state := by
  unfold LpOwnershipLedger.snapshot LpOwnershipLedger.restore
  simp only [Option.map_map]
  congr 1
  funext account
  rw [show TrackedAccount.saved ∘ TrackedAccount.restore = id from
    funext TrackedAccount.restore_saved]
  exact Option.map_id_apply

omit [DecidableEq Account] in
theorem heldAt_snapshot (account : Account) :
    ledger.heldAt account block = ledger.snapshot.heldAt account block := by
  unfold LpOwnershipLedger.heldAt LpOwnershipLedger.snapshot
    LpOwnershipLedgerState.heldAt
  rw [Option.map_map]
  rfl

omit [DecidableEq Account] in
theorem Sound.prune (sound : Sound tracked custody ledger) :
    Sound tracked custody (ledger.prune block) := by
  refine ⟨?_, ?_, ?_⟩
  · rw [← sound.tracks]
    funext account
    simp [LpOwnershipLedger.tracks, LpOwnershipLedger.prune]
  · intro account current found
    rcases Option.map_eq_some_iff.1 found with ⟨before, known, rfl⟩
    exact (sound.indexed account before known).prune
  · intro account current tokenId stored found entry
    rcases Option.map_eq_some_iff.1 found with ⟨before, known, rfl⟩
    exact sound.custodian account before tokenId stored known entry

/-- A position which is indexed after reading an account back was indexed
before. -/
theorem restore_index
    (indexed : WellIndexed current) {tokenId : TokenId}
    (entry :
      (TrackedAccount.restore current.saved).index tokenId = some stored) :
    ∃ before, current.index tokenId = some before := by
  have known : (current.saved).holds tokenId := by
    rw [← TrackedAccount.restore_saved current.saved]
    rw [indexed.wellFormed.restore.holds_iff, entry]
    rfl
  exact Option.isSome_iff_exists.1 (indexed.holds_iff.1 known)

omit [DecidableEq Account] in
theorem Sound.restore (sound : Sound tracked custody ledger) :
    Sound tracked custody (.restore ledger.snapshot) := by
  refine ⟨?_, ?_, ?_⟩
  · rw [← sound.tracks]
    funext account
    simp [LpOwnershipLedger.tracks, LpOwnershipLedger.restore,
      LpOwnershipLedger.snapshot]
  · intro account current found
    rcases Option.map_eq_some_iff.1 found with ⟨saved, known, rfl⟩
    rcases Option.map_eq_some_iff.1 known with ⟨before, state, rfl⟩
    exact (sound.indexed account before state).wellFormed.restore
  · intro account current tokenId stored found entry
    rcases Option.map_eq_some_iff.1 found with ⟨saved, known, rfl⟩
    rcases Option.map_eq_some_iff.1 known with ⟨before, state, rfl⟩
    rcases restore_index (sound.indexed account before state) entry with
      ⟨earlier, old⟩
    exact sound.custodian account before tokenId earlier state old

/-- The transfers of a run, in the order in which its calls read them. -/
def readOrder (operations : List (Operation Account)) :
    List (LpTransfer Account) :=
  ((reads operations).map (ordered LpTransfer.position)).flatten

/-- A run which prunes below the boundary agrees beyond it with reading the
transfers alone. -/
theorem Sound.run
    (sound : Sound tracked custody ledger)
    (history : History tracked custody (readOrder operations))
    (pruned : ∀ block, Operation.prune block ∈ operations → block < boundary) :
    Sound tracked (custody.after tracked (readOrder operations))
        (run ledger operations) ∧
      (run ledger operations).snapshot.Agree boundary
        ((readOrder operations).foldl LpOwnershipLedgerState.ingestOne
          ledger.snapshot) := by
  induction operations using List.reverseRecOn with
  | nil => exact ⟨sound, rfl⟩
  | append_singleton operations operation ih =>
      have order : readOrder (operations ++ [operation]) =
          readOrder operations ++ readOrder [operation] := by
        simp [readOrder, reads]
      rw [order, History.append] at history
      rcases ih history.1 (fun block member =>
            pruned block (List.mem_append_left _ member)) with
        ⟨soundBefore, agree⟩
      have performed : Ownership.run ledger (operations ++ [operation]) =
          operation.perform (Ownership.run ledger operations) := by
        simp [Ownership.run]
      rw [performed, order, List.foldl_append]
      cases operation with
      | ingest transfers =>
          have last : readOrder [Operation.ingest transfers] =
              ordered LpTransfer.position transfers := by
            simp [readOrder, reads, Operation.transfers]
          rw [last] at history ⊢
          rcases soundBefore.foldl history.2 with
            ⟨soundAfter, snapshotAfter⟩
          refine ⟨?_, ?_⟩
          · unfold Custody.after at soundAfter ⊢
            rw [List.foldl_append]
            exact soundAfter
          · rw [show (Operation.perform _ (.ingest transfers)).snapshot =
              _ from snapshotAfter]
            exact agree.foldl
      | prune block =>
          have early : block < boundary :=
            pruned block (List.mem_append_right _ List.mem_cons_self)
          have last :
              readOrder ([.prune block] : List (Operation Account)) = [] :=
            rfl
          rw [last, List.append_nil]
          refine ⟨soundBefore.prune, ?_⟩
          rw [show (Operation.perform _ (.prune block)).snapshot = _ from
            snapshot_prune]
          exact agree.prune early.le
      | restore =>
          have last : readOrder ([.restore] : List (Operation Account)) = [] :=
            rfl
          rw [last, List.append_nil]
          refine ⟨soundBefore.restore, ?_⟩
          rw [show (Operation.perform _ .restore).snapshot = _ from
            snapshot_restore _]
          exact agree

/-- The serialized ledger after all transfers answers for the boundary like
the ledger which reads those up to it. -/
theorem Sound.heldAt_through
    {transfers : List (LpTransfer Account)}
    (sound : Sound tracked custody ledger)
    (history : History tracked custody (ordered LpTransfer.position transfers))
    (account : Account) :
    ((ordered LpTransfer.position transfers).foldl
        LpOwnershipLedgerState.ingestOne ledger.snapshot).heldAt account
          boundary =
      (ledger.ingest
        (through LpTransfer.position boundary transfers)).heldAt account
          boundary := by
  rw [ordered_split boundary] at history ⊢
  have early := (sound.foldl (History.append.1 history).1).2
  rw [List.foldl_append, LpOwnershipLedgerState.heldAt_foldl, ← early,
    ← heldAt_snapshot]
  · rfl
  · intro transfer member
    exact (mem_beyond.1 (mem_ordered.1 member)).2

end Runs

/-- What an account holds at a boundary does not depend on how the transfers
were cut into calls, on pruning below the boundary, on writing the ledger down
and reading it back, or on transfers beyond the boundary. -/
theorem heldAt_of_operations
    (accounts : List Account) (seeds : List (Account × List TokenId))
    (custody : Custody Account) (operations : List (Operation Account))
    (boundary : Nat)
    (holds : ∀ seed ∈ seeds, ∀ tokenId ∈ seed.2, custody tokenId = some seed.1)
    (inOrder : InOrder LpTransfer.position (reads operations))
    (history : History (seededLedger accounts seeds).tracks custody
        (ordered LpTransfer.position (reads operations).flatten))
    (pruned : ∀ block, Operation.prune block ∈ operations → block < boundary)
    (account : Account) :
    (run (seededLedger accounts seeds) operations).heldAt account boundary =
      ((seededLedger accounts seeds).ingest
        (through LpTransfer.position boundary
          (reads operations).flatten)).heldAt account boundary := by
  have sound := seededLedger_sound accounts seeds holds
  have order : readOrder operations =
        ordered LpTransfer.position (reads operations).flatten :=
    (ordered_flatten inOrder).symm
  have whole := (sound.run (order ▸ history) pruned).2
  rw [heldAt_snapshot, whole.heldAt, order]
  exact sound.heldAt_through history account

/-- Account 1 is seeded with position 5 and mints position 7, gives 5 to
account 2, which pulls it, and is pruned and read back in between. -/
def tradedPositions : List (Operation Nat) :=
  [.ingest [⟨0, 1, 7, 2, 0, some 1⟩, ⟨9, 2, 8, 2, 1, some 9⟩], .restore,
    .prune 1,
    .ingest [⟨1, 2, 5, 3, 4, some 2⟩, ⟨1, 9, 7, 5, 0, some 1⟩],
    .prune 3,
    .restore,
    .ingest [⟨9, 1, 7, 8, 0, some 1⟩]]

/-- The boundary is read the same from such a run. -/
theorem heldAt_of_tradedPositions :
    (run (seededLedger [1, 2] [(1, [5])]) tradedPositions).heldAt 1 4 =
      ((seededLedger [1, 2] [(1, [5])]).ingest (through LpTransfer.position 4
          (reads tradedPositions).flatten)).heldAt 1 4 :=
  heldAt_of_operations [1, 2] [(1, [5])]
    (Function.update (fun _ => none) 5 (some 1)) tradedPositions 4
    (by decide) (by decide) (by decide)
    (by simp [tradedPositions]) 1

end Eris.Uniswap.Ownership
