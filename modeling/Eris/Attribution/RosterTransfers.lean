import Eris.Foundation.ArraySort
import Eris.Foundation.InsertionMap

/-!
# Transfers between registered addresses

`core/src/rosterTransfers.ts`, `summarizeRosterTransfers`.  Movements are
gathered into groups by route, ends, token and venue; each group becomes a
row with its value and its verdict; the rows are sorted by value, then by a
text of their ends, route and token.

The arithmetic of floating point numbers and the formatting of amounts are
parameters.
-/

namespace Eris.Attribution.RosterTransfers

open Foundation

/-! ## Movements -/

inductive RosterRoute where
  | eth
  | erc20
  | contract
  | lending
  | liquidation
  deriving DecidableEq

def RosterRoute.text : RosterRoute → String
  | .eth => "eth"
  | .erc20 => "erc20"
  | .contract => "contract"
  | .lending => "lending"
  | .liquidation => "liquidation"

@[ext]
structure TokenAddress where
  text : String
  nonempty : text ≠ ""
  deriving DecidableEq

/-- One movement before aggregation; without a token it moves ether. -/
structure RosterMovement where
  route : RosterRoute
  sender : String
  recipient : String
  token : Option TokenAddress
  amountRaw : ℤ
  block : ℕ
  via : Option String
  viaKind : Option String
  viaCreator : Option String
  deriving DecidableEq

variable {Number : Type} [LinearOrder Number]

structure RosterAgent (Number : Type) where
  id : String
  participant : Option String
  initialValueUsdc : Option Number

structure TokenPricing (Number : Type) where
  symbol : String
  decimals : ℕ
  priceUsdc : Option Number

structure RosterPricing (Number : Type) where
  ethUsdc : Number
  tokens : TokenAddress → Option (TokenPricing Number)

/-- The operations on numbers which a summary makes. -/
structure Arithmetic (Number : Type) where
  formatUnits : ℤ → ℕ → String
  number : String → Number
  multiply : Number → Number → Number
  divide : Number → Number → Number
  zero : Number
  minusOne : Number
  tenThousand : Number

inductive RosterTransferReason where
  | sameParticipant
  | overThreshold
  | unpriced
  deriving DecidableEq

inductive RosterFlagSide where
  | both
  | sender
  deriving DecidableEq

structure RosterTransfer (Number : Type) where
  route : RosterRoute
  sender : String
  recipient : String
  sameParticipant : Bool
  participant : Option String
  token : String
  tokenAddress : Option TokenAddress
  amountRaw : ℤ
  amount : Option String
  valueUsdc : Option Number
  count : ℕ
  firstBlock : ℕ
  lastBlock : ℕ
  via : Option String
  viaKind : Option String
  viaCreator : Option String
  flagged : Bool
  reason : Option RosterTransferReason
  flagSide : Option RosterFlagSide
  thresholdUsdc : Option Number
  deriving DecidableEq

/-- The first movement of a group and the totals of all of them. -/
structure Group where
  m : RosterMovement
  amountRaw : ℤ
  count : ℕ
  firstBlock : ℕ
  lastBlock : ℕ

def groupKey (m : RosterMovement) : String :=
  m.route.text ++ "|" ++ m.sender ++ "|" ++ m.recipient ++ "|" ++
    (m.token.map TokenAddress.text).getD "eth" ++ "|" ++ m.via.getD ""

def enter (m : RosterMovement) : Option Group → Group
  | some g =>
      { g with
        amountRaw := g.amountRaw + m.amountRaw
        count := g.count + 1
        firstBlock := min g.firstBlock m.block
        lastBlock := max g.lastBlock m.block }
  | none => ⟨m, m.amountRaw, 1, m.block, m.block⟩

/-- The label, the formatted amount and the value of an amount. -/
structure Priced (Number : Type) where
  token : String
  amount : Option String
  valueUsdc : Option Number

variable (arithmetic : Arithmetic Number) (pricing : RosterPricing Number)

def priceMovement (token : Option TokenAddress) (amountRaw : ℤ) :
    Priced Number :=
  match token with
  | none =>
      let amount := arithmetic.formatUnits amountRaw 18
      ⟨"ETH", some amount,
        some (arithmetic.multiply (arithmetic.number amount) pricing.ethUsdc)⟩
  | some address =>
      match pricing.tokens address with
      | none => ⟨address.text, none, none⟩
      | some info =>
          let amount := arithmetic.formatUnits amountRaw info.decimals
          ⟨info.symbol, some amount, info.priceUsdc.map
              (arithmetic.multiply (arithmetic.number amount))⟩

/-- The share of the smaller endowment of two agents, when one is known. -/
def thresholdUsdc
    (sender recipient : Option (RosterAgent Number)) (bps : Number) :
    Number :=
  let values := ([sender, recipient].filterMap fun agent =>
      agent.bind RosterAgent.initialValueUsdc).filter (arithmetic.zero < ·)
  match values with
  | [] => arithmetic.zero
  | first :: rest =>
      arithmetic.divide (arithmetic.multiply (rest.foldl min first)
          (max arithmetic.zero bps))
        arithmetic.tenThousand

/-- Whether a row is flagged, why, and on which side. -/
def verdict
    (sameParticipant : Bool) (route : RosterRoute)
    (valueUsdc : Option Number) (threshold : Number) :
    Option (RosterTransferReason × RosterFlagSide) :=
  let direct := route = .eth ∨ route = .erc20
  if sameParticipant then
    some (.sameParticipant, .both)
  else
    match valueUsdc with
    | some value =>
        if direct ∧ threshold ≤ value then some (.overThreshold, .both)
        else none
    | none => if direct then some (.unpriced, .sender) else none

def agentById (agents : List (RosterAgent Number)) (id : String) :
    Option (RosterAgent Number) :=
  agents.reverse.find? (·.id = id)

def transferOf
    (agents : List (RosterAgent Number)) (thresholdBps : Number)
    (g : Group) : RosterTransfer Number :=
  let sender := agentById agents g.m.sender
  let recipient := agentById agents g.m.recipient
  let participant := sender.bind RosterAgent.participant
  let sameParticipant :=
    participant ≠ none ∧ participant = recipient.bind RosterAgent.participant
  let priced := priceMovement arithmetic pricing g.m.token g.amountRaw
  let threshold := thresholdUsdc arithmetic sender recipient thresholdBps
  let flag := verdict sameParticipant g.m.route priced.valueUsdc threshold
  { route := g.m.route
    sender := g.m.sender
    recipient := g.m.recipient
    sameParticipant := sameParticipant
    participant := if sameParticipant then participant else none
    token := priced.token
    tokenAddress := g.m.token
    amountRaw := g.amountRaw
    amount := priced.amount
    valueUsdc := priced.valueUsdc
    count := g.count
    firstBlock := g.firstBlock
    lastBlock := g.lastBlock
    via := g.m.via
    viaKind := g.m.viaKind
    viaCreator := g.m.viaCreator
    flagged := flag.isSome
    reason := flag.map Prod.fst
    flagSide := (flag.map Prod.snd).filter (· ≠ .both)
    thresholdUsdc := if sameParticipant then none else some threshold }

/-- The text by which rows of equal value are sorted. -/
def RosterTransfer.sortText (transfer : RosterTransfer Number) : String :=
  transfer.sender ++ "|" ++ transfer.recipient ++ "|" ++
    transfer.route.text ++ "|" ++ transfer.token

/-- Largest first, unpriced last, then by the text. -/
def compareTransfers (collation : Collation) :
    Comparison (RosterTransfer Number) :=
  fun first second =>
    (compare (second.valueUsdc.getD arithmetic.minusOne)
      (first.valueUsdc.getD arithmetic.minusOne)).then
        (collation.localeCompare first.sortText second.sortText)

structure Settings (Number : Type) where
  sorting : ArraySort (RosterTransfer Number)
  collation : Collation
  arithmetic : Arithmetic Number
  agents : List (RosterAgent Number)
  pricing : RosterPricing Number
  thresholdBps : Number

variable (settings : Settings Number)

/-- The row of a group under the settings of a summary. -/
def rowOf (g : Group) : RosterTransfer Number :=
  transferOf settings.arithmetic settings.pricing settings.agents
    settings.thresholdBps g

/-- The rows of the groups, in the order of their first movements. -/
def rows (movements : List RosterMovement) : List (RosterTransfer Number) :=
  (InsertionMap.gather groupKey enter movements).values.map (rowOf settings)

/-- The summary of movements between registered addresses. -/
def summarizeRosterTransfers (movements : List RosterMovement) :
    List (RosterTransfer Number) :=
  settings.sorting.sort
    (compareTransfers settings.arithmetic settings.collation)
    (rows settings movements)

/-! ## What a row takes from a movement -/

/-- The fields of a movement which a row carries. -/
def carried (m : RosterMovement) : RosterMovement :=
  { m with amountRaw := 0, block := 0 }

/-- The fields which a row carries of a movement. -/
def RosterTransfer.carried (transfer : RosterTransfer Number) :
    RosterMovement :=
  ⟨transfer.route, transfer.sender, transfer.recipient,
    transfer.tokenAddress, 0, 0, transfer.via, transfer.viaKind,
    transfer.viaCreator⟩

/-- A group which forgets all of its first movement but what is carried. -/
def Group.settle (g : Group) : Group :=
  { g with m := RosterTransfers.carried g.m }

variable {settings}

@[simp]
theorem rowOf_carried (g : Group) :
    (rowOf settings g).carried = carried g.m :=
  rfl

@[simp]
theorem groupKey_carried (m : RosterMovement) :
    groupKey (carried m) = groupKey m :=
  rfl

/-- Enter a movement and forget what is not carried. -/
def enterSettled (g : Option Group) (m : RosterMovement) : Option Group :=
  some (enter m g).settle

theorem settle_accumulate (movements : List RosterMovement) :
    (InsertionMap.accumulate enter movements).map Group.settle =
      movements.foldl enterSettled none := by
  induction movements using List.reverseRecOn with
  | nil => rfl
  | append_singleton movements m ih =>
      rw [InsertionMap.accumulate_snoc, List.foldl_append, ← ih]
      cases InsertionMap.accumulate enter movements with
      | none => rfl
      | some g => rfl

theorem enterSettled_comm
    {first second : RosterMovement}
    (same : carried first = carried second) (g : Option Group) :
    enterSettled (enterSettled g first) second =
      enterSettled (enterSettled g second) first := by
  cases g with
  | none =>
      simp only [enterSettled, enter, Group.settle]
      rw [same, add_comm, min_comm, max_comm]
  | some g =>
      simp only [enterSettled, enter, Group.settle]
      rw [add_right_comm, min_right_comm, max_right_comm]

/-- The totals of movements which carry the same do not depend on their
order. -/
theorem settle_accumulate_perm
    {movements others : List RosterMovement} (perm : others.Perm movements)
    (same : ∀ first ∈ movements, ∀ second ∈ movements,
        carried first = carried second) :
    (InsertionMap.accumulate enter others).map Group.settle =
      (InsertionMap.accumulate enter movements).map Group.settle := by
  rw [settle_accumulate, settle_accumulate]
  apply List.Perm.foldl_eq' perm
  intro first firstListed second secondListed g
  exact enterSettled_comm (same first (perm.subset firstListed) second
    (perm.subset secondListed)) g

theorem accumulate_head
    (m : RosterMovement) (movements : List RosterMovement) :
    ∃ g, InsertionMap.accumulate enter (m :: movements) = some g ∧ g.m = m := by
  induction movements using List.reverseRecOn with
  | nil => exact ⟨_, rfl, rfl⟩
  | append_singleton movements last ih =>
      rcases ih with ⟨g, isGroup, head⟩
      rw [← List.cons_append, InsertionMap.accumulate_snoc, isGroup]
      exact ⟨_, rfl, head⟩

theorem accumulate_amount
    {movements : List RosterMovement} {g : Group}
    (isGroup : InsertionMap.accumulate enter movements = some g) :
    g.amountRaw = (movements.map RosterMovement.amountRaw).sum := by
  induction movements using List.reverseRecOn generalizing g with
  | nil => cases isGroup
  | append_singleton movements last ih =>
      rw [InsertionMap.accumulate_snoc, Option.some.injEq] at isGroup
      rw [← isGroup, List.map_append, List.sum_append]
      cases earlier : InsertionMap.accumulate enter movements with
      | none =>
          have empty : movements = [] := by
            cases movements with
            | nil => rfl
            | cons m movements =>
                rcases accumulate_head m movements with ⟨g, some, -⟩
                rw [some] at earlier
                cases earlier
          simp [empty, enter]
      | some g => simp [enter, ih earlier]

variable (settings)

def rowAt (movements : List RosterMovement) (key : String) :
    Option (RosterTransfer Number) :=
  (InsertionMap.accumulate enter
    (movements.filter (groupKey · = key))).map (rowOf settings)

variable {settings} {movements others : List RosterMovement}
    {transfer : RosterTransfer Number}

theorem rows_eq :
    rows settings movements = (movements.map groupKey).eraseDups.filterMap
        (rowAt settings movements) := by
  rw [rows, InsertionMap.values_gather, List.map_filterMap]
  rfl

theorem mem_rows :
    transfer ∈ rows settings movements ↔ ∃ m ∈ movements,
        rowAt settings movements (groupKey m) = some transfer := by
  rw [rows_eq, List.mem_filterMap]
  constructor
  · rintro ⟨key, listed, isRow⟩
    rw [List.mem_eraseDups, List.mem_map] at listed
    rcases listed with ⟨m, member, rfl⟩
    exact ⟨m, member, isRow⟩
  · rintro ⟨m, member, isRow⟩
    exact ⟨groupKey m, List.mem_eraseDups.2 (List.mem_map_of_mem member), isRow⟩

/-- The row of a key carries a movement with this key, and its amount is the
total of all of them. -/
theorem rowAt_some
    {key : String} (isRow : rowAt settings movements key = some transfer) :
    (∃ m ∈ movements, groupKey m = key ∧ transfer.carried = carried m) ∧
      transfer.amountRaw = ((movements.filter (groupKey · = key)).map
          RosterMovement.amountRaw).sum := by
  rcases Option.map_eq_some_iff.1 isRow with ⟨g, isGroup, rfl⟩
  refine ⟨?_, accumulate_amount isGroup⟩
  cases kept : movements.filter (groupKey · = key) with
  | nil =>
      rw [kept] at isGroup
      cases isGroup
  | cons m rest =>
      rcases accumulate_head m rest with ⟨other, same, head⟩
      rw [kept, same, Option.some.injEq] at isGroup
      have listed : m ∈ movements.filter (groupKey · = key) := by
        rw [kept]
        exact List.mem_cons_self
      rcases List.mem_filter.1 listed with ⟨member, hasKey⟩
      refine ⟨m, member, by simpa using hasKey, ?_⟩
      rw [rowOf_carried, ← isGroup, head]

theorem rowAt_key
    {key : String} (isRow : rowAt settings movements key = some transfer) :
    groupKey transfer.carried = key := by
  rcases (rowAt_some isRow).1 with ⟨m, -, hasKey, same⟩
  rw [same, groupKey_carried, hasKey]

theorem rowAt_exists {m : RosterMovement} (member : m ∈ movements) :
    ∃ transfer, rowAt settings movements (groupKey m) = some transfer := by
  have listed : m ∈ movements.filter (groupKey · = groupKey m) :=
    List.mem_filter.2 ⟨member, by simp⟩
  unfold rowAt
  cases kept : movements.filter (groupKey · = groupKey m) with
  | nil =>
      rw [kept] at listed
      cases listed
  | cons first rest =>
      rcases accumulate_head first rest with ⟨g, isGroup, -⟩
      exact ⟨_, by rw [isGroup]; rfl⟩

theorem rowAt_cons (m : RosterMovement) (rest : List RosterMovement) :
    ∃ transfer, rowAt settings (m :: rest) (groupKey m) = some transfer ∧
        transfer.carried = carried m := by
  rcases accumulate_head m (rest.filter (groupKey · = groupKey m)) with
    ⟨g, isGroup, head⟩
  refine ⟨rowOf settings g, ?_, by rw [rowOf_carried, head]⟩
  rw [rowAt, List.filter_cons_of_pos (by simp), isGroup]
  rfl

variable (settings)

/-- The label and the value of the total which a movement belongs to. -/
def pricedTotal (movements : List RosterMovement) (m : RosterMovement) :
    Priced Number :=
  priceMovement settings.arithmetic settings.pricing m.token
    ((movements.filter (groupKey · = groupKey m)).map
      RosterMovement.amountRaw).sum

/-- The text by which the total of a movement is sorted. -/
def totalText (movements : List RosterMovement) (m : RosterMovement) :
    String :=
  m.sender ++ "|" ++ m.recipient ++ "|" ++ m.route.text ++ "|" ++
    (pricedTotal settings movements m).token

/-- The totals of two movements have the same value, and a locale does not
tell their texts apart. -/
def Tied
    (movements : List RosterMovement) (first second : RosterMovement) :
    Prop :=
  (pricedTotal settings movements first).valueUsdc.getD
        settings.arithmetic.minusOne =
      (pricedTotal settings movements second).valueUsdc.getD
        settings.arithmetic.minusOne ∧
    settings.collation.localeCompare (totalText settings movements first)
        (totalText settings movements second) =
      .eq

/-- Movements of one group carry the same. -/
def Agreeing (movements : List RosterMovement) : Prop :=
  ∀ first ∈ movements, ∀ second ∈ movements,
    groupKey first = groupKey second → carried first = carried second

/-- The totals of different groups are not tied. -/
def Separated (movements : List RosterMovement) : Prop :=
  ∀ first ∈ movements, ∀ second ∈ movements,
    Tied settings movements first second → groupKey first = groupKey second

/-- The summary does not depend on the order of the movements. -/
def OrderFree (movements : List RosterMovement) : Prop :=
  ∀ others : List RosterMovement, others.Perm movements →
      summarizeRosterTransfers settings others =
        summarizeRosterTransfers settings movements

variable {settings}

theorem consistent_transfers (transfers : List (RosterTransfer Number)) :
    Consistent (compareTransfers settings.arithmetic settings.collation)
      transfers := by
  have byValue : Consistent (fun first second : RosterTransfer Number =>
          compare (second.valueUsdc.getD settings.arithmetic.minusOne)
            (first.valueUsdc.getD settings.arithmetic.minusOne))
        transfers :=
    Consistent.comap (Consistent.of_linearOrder _).reverse
  exact
    byValue.lexicographic (Consistent.comap (settings.collation.consistent _))

theorem compareTransfers_eq
    (agreeing : Agreeing movements) {first second : RosterMovement}
    (firstListed : first ∈ movements) (secondListed : second ∈ movements)
    {firstRow secondRow : RosterTransfer Number}
    (isFirst : rowAt settings movements (groupKey first) = some firstRow)
    (isSecond : rowAt settings movements (groupKey second) = some secondRow) :
    compareTransfers settings.arithmetic settings.collation firstRow
        secondRow = .eq ↔
      Tied settings movements first second := by
  have known : ∀ m ∈ movements, ∀ row : RosterTransfer Number,
      rowAt settings movements (groupKey m) = some row →
        row.valueUsdc = (pricedTotal settings movements m).valueUsdc ∧
          row.sortText = totalText settings movements m := by
    intro m member row isRow
    rcases rowAt_some isRow with ⟨⟨other, listed, sameKey, isOther⟩, total⟩
    have same : row.carried = carried m := by
      rw [isOther]
      exact agreeing other listed m member sameKey
    have token : row.tokenAddress = m.token :=
      congrArg RosterMovement.token same
    have priced : priceMovement settings.arithmetic settings.pricing
          row.tokenAddress row.amountRaw =
        pricedTotal settings movements m := by
      rw [pricedTotal, token, total]
    rcases Option.map_eq_some_iff.1 isRow with ⟨g, -, rfl⟩
    refine ⟨congrArg Priced.valueUsdc priced, ?_⟩
    have label := congrArg Priced.token priced
    have sender := congrArg RosterMovement.sender same
    have recipient := congrArg RosterMovement.recipient same
    have route := congrArg RosterMovement.route same
    simp only [RosterTransfer.carried, carried] at sender recipient route
    rw [RosterTransfer.sortText, totalText, ← label, sender, recipient, route]
    rfl
  rcases known first firstListed firstRow isFirst with
    ⟨firstValue, firstText⟩
  rcases known second secondListed secondRow isSecond with
    ⟨secondValue, secondText⟩
  rw [compareTransfers, Ordering.then_eq_eq, compare_eq_iff_eq, firstValue,
    secondValue, firstText, secondText]
  exact and_congr_left' eq_comm

/-! ## Order -/

theorem rowAt_perm
    (agreeing : Agreeing movements) (perm : others.Perm movements)
    (key : String) :
    rowAt settings others key = rowAt settings movements key := by
  have settledSame :=
    settle_accumulate_perm (perm.filter (groupKey · = key)) (by
      intro first firstKept second secondKept
      rcases List.mem_filter.1 firstKept with ⟨firstListed, firstKey⟩
      rcases List.mem_filter.1 secondKept with ⟨secondListed, secondKey⟩
      rw [decide_eq_true_eq] at firstKey secondKey
      exact agreeing first firstListed second secondListed
        (firstKey.trans secondKey.symm))
  have rowsSame := congrArg (Option.map (rowOf settings)) settledSame
  rw [Option.map_map, Option.map_map] at rowsSame
  exact rowsSame

theorem rows_perm
    (agreeing : Agreeing movements) (perm : others.Perm movements) :
    (rows settings others).Perm (rows settings movements) := by
  rw [rows_eq, rows_eq]
  have same : rowAt settings others = rowAt settings movements := by
    ext key
    rw [rowAt_perm agreeing perm key]
  rw [same]
  exact (InsertionMap.perm_eraseDups (perm.map groupKey)).filterMap _

theorem orderFree_of_separated
    (agreeing : Agreeing movements) (separated : Separated settings movements) :
    OrderFree settings movements := by
  intro others perm
  apply settings.sorting.eq_of_perm (rows_perm agreeing perm)
    (consistent_transfers _)
  intro firstRow firstListed secondRow secondListed equal
  rcases mem_rows.1 firstListed with ⟨first, firstMember, isFirst⟩
  rcases mem_rows.1 secondListed with ⟨second, secondMember, isSecond⟩
  have tied := (compareTransfers_eq agreeing firstMember secondMember isFirst
      isSecond).1 equal
  rw [separated first firstMember second secondMember tied, isSecond,
    Option.some.injEq] at isFirst
  exact isFirst.symm

theorem perm_of_mem {m : RosterMovement} (member : m ∈ movements) :
    (m :: movements.erase m).Perm movements :=
  (List.perm_cons_erase member).symm

theorem OrderFree.agreeing (orderFree : OrderFree settings movements) :
    Agreeing movements := by
  intro first firstMember second secondMember sameKey
  rcases @rowAt_cons _ _ settings first (movements.erase first) with
    ⟨firstRow, isFirst, firstCarried⟩
  rcases @rowAt_cons _ _ settings second (movements.erase second) with
    ⟨secondRow, isSecond, secondCarried⟩
  have same :
      summarizeRosterTransfers settings (first :: movements.erase first) =
        summarizeRosterTransfers settings (second :: movements.erase second) :=
    (orderFree _ (perm_of_mem firstMember)).trans
      (orderFree _ (perm_of_mem secondMember)).symm
  have firstListed :
      firstRow ∈ rows settings (first :: movements.erase first) :=
    mem_rows.2 ⟨first, List.mem_cons_self, isFirst⟩
  have inSummary : firstRow ∈ summarizeRosterTransfers settings
      (second :: movements.erase second) := by
    rw [← same]
    exact (settings.sorting.perm _ _).symm.subset firstListed
  rcases mem_rows.1 ((settings.sorting.perm _ _).subset inSummary) with
    ⟨m, -, isRow⟩
  have key : groupKey m = groupKey second := by
    rw [← rowAt_key isRow, firstCarried, groupKey_carried, sameKey]
  rw [key, isSecond, Option.some.injEq] at isRow
  rw [← firstCarried, ← isRow, secondCarried]

theorem rows_cons
    {m : RosterMovement} {rest : List RosterMovement}
    (isRow : rowAt settings (m :: rest) (groupKey m) = some transfer) :
    ∃ more, rows settings (m :: rest) = transfer :: more := by
  rw [rows_eq, List.map_cons, List.eraseDups_cons,
    List.filterMap_cons_some isRow]
  exact ⟨_, rfl⟩

/-- A summary which does not depend on the order has no ties between
groups. -/
theorem OrderFree.separated (orderFree : OrderFree settings movements) :
    Separated settings movements := by
  have agreeing := orderFree.agreeing
  intro first firstMember second secondMember tied
  rcases @rowAt_exists _ _ settings _ _ firstMember with
    ⟨firstRow, isFirst⟩
  rcases @rowAt_exists _ _ settings _ _ secondMember with
    ⟨secondRow, isSecond⟩
  have permFirst := perm_of_mem firstMember
  have permSecond := perm_of_mem secondMember
  have isFirstRow := isFirst
  have isSecondRow := isSecond
  rw [← rowAt_perm agreeing permFirst] at isFirstRow
  rw [← rowAt_perm agreeing permSecond] at isSecondRow
  rcases rows_cons isFirstRow with ⟨moreFirst, rowsFirst⟩
  rcases rows_cons isSecondRow with ⟨moreSecond, rowsSecond⟩
  have equal := (compareTransfers_eq agreeing firstMember secondMember isFirst
      isSecond).2 tied
  have firstListed :
      firstRow ∈ rows settings (first :: movements.erase first) := by
    rw [rowsFirst]
    exact List.mem_cons_self
  have permRows := (@rows_perm _ _ settings _ _ agreeing permFirst).trans
      (rows_perm agreeing permSecond).symm
  have firstListedSecond := permRows.subset firstListed
  have secondListed :
      secondRow ∈ rows settings (second :: movements.erase second) := by
    rw [rowsSecond]
    exact List.mem_cons_self
  have consistent := @consistent_transfers _ _ settings
      (rows settings (second :: movements.erase second))
  have itself := consistent.refl firstListedSecond
  have back := consistent.eq_symm firstListedSecond secondListed equal
  have ties := settings.sorting.filter_eq (consistent_transfers _) consistent
      ((orderFree _ permSecond).trans (orderFree _ permFirst).symm)
      firstListed firstListedSecond
  rw [rowsFirst, rowsSecond, List.filter_cons_of_pos (by simpa using back),
    List.filter_cons_of_pos (by simpa using itself), List.cons.injEq] at ties
  rw [← rowAt_key isFirst, ← rowAt_key isSecond, ties.1]

/-- The summary does not depend on the order of the movements exactly when
the movements of one group carry the same and no two groups are tied. -/
theorem orderFree_iff
    (settings : Settings Number) (movements : List RosterMovement) :
    OrderFree settings movements ↔
      Agreeing movements ∧ Separated settings movements := by
  constructor
  · exact fun orderFree => ⟨orderFree.agreeing, orderFree.separated⟩
  · exact fun both => orderFree_of_separated both.1 both.2

/-- Whole units of a token without decimals, each worth one. -/
def exampleSettings : Settings ℤ where
  sorting := ArraySort.insertion _
  collation := Collation.byCharacters
  arithmetic :=
    { formatUnits := fun amount _ => toString amount
      number := fun text =>
        text.toList.foldl (fun value digit => 10 * value + (digit.toNat - 48)) 0
      multiply := (· * ·)
      divide := (· / ·)
      zero := 0
      minusOne := -1
      tenThousand := 10000 }
  agents := []
  pricing := { ethUsdc := 1, tokens := fun _ => some ⟨"USDC", 0, some 1⟩ }
  thresholdBps := 100

/-- A movement of a hundred units through a contract. -/
def exampleMovement (contract : String) : RosterMovement where
  route := .contract
  sender := "alice"
  recipient := "bob"
  token := some ⟨"0xcc", by decide⟩
  amountRaw := 100
  block := 7
  via := some contract
  viaKind := some "pool"
  viaCreator := some "alice"

/-- Equal movements through two contracts are tied. -/
theorem orderFree_contracts :
    ¬ OrderFree exampleSettings
        [exampleMovement "0xc1", exampleMovement "0xc2"] := by
  intro orderFree
  have tied :
      Tied exampleSettings [exampleMovement "0xc1", exampleMovement "0xc2"]
        (exampleMovement "0xc1") (exampleMovement "0xc2") := by
    constructor
    · decide
    · exact compare_eq_iff_eq.2 (by decide)
  have same := orderFree.separated (exampleMovement "0xc1") (by simp)
      (exampleMovement "0xc2") (by simp) tied
  exact absurd same (by decide)

end Eris.Attribution.RosterTransfers
