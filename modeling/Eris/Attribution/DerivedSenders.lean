import Eris.Foundation.InsertionMap
import Eris.Foundation.Lineage
import Eris.Foundation.Transition

/-!
# Derived senders

`core/src/realtime/derivedSenders.ts`.  The ledger follows the value which
the transactions of an agent hand out: ether, created contracts and transfers
of tracked tokens.  A recipient the run does not know becomes a derived
sender of that agent.

The addresses the run knows, the wallets of its agents and the tracked tokens
are fixed.
-/

namespace Eris.Attribution.DerivedSenders

open Foundation Transition

/-! ## The ledger -/

inductive Via where
  | eth
  | token
  | create
  deriving DecidableEq

@[ext]
structure DerivedSender where
  address : String
  ownerId : String
  fundedBy : String
  fundedAtBlock : ℕ
  via : Via
  txCount : ℕ
  deriving DecidableEq

structure Log where
  address : String
  topics : List String
  data : Option String

/-- What the ledger needs of a mined transaction. -/
structure MinedTxFacts where
  sender : String
  target : Option String
  value : ℕ
  blockNumber : ℕ
  contractAddress : Option String
  logs : List Log

/-- What the run knows of addresses, and how a text is read as an integer.
The wallet of an agent is known. -/
structure Options where
  agentOf : String → Option String
  isKnown : String → Bool
  trackedTokens : String → Bool
  bigInt : String → Option ℤ
  agent_known : ∀ address id, agentOf address = some id → isKnown address

/-- The derived senders by their address. -/
abbrev Ledger := InsertionMap String DerivedSender

/-- A recipient is handed something by an address of an owner. -/
structure FundCall where
  recipient : String
  fundedBy : String
  ownerId : String
  via : Via
  blockNumber : ℕ
  deriving DecidableEq

def zeroAddress : String := "0x0000000000000000000000000000000000000000"

/-- The selector of `Transfer(address,address,uint256)`. -/
def erc20TransferTopic : String :=
  "0xddf252ad1be2c89b69c2b068fc378daa952ba7f163c4a11628f55a4df523b3ef"

/-- The last forty characters of a topic as an address. -/
def topicAddress (topic : String) : String :=
  ("0x" ++ String.ofList (topic.toList.drop (topic.length - 40))).toLower

variable (options : Options)

def transferredSomething : Option String → Bool
  | none => false
  | some data =>
      if data = "" ∨ data = "0x" then
        false
      else
        match options.bigInt data with
        | some amount => 0 < amount
        | none => false

/-- Which agent an address belongs to: its registered wallet, or the agent
it was derived from. -/
def ownerOf (ledger : Ledger) (address : String) : Option String :=
  (options.agentOf address.toLower).or
    ((ledger.get address.toLower).map DerivedSender.ownerId)

/-- A recipient the run does not otherwise know is derived. -/
def fund (ledger : Ledger) (call : FundCall) : Ledger :=
  let address := call.recipient.toLower
  if address = zeroAddress ∨ address = call.fundedBy then
    ledger
  else if options.isKnown address ∨ (ledger.get address).isSome then
    ledger
  else
    ledger.alter address fun _ =>
      { address := address
        ownerId := call.ownerId
        fundedBy := call.fundedBy
        fundedAtBlock := call.blockNumber
        via := call.via
        txCount := 0 }

/-- A transaction sent from a derived sender is counted. -/
def countTx (ledger : Ledger) (sender : String) : Ledger :=
  match ledger.get sender with
  | none => ledger
  | some derived =>
      ledger.alter sender fun _ =>
        { derived with txCount := derived.txCount + 1 }

/-- The ether and the created contract a transaction hands out. -/
def outright (tx : MinedTxFacts) (ownerId : String) : List FundCall :=
  let sender := tx.sender.toLower
  let paid := match tx.target with
    | some target =>
        if 0 < tx.value ∧ target ≠ "" then
          [⟨target, sender, ownerId, .eth, tx.blockNumber⟩]
        else []
    | none => []
  let created := match tx.contractAddress with
    | some contract =>
        if contract ≠ "" then
          [⟨contract, sender, ownerId, .create, tx.blockNumber⟩]
        else []
    | none => []
  paid ++ created

/-- The transfer of a tracked token out of the holdings of an owner. -/
def handedOut
    (ledger : Ledger) (blockNumber : ℕ) (ownerId : String) (log : Log) :
    Option FundCall :=
  if ¬ options.trackedTokens log.address.toLower then
    none
  else
    match log.topics with
    | [topic, source, target] =>
        if topic ≠ erc20TransferTopic then
          none
        else if ¬ transferredSomething options log.data then
          none
        else if ownerOf options ledger (topicAddress source) ≠ some ownerId then
          none
        else
          some ⟨topicAddress target, topicAddress source, ownerId, .token,
              blockNumber⟩
    | _ => none

def observeLog
    (blockNumber : ℕ) (ownerId : String) (ledger : Ledger) (log : Log) :
    Ledger :=
  match handedOut options ledger blockNumber ownerId log with
  | some call => fund options ledger call
  | none => ledger

/-- Record what a transaction sent by an owner handed out. -/
def observe (ledger : Ledger) (tx : MinedTxFacts) (ownerId : String) :
    Ledger :=
  let counted := countTx ledger tx.sender.toLower
  let funded := (outright tx ownerId).foldl (fund options) counted
  tx.logs.foldl (observeLog options tx.blockNumber ownerId) funded

/-- The whole ledger, for a period that resumes. -/
def snapshot (ledger : Ledger) : List DerivedSender := ledger.values

def restore (entries : List DerivedSender) : Ledger :=
  entries.foldl
    (fun ledger derived => ledger.alter derived.address.toLower fun _ => derived)
    InsertionMap.empty

/-! ## Runs -/

/-- The ledger and the fund calls it was made by. -/
structure Observed where
  ledger : Ledger
  calls : List FundCall

def Observed.fund (observed : Observed) (call : FundCall) : Observed :=
  ⟨DerivedSenders.fund options observed.ledger call, observed.calls ++ [call]⟩

def Observed.observeLog
    (blockNumber : ℕ) (ownerId : String) (observed : Observed) (log : Log) :
    Observed :=
  match handedOut options observed.ledger blockNumber ownerId log with
  | some call => observed.fund options call
  | none => observed

/-- A transaction with the fund calls it makes. -/
def Observed.observe
    (observed : Observed) (tx : MinedTxFacts) (ownerId : String) :
    Observed :=
  tx.logs.foldl (Observed.observeLog options tx.blockNumber ownerId)
    ((outright tx ownerId).foldl (Observed.fund options)
      ⟨countTx observed.ledger tx.sender.toLower, observed.calls⟩)

/-- A transaction is observed, a recipient is funded, or the period resumes
from a snapshot. -/
inductive Step where
  | observe (tx : MinedTxFacts) (ownerId : String)
  | fund (call : FundCall)
  | resume

def Observed.after (observed : Observed) : Step → Observed
  | .observe tx ownerId => observed.observe options tx ownerId
  | .fund call => observed.fund options call
  | .resume => ⟨restore (snapshot observed.ledger), observed.calls⟩

def system : System Observed Step where
  initial observed := observed = ⟨InsertionMap.empty, []⟩
  step observed step next := next = observed.after options step

/-- The caller has decided that the sender belongs to the owner. -/
def decided (observed : Observed) : Step → Prop
  | .observe tx ownerId =>
      ownerOf options observed.ledger tx.sender = some ownerId
  | .fund call =>
      call.fundedBy.toLower = call.fundedBy ∧
        ownerOf options observed.ledger call.fundedBy = some call.ownerId
  | .resume => True

variable {options} {ledger : Ledger} {address ownerId : String}

theorem toLower_toLower (text : String) :
    text.toLower.toLower = text.toLower := by
  rw [String.toLower, String.toLower, String.map_map]
  congr 1
  funext character
  exact Char.toLower_toLower_eq_toLower character

/-- Who funded whom, in the order of derivation. -/
def links (ledger : Ledger) : List (Link String String) :=
  ledger.entries.map fun entry =>
    ⟨entry.1, entry.2.fundedBy, entry.2.ownerId⟩

def DerivedSender.origin (derived : DerivedSender) : FundCall :=
  ⟨derived.address, derived.fundedBy, derived.ownerId, derived.via,
    derived.fundedAtBlock⟩

/-- A fund call derives an address when nothing derived it before. -/
def derives (options : Options) (address : String) (call : FundCall) :
    Bool :=
  call.recipient.toLower = address ∧ address ≠ zeroAddress ∧
    address ≠ call.fundedBy ∧ options.isKnown address = false

/-- The call with its recipient in lower case. -/
def FundCall.lower (call : FundCall) : FundCall :=
  { call with recipient := call.recipient.toLower }

/-- The fund calls of a run explain its ledger. -/
structure Kept (options : Options) (observed : Observed) : Prop where
  keyed : ∀ entry ∈ observed.ledger.entries,
      entry.2.address = entry.1 ∧ entry.1.toLower = entry.1
  unknown : ∀ entry ∈ observed.ledger.entries, options.isKnown entry.1 = false
  lineage : Lineage options.agentOf (links observed.ledger)
  first : ∀ address, (observed.ledger.get address).map DerivedSender.origin =
      (observed.calls.find? (derives options address)).map FundCall.lower

def Owned (options : Options) (ledger : Ledger) (address owner : String) :
    Prop :=
  Belongs options.agentOf (links ledger) address owner

theorem mem_links
    {derived : DerivedSender} (listed : ledger.get address = some derived) :
    ⟨address, derived.fundedBy, derived.ownerId⟩ ∈ links ledger :=
  List.mem_map.2 ⟨(address, derived), InsertionMap.get_eq_some.1 listed, rfl⟩

theorem owned_of_ownerOf
    {owner : String} (isOwner : ownerOf options ledger address = some owner) :
    Owned options ledger address.toLower owner := by
  rw [ownerOf, Option.or_eq_some_iff] at isOwner
  rcases isOwner with registered | ⟨-, derived⟩
  · exact Or.inl registered
  · rcases Option.map_eq_some_iff.1 derived with ⟨sender, listed, rfl⟩
    exact Or.inr ⟨_, mem_links listed, rfl, rfl⟩

def settled (entry : String × DerivedSender) : String × DerivedSender :=
  (entry.1, { entry.2 with txCount := 0 })

theorem countTx_settled (ledger : Ledger) (sender : String) :
    (countTx ledger sender).entries.map settled =
      ledger.entries.map settled := by
  unfold countTx
  split
  · rfl
  · rename_i derived listed
    have present := InsertionMap.get_eq_some.1 listed
    apply InsertionMap.map_alterEntries
    · intro value inside
      have same : value = derived := by
        have found := InsertionMap.get_eq_some.2 inside
        rw [listed, Option.some.injEq] at found
        exact found.symm
      rw [same]
      rfl
    · exact ⟨derived, present⟩

variable {observed : Observed} {call : FundCall}

theorem links_settled (ledger : Ledger) :
    links ledger = (ledger.entries.map settled).map fun entry =>
        ⟨entry.1, entry.2.fundedBy, entry.2.ownerId⟩ := by
  rw [List.map_map]
  rfl

theorem origin_settled (ledger : Ledger) (address : String) :
    (ledger.get address).map DerivedSender.origin =
      ((ledger.entries.map settled).find? (·.1 = address)).map
        fun entry => entry.2.origin := by
  rw [InsertionMap.get, List.find?_map, Option.map_map, Option.map_map]
  rfl

theorem Kept.of_settled
    (kept : Kept options observed)
    (same : ledger.entries.map settled = observed.ledger.entries.map settled) :
    Kept options ⟨ledger, observed.calls⟩ := by
  have known : ∀ entry ∈ ledger.entries, ∃ earlier ∈ observed.ledger.entries,
      entry.1 = earlier.1 ∧ entry.2.address = earlier.2.address := by
    intro entry listed
    have settledEntry := List.mem_map_of_mem (f := settled) listed
    rw [same] at settledEntry
    rcases List.mem_map.1 settledEntry with ⟨earlier, member, equal⟩
    exact ⟨earlier, member, (congrArg Prod.fst equal).symm,
      (congrArg (fun entry => entry.2.address) equal).symm⟩
  refine ⟨?_, ?_, ?_, ?_⟩
  · intro entry listed
    rcases known entry listed with ⟨earlier, member, key, address⟩
    rw [key, address]
    exact kept.keyed earlier member
  · intro entry listed
    rcases known entry listed with ⟨earlier, member, key, -⟩
    rw [key]
    exact kept.unknown earlier member
  · rw [links_settled, same, ← links_settled]
    exact kept.lineage
  · intro address
    rw [origin_settled, same, ← origin_settled]
    exact kept.first address

/-! ## Funding -/

theorem fund_cases (options : Options) (ledger : Ledger) (call : FundCall) :
    (fund options ledger call = ledger ∧
      (derives options call.recipient.toLower call = true →
        ledger.get call.recipient.toLower ≠ none)) ∨
    (derives options call.recipient.toLower call = true ∧
      ledger.get call.recipient.toLower = none ∧ ∃ derived : DerivedSender,
          derived.origin = call.lower ∧ fund options ledger call =
              ledger.alter call.recipient.toLower fun _ => derived) := by
  simp only [fund, derives]
  split
  · rename_i excluded
    refine Or.inl ⟨rfl, ?_⟩
    intro eligible
    rw [decide_eq_true_eq] at eligible
    rcases excluded with zero | self
    · exact (eligible.2.1 zero).elim
    · exact (eligible.2.2.1 self).elim
  · rename_i allowed
    rw [not_or] at allowed
    split
    · rename_i excluded
      refine Or.inl ⟨rfl, ?_⟩
      intro eligible
      rw [decide_eq_true_eq] at eligible
      rcases excluded with known | derived
      · rw [eligible.2.2.2] at known
        cases known
      · exact Option.isSome_iff_ne_none.1 derived
    · rename_i fresh
      rw [not_or] at fresh
      refine Or.inr ⟨?_, by simpa using fresh.2, _, ?_, rfl⟩
      · rw [decide_eq_true_eq]
        exact ⟨trivial, allowed.1, allowed.2, Bool.eq_false_iff.2 fresh.1⟩
      · rfl

theorem derives_other
    (different : address ≠ call.recipient.toLower) :
    derives options address call = false := by
  simp [derives, different.symm]

theorem links_fund (ledger : Ledger) (call : FundCall) :
    ∃ more, links (fund options ledger call) = links ledger ++ more := by
  rcases fund_cases options ledger call with
    ⟨same, -⟩ | ⟨-, absent, derived, -, entered⟩
  · exact ⟨[], by rw [same, List.append_nil]⟩
  · rw [entered, links, InsertionMap.entries_alter_of_absent absent,
      List.map_append]
    exact ⟨_, rfl⟩

theorem Owned.fund
    {owner : String}
    (owned : Owned options ledger address owner) (call : FundCall) :
    Owned options (fund options ledger call) address owner := by
  rcases @links_fund options ledger call with ⟨more, extended⟩
  rw [Owned, extended]
  exact Belongs.weaken owned

theorem first_of_call
    (kept : Kept options observed)
    (same : derives options call.recipient.toLower call = true →
        observed.ledger.get call.recipient.toLower ≠ none)
    (address : String) :
    (observed.ledger.get address).map DerivedSender.origin =
      ((observed.calls ++ [call]).find? (derives options address)).map
        FundCall.lower := by
  rw [List.find?_append, kept.first address]
  by_cases recipient : address = call.recipient.toLower
  · cases eligible : derives options address call with
    | false => simp [eligible]
    | true =>
        rw [recipient] at eligible
        have present := same eligible
        have explained := kept.first address
        cases found : observed.calls.find? (derives options address) with
        | some earlier => rfl
        | none =>
            rw [found, Option.map_none, Option.map_eq_none_iff, recipient]
              at explained
            exact (present explained).elim
  · simp [derives_other recipient]

theorem Kept.fund
    (kept : Kept options observed)
    (owned : Owned options observed.ledger call.fundedBy call.ownerId) :
    Kept options (observed.fund options call) := by
  rcases fund_cases options observed.ledger call with
    ⟨same, derived⟩ | ⟨eligible, absent, derived, origin, entered⟩
  · rw [Observed.fund, same]
    exact ⟨kept.keyed, kept.unknown, kept.lineage, first_of_call kept derived⟩
  · have unknown : options.isKnown call.recipient.toLower = false := by
      simp only [derives, decide_eq_true_eq] at eligible
      exact eligible.2.2.2
    have isAddress : derived.address = call.recipient.toLower :=
      congrArg FundCall.recipient origin
    have isFunder : derived.fundedBy = call.fundedBy :=
      congrArg FundCall.fundedBy origin
    have isOwner : derived.ownerId = call.ownerId :=
      congrArg FundCall.ownerId origin
    have entries : (observed.fund options call).ledger.entries =
        observed.ledger.entries ++ [(call.recipient.toLower, derived)] := by
      rw [Observed.fund, entered, InsertionMap.entries_alter_of_absent absent]
    refine ⟨?_, ?_, ?_, ?_⟩
    · rw [entries, List.forall_mem_append, List.forall_mem_singleton]
      exact ⟨kept.keyed, isAddress, toLower_toLower call.recipient⟩
    · rw [entries, List.forall_mem_append, List.forall_mem_singleton]
      exact ⟨kept.unknown, unknown⟩
    · have extended : links (observed.fund options call).ledger =
          links observed.ledger ++
            [⟨call.recipient.toLower, call.fundedBy, call.ownerId⟩] := by
        rw [links, entries, List.map_append, List.map_singleton,
          isFunder, isOwner]
        rfl
      rw [extended]
      apply Lineage.attach kept.lineage
      · cases registered : options.agentOf call.recipient.toLower with
        | none => rfl
        | some id =>
            have known := options.agent_known _ id registered
            rw [unknown] at known
            cases known
      · intro other listed
        rcases List.mem_map.1 listed with ⟨entry, member, rfl⟩
        exact InsertionMap.get_eq_none.1 absent entry member
      · exact owned
    · intro address
      by_cases recipient : address = call.recipient.toLower
      · have explained := kept.first address
        rw [recipient, absent, Option.map_none] at explained
        have none := Option.map_eq_none_iff.1 explained.symm
        rw [recipient, Observed.fund, entered,
          InsertionMap.get_alter_self, List.find?_append, none]
        simp [eligible, origin]
      · rw [Observed.fund, entered,
          InsertionMap.get_alter_other recipient, List.find?_append,
          kept.first address]
        simp [derives_other recipient]

/-! ## Observing -/

theorem Kept.fund_all
    {calls : List FundCall} {sender : String}
    (handed : ∀ call ∈ calls, call.fundedBy = sender ∧ call.ownerId = ownerId)
    (kept : Kept options observed)
    (owned : Owned options observed.ledger sender ownerId) :
    Kept options (calls.foldl (Observed.fund options) observed) := by
  induction calls generalizing observed with
  | nil => exact kept
  | cons call rest ih =>
      rw [List.forall_mem_cons] at handed
      apply ih handed.2
      · apply kept.fund
        rw [handed.1.1, handed.1.2]
        exact owned
      · exact owned.fund call

theorem mem_outright
    {tx : MinedTxFacts} (listed : call ∈ outright tx ownerId) :
    call.fundedBy = tx.sender.toLower ∧ call.ownerId = ownerId := by
  simp only [outright, List.mem_append] at listed
  rcases listed with paid | created
  · split at paid
    · split at paid
      · rw [List.mem_singleton.1 paid]
        exact ⟨rfl, rfl⟩
      · cases paid
    · cases paid
  · split at created
    · split at created
      · rw [List.mem_singleton.1 created]
        exact ⟨rfl, rfl⟩
      · cases created
    · cases created

theorem owned_of_handedOut
    {blockNumber : ℕ} {log : Log}
    (handed : handedOut options ledger blockNumber ownerId log = some call) :
    Owned options ledger call.fundedBy call.ownerId := by
  unfold handedOut at handed
  split at handed
  · cases handed
  · split at handed
    · split at handed
      · cases handed
      · split at handed
        · cases handed
        · split at handed
          · cases handed
          · rename_i source target _ _ _ isOwner
            cases handed
            have owned := owned_of_ownerOf (not_not.1 isOwner)
            rw [topicAddress, toLower_toLower] at owned
            exact owned
    · cases handed

theorem Kept.observe_logs
    {logs : List Log} {blockNumber : ℕ} (kept : Kept options observed) :
    Kept options (logs.foldl (Observed.observeLog options blockNumber ownerId)
        observed) := by
  induction logs generalizing observed with
  | nil => exact kept
  | cons log rest ih =>
      apply ih
      unfold Observed.observeLog
      split
      · rename_i call handed
        exact kept.fund (owned_of_handedOut handed)
      · exact kept

theorem restore_entries
    {entries : List (String × DerivedSender)}
    (distinct : (entries.map Prod.fst).Nodup)
    (keyed : ∀ entry ∈ entries,
        entry.2.address = entry.1 ∧ entry.1.toLower = entry.1) :
    (restore (entries.map Prod.snd)).entries = entries := by
  induction entries using List.reverseRecOn with
  | nil => rfl
  | append_singleton entries last ih =>
      rw [List.map_append, List.nodup_append] at distinct
      rw [List.forall_mem_append, List.forall_mem_singleton] at keyed
      rcases distinct with ⟨distinctBefore, -, fresh⟩
      rcases keyed with ⟨keyedBefore, isAddress, lower⟩
      have before := ih distinctBefore keyedBefore
      have key : last.2.address.toLower = last.1 := by
        rw [isAddress, lower]
      have absent : (restore (entries.map Prod.snd)).get last.1 = none := by
        rw [InsertionMap.get_eq_none, before]
        intro entry listed
        exact fresh entry.1 (List.mem_map_of_mem listed) last.1
          List.mem_cons_self
      have entered : restore ((entries ++ [last]).map Prod.snd) =
          (restore (entries.map Prod.snd)).alter last.1 fun _ => last.2 := by
        rw [restore, List.map_append, List.foldl_append,
          List.map_singleton, List.foldl_cons, List.foldl_nil, key]
        rfl
      rw [entered, InsertionMap.entries_alter_of_absent absent, before]

theorem Kept.restore_snapshot (kept : Kept options observed) :
    restore (snapshot observed.ledger) = observed.ledger :=
  InsertionMap.ext (restore_entries observed.ledger.distinct kept.keyed)

theorem Kept.after
    (kept : Kept options observed) {step : Step}
    (isDecided : decided options observed step) :
    Kept options (observed.after options step) := by
  cases step with
  | observe tx ownerId =>
      have same := countTx_settled observed.ledger tx.sender.toLower
      have counted := kept.of_settled same
      apply Kept.observe_logs
      apply counted.fund_all fun call => mem_outright
      have owned := owned_of_ownerOf isDecided
      rw [Owned, links_settled] at owned ⊢
      rw [same]
      exact owned
  | fund call =>
      have owned := owned_of_ownerOf isDecided.2
      rw [isDecided.1] at owned
      exact kept.fund owned
  | resume =>
      rw [Observed.after, kept.restore_snapshot]
      exact kept

theorem kept_of_reachable
    (reachable : (system options).Reachable (decided options) observed) :
    Kept options observed := by
  apply System.Reachable.invariant _ _ reachable
  · rintro start rfl
    refine ⟨?_, ?_, Lineage.nil, fun _ => rfl⟩
    · exact List.forall_mem_nil _
    · exact List.forall_mem_nil _
  · rintro earlier step later kept isDecided rfl
    exact kept.after isDecided

/-- An address was derived because another one funded it. -/
def FundedBy (ledger : Ledger) (address funder : String) : Prop :=
  ∃ derived, ledger.get address = some derived ∧ derived.fundedBy = funder

theorem attached_iff_fundedBy
    (ledger : Ledger) :
    Attached (links ledger) = FundedBy ledger := by
  ext address funder
  constructor
  · rintro ⟨link, listed, rfl, rfl⟩
    rcases List.mem_map.1 listed with ⟨entry, member, rfl⟩
    exact ⟨entry.2, InsertionMap.get_eq_some.2 member, rfl⟩
  · rintro ⟨derived, listed, rfl⟩
    exact ⟨_, mem_links listed, rfl, rfl⟩

/-- The attribution of a ledger: each derived address has one owner, that of
the first call which funded it; what the run knows is not derived; following
the funders of a derived address never cycles and ends at the registered
wallet of its owner; and a restored snapshot is the same ledger. -/
structure Attributed (options : Options) (observed : Observed) : Prop where
  firstFunder : ∀ address,
      (observed.ledger.get address).map DerivedSender.origin =
        (observed.calls.find? (derives options address)).map FundCall.lower
  unknown : ∀ address, observed.ledger.get address ≠ none →
      options.isKnown address = false ∧ options.agentOf address = none
  acyclic :
    ∀ address, ¬ Relation.TransGen (FundedBy observed.ledger) address address
  wallet : ∀ address derived, observed.ledger.get address = some derived →
      ∃ wallet, options.agentOf wallet = some derived.ownerId ∧
          observed.ledger.get wallet = none ∧
            Relation.TransGen (FundedBy observed.ledger) address wallet ∧
              ∀ funder, Relation.TransGen (FundedBy observed.ledger) address
                    funder →
                  Relation.ReflTransGen (FundedBy observed.ledger) funder wallet
  resumed : observed.after options .resume = observed

def exampleOptions : Options where
  agentOf address := if address = "0xa1" then some "alice" else none
  isKnown address := address = "0xa1"
  trackedTokens _ := false
  bigInt _ := none
  agent_known := by
    intro address id registered
    rw [decide_eq_true_eq]
    by_contra other
    rw [if_neg other] at registered
    cases registered

/-- A transaction which sends ether only. -/
def exampleTransfer (sender target : String) (blockNumber : ℕ) :
    MinedTxFacts :=
  ⟨sender, some target, 1, blockNumber, none, []⟩

/-- Two observed transfers and a restart. -/
def exampleRun : Observed :=
  ((Observed.mk InsertionMap.empty []).after exampleOptions
    (.observe (exampleTransfer "0xA1" "0xE2" 5) "alice")).after
      exampleOptions (.observe (exampleTransfer "0xe2" "0xE3" 6) "alice")

end Eris.Attribution.DerivedSenders
