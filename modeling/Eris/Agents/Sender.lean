import Eris.Foundation.Allowance
import Eris.Foundation.Transition
import Eris.PostRun.RecordedRuns

/-!
# The gas the reference runtime sends

`example/agents/runtime/send.ts`.  `sendBuiltTx` counts the limits of what it
sends under the round it was decided in; `checkGasViolations` sums what was
burnt by the block it was mined in.  The two agree where what is mined together
was counted together.
-/

namespace Eris.Agents.Sender

open Foundation Foundation.Transition Foundation.IntegerText
  Foundation.Allowance PostRun.BlocksCsv PostRun.RunChecks PostRun.RecordedRuns

/-! ## Sending -/

/-- What the environment hands down, and the constants of the runtime. -/
structure Settings where
  limits : GasLimits
  dependentTxGas : Nat
  gasBufferBps : Nat

structure SenderState where
  nextNonce : Option Nat
  gasByRound : Int → Option Nat

/-- How `sendTransaction` ends: the node refuses, its answer is lost though it
took the transaction, or the hash comes back. -/
inductive Delivery where
  | refused
  | lost
  | returned
deriving DecidableEq

/-- What the node answers during one send; `none` where a call throws. -/
structure Answers where
  fees : Bool
  estimatedGas : Option Nat
  pendingCount : Option Nat
  latestCount : Option Nat
  allocatedCount : Option Nat
  walletGas : Nat
  delivery : Delivery

def hasOwnPending (sender : SenderState) (answers : Answers) : Bool :=
  match sender.nextNonce <|> answers.pendingCount, answers.latestCount with
  | some next, some mined => decide (mined < next)
  | _, _ => false

def buffered (settings : Settings) (estimated : Nat) : Nat :=
  let scaled := (estimated * settings.gasBufferBps + 9999) / 10000
  if scaled > estimated + 50000 then scaled else estimated + 50000

/-- The gas limit, where one is given: that of the transaction, the estimate,
or a fixed one behind an own pending transaction. -/
def gasOf
    (settings : Settings) (sender : SenderState) (txGas : Option Nat)
    (answers : Answers) : Option Nat :=
  match txGas, answers.estimatedGas with
  | some gas, _ => some gas
  | none, some estimated => some (buffered settings estimated)
  | none, none =>
      if hasOwnPending sender answers then some settings.dependentTxGas
      else none

inductive Rejection where
  | txGasCap
  | blockGasBudget
deriving DecidableEq

def rejection
    (settings : Settings) (sender : SenderState) (round : Int) :
    Option Nat → Option Rejection
  | none => none
  | some gas =>
      if settings.limits.maxTxGas < gas then some .txGasCap
      else if 0 < settings.limits.maxAgentBlockGas ∧
            settings.limits.maxAgentBlockGas <
              (((sender.gasByRound round).getD 0 + gas : Nat) : Int) then
        some .blockGasBudget
      else none

def allocNonce (sender : SenderState) (count : Option Nat) :
    Option (Nat × SenderState) :=
  (sender.nextNonce <|> count).map fun nonce =>
    (nonce, { sender with nextNonce := some (nonce + 1) })

/-- The round's gas with the new limit, less the rounds long past. -/
def countGas (sender : SenderState) (round : Int) (gas : Nat) : SenderState :=
  let counted := Function.update sender.gasByRound round
      (some ((sender.gasByRound round).getD 0 + gas))
  { sender with
    gasByRound := fun key => if key < round - 4 then none else counted key }

inductive Event where
  | rejected (reason : Rejection)
  | submitted (nonce : Nat)
  | submitFailed
deriving DecidableEq

/-- The gas limit of a transaction the node took, and whether the runtime
counted it. -/
structure Taken where
  gas : Nat
  counted : Bool

structure Sent where
  sender : SenderState
  event : Event
  taken : Option Taken

/-- The `catch`: the nonce is read again. -/
def submitFailed (sender : SenderState) (taken : Option Taken) : Sent :=
  ⟨{ sender with nextNonce := none }, .submitFailed, taken⟩

/-- `sendTransaction` and what follows it. -/
def deliver
    (settings : Settings) (round : Int) (gas : Option Nat) (walletGas : Nat)
    (nonce : Nat) (sender : SenderState) : Delivery → Sent
  | .refused => submitFailed sender none
  | .lost => submitFailed sender (some ⟨gas.getD walletGas, false⟩)
  | .returned =>
      match gas with
      | none => ⟨sender, .submitted nonce, some ⟨walletGas, false⟩⟩
      | some gas =>
          if 0 < settings.limits.maxAgentBlockGas then
            ⟨countGas sender round gas, .submitted nonce, some ⟨gas, true⟩⟩
          else ⟨sender, .submitted nonce, some ⟨gas, false⟩⟩

/-- `Number(meta.blockSeen ?? -1)`; a refill has seen no block. -/
def roundOf (blockSeen : Option Nat) : Int :=
  (blockSeen.map Int.ofNat).getD (-1)

/-- The nonce is allocated after every local check. -/
def allocateAndSend
    (settings : Settings) (sender : SenderState) (round : Int)
    (gas : Option Nat) (answers : Answers) : Sent :=
  match allocNonce sender answers.allocatedCount with
  | none => submitFailed sender none
  | some (nonce, next) =>
      deliver settings round gas answers.walletGas nonce next answers.delivery

/-- The local checks, and what they leave to send. -/
def checkAndSend
    (settings : Settings) (sender : SenderState) (round : Int)
    (gas : Option Nat) (answers : Answers) : Sent :=
  match rejection settings sender round gas with
  | some reason => ⟨sender, .rejected reason, none⟩
  | none => allocateAndSend settings sender round gas answers

def sendBuiltTx
    (settings : Settings) (sender : SenderState) (txGas : Option Nat)
    (blockSeen : Option Nat) (answers : Answers) : Sent :=
  if answers.fees then
    checkAndSend settings sender (roundOf blockSeen)
      (gasOf settings sender txGas answers) answers
  else submitFailed sender none

/-- A row of a block, and the place of the transaction among those the node
took of the sender. -/
structure BlockEntry where
  place : Option Nat
  row : BlockRowInput

structure World where
  sender : SenderState
  forgotten : Int → Nat
  taken : List (Entry Int)
  mined : List Nat
  height : Nat
  rows : List BlockRowInput

inductive Label where
  | send (txGas : Option Nat) (blockSeen : Option Nat) (answers : Answers)
  | mine (number : Nat) (entries : List BlockEntry)

/-- The log of what the node took: what the runtime counted is in the current
period of its round. -/
def logTaken
    (forgotten : Int → Nat) (round : Int) (taken : Option Taken) :
    List (Entry Int) :=
  (taken.map fun taken =>
    ⟨taken.gas, if taken.counted then some (round, forgotten round) else none⟩).toList

/-- The rounds whose gas is dropped when one is counted. -/
def forget
    (forgotten : Int → Nat) (round : Int) (taken : Option Taken) (key : Int) :
    Nat :=
  if taken.any Taken.counted ∧ key < round - 4 then forgotten key + 1
  else forgotten key

def send
    (settings : Settings) (world : World) (txGas : Option Nat)
    (blockSeen : Option Nat) (answers : Answers) : World :=
  let sent := sendBuiltTx settings world.sender txGas blockSeen answers
  let round := roundOf blockSeen
  { world with
    sender := sent.sender
    forgotten := forget world.forgotten round sent.taken
    taken := world.taken ++ logTaken world.forgotten round sent.taken }

section Judged

variable {Number : Type} [DecidableEq Number] (numbers : Numbers Number)
    (toLowerCase : Text → Text) (derived : Text → Option Text)
    (agent : Text) (settings : Settings)

/-- A row of the block: of another owner, or of a transaction of the sender
not yet mined, whose gas is at most its limit. -/
def Fits (world : World) (number : Nat) (entry : BlockEntry) : Prop :=
  entry.row.blockNumber = number ∧ Storable entry.row.ownerId ∧
    match entry.place with
    | none => rowOwner toLowerCase derived entry.row ≠ some agent
    | some place =>
        rowOwner toLowerCase derived entry.row = some agent ∧
          place ∉ world.mined ∧
            ∃ taken ∈ world.taken[place]?, ∃ used ≤ taken.amount,
              entry.row.gasUsed = some (used : Int)

def places (entries : List BlockEntry) : List Nat :=
  entries.filterMap BlockEntry.place

inductive Steps : World → Label → World → Prop where
  | send (world : World) (txGas blockSeen : Option Nat) (answers : Answers) :
      Steps world (.send txGas blockSeen answers)
        (send settings world txGas blockSeen answers)
  | mine (world : World) (number : Nat) (entries : List BlockEntry)
      (higher : world.height < number)
      (safe : number < 2 ^ 53)
      (distinct : (places entries).Nodup)
      (fits :
        ∀ entry ∈ entries, Fits toLowerCase derived agent world number entry) :
      Steps world (.mine number entries) { world with
          mined := world.mined ++ places entries
          height := number
          rows := world.rows ++ entries.map BlockEntry.row }

def started : World where
  sender := ⟨none, fun _ => none⟩
  forgotten _ := 0
  taken := []
  mined := []
  height := 0
  rows := []

def system : System World Label where
  initial world := world = started
  step := Steps toLowerCase derived agent settings

/-- A limit of gas within both of the run's. -/
def WithinLimits (gas : Nat) : Prop :=
  (gas : Int) ≤ settings.limits.maxTxGas ∧
    (0 < settings.limits.maxAgentBlockGas →
      (gas : Int) ≤ settings.limits.maxAgentBlockGas)

/-- Where the wallet fills in the gas its estimate is within the limits, and
what is mined together was counted together. -/
def countedTogether (world : World) : Label → Prop
  | .send txGas _ answers =>
      gasOf settings world.sender txGas answers = none →
        answers.delivery ≠ .refused → WithinLimits settings answers.walletGas
  | .mine _ entries =>
      0 < settings.limits.maxAgentBlockGas →
        ∀ first ∈ places entries, ∀ second ∈ places entries, first ≠ second →
            ∃ period, (world.taken[first]?).bind Entry.period = some period ∧
                (world.taken[second]?).bind Entry.period = some period

/-! ## One send -/

variable {settings}
    {sender next : SenderState} {round : Int} {world : World} {number : Nat}
    {entries : List BlockEntry}

theorem rejection_eq_none
    {gas : Nat} (passed : rejection settings sender round (some gas) = none) :
    (gas : Int) ≤ settings.limits.maxTxGas ∧
      (0 < settings.limits.maxAgentBlockGas →
        (((sender.gasByRound round).getD 0 + gas : Nat) : Int) ≤
          settings.limits.maxAgentBlockGas) := by
  dsimp only [rejection] at passed
  split at passed
  · cases passed
  · rename_i capped
    split at passed
    · cases passed
    · rename_i inBudget
      refine ⟨not_lt.mp capped, fun positive => ?_⟩
      exact not_lt.mp fun above => inBudget ⟨positive, above⟩

theorem withinLimits_of_rejection
    {gas : Nat} (passed : rejection settings sender round (some gas) = none) :
    WithinLimits settings gas := by
  have checked := rejection_eq_none passed
  refine ⟨checked.1, fun positive => ?_⟩
  have room := checked.2 positive
  omega

theorem allocateAndSend_not_rejected
    (sender : SenderState) (round : Int) (gas : Option Nat)
    (answers : Answers) (reason : Rejection) :
    (allocateAndSend settings sender round gas answers).event ≠
      .rejected reason := by
  unfold allocateAndSend
  split
  · exact Event.noConfusion
  · cases answers.delivery with
    | refused => exact Event.noConfusion
    | lost => exact Event.noConfusion
    | returned =>
        unfold deliver
        cases gas with
        | none => exact Event.noConfusion
        | some gas =>
            dsimp only
            split <;> exact Event.noConfusion

theorem sendBuiltTx_rejected
    {txGas blockSeen : Option Nat} {answers : Answers} {reason : Rejection}
    (rejected : (sendBuiltTx settings sender txGas blockSeen answers).event =
        .rejected reason) :
    sendBuiltTx settings sender txGas blockSeen answers =
      ⟨sender, .rejected reason, none⟩ := by
  unfold sendBuiltTx checkAndSend at rejected ⊢
  split
  · rename_i known
    rw [if_pos known] at rejected
    split
    · rename_i found checked
      rw [checked, Event.rejected.injEq] at rejected
      rw [rejected]
    · rename_i checked
      rw [checked] at rejected
      exact absurd rejected (allocateAndSend_not_rejected _ _ _ _ _)
  · rename_i failed
    rw [if_neg failed] at rejected
    cases rejected

/-- What a send may do: what the node takes is within the limits, and where it
is counted there was room in its round. -/
def SendsWithin
    (settings : Settings) (sender : SenderState) (round : Int) (sent : Sent) :
    Prop :=
  (∀ taken ∈ sent.taken, WithinLimits settings taken.gas) ∧
    ((sent.sender.gasByRound = sender.gasByRound ∧
        ∀ taken ∈ sent.taken, taken.counted = false) ∨
      ∃ gas, sent.taken = some ⟨gas, true⟩ ∧
          sent.sender.gasByRound = (countGas sender round gas).gasByRound ∧
          (((sender.gasByRound round).getD 0 + gas : Nat) : Int) ≤
            settings.limits.maxAgentBlockGas)

theorem sendsWithin_untaken
    {event : Event} (same : next.gasByRound = sender.gasByRound) :
    SendsWithin settings sender round ⟨next, event, none⟩ :=
  ⟨by simp, .inl ⟨same, by simp⟩⟩

theorem sendsWithin_uncounted
    {event : Event} {gas : Nat} (same : next.gasByRound = sender.gasByRound)
    (within : WithinLimits settings gas) :
    SendsWithin settings sender round ⟨next, event, some ⟨gas, false⟩⟩ := by
  constructor
  · intro taken known
    rw [← Option.some.inj known]
    exact within
  · left
    refine ⟨same, fun taken known => ?_⟩
    rw [← Option.some.inj known]

theorem sendsWithin_deliver
    {gas : Option Nat} {walletGas nonce : Nat} {delivery : Delivery}
    (same : next.gasByRound = sender.gasByRound)
    (passed : rejection settings sender round gas = none)
    (filled :
      gas = none → delivery ≠ .refused → WithinLimits settings walletGas) :
    SendsWithin settings sender round
      (deliver settings round gas walletGas nonce next delivery) := by
  have within : delivery ≠ .refused →
      WithinLimits settings (gas.getD walletGas) := by
    cases gas with
    | none => exact filled rfl
    | some gas => exact fun _ => withinLimits_of_rejection passed
  cases delivery with
  | refused => exact sendsWithin_untaken same
  | lost => exact sendsWithin_uncounted same (within (by decide))
  | returned =>
      have known := within (by decide)
      unfold deliver
      cases gas with
      | none => exact sendsWithin_uncounted same known
      | some gas =>
          dsimp only
          split
          · rename_i positive
            constructor
            · intro taken counted
              rw [← Option.some.inj counted]
              exact known
            · right
              refine ⟨gas, rfl, ?_, (rejection_eq_none passed).2 positive⟩
              simp only [countGas, same]
          · exact sendsWithin_uncounted same known

theorem sendsWithin_sendBuiltTx
    (sender : SenderState) (txGas blockSeen : Option Nat) (answers : Answers)
    (filled : gasOf settings sender txGas answers = none →
        answers.delivery ≠ .refused → WithinLimits settings answers.walletGas) :
    SendsWithin settings sender (roundOf blockSeen)
      (sendBuiltTx settings sender txGas blockSeen answers) := by
  unfold sendBuiltTx
  split
  · unfold checkAndSend
    split
    · exact sendsWithin_untaken rfl
    · rename_i passed
      unfold allocateAndSend
      split
      · exact sendsWithin_untaken rfl
      · rename_i nonce next allocated
        rcases Option.map_eq_some_iff.mp allocated with ⟨_, _, built⟩
        have same : next.gasByRound = sender.gasByRound := by
          rw [← (Prod.mk.inj built).2]
        exact sendsWithin_deliver same passed filled
  · exact sendsWithin_untaken rfl

/-- The gas of the sender's rows in a block. -/
def blockGas (rows : List BlockRowInput) (number : Nat) : Int :=
  ((rows.filter fun row =>
      decide (rowOwner toLowerCase derived row = some agent ∧
          row.blockNumber = number)).map
    fun row => row.gasUsed.getD 0).sum

variable (settings)

structure Judged (world : World) : Prop where
  kept : 0 < settings.limits.maxAgentBlockGas →
      Kept settings.limits.maxAgentBlockGas world.sender.gasByRound
        world.forgotten world.taken
  limits : ∀ taken ∈ world.taken, WithinLimits settings taken.amount
  rows :
    ∀ row ∈ world.rows, Storable row.ownerId ∧ row.blockNumber ≤ world.height
  safe : world.height < 2 ^ 53
  transactions :
    ∀ row ∈ world.rows, rowOwner toLowerCase derived row = some agent →
      ∃ used : Nat, row.gasUsed = some (used : Int) ∧
        (used : Int) ≤ settings.limits.maxTxGas
  blocks : 0 < settings.limits.maxAgentBlockGas → ∀ number,
      blockGas toLowerCase derived agent world.rows number ≤
        settings.limits.maxAgentBlockGas

theorem judged_started :
    Judged toLowerCase derived agent settings started where
  kept positive := kept_nil positive.le
  limits := by simp [started]
  rows := by simp [started]
  safe := by simp [started]
  transactions := by simp [started]
  blocks positive number := by simpa [started, blockGas] using positive.le

variable {toLowerCase derived agent settings}

theorem forget_uncounted
    (forgotten : Int → Nat) (round : Int) {taken : Option Taken}
    (uncounted : ∀ found ∈ taken, found.counted = false) :
    forget forgotten round taken = forgotten := by
  funext key
  cases taken with
  | none => simp [forget]
  | some taken => simp [forget, uncounted taken rfl]

theorem forget_counted
    (forgotten : Int → Nat) (round : Int) (gas : Nat) :
    forget forgotten round (some ⟨gas, true⟩) = fun key =>
      if key < round - 4 then forgotten key + 1 else forgotten key := by
  funext key
  simp [forget]

theorem Judged.send
    (judged : Judged toLowerCase derived agent settings world)
    {txGas blockSeen : Option Nat} {answers : Answers}
    (filled : countedTogether settings world (.send txGas blockSeen answers)) :
    Judged toLowerCase derived agent settings
      (send settings world txGas blockSeen answers) := by
  have spec :=
    sendsWithin_sendBuiltTx world.sender txGas blockSeen answers filled
  unfold Sender.send
  generalize sendBuiltTx settings world.sender txGas blockSeen answers =
    sent at spec ⊢
  rcases spec with ⟨within, counting⟩
  refine ⟨?_, ?_, judged.rows, judged.safe, judged.transactions, judged.blocks⟩
  · intro positive
    have kept := judged.kept positive
    rcases counting with ⟨same, uncounted⟩ | ⟨gas, taken, next, room⟩
    · dsimp only
      rw [same, forget_uncounted _ _ uncounted]
      cases took : sent.taken with
      | none => simpa [logTaken] using kept
      | some taken =>
          have plain : taken.counted = false := uncounted taken took
          simpa [logTaken, plain] using kept.uncounted taken.gas
    · have after :=
        (kept.counted room).forget fun key => key < roundOf blockSeen - 4
      dsimp only
      rw [next, taken, forget_counted]
      exact after
  · intro entry listed
    rcases List.mem_append.mp listed with old | new
    · exact judged.limits entry old
    · cases took : sent.taken with
      | none => simp [took, logTaken] at new
      | some taken =>
          have built := List.mem_singleton.mp (took ▸ new)
          rw [built]
          exact within taken took

/-! ## One block -/

/-- The places of the sender's transactions in a block, with what each
burnt. -/
def picks (entries : List BlockEntry) : List (Nat × Nat) :=
  entries.filterMap fun entry =>
    entry.place.map fun place => (place, (entry.row.gasUsed.getD 0).toNat)

theorem map_fst_picks (entries : List BlockEntry) :
    (picks entries).map Prod.fst = places entries := by
  unfold picks places
  rw [List.map_filterMap]
  congr 1
  funext entry
  cases entry.place <;> rfl

theorem taken_of_mem_picks
    (fits :
      ∀ entry ∈ entries, Fits toLowerCase derived agent world number entry)
    {pick : Nat × Nat} (listed : pick ∈ picks entries) :
    ∃ taken, world.taken[pick.1]? = some taken ∧ pick.2 ≤ taken.amount := by
  rcases List.mem_filterMap.mp listed with ⟨entry, member, picked⟩
  rcases Option.map_eq_some_iff.mp picked with ⟨place, known, built⟩
  have fit := (fits entry member).2.2
  simp only [known] at fit
  rcases fit with ⟨-, -, taken, found, used, least, burnt⟩
  subst built
  exact ⟨taken, found, by simpa [burnt] using least⟩

theorem blockGas_append
    (rows more : List BlockRowInput) (number : Nat) :
    blockGas toLowerCase derived agent (rows ++ more) number =
      blockGas toLowerCase derived agent rows number +
        blockGas toLowerCase derived agent more number := by
  simp [blockGas]

theorem blockGas_eq_zero
    {rows : List BlockRowInput}
    (elsewhere : ∀ row ∈ rows, row.blockNumber ≠ number) :
    blockGas toLowerCase derived agent rows number = 0 := by
  have nothing : rows.filter (fun row =>
      decide (rowOwner toLowerCase derived row = some agent ∧
          row.blockNumber = number)) = [] := by
    apply List.filter_eq_nil_iff.mpr
    intro row listed
    simp [elsewhere row listed]
  rw [blockGas, nothing, List.map_nil, List.sum_nil]

theorem blockGas_entries
    (fits :
      ∀ entry ∈ entries, Fits toLowerCase derived agent world number entry) :
    blockGas toLowerCase derived agent (entries.map BlockEntry.row) number =
      (((picks entries).map Prod.snd).sum : Nat) := by
  induction entries with
  | nil => simp [blockGas, picks]
  | cons entry rest ih =>
      have later := ih fun other listed =>
          fits other (List.mem_cons_of_mem _ listed)
      rcases fits entry List.mem_cons_self with ⟨here, -, fit⟩
      cases known : entry.place with
      | none =>
          simp only [known] at fit
          simpa [blockGas, picks, known, fit] using later
      | some place =>
          simp only [known] at fit
          rcases fit with ⟨own, -, -, -, used, -, burnt⟩
          simpa [blockGas, picks, known, own, here, burnt] using later

theorem single_or_period
    (distinct : (places entries).Nodup)
    (together : ∀ first ∈ places entries, ∀ second ∈ places entries,
        first ≠ second → ∃ period,
            (world.taken[first]?).bind Entry.period = some period ∧
              (world.taken[second]?).bind Entry.period = some period) :
    (picks entries).length ≤ 1 ∨ ∃ period, ∀ pick ∈ picks entries,
        (world.taken[pick.1]?).bind Entry.period = some period := by
  rw [← map_fst_picks] at distinct together
  generalize picks entries = chosen at distinct together ⊢
  match chosen with
  | [] => exact .inl (Nat.zero_le 1)
  | [_] => exact .inl le_rfl
  | first :: second :: rest =>
      right
      have apart : first.1 ≠ second.1 := by
        intro same
        simp [same] at distinct
      rcases together first.1 (by simp) second.1 (by simp) apart with
        ⟨period, atFirst, -⟩
      refine ⟨period, fun pick listed => ?_⟩
      by_cases same : first.1 = pick.1
      · rw [← same]
        exact atFirst
      · rcases together first.1 (by simp) pick.1
            (List.mem_map_of_mem listed) same with
          ⟨other, again, found⟩
        rw [found, ← again, atFirst]

theorem Judged.block
    (judged : Judged toLowerCase derived agent settings world)
    (distinct : (places entries).Nodup)
    (fits :
      ∀ entry ∈ entries, Fits toLowerCase derived agent world number entry)
    (together : countedTogether settings world (.mine number entries))
    (positive : 0 < settings.limits.maxAgentBlockGas) :
    blockGas toLowerCase derived agent (entries.map BlockEntry.row) number ≤
      settings.limits.maxAgentBlockGas := by
  rw [blockGas_entries fits]
  rcases single_or_period distinct (together positive) with
    few | ⟨period, same⟩
  · match chosen : picks entries, few with
    | [], _ => simpa using positive.le
    | [pick], _ =>
        have listed : pick ∈ picks entries := by simp [chosen]
        rcases taken_of_mem_picks fits listed with ⟨taken, found, least⟩
        have limited :=
          (judged.limits taken (List.mem_of_getElem? found)).2 positive
        simp only [List.map_cons, List.map_nil, List.sum_singleton]
        omega
  · have picked : ∀ pick ∈ picks entries,
        ∃ taken, world.taken[pick.1]? = some taken ∧
          pick.2 ≤ taken.amount ∧ taken.period = some period := by
      intro pick listed
      rcases taken_of_mem_picks fits listed with ⟨taken, found, least⟩
      have inPeriod := same pick listed
      rw [found] at inPeriod
      exact ⟨taken, found, least, inPeriod⟩
    have least := sum_picks_le_total (map_fst_picks entries ▸ distinct) picked
    have within := (judged.kept positive).within period
    omega

theorem Judged.mine
    (judged : Judged toLowerCase derived agent settings world)
    (higher : world.height < number) (safe : number < 2 ^ 53)
    (distinct : (places entries).Nodup)
    (fits :
      ∀ entry ∈ entries, Fits toLowerCase derived agent world number entry)
    (together : countedTogether settings world (.mine number entries)) :
    Judged toLowerCase derived agent settings { world with
        mined := world.mined ++ places entries
        height := number
        rows := world.rows ++ entries.map BlockEntry.row } := by
  refine ⟨judged.kept, judged.limits, ?_, safe, ?_, ?_⟩
  · intro row listed
    rcases List.mem_append.mp listed with old | new
    · have known := judged.rows row old
      exact ⟨known.1, known.2.trans higher.le⟩
    · rcases List.mem_map.mp new with ⟨entry, member, rfl⟩
      have fit := fits entry member
      exact ⟨fit.2.1, fit.1.le⟩
  · intro row listed own
    rcases List.mem_append.mp listed with old | new
    · exact judged.transactions row old own
    · rcases List.mem_map.mp new with ⟨entry, member, rfl⟩
      have fit := (fits entry member).2.2
      cases known : entry.place with
      | none =>
          simp only [known] at fit
          exact absurd own fit
      | some place =>
          simp only [known] at fit
          rcases fit with ⟨-, -, taken, found, used, least, burnt⟩
          have limited := (judged.limits taken (List.mem_of_getElem? found)).1
          exact ⟨used, burnt, by omega⟩
  · intro positive other
    have old := judged.blocks positive other
    have new := judged.block distinct fits together positive
    rw [blockGas_append]
    by_cases same : other = number
    · subst same
      have fresh : blockGas toLowerCase derived agent world.rows other = 0 := by
        apply blockGas_eq_zero
        intro row listed
        exact ((judged.rows row listed).2.trans_lt higher).ne
      omega
    · have elsewhere :
          blockGas toLowerCase derived agent (entries.map BlockEntry.row)
            other = 0 := by
        apply blockGas_eq_zero
        intro row listed
        rcases List.mem_map.mp listed with ⟨entry, member, rfl⟩
        rw [(fits entry member).1]
        exact Ne.symm same
      omega

theorem judged_of_reachable
    (reachable : (system toLowerCase derived agent settings).Reachable
        (countedTogether settings) world) :
    Judged toLowerCase derived agent settings world := by
  refine @System.Reachable.invariant _ _ _ _
    (Judged toLowerCase derived agent settings) _ ?_ ?_ reachable
  · intro state initial
    rw [initial]
    exact judged_started toLowerCase derived agent settings
  · intro state label next judged allowed step
    cases step with
    | send => exact judged.send allowed
    | mine _ _ higher safe distinct fits =>
        exact judged.mine higher safe distinct fits allowed

/-! ## What is reported -/

omit [DecidableEq Number] in
theorem rowBurn_eq_some
    {row : BlockRowInput} {burn : Burn Number}
    (read : rowBurn numbers toLowerCase derived row = some burn) :
    rowOwner toLowerCase derived row = some burn.ownerId ∧
      row.gasUsed = some burn.gas ∧
        burn.blockNumber = numbers.ofBigint row.blockNumber := by
  rcases Option.bind_eq_some_iff.mp read with ⟨owner, owned, built⟩
  rcases Option.map_eq_some_iff.mp built with ⟨gas, burnt, rfl⟩
  exact ⟨owned, burnt, rfl⟩

variable {numbers}

theorem slotGas_eq_blockGas
    (exact_ : ∀ first second : Nat, first < 2 ^ 53 → second < 2 ^ 53 →
        numbers.ofBigint first = numbers.ofBigint second → first = second)
    {rows : List BlockRowInput} (safe : ∀ row ∈ rows, row.blockNumber < 2 ^ 53)
    (small : number < 2 ^ 53) :
    slotGas (rows.filterMap (rowBurn numbers toLowerCase derived))
        ⟨agent, numbers.ofBigint number⟩ =
      blockGas toLowerCase derived agent rows number := by
  induction rows with
  | nil => rfl
  | cons row rest ih =>
      have later := ih fun other listed =>
          safe other (List.mem_cons_of_mem _ listed)
      have same : numbers.ofBigint row.blockNumber = numbers.ofBigint number ↔
            row.blockNumber = number :=
        ⟨exact_ _ _ (safe row List.mem_cons_self) small,
          congrArg numbers.ofBigint⟩
      unfold slotGas blockGas at later ⊢
      cases owned : rowOwner toLowerCase derived row with
      | none => simpa [rowBurn, owned] using later
      | some owner =>
          cases burnt : row.gasUsed with
          | none =>
              by_cases here : owner = agent ∧ row.blockNumber = number
              · simpa [rowBurn, owned, burnt, here] using later
              · simpa [rowBurn, owned, burnt, here] using later
          | some gas =>
              by_cases here : owner = agent ∧ row.blockNumber = number
              · simpa [rowBurn, owned, burnt, slot, same, here] using later
              · simpa [rowBurn, owned, burnt, slot, same, here] using later

theorem Judged.unreported
    (judged : Judged toLowerCase derived agent settings world)
    (exact_ : ∀ first second : Nat, first < 2 ^ 53 → second < 2 ^ 53 →
        numbers.ofBigint first = numbers.ofBigint second → first = second) :
    ∀ violation ∈
        checkGasViolations numbers toLowerCase derived (blocksCsv world.rows)
          settings.limits,
      violation.ownerId ≠ agent := by
  rw [checkGasViolations_eq (fun row listed => (judged.rows row listed).1)]
  intro violation listed own
  rcases List.mem_append.mp listed with perTx | perBlock
  · rcases List.mem_filterMap.mp perTx with ⟨burn, member, over_⟩
    rcases List.mem_filterMap.mp member with ⟨row, inRows, read⟩
    rcases rowBurn_eq_some numbers read with ⟨owned, burnt, -⟩
    simp only [overTxLimit, Option.ite_none_right_eq_some,
      Option.some.injEq] at over_
    rcases over_ with ⟨⟨-, above⟩, rfl⟩
    have mine : rowOwner toLowerCase derived row = some agent := by
      rw [owned]
      exact congrArg some own
    rcases judged.transactions row inRows mine with ⟨used, known, least⟩
    rw [burnt, Option.some.injEq] at known
    omega
  · rcases List.mem_filterMap.mp perBlock with ⟨place, member, over_⟩
    simp only [overBlockLimit, Option.ite_none_right_eq_some,
      Option.some.injEq] at over_
    rcases over_ with ⟨⟨positive, above⟩, rfl⟩
    rcases List.mem_map.mp (List.mem_eraseDups.mp member) with
      ⟨burn, burns, rfl⟩
    rcases List.mem_filterMap.mp burns with ⟨row, inRows, read⟩
    rcases rowBurn_eq_some numbers read with ⟨owned, burnt, numbered⟩
    have safe : ∀ other ∈ world.rows, other.blockNumber < 2 ^ 53 :=
      fun other inside => (judged.rows other inside).2.trans_lt judged.safe
    have here : slot burn = ⟨agent, numbers.ofBigint row.blockNumber⟩ := by
      rw [← numbered, ← own]
      rfl
    have limited := judged.blocks positive row.blockNumber
    rw [here, slotGas_eq_blockGas exact_ safe (safe row inRows)] at above
    omega

end Judged

/-- What the runtime takes of the node is within the limit of a transaction,
the judge reports nothing of it, and a transaction rejected locally takes
neither a nonce nor gas. -/
structure StaysWithin
    {Number : Type} [DecidableEq Number] (numbers : Numbers Number)
    (toLowerCase : Text → Text) (derived : Text → Option Text) (agent : Text)
    (settings : Settings) (world : World) : Prop where
  limits :
    ∀ taken ∈ world.taken, (taken.amount : Int) ≤ settings.limits.maxTxGas
  unreported : ∀ violation ∈
        checkGasViolations numbers toLowerCase derived (blocksCsv world.rows)
          settings.limits,
      violation.ownerId ≠ agent
  rejected : ∀ sender txGas blockSeen answers reason,
      (sendBuiltTx settings sender txGas blockSeen answers).event =
          .rejected reason →
        sendBuiltTx settings sender txGas blockSeen answers =
          ⟨sender, .rejected reason, none⟩

/-- Every run in which the wallet fills in no gas over the limits and each
block holds transactions counted together stays within the limits. -/
theorem sender_staysWithin
    {Number : Type} [DecidableEq Number] {numbers : Numbers Number}
    {toLowerCase : Text → Text} {derived : Text → Option Text}
    {agent : Text} {settings : Settings} {world : World}
    (exact_ : ∀ first second : Nat, first < 2 ^ 53 → second < 2 ^ 53 →
        numbers.ofBigint first = numbers.ofBigint second → first = second)
    (reachable : (system toLowerCase derived agent settings).Reachable
        (countedTogether settings) world) :
    StaysWithin numbers toLowerCase derived agent settings world where
  limits taken listed := ((judged_of_reachable reachable).limits taken listed).1
  unreported := (judged_of_reachable reachable).unreported exact_
  rejected _ _ _ _ _ := sendBuiltTx_rejected

/-- Ten million for a transaction and for a block, as by default. -/
def usual : Settings := ⟨⟨10000000, 10000000⟩, 2000000, 13000⟩

def arb : Text := literal "arb".toList

def minedRow (gas : Int) : BlockRowInput :=
  { commaRow with blockNumber := 7, ownerId := arb, gasUsed := some gas }

def answered : Answers := ⟨true, none, none, none, some 0, 0, .returned⟩

/-- Two transactions of one gas limit, decided in two rounds. -/
def sentTwice (gas first second : Nat) : World :=
  send usual (send usual started (some gas) (some first) answered) (some gas)
    (some second) answered

def minedTogether (gas : Nat) : List BlockEntry :=
  [⟨some 0, minedRow gas⟩, ⟨some 1, minedRow gas⟩]

def minedTwice (gas first second : Nat) : World :=
  { sentTwice gas first second with
    mined := [0, 1]
    height := 7
    rows := [minedRow gas, minedRow gas] }

abbrev usualSystem : System World Label := system id (fun _ => none) arb usual

theorem reachable_minedTwice
    {allowed : World → Label → Prop} {gas first second : Nat}
    (entries : List (Entry Int))
    (taken : (sentTwice gas first second).taken = entries)
    (known : entries.map Entry.amount = [gas, gas])
    (sends : ∀ world blockSeen,
      allowed world (.send (some gas) blockSeen answered))
    (mines :
      allowed (sentTwice gas first second) (.mine 7 (minedTogether gas))) :
    usualSystem.Reachable allowed (minedTwice gas first second) := by
  have plain : Storable arb := by decide
  have distinct : (places (minedTogether gas)).Nodup := by
    simp [minedTogether, places]
  have fits : ∀ entry ∈ minedTogether gas,
      Fits id (fun _ => none) arb (sentTwice gas first second) 7 entry := by
    match entries, known with
    | [⟨_, period⟩, ⟨_, later⟩], rfl =>
        intro entry listed
        simp only [minedTogether, List.mem_cons, List.not_mem_nil,
          or_false] at listed
        rcases listed with rfl | rfl
        all_goals
          refine ⟨rfl, plain, rfl, List.not_mem_nil, ?_⟩
          rw [taken]
          exact ⟨_, rfl, _, le_rfl, rfl⟩
  refine ⟨started, rfl, ?_⟩
  refine Relation.ReflTransGen.tail (Relation.ReflTransGen.tail
      (Relation.ReflTransGen.single
        ⟨_, sends started (some first), Steps.send _ _ _ _⟩)
      ⟨_, sends _ (some second), Steps.send _ _ _ _⟩)
    ⟨_, mines, Steps.mine _ _ _ (Nat.zero_lt_succ 6) (by decide) distinct fits⟩

/-- Two transactions decided in two rounds are each within a budget, and both
mined in one block they are over the limit the sender is judged by. -/
theorem minedTwice_reported :
    ¬ ∀ world, usualSystem.Reachable System.anything world →
        StaysWithin wholeNumbers id (fun _ => none) arb usual world := by
  intro holds
  have reachable :
      usualSystem.Reachable System.anything (minedTwice 6000000 5 6) :=
    reachable_minedTwice [⟨6000000, some (5, 0)⟩, ⟨6000000, some (6, 0)⟩]
      rfl rfl (fun _ _ => trivial) trivial
  have unreported := (holds _ reachable).unreported
  rw [checkGasViolations_eq] at unreported
  · revert unreported
    decide
  · decide

theorem staysWithin_minedTwice :
    StaysWithin wholeNumbers id (fun _ => none) arb usual
      (minedTwice 4000000 5 5) := by
  refine sender_staysWithin (fun _ _ _ _ same => Option.some.inj same)
    (reachable_minedTwice [⟨4000000, some (5, 0)⟩, ⟨4000000, some (5, 0)⟩]
      rfl rfl ?_ ?_)
  · intro world blockSeen unset
    exact absurd unset (by simp [gasOf])
  · intro _ first one second other _
    have places : ∀ place ∈ places (minedTogether 4000000),
        ((minedTwice 4000000 5 5).taken[place]?).bind Entry.period =
          some ((5 : Int), 0) := by
      decide
    exact ⟨_, places first one, places second other⟩

end Eris.Agents.Sender
