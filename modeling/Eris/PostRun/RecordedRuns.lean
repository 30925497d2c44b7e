import Eris.PostRun.RunChecks

/-!
# What the checks read of a run

The checks should report what is in the rows which were written.  They do so
exactly where the file holds the id of every owner as one column: an id with a
comma, with a line feed or with half a pair moves or changes the columns of
its rows, and the rules are checked on something else.
-/

namespace Eris.PostRun.RecordedRuns

open Foundation Foundation.IntegerText BlocksCsv FeeRule RunChecks

section Rows

variable {Number : Type} (numbers : Numbers Number)
    (toLowerCase : Text → Text) (derived : Text → Option Text)

/-! ## What is in the rows -/

def rowOwner (row : BlockRowInput) : Option Text :=
  if row.role.text = AGENT then some row.ownerId
  else if row.role.text = EXTERNAL then
    derived (toLowerCase row.sender.text)
  else none

def rowFeeViolation (capWei : Int) (row : BlockRowInput) :
    Option (FeeViolation Number) :=
  (rowOwner toLowerCase derived row).bind fun ownerId =>
    (checkFeeRule ⟨row.maxFeePerGasWei, some row.priorityFeeWei, none⟩
        capWei).map fun breach =>
      { ownerId := ownerId
        hash := row.hash.text
        blockNumber := numbers.ofBigint row.blockNumber
        priorityFeeWei := BlocksCsv.toString row.priorityFeeWei
        maxPriorityFeeWei := BlocksCsv.toString capWei
        kind := breachKind breach
        maxFeePerGasWei := row.maxFeePerGasWei.map BlocksCsv.toString }

def rowBurn (row : BlockRowInput) : Option (Burn Number) :=
  (rowOwner toLowerCase derived row).bind fun ownerId =>
    row.gasUsed.map fun gas =>
      { ownerId := ownerId
        blockNumber := numbers.ofBigint row.blockNumber
        hash := row.hash.text
        gas := gas }

structure Slot (Number : Type) where
  ownerId : Text
  block : Number
deriving DecidableEq

def slot (burn : Burn Number) : Slot Number := ⟨burn.ownerId, burn.blockNumber⟩

def slotGas
    [DecidableEq Number] (burns : List (Burn Number))
    (place : Slot Number) : Int :=
  ((burns.filter fun burn => decide (slot burn = place)).map Burn.gas).sum

/-- The gas violations of the rows: each transaction over the one limit, and
each agent over the other in a block. -/
def rowGasViolations
    [DecidableEq Number] (limits : GasLimits) (rows : List BlockRowInput) :
    List (GasViolation Number) :=
  let burns := rows.filterMap (rowBurn numbers toLowerCase derived)
  burns.filterMap (overTxLimit limits.maxTxGas) ++
    (burns.map slot).eraseDups.filterMap fun place =>
      overBlockLimit limits.maxAgentBlockGas
        ⟨place.ownerId, place.block, slotGas burns place⟩

local instance lawfulText : LawfulBEq Text := inferInstance

/-- The transaction of a row, where its owner did not log it. -/
def rowUnlogged (submittedByOwner : Text → Option (List Text))
    (row : BlockRowInput) : Option (UnloggedAgentTx Number) :=
  (rowOwner toLowerCase derived row).bind fun ownerId =>
    (submittedByOwner ownerId).bind fun submitted =>
      if toLowerCase row.hash.text ∈ submitted then none
      else
        some
          { ownerId := ownerId
            hash := toLowerCase row.hash.text
            blockNumber := numbers.ofBigint row.blockNumber }

structure Recovered (Number : Type) where
  ownerId : Option Text
  role : Option Text
  hash : Option Text
  blockNumber : Option Number
  priorityFeeWei : Option Int
  maxFeePerGasWei : Option Int
  gasUsed : Option Int
  sender : Option Text
  recipient : Option Text
deriving DecidableEq

def recover (cols : List Text) : Recovered Number where
  ownerId := column cols .ownerId
  role := column cols .role
  hash := column cols .hash
  blockNumber := (column cols .blockNumber).map numbers.ofText
  priorityFeeWei := (column cols .priorityFeeWei).bind bigInt
  maxFeePerGasWei := measuredColumn cols .maxFeePerGasWei
  gasUsed := measuredColumn cols .gasUsed
  sender := column cols .sender
  recipient := column cols .recipient

def recorded (row : BlockRowInput) : Recovered Number where
  ownerId := some row.ownerId
  role := some row.role.text
  hash := some row.hash.text
  blockNumber := some (numbers.ofBigint row.blockNumber)
  priorityFeeWei := some row.priorityFeeWei
  maxFeePerGasWei := row.maxFeePerGasWei
  gasUsed := row.gasUsed
  sender := some row.sender.text
  recipient := some (optional row.recipient)

/-- The rows are recovered from the file, and the checks report what is in
them. -/
structure RoundTrip
    [DecidableEq Number] (rows : List BlockRowInput) : Prop where
  recovered : (csvRows (blocksCsv rows)).map (recover numbers) =
      rows.map (recorded numbers)
  fees : ∀ derived capWei,
      checkFeeViolations numbers toLowerCase derived (blocksCsv rows) capWei =
        rows.filterMap (rowFeeViolation numbers toLowerCase derived capWei)
  gas : ∀ derived limits,
      checkGasViolations numbers toLowerCase derived (blocksCsv rows) limits =
        rowGasViolations numbers toLowerCase derived limits rows
  unlogged : ∀ derived submittedByOwner,
      findUnloggedAgentTxs numbers toLowerCase derived (blocksCsv rows)
          submittedByOwner =
        rows.filterMap
          (rowUnlogged numbers toLowerCase derived submittedByOwner)

theorem bigInt_toString (value : Int) :
    bigInt (BlocksCsv.toString value) = some value := by
  have chars :
      (BlocksCsv.toString value).map CodePoint.char = decimal value := by
    unfold BlocksCsv.toString literal
    rw [List.map_map]
    exact List.map_id _
  unfold bigInt
  rw [chars, read_decimal]

theorem measured_optionalNumber (value : Option Int) :
    ((some (optionalNumber value)).bind fun raw =>
        if raw = [] then none else bigInt raw) =
      value := by
  cases value with
  | none => rfl
  | some value =>
      have filled : BlocksCsv.toString value ≠ [] := by
        intro blank
        exact decimal_ne_nil value (List.map_eq_nil_iff.mp blank)
      change (if BlocksCsv.toString value = [] then none else _) = _
      rw [if_neg filled]
      exact bigInt_toString value

variable (row : BlockRowInput)

theorem column_gasUsed :
    measuredColumn (rowCells row) .gasUsed = row.gasUsed :=
  measured_optionalNumber row.gasUsed

theorem column_maxFeePerGasWei :
    measuredColumn (rowCells row) .maxFeePerGasWei = row.maxFeePerGasWei :=
  measured_optionalNumber row.maxFeePerGasWei

theorem column_priorityFeeWei :
    (column (rowCells row) .priorityFeeWei).bind bigInt =
      some row.priorityFeeWei :=
  bigInt_toString row.priorityFeeWei

theorem ofText_blockNumber :
    numbers.ofText (earlier (rowCells row) .blockNumber) =
      numbers.ofBigint row.blockNumber :=
  numbers.ofText_toString row.blockNumber

theorem agentRowOwner_rowCells :
    agentRowOwner toLowerCase derived (rowCells row) =
      rowOwner toLowerCase derived row := by
  have role : column (rowCells row) .role = some row.role.text := rfl
  unfold agentRowOwner rowOwner
  simp only [role, Option.some.injEq]
  rfl

theorem recover_rowCells :
    recover numbers (rowCells row) = recorded numbers row := by
  have block : (column (rowCells row) .blockNumber).map numbers.ofText =
        some (numbers.ofBigint row.blockNumber) :=
    congrArg some (numbers.ofText_toString row.blockNumber)
  unfold recover recorded
  rw [column_gasUsed, column_maxFeePerGasWei, column_priorityFeeWei, block]
  rfl

theorem feeViolation_rowCells (capWei : Int) :
    feeViolation numbers toLowerCase derived capWei (rowCells row) =
      rowFeeViolation numbers toLowerCase derived capWei row := by
  unfold feeViolation rowFeeViolation
  rw [agentRowOwner_rowCells, column_priorityFeeWei, column_maxFeePerGasWei,
    ofText_blockNumber]
  rfl

theorem burnOf_rowCells :
    burnOf numbers toLowerCase derived (rowCells row) =
      rowBurn numbers toLowerCase derived row := by
  unfold burnOf rowBurn
  rw [agentRowOwner_rowCells, column_gasUsed, ofText_blockNumber]
  rfl

theorem unloggedTx_rowCells
    (submittedByOwner : Text → Option (List Text)) :
    unloggedTx numbers toLowerCase derived submittedByOwner (rowCells row) =
      rowUnlogged numbers toLowerCase derived submittedByOwner row := by
  unfold unloggedTx rowUnlogged
  rw [agentRowOwner_rowCells, ofText_blockNumber]
  rfl

variable {numbers toLowerCase derived}

theorem blockKey_inj
    {first second : Burn Number} {firstBlock secondBlock : Nat}
    (firstIs : first.blockNumber = numbers.ofBigint firstBlock)
    (secondIs : second.blockNumber = numbers.ofBigint secondBlock)
    (same : blockKey numbers first = blockKey numbers second) :
    slot first = slot second := by
  have splits (burn : Burn Number) :
      (blockKey numbers burn).reverse.splitOn (.scalar '|') =
        (numbers.toText burn.blockNumber).reverse ::
          burn.ownerId.reverse.splitOn (.scalar '|') := by
    unfold blockKey
    rw [List.reverse_append, List.reverse_cons, List.append_assoc,
      List.singleton_append]
    apply List.splitOn_append_cons_self_of_not_mem
    rw [List.mem_reverse]
    exact numbers.unbarred _
  have parts : (blockKey numbers first).reverse.splitOn (.scalar '|') =
      (blockKey numbers second).reverse.splitOn (.scalar '|') := by
    rw [same]
  rw [splits, splits, List.cons.injEq, List.reverse_inj, firstIs,
    secondIs] at parts
  have blocks : first.blockNumber = second.blockNumber := by
    rw [firstIs, secondIs]
    exact numbers.toText_injective _ _ parts.1
  have owners : first.ownerId = second.ownerId := by
    unfold blockKey at same
    rw [blocks] at same
    exact List.append_cancel_right same
  unfold slot
  rw [owners, blocks]

theorem accumulate_addGas
    (burns : List (Burn Number)) (place : Slot Number)
    (here : ∀ burn ∈ burns, slot burn = place) (some_ : burns ≠ []) :
    InsertionMap.accumulate addGas burns =
      some ⟨place.ownerId, place.block, (burns.map Burn.gas).sum⟩ := by
  induction burns using List.reverseRecOn with
  | nil => exact absurd rfl some_
  | append_singleton burns burn ih =>
      have last : slot burn = place :=
        here burn (List.mem_append_right _ List.mem_cons_self)
      rw [InsertionMap.accumulate_snoc]
      cases burns with
      | nil =>
          subst last
          simp only [List.nil_append, List.map_cons, List.map_nil,
            List.sum_cons, List.sum_nil, Int.add_zero]
          rfl
      | cons first rest =>
          rw [ih (fun other listed =>
              here other (List.mem_append_left _ listed))
            (List.cons_ne_nil _ _)]
          rw [List.map_append, List.sum_append]
          simp only [List.map_cons, List.map_nil, List.sum_cons,
            List.sum_nil, Int.add_zero]
          rfl

def slotKey (numbers : Numbers Number) (place : Slot Number) : Text :=
  place.ownerId ++ .scalar '|' :: numbers.toText place.block

variable [DecidableEq Number]

theorem gather_addGas
    {burns : List (Burn Number)}
    (counted :
      ∀ burn ∈ burns, ∃ block, burn.blockNumber = numbers.ofBigint block) :
    (InsertionMap.gather (blockKey numbers) addGas burns).values =
      (burns.map slot).eraseDups.map fun place =>
        ⟨place.ownerId, place.block, slotGas burns place⟩ := by
  have renamed :
      (InsertionMap.gather (fun burn => slotKey numbers (slot burn)) addGas
          burns).values =
        (InsertionMap.gather slot addGas burns).values := by
    apply InsertionMap.values_gather_rename
    intro first firstListed second secondListed same
    obtain ⟨firstBlock, firstIs⟩ := counted first firstListed
    obtain ⟨secondBlock, secondIs⟩ := counted second secondListed
    exact blockKey_inj firstIs secondIs same
  calc
    (InsertionMap.gather (blockKey numbers) addGas burns).values =
        (InsertionMap.gather slot addGas burns).values := renamed
    _ = (burns.map slot).eraseDups.filterMap
        (some ∘ fun place =>
            ⟨place.ownerId, place.block, slotGas burns place⟩) := by
      rw [InsertionMap.values_gather]
      apply List.filterMap_congr
      intro place listed
      rcases List.mem_map.mp (List.mem_eraseDups.mp listed) with
        ⟨burn, member, rfl⟩
      apply accumulate_addGas
      · intro other chosen
        exact of_decide_eq_true (List.mem_filter.mp chosen).2
      · apply List.ne_nil_of_mem
        exact List.mem_filter.mpr ⟨member, decide_eq_true rfl⟩
    _ = _ := by rw [List.filterMap_eq_map]

/-! ## The round trip -/

variable {rows : List BlockRowInput}

theorem checkGasViolations_eq
    (owners : ∀ row ∈ rows, Storable row.ownerId) (limits : GasLimits) :
    checkGasViolations numbers toLowerCase derived (blocksCsv rows) limits =
      rowGasViolations numbers toLowerCase derived limits rows := by
  have burns : (csvRows (blocksCsv rows)).filterMap
        (burnOf numbers toLowerCase derived) =
      rows.filterMap (rowBurn numbers toLowerCase derived) := by
    rw [csvRows_blocksCsv owners, List.filterMap_map]
    apply List.filterMap_congr
    intro row _
    exact burnOf_rowCells numbers toLowerCase derived row
  unfold checkGasViolations rowGasViolations
  simp only [burns]
  rw [gather_addGas, List.filterMap_map]
  · rfl
  · intro burn listed
    rcases List.mem_filterMap.mp listed with ⟨row, _, made⟩
    rcases Option.bind_eq_some_iff.mp made with ⟨ownerId, _, measured⟩
    rcases Option.map_eq_some_iff.mp measured with ⟨gas, _, rfl⟩
    exact ⟨row.blockNumber, rfl⟩

/-- Where every owner is storable the rows are recovered, and the checks
report what is in them. -/
theorem roundTrip_of_storable
    (owners : ∀ row ∈ rows, Storable row.ownerId) :
    RoundTrip numbers toLowerCase rows where
  recovered := by
    rw [csvRows_blocksCsv owners, List.map_map]
    apply List.map_congr_left
    intro row _
    exact recover_rowCells numbers row
  fees derived capWei := by
    unfold checkFeeViolations
    rw [csvRows_blocksCsv owners, List.filterMap_map]
    apply List.filterMap_congr
    intro row _
    exact feeViolation_rowCells numbers toLowerCase derived row capWei
  gas _ limits := checkGasViolations_eq owners limits
  unlogged derived submittedByOwner := by
    unfold findUnloggedAgentTxs
    rw [csvRows_blocksCsv owners, List.filterMap_map]
    apply List.filterMap_congr
    intro row _
    exact unloggedTx_rowCells numbers toLowerCase derived row submittedByOwner

theorem storable_of_roundTrip
    (holds : RoundTrip numbers toLowerCase rows) :
    ∀ row ∈ rows, Storable row.ownerId := by
  intro row listed
  have found : recorded numbers row ∈
      (csvRows (blocksCsv rows)).map (recover numbers) := by
    rw [holds.recovered]
    exact List.mem_map_of_mem listed
  rcases List.mem_map.mp found with ⟨cols, read, same⟩
  have owner : column cols .ownerId = some row.ownerId :=
    congrArg Recovered.ownerId same
  exact storable_of_mem_csvRows read (List.mem_of_getElem? owner)

/-- The rows of a run are recovered from its file, and the checks report
exactly what is in them, if and only if the id of every owner has no comma, no
line feed and no half of a pair. -/
theorem roundTrip_iff (rows : List BlockRowInput) :
    RoundTrip numbers toLowerCase rows ↔ ∀ row ∈ rows, Storable row.ownerId :=
  ⟨storable_of_roundTrip, roundTrip_of_storable⟩

end Rows

/-- The check of an id, of the roster and of registrations alike. -/
def validId (id : Text) : Bool := decide (trimmed (id.map CodePoint.char) ≠ [])

theorem bar_not_mem_toString (value : Int) :
    .scalar '|' ∉ BlocksCsv.toString value := by
  intro inside
  rcases List.mem_map.mp inside with ⟨char, written, same⟩
  have bar : char = '|' := CodePoint.scalar.inj same
  subst bar
  rcases of_mem_decimal written with sign | ⟨value, small, digit⟩
  · exact absurd sign (by decide)
  · revert digit
    interval_cases value <;> decide

/-- Whole numbers, and nothing for any other text. -/
def wholeNumbers : Numbers (Option Nat) where
  ofText text := readNatural 10 (text.map CodePoint.char)
  toText number := (number.map fun value : Nat => BlocksCsv.toString value).getD
      (literal "NaN".toList)
  ofBigint value := some value
  ofText_toString value := by
    have chars : (BlocksCsv.toString value).map CodePoint.char =
        Nat.toDigits 10 value := by
      unfold BlocksCsv.toString literal
      rw [List.map_map]
      exact List.map_id _
    rw [chars]
    exact readNatural_toDigits (by decide) (by decide) value
  toText_injective first second same := by
    have read : bigInt (BlocksCsv.toString first) =
          bigInt (BlocksCsv.toString second) :=
      congrArg bigInt same
    rw [bigInt_toString, bigInt_toString, Option.some.injEq,
      Int.ofNat_inj] at read
    rw [read]
  unbarred number := by
    cases number with
    | none => decide
    | some value => exact bar_not_mem_toString value

/-- A transaction with a tip of nine wei, of an agent with a comma in its
id. -/
def commaRow : BlockRowInput where
  round := 1
  blockNumber := 1
  txIndex := 0
  hash := .of "0x1" (by decide)
  sender := .of "0x2" (by decide)
  priorityFeeWei := 9
  status := .of "success" (by decide)
  ownerId := literal "a,b".toList
  role := .of "agent" (by decide)
  actionType := some (.of "direct" (by decide))
  bundleId := none
  bundleIndex := none
  method := none
  gasUsed := some 21000
  maxFeePerGasWei := some 9
  recipient := none
  valueWei := some 0
  derivedFrom := none

/-- The tip of nine wei is over a cap of five, and is not reported. -/
theorem commaRow_unreported :
    ¬ ∀ rows : List BlockRowInput, (∀ row ∈ rows, validId row.ownerId = true) →
        RoundTrip wholeNumbers id rows := by
  intro holds
  have trip : RoundTrip wholeNumbers id [commaRow] := by
    apply holds
    intro row listed
    rw [List.mem_singleton.mp listed]
    decide
  have reported := trip.fees (fun _ => none) 5
  revert reported
  decide

end Eris.PostRun.RecordedRuns
