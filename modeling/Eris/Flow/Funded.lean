import Eris.Flow.TopUp

/-!
# Flow wallets which stay funded

A visit finds a token at its floor or grants what it was funded with; so
between two visits a token has its floor, less a cap for each round since.
The floors last as many rounds as `flowSolventRounds` says, and the interval
leaves one of them out.  A pass which skips the block of a visit does not
visit, and with enough of these a token runs out.
-/

namespace Eris.Flow.Funded

open Foundation Foundation.Transition TopUp

/-! ## Rounds the floors last -/

theorem solventWith_fold
    {pairs : List (Nat × Nat)} {limit : Option Nat} {rounds : Nat}
    (solvent : pairs.foldl solventWith limit = some rounds) :
    (∀ start, limit = some start → rounds ≤ start) ∧
      ∀ pair ∈ pairs, pair.2 ≠ 0 → pair.1 ≠ 0 → rounds * pair.2 ≤ pair.1 := by
  induction pairs generalizing limit with
  | nil =>
      constructor
      · intro start same
        rw [List.foldl_nil, same] at solvent
        cases solvent
        exact le_refl _
      · intro pair member
        cases member
  | cons first rest ih =>
      rw [List.foldl_cons] at solvent
      rcases ih solvent with ⟨lower, others⟩
      have split : (first.2 = 0 ∨ first.1 = 0) ∨
          (∃ least, solventWith limit first = some least ∧
            least ≤ first.1 / first.2 ∧
            ∀ start, limit = some start → least ≤ start) := by
        by_cases skipped : first.2 = 0 ∨ first.1 = 0
        · exact .inl skipped
        · apply Or.inr
          unfold solventWith
          rw [if_neg skipped]
          cases limit with
          | none =>
              refine ⟨_, rfl, le_refl _, ?_⟩
              intro start same
              cases same
          | some start =>
              refine ⟨_, rfl, min_le_left _ _, ?_⟩
              intro other same
              cases same
              exact min_le_right _ _
      rcases split with skipped | ⟨least, counted, bound, starts⟩
      · have same : solventWith limit first = limit := by
          unfold solventWith
          rw [if_pos skipped]
        constructor
        · intro start isStart
          exact lower start (same.trans isStart)
        · intro pair member drained funded
          rcases List.mem_cons.mp member with rfl | later
          · rcases skipped with zero | zero
            · exact absurd zero drained
            · exact absurd zero funded
          · exact others pair later drained funded
      · have belowLeast := lower least counted
        constructor
        · intro start isStart
          exact belowLeast.trans (starts start isStart)
        · intro pair member drained funded
          rcases List.mem_cons.mp member with rfl | later
          · calc
              rounds * pair.2 ≤ pair.1 / pair.2 * pair.2 :=
                Nat.mul_le_mul_right _ (belowLeast.trans bound)
              _ ≤ pair.1 := Nat.div_mul_le_self _ _
          · exact others pair later drained funded

theorem solventWith_fold_none
    {pairs : List (Nat × Nat)} {limit : Option Nat}
    (endless : pairs.foldl solventWith limit = none) :
    limit = none ∧ ∀ pair ∈ pairs, pair.2 = 0 ∨ pair.1 = 0 := by
  induction pairs generalizing limit with
  | nil => exact ⟨endless, fun pair member => nomatch member⟩
  | cons first rest ih =>
      rw [List.foldl_cons] at endless
      rcases ih endless with ⟨start, others⟩
      by_cases skipped : first.2 = 0 ∨ first.1 = 0
      · unfold solventWith at start
        rw [if_pos skipped] at start
        constructor
        · exact start
        · intro pair member
          rcases List.mem_cons.mp member with rfl | later
          · exact skipped
          · exact others pair later
      · unfold solventWith at start
        rw [if_neg skipped] at start
        cases limit <;> cases start

/-- How many rounds the floors last; without a bound, as many as wanted. -/
def LastsFor (run : FlowRun) (rounds : Nat) : Prop :=
  ∀ limit, flowSolventRounds run.target.floors run.drain = some limit →
    rounds < limit

theorem floor_lasts
    {run : FlowRun} {rounds : Nat} {pair : Nat × Nat}
    (lasts : LastsFor run rounds)
    (member : pair ∈ drainPairs run.target.floors run.drain)
    (funded : pair.1 ≠ 0) :
    (rounds + 1) * pair.2 ≤ pair.1 := by
  by_cases drained : pair.2 = 0
  · rw [drained, Nat.mul_zero]
    exact Nat.zero_le _
  · cases solvent : flowSolventRounds run.target.floors run.drain with
    | none =>
        rcases (solventWith_fold_none solvent).2 pair member with zero | zero
        · exact absurd zero drained
        · exact absurd zero funded
    | some limit =>
        calc
          (rounds + 1) * pair.2 ≤ limit * pair.2 :=
            Nat.mul_le_mul_right _ (lasts limit solvent)
          _ ≤ pair.1 := (solventWith_fold solvent).2 pair member drained funded

/-- A token has its floor, less a cap for each round since the last visit. -/
def Reserve (rounds target cap held : Nat) : Prop :=
  flowTopUpFloor target ≤ held + rounds * cap

section Token

variable {rounds target cap held spent : Nat}

theorem floor_le_of_not_below (solvent : below held target = false) :
    flowTopUpFloor target ≤ held := by
  simp only [below, Bool.and_eq_false_iff, decide_eq_false_iff_not] at solvent
  unfold flowTopUpFloor
  rcases solvent with unfunded | above
  · rw [Nat.eq_zero_of_not_pos unfunded, Nat.zero_mul, Nat.zero_div]
    exact Nat.zero_le _
  · omega

theorem floor_le (target : Nat) : flowTopUpFloor target ≤ target := by
  unfold flowTopUpFloor FLOW_TOPUP_FLOOR_BPS
  omega

theorem target_pos_of_below (short : below held target = true) :
    0 < target := by
  simp only [below, Bool.and_eq_true, decide_eq_true_eq] at short
  exact short.1

theorem reserve_visited (within : spent ≤ cap) :
    Reserve 1 target cap
      (granted (held - spent) (if below held target then target else 0)) := by
  unfold Reserve
  cases short : below held target with
  | false =>
      have solvent := floor_le_of_not_below short
      simp only [Bool.false_eq_true, if_false, granted, lt_irrefl]
      omega
  | true =>
      have least := floor_le target
      simp only [if_true, granted, target_pos_of_below short]
      omega

theorem reserve_round
    (reserve : Reserve rounds target cap held) (within : spent ≤ cap) :
    Reserve (rounds + 1) target cap (held - spent) := by
  unfold Reserve at *
  rw [Nat.add_mul]
  omega

theorem cap_le_of_reserve
    (reserve : Reserve rounds target cap held)
    (lasts : (rounds + 1) * cap ≤ flowTopUpFloor target) :
    cap ≤ held := by
  unfold Reserve at reserve
  rw [Nat.add_mul] at lasts
  omega

end Token

section Plan

variable {held : FlowWalletHoldings} {target : FlowWalletTargets}
    {spent : FlowWalletHoldings}

theorem not_below_of_mark
    (symbol : String) {held target : Nat}
    (unmarked : (mark symbol held target).length = 0) :
    below held target = false := by
  unfold mark at unmarked
  cases short : below held target with
  | false => rfl
  | true =>
      rw [short] at unmarked
      cases unmarked

theorem find_refilled {symbol : String} (base : symbol ≠ "WETH") :
    ((basesBelow held target).find? (·.1 = symbol)).map Prod.snd =
      if below (held.bases symbol) (target.base symbol) then
        target.bases.get symbol
      else none := by
  cases found : target.bases.get symbol with
  | none =>
      have absent := InsertionMap.get_eq_none.mp found
      have missing : (basesBelow held target).find? (·.1 = symbol) = none := by
        apply List.find?_eq_none.mpr
        intro entry member same
        exact
          absent entry (List.mem_filter.mp member).1 (of_decide_eq_true same)
      rw [missing]
      split <;> rfl
  | some amount =>
      have listed := InsertionMap.get_eq_some.mp found
      have worth : target.base symbol = amount := by
        unfold FlowWalletTargets.base
        rw [found]
        rfl
      rw [worth]
      have distinct : ((basesBelow held target).map Prod.fst).Nodup :=
        (List.filter_sublist.map Prod.fst).nodup target.bases.distinct
      cases short : below (held.bases symbol) amount with
      | true =>
          have kept : (symbol, amount) ∈ basesBelow held target := by
            apply List.mem_filter.mpr
            exact ⟨listed, by simp [base, short]⟩
          rw [(InsertionMap.find_eq_some distinct).mpr ⟨kept, rfl⟩]
          rfl
      | false =>
          have missing :
              (basesBelow held target).find? (·.1 = symbol) = none := by
            apply List.find?_eq_none.mpr
            intro entry member same
            rcases List.mem_filter.mp member with ⟨there, refilled⟩
            have key : entry.1 = symbol := of_decide_eq_true same
            have value : entry.2 = amount := by
              have first := InsertionMap.get_eq_some.mpr
                  (show (symbol, entry.2) ∈ target.bases.entries from
                    key ▸ there)
              rw [found] at first
              exact (Option.some.inj first).symm
            rw [key, value, short, Bool.and_false] at refilled
            cases refilled
          rw [missing]
          rfl

theorem landed_plan :
    (held.spend spent).landed (planFlowTopUp held target) =
      { ethWei :=
          granted (held.ethWei - spent.ethWei)
            (if below held.ethWei target.ethWei then target.ethWei else 0)
        wethWei := granted (held.wethWei - spent.wethWei)
            (if below held.wethWei target.wethWei then target.wethWei else 0)
        usdcUnits := granted (held.usdcUnits - spent.usdcUnits)
            (if below held.usdcUnits target.usdcUnits then target.usdcUnits
              else 0)
        bases := fun symbol =>
          granted (held.bases symbol - spent.bases symbol)
            ((((basesBelow held target).find? (·.1 = symbol)).map
              Prod.snd).getD 0) } := by
  by_cases something : 0 < (topUpPlan held target).refilled.length
  · unfold planFlowTopUp
    rw [if_pos something]
    rfl
  · have nothing := something
    unfold planFlowTopUp
    rw [if_neg something]
    simp only [topUpPlan, List.length_append, List.length_map] at nothing
    have native : below held.ethWei target.ethWei = false :=
      not_below_of_mark "ETH" (by omega)
    have wrapped : below held.wethWei target.wethWei = false :=
      not_below_of_mark "WETH" (by omega)
    have quoted : below held.usdcUnits target.usdcUnits = false :=
      not_below_of_mark "USDC" (by omega)
    have empty : basesBelow held target = [] := by
      apply List.eq_nil_of_length_eq_zero
      omega
    rw [native, wrapped, quoted, empty]
    rfl

end Plan

/-! ## Wallets -/

section Wallets

variable {Wallet : Type} {run : FlowRun} {wallets : FlowWallets Wallet}

/-- Every token the flow spends has its reserve in every wallet. -/
structure Reserved (run : FlowRun) (wallets : FlowWallets Wallet) : Prop where
  wethWei : ∀ wallet,
      Reserve wallets.rounds run.target.wethWei run.drain.wethWei
        (wallets.balance wallet).wethWei
  usdcUnits : ∀ wallet,
      Reserve wallets.rounds run.target.usdcUnits run.drain.usdcUnits
        (wallets.balance wallet).usdcUnits
  bases : ∀ wallet symbol, symbol ≠ "WETH" →
      Reserve wallets.rounds (run.target.base symbol)
        ((run.drain.bases.get symbol).getD 0)
        ((wallets.balance wallet).bases symbol)

theorem reserved_funded : Reserved run (.funded run : FlowWallets Wallet) where
  wethWei _ := (floor_le _).trans (Nat.le_add_right _ _)
  usdcUnits _ := (floor_le _).trans (Nat.le_add_right _ _)
  bases _ _ _ := (floor_le _).trans (Nat.le_add_right _ _)

theorem reserved_visit
    (on : 0 < run.flowTopUpEveryBlocks) {pass : FlowPass Wallet}
    (within : ∀ wallet, WithinCaps (pass.spent wallet) run.drain)
    (visits : run.Visits pass.block) :
    Reserved run (wallets.passes run pass) := by
  have balance : ∀ wallet, (wallets.passes run pass).balance wallet =
      ((wallets.balance wallet).spend (pass.spent wallet)).landed
        (planFlowTopUp (wallets.balance wallet) run.target) := by
    intro wallet
    simp only [FlowWallets.balance, FlowWallets.passes, visits, on, and_self,
      if_true]
  have counted : (wallets.passes run pass).rounds = 1 := by
    simp only [FlowWallets.passes, visits, if_true]
  constructor
  · intro wallet
    rw [counted, balance, landed_plan]
    exact reserve_visited (within wallet).wethWei
  · intro wallet
    rw [counted, balance, landed_plan]
    exact reserve_visited (within wallet).usdcUnits
  · intro wallet symbol base
    rw [counted, balance, landed_plan]
    simp only [find_refilled base]
    have amount : (if below ((wallets.balance wallet).bases symbol)
              (run.target.base symbol) then
            run.target.bases.get symbol
          else none).getD 0 =
          if below ((wallets.balance wallet).bases symbol)
              (run.target.base symbol) then
            run.target.base symbol
          else 0 := by
      split <;> rfl
    rw [amount]
    exact reserve_visited ((within wallet).bases symbol)

theorem reserved_pass
    {pass : FlowPass Wallet} (reserved : Reserved run wallets)
    (within : ∀ wallet, WithinCaps (pass.spent wallet) run.drain)
    (between : ¬run.Visits pass.block) :
    Reserved run (wallets.passes run pass) := by
  have balance : ∀ wallet, (wallets.passes run pass).balance wallet =
      (wallets.balance wallet).spend (pass.spent wallet) := by
    intro wallet
    simp only [FlowWallets.balance, FlowWallets.passes, between, false_and,
      if_false]
    rfl
  have counted : (wallets.passes run pass).rounds = wallets.rounds + 1 := by
    simp only [FlowWallets.passes, between, if_false]
  constructor
  · intro wallet
    rw [counted, balance]
    exact reserve_round (reserved.wethWei wallet) (within wallet).wethWei
  · intro wallet
    rw [counted, balance]
    exact reserve_round (reserved.usdcUnits wallet) (within wallet).usdcUnits
  · intro wallet symbol base
    rw [counted, balance]
    exact reserve_round (reserved.bases wallet symbol base)
      ((within wallet).bases symbol)

/-- The floors cover two rounds, and no funded token has a floor of nothing. -/
structure FloorsCover (run : FlowRun) : Prop where
  rounds : LastsFor run 1
  wethWei : 0 < run.target.wethWei → flowTopUpFloor run.target.wethWei ≠ 0
  usdcUnits : 0 < run.target.usdcUnits → flowTopUpFloor run.target.usdcUnits ≠ 0
  bases : ∀ symbol, 0 < run.target.base symbol →
      flowTopUpFloor (run.target.base symbol) ≠ 0

/-- No wallet has less of a funded token than the next round may take. -/
structure Solvent (run : FlowRun) (wallets : FlowWallets Wallet) : Prop where
  wethWei : ∀ wallet, 0 < run.target.wethWei →
      run.drain.wethWei ≤ (wallets.balance wallet).wethWei
  usdcUnits : ∀ wallet, 0 < run.target.usdcUnits →
      run.drain.usdcUnits ≤ (wallets.balance wallet).usdcUnits
  bases : ∀ wallet symbol, symbol ≠ "WETH" → 0 < run.target.base symbol →
      (run.drain.bases.get symbol).getD 0 ≤
        (wallets.balance wallet).bases symbol

theorem floors_base (target : FlowWalletTargets) (symbol : String) :
    target.floors.base symbol = flowTopUpFloor (target.base symbol) := by
  unfold FlowWalletTargets.base InsertionMap.get
  simp only [FlowWalletTargets.floors, List.find?_map, Option.map_map]
  change (((target.bases.entries.find? (·.1 = symbol)).map
    fun entry => flowTopUpFloor entry.2)).getD 0 = _
  cases target.bases.entries.find? (·.1 = symbol) with
  | none => rfl
  | some entry => rfl

theorem solvent_of_reserved
    (cover : FloorsCover run) (reserved : Reserved run wallets)
    (lasts : LastsFor run wallets.rounds) :
    Solvent run wallets where
  wethWei wallet funded := cap_le_of_reserve (reserved.wethWei wallet)
      (floor_lasts lasts List.mem_cons_self (cover.wethWei funded))
  usdcUnits wallet funded := cap_le_of_reserve (reserved.usdcUnits wallet)
      (floor_lasts lasts (List.mem_cons_of_mem _ List.mem_cons_self)
        (cover.usdcUnits funded))
  bases wallet symbol base funded := by
    cases drained : run.drain.bases.get symbol with
    | none => exact Nat.zero_le _
    | some cap =>
        have reserve := reserved.bases wallet symbol base
        rw [drained] at reserve
        apply cap_le_of_reserve reserve
        have listed : (run.target.floors.base symbol, cap) ∈
            drainPairs run.target.floors run.drain := by
          apply List.mem_cons_of_mem
          apply List.mem_cons_of_mem
          exact List.mem_map_of_mem (f := fun entry : String × Nat =>
              (run.target.floors.base entry.1, entry.2))
              (InsertionMap.get_eq_some.mp drained)
        rw [floors_base] at listed
        exact floor_lasts lasts listed (cover.bases symbol funded)

/--
A pass which does not visit leaves fewer rounds since the last visit than
the floors last.
-/
def VisitsInTime (run : FlowRun) (wallets : FlowWallets Wallet)
    (pass : FlowPass Wallet) : Prop :=
  run.Visits pass.block ∨ LastsFor run (wallets.rounds + 1)

/-- In a run which visits in time no wallet runs out of a funded token. -/
theorem wallets_stay_funded
    (cover : FloorsCover run) (on : 0 < run.flowTopUpEveryBlocks)
    (reachable : (flowPasses run).Reachable (VisitsInTime run) wallets) :
    Solvent run wallets := by
  have holds : Reserved run wallets ∧ LastsFor run wallets.rounds := by
    apply @System.Reachable.invariant _ _ _ _
      (fun wallets => Reserved run wallets ∧ LastsFor run wallets.rounds)
      _ _ _ reachable
    · rintro state rfl
      constructor
      · exact reserved_funded
      · intro limit solvent
        exact (Nat.zero_lt_one).trans (cover.rounds limit solvent)
    · rintro state pass next ⟨reserved, _⟩ inTime ⟨_, within, rfl⟩
      by_cases visits : run.Visits pass.block
      · constructor
        · exact reserved_visit on within visits
        · simp only [FlowWallets.passes, visits, if_true]
          exact cover.rounds
      · constructor
        · exact reserved_pass reserved within visits
        · simp only [FlowWallets.passes, visits, if_false]
          rcases inTime with visited | lasts
          · exact absurd visited visits
          · exact lasts
  exact solvent_of_reserved cover holds.1 holds.2

/-! ## Runs which skip no visit -/

/-- No block the wallets are visited on is passed over. -/
def SkipsNoVisit (run : FlowRun) (wallets : FlowWallets Wallet)
    (pass : FlowPass Wallet) : Prop :=
  ∀ block, wallets.block < block → block < pass.block → ¬run.Visits block

theorem interval_bounds
    (cover : FloorsCover run) (on : 0 < run.flowTopUpEveryBlocks) :
    1 ≤ run.flowTelemetryEvery ∧
      ∀ limit, flowSolventRounds run.target.floors run.drain = some limit →
        run.flowTelemetryEvery < limit := by
  have two := cover.rounds
  unfold LastsFor at two
  unfold FlowRun.flowTelemetryEvery flowTopUpIntervalBlocks
  rw [if_pos on, if_neg (not_le.mpr on)]
  cases solvent : flowSolventRounds run.target.floors run.drain with
  | none =>
      constructor
      · exact on
      · intro limit same
        cases same
  | some rounds =>
      have least := two rounds solvent
      dsimp only
      constructor
      · split
        · exact on
        · split <;> omega
      · intro limit same
        cases same
        split
        · omega
        · split <;> omega

theorem emod_grows
    {every before after : Int} (positive : 1 ≤ every) (later : before < after)
    (unvisited :
      ∀ offset, before < offset → offset ≤ after → offset % every ≠ 0) :
    before % every + 1 ≤ after % every := by
  have last := Int.emod_add_mul_ediv after every
  have first := Int.emod_add_mul_ediv before every
  have least := Int.emod_nonneg after (by omega : every ≠ 0)
  have multiple : (every * (after / every)) % every = 0 :=
    Int.mul_emod_right _ _
  have notLater : ¬before < every * (after / every) := by
    intro inside
    exact unvisited _ inside (by omega) multiple
  have same : after / every = before / every := by
    apply le_antisymm
    · exact (Int.le_ediv_iff_mul_le (by omega)).mpr
          (by
            rw [mul_comm]
            omega)
    · exact Int.ediv_le_ediv (by omega) later.le
  rw [same] at last
  omega

end Wallets

/-- Six rounds are funded; the floor lasts three, and a visit is every two. -/
def twelve : FlowRun where
  runStartBlock := 100
  flowTopUpEveryBlocks := 10
  target :=
    { ethWei := 0
      wethWei := 12
      usdcUnits := 0
      bases := .empty }
  drain :=
    { wethWei := 2
      usdcUnits := 0
      bases := .empty }

theorem twelve_solventRounds :
    flowSolventRounds twelve.target.floors twelve.drain = some 3 := by
  decide

theorem twelve_cover : FloorsCover twelve where
  rounds limit solvent := by
    rw [twelve_solventRounds] at solvent
    cases solvent
    decide
  wethWei _ := by decide
  usdcUnits funded := absurd funded (by decide)
  bases _ funded := absurd funded (lt_irrefl 0)

/-- A full round of the one wallet at a block. -/
def fullRound (block : Int) : FlowPass Unit where
  block := block
  spent _ :=
    { ethWei := 0
      wethWei := 2
      usdcUnits := 0
      bases := fun _ => 0 }

instance (run : FlowRun) (wallets : FlowWallets Unit) (pass : FlowPass Unit) :
    Decidable (VisitsInTime run wallets pass) :=
  @instDecidableOr _ _ inferInstance <|
    match solvent : flowSolventRounds run.target.floors run.drain with
    | none => isTrue fun _ same => nomatch solvent.symm.trans same
    | some limit =>
        decidable_of_iff (wallets.rounds + 1 < limit) ⟨fun few _ same =>
            Option.some.inj (solvent.symm.trans same) ▸ few,
            fun lasts => lasts limit solvent⟩

/-- Full rounds at the given blocks, as long as the head moves on. -/
def fullRounds
    (allowed : FlowWallets Unit → FlowPass Unit → Prop)
    [∀ wallets pass, Decidable (allowed wallets pass)]
    (blocks : List Int) : Option (FlowWallets Unit) :=
  script (fun (wallets : FlowWallets Unit) pass =>
      if wallets.block < pass.block then
        some (pass, wallets.passes twelve pass)
      else none)
    allowed (blocks.map fullRound) (.funded twelve)

theorem fullRounds_reachable
    {allowed : FlowWallets Unit → FlowPass Unit → Prop}
    [∀ wallets pass, Decidable (allowed wallets pass)]
    {blocks : List Int} {wallets : FlowWallets Unit}
    (ran : fullRounds allowed blocks = some wallets) :
    (flowPasses twelve).Reachable allowed wallets := by
  have admissible : ∀ pass ∈ blocks.map fullRound,
      ∀ wallet, WithinCaps (pass.spent wallet) twelve.drain := by
    intro pass member wallet
    rcases List.mem_map.mp member with ⟨block, _, rfl⟩
    exact
      { wethWei := le_refl _
        usdcUnits := le_refl _
        bases := fun _ => Nat.zero_le _ }
  have sound : ∀ (state : FlowWallets Unit) (pass : FlowPass Unit)
      (done : FlowPass Unit × FlowWallets Unit),
      (∀ wallet, WithinCaps (pass.spent wallet) twelve.drain) →
      (if state.block < pass.block then
          some (pass, state.passes twelve pass) else none) = some done →
        (flowPasses twelve).step state done.1 done.2 := by
    intro state pass done within passed
    rw [Option.ite_none_right_eq_some] at passed
    rcases passed with ⟨later, same⟩
    cases same
    exact ⟨later, within, rfl⟩
  rcases script_costed sound (fun _ => 0) admissible ran with ⟨total, costed⟩
  exact ⟨_, rfl, costed.runs⟩

/-- The head 103 is skipped, which is no visit; that at 106 refills. -/
theorem wallets_stay_funded_twelve :
    ∃ wallets : FlowWallets Unit,
      (wallets.balance ()).wethWei = 12 ∧ wallets.block = 106 ∧
        Solvent twelve wallets := by
  have evaluated :
      (fullRounds (VisitsInTime twelve) [101, 102, 104, 105, 106]).map
          (fun wallets => ((wallets.balance ()).wethWei, wallets.block)) =
        some (12, 106) := by
    decide
  rcases Option.map_eq_some_iff.mp evaluated with ⟨wallets, ran, facts⟩
  refine ⟨wallets, congrArg Prod.fst facts, congrArg Prod.snd facts, ?_⟩
  exact wallets_stay_funded twelve_cover (by decide) (fullRounds_reachable ran)

/-- Every head a pass is told of is odd: no visit is ever made. -/
theorem skipped_visits_exhaust :
    FloorsCover twelve ∧ 0 < twelve.flowTopUpEveryBlocks ∧
      ∃ wallets : FlowWallets Unit,
        (flowPasses twelve).Reachable System.anything wallets ∧
          ¬Solvent twelve wallets := by
  refine ⟨twelve_cover, by decide, ?_⟩
  have evaluated :
      (fullRounds System.anything [101, 103, 105, 107, 109, 111]).map
          (fun wallets => (wallets.balance ()).wethWei) =
        some 0 := by
    decide
  rcases Option.map_eq_some_iff.mp evaluated with ⟨wallets, ran, empty⟩
  refine ⟨wallets, fullRounds_reachable ran, ?_⟩
  intro solvent
  have enough : 2 ≤ (wallets.balance ()).wethWei :=
    solvent.wethWei () (by decide)
  omega

end Eris.Flow.Funded
