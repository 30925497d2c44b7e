import Eris.Launch.TokenLaunch

/-!
# A wave spends its budget once

Each transaction of a launch stands for a stretch of work: a listing and an
approval for one unit, a swap for the amount it brings forward from what has
been settled.  As long as nothing the driver gave up lands, the stretches that
land do not overlap, so a wave never spends more than its units and no step of
a launch is executed twice.
-/

namespace Eris.Launch.Budget

open Foundation Attempts Transition WaveSchedule TokenLaunch

/-! ## What is waited for -/

/-- The transaction of a kind the driver waits for. -/
def outstanding (state : TokenLaunchState) : Kind → Option Nat
  | .listing =>
      if state.phase = .listing then state.listing.map Listing.hash else none
  | .approveUsdc => none
  | .approveToken => none
  | .buy =>
      (state.pending.filter fun pending => pending.kind = .buy).map
        Pending.hash
  | .sell =>
      (state.pending.filter fun pending => pending.kind = .sell).map
        Pending.hash

/-- What the driver knows of one launch and its transactions. -/
structure Kept (config : Config) (world : World) : Prop where
  accounted :
    Accounted (progress world.state) (outstanding world.state) world.ledger
  unit :
    ∀ attempt ∈ world.ledger.sent, attempt.kind = .listing → attempt.stop ≤ 1
  carried : ∀ attempt ∈ world.ledger.sent, ∀ pending,
      world.state.pending = some pending → attempt.id = pending.hash →
        attempt.length = pending.amountIn
  older : ∀ pending, world.state.pending = some pending →
      pending.hash < world.ledger.next
  inside : ∀ attempt ∈ world.ledger.sent, attempt.kind = .buy →
      attempt.stop ≤ waveUsdcUnits config.launch
  timely : world.ledger.Timely

variable {config : Config} {world : World}
    {state : TokenLaunchState} {hash blockIndex : Nat} {ledger : Ledger Kind}
    {reads : Reads}

theorem kept_staged : Kept config ⟨stagedState, Ledger.empty⟩ where
  accounted := by
    have nothing : progress stagedState = fun _ => 0 := by
      funext kind
      cases kind <;> rfl
    have free : outstanding stagedState = fun _ => none := by
      funext kind
      cases kind <;> rfl
    rw [nothing, free]
    exact Accounted.empty
  unit _ absent := nomatch absent
  carried _ absent := nomatch absent
  older _ awaited := nomatch awaited
  inside _ absent := nomatch absent
  timely _ absent := nomatch absent

theorem Kept.frame
    (kept : Kept config world) (counted : progress state = progress world.state)
    (waited : outstanding state = outstanding world.state)
    (pending : state.pending = world.state.pending) :
    Kept config { world with state := state } where
  accounted := by
    rw [counted, waited]
    exact kept.accounted
  unit := kept.unit
  carried attempt sent awaited same := by
    rw [pending] at same
    exact kept.carried attempt sent awaited same
  older awaited same := by
    rw [pending] at same
    exact kept.older awaited same
  inside := kept.inside
  timely := kept.timely

theorem Kept.comesDown
    (kept : Kept config world) {fate : Fate}
    (flying : world.ledger.fate hash = .flying)
    (inTime : fate = .landed → hash ∉ world.ledger.abandoned) :
    Kept config { world with ledger := world.ledger.resolve hash fate } where
  accounted := kept.accounted.resolve fun _ => Or.inl flying
  unit := kept.unit
  carried := kept.carried
  older := kept.older
  inside := kept.inside
  timely id gone := by
    rw [Ledger.resolve]
    dsimp only
    by_cases same : id = hash
    · rw [same, Function.update_self]
      intro landed
      rw [same] at gone
      exact inTime landed gone
    · rw [Function.update_of_ne same]
      exact kept.timely id gone

theorem receipt_eq_some_false
    {answers : Bool} (read : receipt ledger answers hash = some false) :
    ledger.fate hash = .reverted := by
  rw [receipt] at read
  split at read
  · cases fate : ledger.fate hash with
    | reverted => rfl
    | flying => simp [fate] at read
    | landed => simp [fate] at read
    | dropped => simp [fate] at read
  · cases read

theorem not_landed_of_receipt_eq_none
    {answers : Bool} (read : receipt ledger answers hash = none)
    (answered : ledger.fate hash = .landed → answers = true) :
    ledger.fate hash ≠ .landed := by
  intro landed
  rw [receipt, if_pos (answered landed), landed] at read
  cases read

theorem not_live_of_reverted
    {attempt : Attempt Kind} (reverted : ledger.fate attempt.id = .reverted) :
    ¬ledger.Live attempt := by
  rintro ⟨alive, _⟩
  rw [reverted] at alive
  rcases alive with equal | equal
  · cases equal
  · cases equal

theorem timely_abandon
    (timely : ledger.Timely) (flying : ledger.fate hash ≠ .landed) :
    (ledger.abandon hash).Timely := by
  intro id gone
  rcases List.mem_cons.mp gone with rfl | earlier
  · exact flying
  · exact timely id earlier

theorem not_live_abandon
    {attempt : Attempt Kind} :
    ¬(ledger.abandon attempt.id).Live attempt :=
  fun live => live.2 List.mem_cons_self

/-- The block reads the receipt of what it would give up, if there is one. -/
structure Answered (blockIndex : Nat) (reads : Reads) (world : World) :
    Prop where
  listing : ∀ listing, world.state.listing = some listing →
      timedOut blockIndex listing.blockIndex →
        world.ledger.fate listing.hash = .landed → reads.listingReceipt = true
  swap : ∀ pending, world.state.pending = some pending →
      timedOut blockIndex pending.blockIndex →
        world.ledger.fate pending.hash = .landed → reads.pendingReceipt = true

/-- What becomes of the listing waited for, once the state has moved on from
it: it is no longer waited for, and counts for nothing more than the state
says. -/
theorem Kept.leavesListing
    (kept : Kept config world) {listing : Listing}
    (listed : world.state.phase = .listing)
    (waited : world.state.listing = some listing)
    (sent : ledger.sent = world.ledger.sent)
    (account : Accounted (progress world.state) (outstanding world.state)
      ledger)
    (timely : ledger.Timely)
    (others : ∀ kind, kind ≠ .listing →
      progress state kind = progress world.state kind ∧
        outstanding state kind = outstanding world.state kind)
    (left : outstanding state .listing = none)
    (pending : state.pending = world.state.pending)
    (covered : ∀ attempt ∈ ledger.sent, attempt.id = listing.hash →
      attempt.kind = .listing → ledger.Live attempt →
        progress state .listing = 1) :
    Kept config ⟨state, ledger⟩ := by
  have started : progress world.state .listing = 0 := by
    rw [progress, listed]
    rfl
  have onward : ∀ kind, progress world.state kind ≤ progress state kind := by
    intro kind
    by_cases same : kind = .listing
    · rw [same, started]
      exact Nat.zero_le _
    · exact (others kind same).1.ge
  have moved : outstanding state =
      Function.update (outstanding world.state) .listing none := by
    funext kind
    by_cases same : kind = .listing
    · rw [same, Function.update_self]
      exact left
    · rw [Function.update_of_ne same]
      exact (others kind same).2
  constructor
  · rw [moved]
    apply (account.advance onward).finish
    intro attempt attemptSent same awaited live
    rw [outstanding, listed, waited] at awaited
    have identified : attempt.id = listing.hash :=
      (Option.some.inj awaited).symm
    rw [covered attempt attemptSent identified same live]
    rw [sent] at attemptSent
    exact kept.unit attempt attemptSent same
  · intro attempt attemptSent same
    rw [sent] at attemptSent
    exact kept.unit attempt attemptSent same
  · intro attempt attemptSent awaited same
    rw [sent] at attemptSent
    rw [pending] at same
    exact kept.carried attempt attemptSent awaited same
  · intro awaited same
    rw [pending] at same
    rw [Ledger.next, sent]
    exact kept.older awaited same
  · intro attempt attemptSent same
    rw [sent] at attemptSent
    exact kept.inside attempt attemptSent same
  · exact timely

theorem Kept.settleListing
    (kept : Kept config world) (answered : Answered blockIndex reads world) :
    Kept config (settleListing blockIndex reads world).1 := by
  rw [TokenLaunch.settleListing]
  split
  · rename_i listing listed waited
    split
    · rename_i unread
      split
      · rename_i late
        dsimp only
        have flying := not_landed_of_receipt_eq_none unread
            (answered.listing listing waited late)
        have same :
            (world.ledger.abandon listing.hash).sent = world.ledger.sent :=
          rfl
        apply kept.leavesListing listed waited same
          (kept.accounted.abandon listing.hash)
          (timely_abandon kept.timely flying)
        · intro kind other
          cases kind with
          | listing => exact absurd rfl other
          | _ => exact ⟨rfl, rfl⟩
        · rfl
        · rfl
        · intro attempt sent identified same live
          rw [← identified] at live
          exact absurd live not_live_abandon
      · exact kept
    · rename_i reverted
      split
      · exact kept
      · dsimp only
        apply kept.leavesListing listed waited rfl kept.accounted kept.timely
        · intro kind other
          cases kind with
          | listing => exact absurd rfl other
          | _ => exact ⟨rfl, rfl⟩
        · rw [outstanding]
          split
          · rfl
          · rfl
        · rfl
        · intro attempt sent identified same live
          have fate := receipt_eq_some_false reverted
          rw [← identified] at fate
          exact absurd live (not_live_of_reverted fate)
    · split
      · dsimp only
        apply kept.leavesListing listed waited rfl kept.accounted kept.timely
        · intro kind other
          cases kind with
          | listing => exact absurd rfl other
          | _ => exact ⟨rfl, rfl⟩
        · rfl
        · rfl
        · intro attempt sent identified same live
          rfl
      · exact kept
  · exact kept

/-- The ledger with the next transaction of a kind sent, and the state waiting
for it. -/
theorem Kept.sends
    (kept : Kept config world) {kind : Kind} {length : Nat}
    (free : outstanding world.state kind = none)
    (counted : progress state = progress world.state)
    (waited : outstanding state = Function.update (outstanding world.state) kind
        (some world.ledger.next))
    (carried : ∀ pending, state.pending = some pending →
      world.state.pending = some pending ∨
        pending.hash = world.ledger.next ∧ pending.amountIn = length)
    (unit : kind = .listing → progress world.state kind + length ≤ 1)
    (inside : kind = .buy →
      progress world.state kind + length ≤ waveUsdcUnits config.launch) :
    Kept config
      ⟨state, world.ledger.send kind (progress world.state kind) length⟩ where
  accounted := by
    rw [counted, waited]
    exact kept.accounted.send free length
  unit attempt sent same := by
    rcases List.mem_append.mp sent with old | new
    · exact kept.unit attempt old same
    · rw [List.mem_singleton.mp new] at same ⊢
      exact unit same
  carried attempt sent pending awaited same := by
    rcases List.mem_append.mp sent with old | new
    · rcases carried pending awaited with before | ⟨newest, _⟩
      · exact kept.carried attempt old pending before same
      · have earlier := kept.accounted.id_lt old
        rw [same, newest] at earlier
        exact absurd earlier (lt_irrefl _)
    · rw [List.mem_singleton.mp new] at same ⊢
      rcases carried pending awaited with before | ⟨_, amount⟩
      · have earlier := kept.older pending before
        rw [← same] at earlier
        exact absurd earlier (lt_irrefl _)
      · exact amount.symm
  older pending awaited := by
    rw [Ledger.next, Ledger.send, List.length_append, List.length_singleton]
    rcases carried pending awaited with before | ⟨newest, _⟩
    · exact Nat.lt_succ_of_lt (kept.older pending before)
    · rw [newest, Ledger.next]
      exact Nat.lt_succ_self _
  inside attempt sent same := by
    rcases List.mem_append.mp sent with old | new
    · exact kept.inside attempt old same
    · rw [List.mem_singleton.mp new] at same ⊢
      exact inside same
  timely := kept.timely

theorem Kept.sendListing
    (kept : Kept config world) (blockIndex : Nat) (reads : Reads) :
    Kept config (sendListing blockIndex reads world).1 := by
  rw [TokenLaunch.sendListing]
  split
  · exact kept
  rename_i waiting
  have ready : world.state.phase = .pending := not_not.mp waiting
  have started : progress world.state .listing = 0 := by
    rw [progress, ready]
    rfl
  split
  · apply kept.frame
    · funext kind
      cases kind with
      | listing => exact started.symm
      | _ => rfl
    · funext kind
      cases kind with
      | listing =>
          rw [outstanding, outstanding, ready]
          rfl
      | _ => rfl
    · rfl
  split
  · dsimp only
    rw [← started]
    apply kept.sends
    · rw [outstanding, ready]
      rfl
    · funext kind
      cases kind with
      | listing => exact started.symm
      | _ => rfl
    · funext kind
      cases kind <;> rfl
    · intro pending awaited
      exact Or.inl awaited
    · intro _
      rw [started]
    · intro absurdity
      cases absurdity
  · apply kept.frame
    · funext kind
      cases kind <;> rfl
    · funext kind
      cases kind <;> rfl
    · rfl

/-- The listing leaves the swap waited for, and what became of every
transaction, as they were. -/
theorem settleListing_frame (blockIndex : Nat) (reads : Reads) :
    (settleListing blockIndex reads world).1.state.pending =
        world.state.pending ∧
      (settleListing blockIndex reads world).1.ledger.fate =
        world.ledger.fate := by
  rw [TokenLaunch.settleListing]
  split
  · split
    · split
      · exact ⟨rfl, rfl⟩
      · exact ⟨rfl, rfl⟩
    · split
      · exact ⟨rfl, rfl⟩
      · exact ⟨rfl, rfl⟩
    · split
      · exact ⟨rfl, rfl⟩
      · exact ⟨rfl, rfl⟩
  · exact ⟨rfl, rfl⟩

theorem sendListing_frame (blockIndex : Nat) (reads : Reads) :
    (sendListing blockIndex reads world).1.state.pending = world.state.pending ∧
      (sendListing blockIndex reads world).1.ledger.fate =
        world.ledger.fate := by
  rw [TokenLaunch.sendListing]
  split
  · exact ⟨rfl, rfl⟩
  split
  · exact ⟨rfl, rfl⟩
  split
  · exact ⟨rfl, rfl⟩
  · exact ⟨rfl, rfl⟩

theorem advanceListing_frame (blockIndex : Nat) (reads : Reads) :
    (advanceListing blockIndex reads world).1.state.pending =
        world.state.pending ∧
      (advanceListing blockIndex reads world).1.ledger.fate =
        world.ledger.fate := by
  have first := @settleListing_frame world blockIndex reads
  rw [TokenLaunch.advanceListing]
  split
  · rename_i result outcome
    rw [outcome] at first
    have second := @sendListing_frame result blockIndex reads
    exact ⟨second.1.trans first.1, second.2.trans first.2⟩
  · rename_i result flow outcome
    rw [outcome] at first
    exact first

theorem Kept.advanceListing
    (kept : Kept config world) (answered : Answered blockIndex reads world) :
    Kept config (advanceListing blockIndex reads world).1 := by
  have settled := kept.settleListing answered
  rw [TokenLaunch.advanceListing]
  split
  · rename_i result outcome
    rw [outcome] at settled
    exact settled.sendListing blockIndex reads
  · rename_i result flow outcome
    rw [outcome] at settled
    exact settled

/-! ## Swaps -/

theorem Kept.leavesSwap
    (kept : Kept config world) {pending : Pending}
    (waited : world.state.pending = some pending)
    (sent : ledger.sent = world.ledger.sent)
    (account : Accounted (progress world.state) (outstanding world.state)
      ledger)
    (timely : ledger.Timely)
    (onward : ∀ kind, progress world.state kind ≤ progress state kind)
    (phase : state.phase = world.state.phase)
    (listing : state.listing = world.state.listing)
    (left : state.pending = none)
    (covered : ∀ attempt ∈ ledger.sent, attempt.id = pending.hash →
      attempt.kind = pending.kind.kind → ledger.Live attempt →
        progress world.state pending.kind.kind + pending.amountIn ≤
          progress state pending.kind.kind) :
    Kept config ⟨state, ledger⟩ := by
  have awaits :
      outstanding world.state pending.kind.kind = some pending.hash := by
    cases side : pending.kind with
    | buy => simp [outstanding, Side.kind, waited, side]
    | sell => simp [outstanding, Side.kind, waited, side]
  have moved : outstanding state =
      Function.update (outstanding world.state) pending.kind.kind none := by
    funext kind
    cases side : pending.kind with
    | buy =>
        cases kind <;>
          simp [outstanding, Side.kind, waited, side, left, phase, listing]
    | sell =>
        cases kind <;>
          simp [outstanding, Side.kind, waited, side, left, phase, listing]
  constructor
  · rw [moved]
    apply (account.advance onward).finish
    intro attempt attemptSent same awaited live
    rw [awaits] at awaited
    have identified : attempt.id = pending.hash :=
      (Option.some.inj awaited).symm
    have enough := covered attempt attemptSent identified same live
    have begun := account.begun attempt attemptSent
        (by rw [same, awaits, identified])
    rw [sent] at attemptSent
    have carried := kept.carried attempt attemptSent pending waited identified
    rw [same] at begun
    rw [Attempt.stop, carried]
    omega
  · intro attempt attemptSent same
    rw [sent] at attemptSent
    exact kept.unit attempt attemptSent same
  · intro attempt attemptSent awaited same
    rw [left] at same
    cases same
  · intro awaited same
    rw [left] at same
    cases same
  · intro attempt attemptSent same
    rw [sent] at attemptSent
    exact kept.inside attempt attemptSent same
  · exact timely

/-- Settling a swap keeps the account, and goes on only with nothing
pending. -/
theorem Kept.settlePending
    (kept : Kept config world)
    (answered : ∀ pending, world.state.pending = some pending →
      timedOut blockIndex pending.blockIndex →
        world.ledger.fate pending.hash = .landed →
          reads.pendingReceipt = true) :
    Kept config (settlePending blockIndex reads world).1 ∧
      ((settlePending blockIndex reads world).2 = .onward →
        (settlePending blockIndex reads world).1.state.pending = none) := by
  rw [TokenLaunch.settlePending]
  split
  · rename_i idle
    exact ⟨kept, fun _ => idle⟩
  rename_i pending waited
  split
  · rename_i unread
    split
    · rename_i late
      refine ⟨?_, fun _ => rfl⟩
      have flying :=
        not_landed_of_receipt_eq_none unread (answered pending waited late)
      have same :
          (world.ledger.abandon pending.hash).sent = world.ledger.sent :=
        rfl
      dsimp only
      apply kept.leavesSwap waited same (kept.accounted.abandon pending.hash)
        (timely_abandon kept.timely flying)
      · intro kind
        cases kind <;> exact le_rfl
      · rfl
      · rfl
      · rfl
      · intro attempt sent identified kind live
        rw [← identified] at live
        exact absurd live not_live_abandon
    · exact ⟨kept, fun onward => nomatch onward⟩
  · rename_i reverted
    refine ⟨?_, fun _ => rfl⟩
    dsimp only
    apply kept.leavesSwap waited rfl kept.accounted kept.timely
    · intro kind
      cases kind <;> exact le_rfl
    · rfl
    · rfl
    · rfl
    · intro attempt sent identified kind live
      have fate := receipt_eq_some_false reverted
      rw [← identified] at fate
      exact absurd live (not_live_of_reverted fate)
  · cases side : pending.kind with
    | buy =>
        refine ⟨?_, fun _ => rfl⟩
        dsimp only
        apply kept.leavesSwap waited rfl kept.accounted kept.timely
        · intro kind
          cases kind with
          | buy => exact Nat.le_add_right _ _
          | _ => exact le_rfl
        · rfl
        · rfl
        · rfl
        · intro attempt sent identified kind live
          rw [side]
          exact le_rfl
    | sell =>
        dsimp only
        split
        · refine ⟨?_, fun onward => nomatch onward⟩
          have onward : ∀ kind, progress world.state kind ≤ progress
              { world.state with
                    tokensSold := world.state.tokensSold + pending.amountIn }
                  kind := by
            intro kind
            cases kind with
            | sell => exact Nat.le_add_right _ _
            | _ => exact le_rfl
          exact
            { accounted := kept.accounted.advance onward
              unit := kept.unit
              carried := kept.carried
              older := kept.older
              inside := kept.inside
              timely := kept.timely }
        · refine ⟨?_, fun _ => rfl⟩
          dsimp only
          apply kept.leavesSwap waited rfl kept.accounted kept.timely
          · intro kind
            cases kind with
            | sell => exact Nat.le_add_right _ _
            | _ => exact le_rfl
          · rfl
          · rfl
          · rfl
          · intro attempt sent identified kind live
            rw [side]
            exact le_rfl

theorem Kept.sendApproval
    (kept : Kept config world) (idle : world.state.pending = none)
    {side : Side} {ready : World}
    (sent : sendApproval side reads world = some ready) :
    Kept config ready ∧ ready.state.pending = none ∧
      ready.state.grossBuyUsdc = world.state.grossBuyUsdc := by
  rw [TokenLaunch.sendApproval] at sent
  split at sent
  · cases sent
    exact ⟨kept, idle, rfl⟩
  rename_i unapproved
  split at sent
  · cases sent
    have started : progress world.state side.approval = 0 := by
      cases side with
      | buy => exact if_neg unapproved
      | sell => exact if_neg unapproved
    have free : outstanding world.state side.approval = none := by
      cases side <;> rfl
    have waited : outstanding (withApproval world.state side) =
        outstanding world.state := by
      funext kind
      cases side <;> cases kind <;> rfl
    have idle' : (withApproval world.state side).pending = none := by
      cases side <;> exact idle
    refine ⟨?_, idle', by cases side <;> rfl⟩
    constructor
    · rw [waited, ← started]
      apply kept.accounted.perform free
      · intro kind
        cases side with
        | buy =>
            cases kind with
            | approveUsdc =>
                change progress world.state Side.buy.approval ≤ _
                rw [started]
                exact Nat.zero_le _
            | _ => exact le_rfl
        | sell =>
            cases kind with
            | approveToken =>
                change progress world.state Side.sell.approval ≤ _
                rw [started]
                exact Nat.zero_le _
            | _ => exact le_rfl
      · rw [started]
        cases side <;> exact le_rfl
    · intro attempt listed same
      rcases List.mem_append.mp listed with old | new
      · exact kept.unit attempt old same
      · rw [List.mem_singleton.mp new] at same
        cases side <;> cases same
    · intro attempt listed pending awaited
      rw [idle'] at awaited
      cases awaited
    · intro pending awaited
      rw [idle'] at awaited
      cases awaited
    · intro attempt listed same
      rcases List.mem_append.mp listed with old | new
      · exact kept.inside attempt old same
      · rw [List.mem_singleton.mp new] at same
        cases side <;> cases same
    · exact kept.timely
  · cases sent

/-- A swap sent with nothing pending keeps the account; a buy must stay within
the wave. -/
theorem Kept.sendSwap
    (kept : Kept config world) (idle : world.state.pending = none)
    {side : Side} {amountIn : Nat}
    (within : side = .buy →
      world.state.grossBuyUsdc + amountIn ≤ waveUsdcUnits config.launch)
    (usdcBefore blockIndex : Nat) (reads : Reads) :
    Kept config (sendSwap side amountIn usdcBefore blockIndex reads world) := by
  rw [TokenLaunch.sendSwap]
  split
  · exact kept
  · exact kept
  split
  · split
    · exact kept
    · rename_i ready sent
      obtain ⟨readyKept, readyIdle, gross⟩ := kept.sendApproval idle sent
      split
      · apply readyKept.sends
        · cases side <;> simp [outstanding, Side.kind, readyIdle]
        · funext kind
          cases kind <;> rfl
        · funext kind
          cases side <;> cases kind <;>
            simp [outstanding, Side.kind, readyIdle]
        · intro pending awaited
          cases awaited
          exact Or.inr ⟨rfl, rfl⟩
        · intro same
          cases side <;> cases same
        · intro same
          cases side with
          | buy =>
              change ready.state.grossBuyUsdc + amountIn ≤ _
              rw [gross]
              exact within rfl
          | sell => cases same
      · exact readyKept
  · exact kept

/-! ## The wave -/

theorem Kept.stepSell
    (kept : Kept config world) (idle : world.state.pending = none)
    (sellBackFrac : ℚ) (usdcNow blockIndex : Nat) (reads : Reads) :
    Kept config (stepSell sellBackFrac usdcNow blockIndex reads world) := by
  rw [TokenLaunch.stepSell]
  split
  · split
    · exact kept
    · rename_i held _
      have begun : Kept config { world with
              state := { world.state with
                  heldAtDecayStart :=
                    some (world.state.heldAtDecayStart.getD held) } } :=
        kept.frame (by funext kind; cases kind <;> rfl)
          (by funext kind; cases kind <;> rfl) rfl
      dsimp only
      split
      · split
        · apply begun.sendSwap idle
          intro absurdity
          cases absurdity
        · exact begun
      · exact begun
  · exact kept

theorem waveTargets_le
    {state : TokenLaunchState} {blockIndex : Nat}
    (short : state.grossBuyUsdc < (waveTargets config state
        (tokenLaunchTargetAt config.event config.launch blockIndex)).1) :
    (waveTargets config state
        (tokenLaunchTargetAt config.event config.launch blockIndex)).1 ≤
      waveUsdcUnits config.launch := by
  rw [waveTargets] at short ⊢
  split
  · exact waveBuyTargetUnits_le config.event config.launch blockIndex
  · rename_i stopped capped
    rw [capped] at short
    exact absurd short (lt_irrefl _)

theorem Kept.stepWave
    (kept : Kept config world) (idle : world.state.pending = none)
    (blockIndex : Nat) (reads : Reads) :
    Kept config (stepWave config blockIndex reads world) := by
  rw [TokenLaunch.stepWave]
  split
  · exact kept
  rename_i usdcNow _
  have opened : Kept config { world with
          state := { world.state with
              waveStartUsdc :=
                some (world.state.waveStartUsdc.getD usdcNow) } } :=
    kept.frame (by funext kind; cases kind <;> rfl)
      (by funext kind; cases kind <;> rfl) rfl
  dsimp only
  split
  · rename_i due
    split
    · exact opened
    split
    · exact opened.frame (by funext kind; cases kind <;> rfl)
          (by funext kind; cases kind <;> rfl) rfl
    split
    · apply opened.sendSwap idle
      intro _
      have target := @waveTargets_le config { world.state with
            waveStartUsdc := some (world.state.waveStartUsdc.getD usdcNow) }
          blockIndex (Nat.lt_of_sub_pos due.1)
      have enough := Nat.lt_of_sub_pos due.1
      refine le_trans ?_ target
      refine le_trans (Nat.add_le_add_left (min_le_left _ _) _) ?_
      exact (Nat.add_sub_of_le enough.le).le
    · exact opened.stepSell idle _ usdcNow blockIndex reads
  · exact opened.stepSell idle _ usdcNow blockIndex reads

theorem Kept.stepLive
    (kept : Kept config world)
    (answered : ∀ pending, world.state.pending = some pending →
      timedOut blockIndex pending.blockIndex →
        world.ledger.fate pending.hash = .landed →
          reads.pendingReceipt = true) :
    Kept config (stepLive config blockIndex reads world) := by
  rw [TokenLaunch.stepLive]
  split
  · exact kept
  obtain ⟨settled, free⟩ := kept.settlePending answered
  split
  · rename_i result outcome
    rw [outcome] at settled free
    split
    · exact settled
    · exact settled.stepWave (free rfl) blockIndex reads
  · rename_i result flow outcome
    rw [outcome] at settled
    exact settled

theorem Kept.reportClosed
    (kept : Kept config world) (blockIndex : Nat) :
    Kept config (reportClosed config blockIndex world) ∧
      (reportClosed config blockIndex world).state.pending =
          world.state.pending ∧
        (reportClosed config blockIndex world).ledger = world.ledger := by
  rw [TokenLaunch.reportClosed]
  split
  · refine ⟨kept.frame ?_ ?_ rfl, rfl, rfl⟩
    · funext kind
      cases kind <;> rfl
    · funext kind
      cases kind <;> rfl
  · exact ⟨kept, rfl, rfl⟩

theorem Kept.stepLaunch
    (kept : Kept config world) (answered : Answered blockIndex reads world) :
    Kept config (stepLaunch config blockIndex reads world) := by
  rw [TokenLaunch.stepLaunch]
  split
  · split
    · have advanced := kept.advanceListing answered
      obtain ⟨pendingSame, fateSame⟩ :=
        @advanceListing_frame world blockIndex reads
      split
      · rename_i result outcome
        rw [outcome] at advanced
        exact advanced
      · rename_i result flow outcome
        rw [outcome] at advanced pendingSame fateSame
        obtain ⟨reported, same, ledger⟩ := advanced.reportClosed blockIndex
        apply reported.stepLive
        intro pending awaited late landed
        rw [same, pendingSame] at awaited
        rw [ledger, fateSame] at landed
        exact answered.swap pending awaited late landed
    · obtain ⟨reported, same, ledger⟩ := kept.reportClosed blockIndex
      apply reported.stepLive
      intro pending awaited late landed
      rw [same] at awaited
      rw [ledger] at landed
      exact answered.swap pending awaited late landed
  · exact kept

variable {Index : Type} [DecidableEq Index] {configs : Index → Config}
    {worlds : Index → World}

theorem Kept.comeDown
    {fate : Fate} {index : Index} {next : Index → World}
    (kept : ∀ launch, Kept (configs launch) (worlds launch))
    (inTime : fate = .landed → hash ∉ (worlds index).ledger.abandoned)
    (down : comeDown fate index hash worlds = some next) :
    ∀ launch, Kept (configs launch) (next launch) := by
  rw [TokenLaunch.comeDown] at down
  dsimp only at down
  split at down
  · rename_i flying
    cases down
    intro launch
    by_cases same : launch = index
    · subst same
      rw [Function.update_self]
      exact (kept launch).comesDown flying.2 inTime
    · rw [Function.update_of_ne same]
      exact kept launch
  · cases down

/-- Nothing the driver gave up lands: a block reads the receipt of what it
would otherwise give up, and what was given up stays down. -/
def NoLateLanding (worlds : Index → World) : Event Index → Prop
  | .block blockIndex reads =>
      ∀ index, Answered blockIndex (reads index) (worlds index)
  | .land index hash => hash ∉ (worlds index).ledger.abandoned
  | .revert _ _ => True
  | .drop _ _ => True

/-- The quote currency a wave has spent: what its buys that landed took. -/
def spentUsdc (world : World) : Nat :=
  ((world.ledger.landed.filter fun attempt => attempt.kind = .buy).map
    Attempt.length).sum

/-- A launch within its budget: its wave spent no more than its units, and no
two transactions that landed did the same work. -/
structure WithinBudget (config : Config) (world : World) : Prop where
  spent : spentUsdc world ≤ waveUsdcUnits config.launch
  once : ∀ first ∈ world.ledger.landed, ∀ second ∈ world.ledger.landed,
      first.kind = second.kind → first ≠ second → Apart first second

theorem kept_of_reachable
    (reachable : (launchSystem configs).Reachable NoLateLanding worlds) :
    ∀ index, Kept (configs index) (worlds index) := by
  apply @System.Reachable.invariant _ _ (launchSystem configs) NoLateLanding
    (fun worlds => ∀ index, Kept (configs index) (worlds index)) worlds
    _ _ reachable
  · intro start initial index
    rw [initial index]
    exact kept_staged
  · intro before event after kept inTime happens
    cases event with
    | block blockIndex reads =>
        cases happens
        exact fun index => (kept index).stepLaunch (inTime index)
    | land index hash => exact Kept.comeDown kept (fun _ => inTime) happens
    | revert index hash =>
        have never :
            Fate.reverted = .landed → hash ∉ (before index).ledger.abandoned :=
          fun same => nomatch same
        exact Kept.comeDown kept never happens
    | drop index hash =>
        have never :
            Fate.dropped = .landed → hash ∉ (before index).ledger.abandoned :=
          fun same => nomatch same
        exact Kept.comeDown kept never happens

def oneBlockEvent : ResolvedStressEvent where
  startBlock := 0
  endBlock := 4
  rampBlocks := 1
  holdBlocks := 1
  decayBlocks := 1

/-- A wave of one USDC against a pool of one USDC, bought in one block. -/
def oneUsdcLaunch : ResolvedTokenLaunch where
  liquidityUsdc := 1
  waveUsdcMult := 1
  waveBlockUsdcMult := none
  rampBlocks := none
  dud := false
  sellBackFrac := 1 / 2
  priceCeilingMult := none
  lengths := rfl

def oneLaunch (_ : Unit) : Config where
  event := oneBlockEvent
  launch := oneUsdcLaunch

/-- A chain that answers everything, the wave wallet holding what it was
funded with. -/
def answering (_ : Unit) : Reads where
  listingReceipt := true
  listingPool := true
  launchedLog := true
  listingSend := true
  pendingReceipt := true
  balanceAfterSell := some 320000000000
  usdcNow := some 320000000000
  price := some 1
  held := some 0
  quoted := some 1000000000000000000
  nonce := true
  approveSend := true
  swapSend := true

/-- The listing lands, and so does the whole wave. -/
def promptRun : List (Event Unit) :=
  [.block 0 answering, .land () 0, .block 1 answering, .block 2 answering,
    .land () 1, .land () 2, .block 3 answering]

/-- The buy of the wave is still in the pool when it is given up, and lands
together with the one sent in its place. -/
def lateRun : List (Event Unit) :=
  [.block 0 answering, .land () 0, .block 1 answering, .block 2 answering,
    .land () 1, .block 5 answering, .land () 2, .land () 3]

def execute (worlds : Unit → World) (event : Event Unit) :
    Option (Event Unit × (Unit → World)) :=
  (happen oneLaunch worlds event).map fun next => (event, next)

theorem execute_sound
    (worlds : Unit → World) (event : Event Unit)
    (done : Event Unit × (Unit → World)) (_ : True)
    (ran : execute worlds event = some done) :
    (launchSystem oneLaunch).step worlds done.1 done.2 := by
  obtain ⟨next, happens, rfl⟩ := Option.map_eq_some_iff.mp ran
  exact happens

/-- Every receipt is read, and nothing given up lands. -/
def prompt (worlds : Unit → World) : Event Unit → Prop
  | .block _ reads =>
      (reads ()).listingReceipt = true ∧ (reads ()).pendingReceipt = true
  | .land _ hash => hash ∉ (worlds ()).ledger.abandoned
  | .revert _ _ => True
  | .drop _ _ => True

instance (worlds : Unit → World) :
    (event : Event Unit) → Decidable (prompt worlds event)
  | .block _ reads =>
      inferInstanceAs (Decidable
          ((reads ()).listingReceipt = true ∧ (reads ()).pendingReceipt = true))
  | .land _ hash =>
      inferInstanceAs (Decidable (hash ∉ (worlds ()).ledger.abandoned))
  | .revert _ _ => inferInstanceAs (Decidable True)
  | .drop _ _ => inferInstanceAs (Decidable True)

theorem noLateLanding_of_prompt
    (worlds : Unit → World) (event : Event Unit)
    (timely : prompt worlds event) : NoLateLanding worlds event := by
  cases event with
  | block blockIndex reads =>
      exact fun _ => ⟨fun _ _ _ _ => timely.1, fun _ _ _ _ => timely.2⟩
  | land index hash => exact timely
  | revert index hash => trivial
  | drop index hash => trivial

def stagedWorlds (_ : Unit) : World := ⟨stagedState, Ledger.empty⟩

theorem reachable_of_script
    {allowed : (Unit → World) → Event Unit → Prop}
    [∀ worlds event, Decidable (allowed worlds event)]
    {events : List (Event Unit)} {reached : Unit → World}
    (ran : script execute allowed events stagedWorlds = some reached) :
    (launchSystem oneLaunch).Reachable allowed reached := by
  obtain ⟨total, run⟩ :=
    @script_costed _ _ _ execute allowed _ (launchSystem oneLaunch)
      (fun _ => True) execute_sound (fun _ => 0) events stagedWorlds reached
      (fun _ _ => trivial) ran
  exact ⟨stagedWorlds, fun _ => rfl, run.runs⟩

end Eris.Launch.Budget
