import Eris.Vault.Solvency

/-!
# The redemption rate

A share never loses value except in a slash, and the shares locked by the
first deposit keep the pool and its supply away from zero.  That rests on the
holder of the locked shares never acting: nobody else can move them.
-/

namespace Eris.Vault.RedemptionRate

open Foundation Foundation.Checked Foundation.Ledger Foundation.SharePool
  Foundation.Transition Evm.Word Evm.Erc20 Data Contract Operations Protocol
  Solvency

variable {d : Deployment} {ctx : Context} {w w' : World} {s s' : Storage}
    {operation : Operation}

def ratePool (s : Storage) : Pool :=
  ⟨s.totalPooledWeth.toNat, s.totalSupply.toNat⟩

/-! ## The locked shares -/

/-- The locked shares are in place, and something backs them. -/
structure Seeded (s : Storage) : Prop where
  locked : BOOTSTRAP_BURN_SHARES.toNat ≤ (s.balanceOf BURN_ADDRESS).toNat
  backed : 0 < s.totalPooledWeth.toNat

structure Fresh (s : Storage) : Prop where
  unissued : s.totalSupply = 0
  unpooled : s.totalPooledWeth = 0

/-- The holder of the locked shares has approved nobody. -/
def Unspendable (s : Storage) : Prop :=
  ∀ spender, s.allowance BURN_ADDRESS spender = 0

structure Guarded (s : Storage) : Prop where
  unspendable : Unspendable s
  adds : SharesAddUp s
  phase : Fresh s ∨ Seeded s

theorem Seeded.supply_ge
    (seeded : Seeded s) (adds : SharesAddUp s) :
    BOOTSTRAP_BURN_SHARES.toNat ≤ s.totalSupply.toNat := by
  have held :=
    entry_le_total (fun account => (s.balanceOf account).toNat) BURN_ADDRESS
  rw [adds] at held
  exact le_trans seeded.locked held

theorem Seeded.supply_pos (seeded : Seeded s) (adds : SharesAddUp s) :
    0 < s.totalSupply.toNat :=
  lt_of_lt_of_le (by decide) (seeded.supply_ge adds)

theorem Seeded.live (seeded : Seeded s) (adds : SharesAddUp s) :
    ¬ (s.totalSupply = 0 ∨ s.totalPooledWeth = 0) := by
  rintro (unissued | unpooled)
  · exact (toNat_pos_iff _).mp (seeded.supply_pos adds) unissued
  · exact (toNat_pos_iff _).mp seeded.backed unpooled

theorem Seeded.convertToShares_eq
    (seeded : Seeded s) (adds : SharesAddUp s) (assets : U256) :
    convertToShares assets s =
      mulDivDown assets s.totalSupply s.totalPooledWeth :=
  if_neg (seeded.live adds)

theorem Seeded.convertToAssets_eq
    (seeded : Seeded s) (adds : SharesAddUp s) (shares : U256) :
    convertToAssets shares s =
      mulDivDown shares s.totalPooledWeth s.totalSupply :=
  if_neg (seeded.live adds)

theorem Guarded.seeded_of_live
    (guarded : Guarded s) (live : s.totalSupply ≠ 0) : Seeded s := by
  rcases guarded.phase with fresh | seeded
  · exact absurd fresh.unissued live
  · exact seeded

theorem Guarded.fresh_of_unissued
    (guarded : Guarded s) (unissued : s.totalSupply = 0) : Fresh s := by
  rcases guarded.phase with fresh | seeded
  · exact fresh
  · exact absurd (.inl unissued) (seeded.live guarded.adds)

theorem request_lt_pooled
    {shares assets supply balance : U256}
    (seeded : Seeded s) (adds : SharesAddUp s)
    {sender : Address} (other : sender ≠ BURN_ADDRESS)
    (priced : convertToAssets shares s = .ok assets)
    (burned : Burned s sender shares supply balance) :
    assets.toNat < s.totalPooledWeth.toNat := by
  rw [seeded.convertToAssets_eq adds] at priced
  have held :=
    two_entries_le_total (fun account => (s.balanceOf account).toNat) other
  have locked := seeded.locked
  have constant : BOOTSTRAP_BURN_SHARES.toNat = 1000000 := rfl
  have fewer : shares.toNat < s.totalSupply.toNat := by
    rw [adds] at held
    have part := burned.balance
    omega
  rw [(mulDivDown_eq_ok.mp priced).2.2, mulDivFloor]
  apply Nat.div_lt_of_lt_mul
  exact Nat.mul_lt_mul_of_pos_right fewer seeded.backed

theorem slash_lt_pooled
    {pooled bps slashed : Nat} (backed : 0 < pooled) (partially : bps < 10000)
    (cut : slashed = mulDivFloor pooled bps 10000) :
    slashed < pooled := by
  rw [cut, mulDivFloor]
  apply Nat.div_lt_of_lt_mul
  rw [Nat.mul_comm 10000 pooled]
  exact Nat.mul_lt_mul_of_pos_left partially backed

@[simp]
theorem withShares_balanceOf_self
    (s : Storage) (account : Address) (supply balance : U256) :
    (withShares s account supply balance).balanceOf account = balance :=
  Function.update_self _ _ _

theorem minted_ge
    {recipient : Address} {amount supply balance : U256} (account : Address)
    (minted : Minted s recipient amount supply balance) :
    (s.balanceOf account).toNat ≤
      ((withShares s recipient supply balance).balanceOf account).toNat := by
  show _ ≤ (Function.update s.balanceOf recipient balance account).toNat
  by_cases same : account = recipient
  · subst account
    rw [Function.update_self, minted.balance]
    exact Nat.le_add_right _ _
  · rw [Function.update_of_ne same]

/-- The operation takes shares away from `account`. -/
def Takes (ctx : Context) (account : Address) : Operation → Prop
  | .request _ _ _ => ctx.msgSender = account
  | .move sender _ amount => sender = account ∧ 0 < amount.toNat
  | _ => False

theorem balance_le_of_operated
    {account : Address} (untaken : ¬ Takes ctx account operation)
    (operated : Operated d ctx w operation w') :
    (w.vault.balanceOf account).toNat ≤ (w'.vault.balanceOf account).toNat := by
  cases operated with
  | bootstrap empty enough some given locked minted paid =>
      exact le_trans (minted_ge _ locked) (minted_ge _ minted)
  | deposit live priced some given minted paid =>
      exact minted_ge _ minted
  | request =>
      show _ ≤ (Function.update w.vault.balanceOf _ _ account).toNat
      rw [Function.update_of_ne (Ne.symm untaken)]
  | @move sender recipient amount debited credited allowance entitled spent
      debit credit =>
      have kept : (w.vault.balanceOf account).toNat ≤
          (Function.update w.vault.balanceOf sender debited account).toNat := by
        by_cases isSender : account = sender
        · have nothing : amount.toNat = 0 := by
            by_contra something
            exact untaken ⟨isSender.symm, Nat.pos_of_ne_zero something⟩
          subst isSender
          rw [Function.update_self, ← debit, nothing, Nat.add_zero]
        · rw [Function.update_of_ne isSender]
      refine le_trans kept ?_
      dsimp only
      by_cases isRecipient : account = recipient
      · subst isRecipient
        rw [Function.update_self, credit]
        exact Nat.le_add_right _ _
      · rw [Function.update_of_ne isRecipient]
  | _ => exact le_refl _

theorem untaken_of_unspendable
    (unspendable : Unspendable w.vault) (other : ctx.msgSender ≠ BURN_ADDRESS)
    (operated : Operated d ctx w operation w') :
    ¬ Takes ctx BURN_ADDRESS operation := by
  intro takes
  cases operated with
  | request => exact other takes
  | move entitled =>
      rcases takes with ⟨rfl, positive⟩
      rcases entitled with itself | allowed
      · exact other itself.symm
      · rw [unspendable] at allowed
        exact absurd positive (Nat.not_lt.mpr allowed)
  | _ => exact takes

theorem unspendable_of_operated
    (unspendable : Unspendable w.vault) (other : ctx.msgSender ≠ BURN_ADDRESS)
    (operated : Operated d ctx w operation w') :
    Unspendable w'.vault := by
  cases operated with
  | approve =>
      intro account
      show Function.update w.vault.allowance ctx.msgSender _ BURN_ADDRESS
          account = 0
      rw [Function.update_of_ne other.symm]
      exact unspendable account
  | move entitled spent debit credit =>
      intro account
      have less := spent BURN_ADDRESS account
      rw [unspendable account] at less
      exact eq_zero_of_toNat (Nat.le_zero.mp less)
  | _ => exact unspendable

theorem seeded_of_operated
    (seeded : Seeded w.vault) (adds : SharesAddUp w.vault)
    (unspendable : Unspendable w.vault) (other : ctx.msgSender ≠ BURN_ADDRESS)
    (operated : Operated d ctx w operation w') :
    Seeded w'.vault := by
  have backed := seeded.backed
  constructor
  · have untaken := untaken_of_unspendable unspendable other operated
    exact le_trans seeded.locked (balance_le_of_operated untaken operated)
  · cases operated with
    | accrue late live taken given =>
        exact lt_of_lt_of_le backed (given ▸ Nat.le_add_right _ _)
    | bootstrap empty enough some given =>
        exact lt_of_lt_of_le backed (given ▸ Nat.le_add_right _ _)
    | deposit live priced some given =>
        exact lt_of_lt_of_le backed (given ▸ Nat.le_add_right _ _)
    | request priced some burned taken =>
        have less := request_lt_pooled seeded adds other priced burned
        rw [← taken] at less
        exact Nat.pos_of_lt_add_left less
    | slash entitled partially cut taken =>
        have less := slash_lt_pooled backed partially cut
        rw [← taken] at less
        exact Nat.pos_of_lt_add_left less
    | _ => exact backed

theorem phase_of_fresh
    (fresh : Fresh w.vault) (operated : Operated d ctx w operation w') :
    Fresh w'.vault ∨ Seeded w'.vault := by
  rcases fresh with ⟨unissued, unpooled⟩
  cases operated with
  | accrue late live => exact absurd unissued live
  | bootstrap empty enough some given locked minted paid =>
      right
      refine ⟨?_, ?_⟩
      · refine le_trans ?_ (minted_ge BURN_ADDRESS minted)
        rw [withShares_balanceOf_self, locked.balance]
        exact Nat.le_add_left _ _
      · dsimp only
        omega
  | deposit live => exact absurd unissued live
  | request priced some burned =>
      have nothing := burned.supply
      rw [unissued] at nothing
      rw [convertToAssets, if_pos (.inl unissued)] at priced
      cases pure_eq_ok.mp priced
      exact absurd some (by simp at nothing; omega)
  | slash entitled partially cut taken paid =>
      left
      refine ⟨unissued, ?_⟩
      rw [unpooled] at taken
      exact eq_zero_of_toNat (Nat.eq_zero_of_add_eq_zero_right taken)
  | _ => exact .inl ⟨unissued, unpooled⟩

/-! ## Nobody acts for the holder of the locked shares -/

/-- The holder of the locked shares makes no call. -/
def Acting (_ : World) : Action → Prop
  | .call ctx _ => ctx.msgSender ≠ BURN_ADDRESS
  | .weth _ _ => True

def Unslashed (w : World) (action : Action) : Prop :=
  Acting w action ∧ ∀ ctx bps, action ≠ .call ctx (.slash bps)

def ActingLabel (_ : World) : Label → Prop
  | .operation ctx _ => ctx.msgSender ≠ BURN_ADDRESS
  | .weth _ _ => True

def UnslashedLabel (w : World) (label : Label) : Prop :=
  ActingLabel w label ∧ ∀ ctx assets, label ≠ .operation ctx (.slash assets)

theorem covers_acting : Covers Acting ActingLabel :=
  ⟨fun _ _ _ _ _ acting _ => acting, fun _ _ _ _ => trivial⟩

theorem slash_of_performs
    {call : Call} {assets : U256}
    (performs : Call.performs ctx call (.slash assets)) :
    ∃ bps, call = .slash bps := by
  cases call with
  | slash bps => exact ⟨bps, rfl⟩
  | deposit =>
      rcases performs with ⟨_, equal | equal⟩
      · cases equal
      · cases equal
  | requestWithdraw =>
      rcases performs with ⟨_, _, equal⟩
      cases equal
  | redeem =>
      rcases performs with ⟨_, _, equal⟩
      cases equal
  | withdraw =>
      rcases performs with ⟨_, _, _, equal⟩
      cases equal
  | claimAllWithdrawals =>
      rcases performs with ⟨_, equal⟩
      cases equal
  | accrueRewards => exact performs.elim
  | setRewardRate =>
      rcases performs with none | equal
      · exact none.elim
      · cases equal
  | _ => cases performs

theorem covers_unslashed : Covers Unslashed UnslashedLabel := by
  constructor
  · intro world inside ctx call operation allowed performs
    refine ⟨allowed.1, ?_⟩
    intro other assets equal
    cases equal
    rcases slash_of_performs performs with ⟨bps, rfl⟩
    exact allowed.2 ctx bps rfl
  · intro world caller call _
    exact ⟨trivial, fun _ _ equal => by cases equal⟩

theorem guarded_of_operated
    (guarded : Guarded w.vault) (other : ctx.msgSender ≠ BURN_ADDRESS)
    (operated : Operated d ctx w operation w') :
    Guarded w'.vault := by
  rcases guarded with ⟨unspendable, adds, phase⟩
  constructor
  · exact unspendable_of_operated unspendable other operated
  · exact sharesAddUp_of_operated adds operated
  · rcases phase with fresh | seeded
    · exact phase_of_fresh fresh operated
    · exact .inr (seeded_of_operated seeded adds unspendable other operated)

theorem guarded_of_reachable
    (reachable : (ledger d).Reachable ActingLabel w) :
    Guarded w.vault := by
  refine storage_invariant ?_ ?_ reachable
  · intro blockNumber
    constructor
    · intro spender
      rfl
    · simp [SharesAddUp, Storage.deployed]
    · exact .inl ⟨rfl, rfl⟩
  · intro ctx operation w w' holds _ acting operated
    exact guarded_of_operated holds acting operated

theorem deposit_priceLe
    {assets shares pooled supply : U256}
    (seeded : Seeded s) (adds : SharesAddUp s)
    (priced : convertToShares assets s = .ok shares)
    (entered : Entered (ratePool s) ⟨pooled.toNat, supply.toNat⟩ assets.toNat
        shares.toNat) :
    PriceLe (ratePool s) ⟨pooled.toNat, supply.toNat⟩ := by
  rw [seeded.convertToShares_eq adds] at priced
  apply entered.priceLe_iff.mpr
  rw [(mulDivDown_eq_ok.mp priced).2.2]
  exact mulDivFloor_mul_le

theorem request_priceLe
    {shares assets pooled supply : U256}
    (seeded : Seeded s) (adds : SharesAddUp s)
    (priced : convertToAssets shares s = .ok assets)
    (entered : Entered ⟨pooled.toNat, supply.toNat⟩ (ratePool s) assets.toNat
        shares.toNat) :
    PriceLe (ratePool s) ⟨pooled.toNat, supply.toNat⟩ := by
  rw [seeded.convertToAssets_eq adds] at priced
  apply entered.leave_priceLe_iff.mpr
  rw [(mulDivDown_eq_ok.mp priced).2.2]
  exact mulDivFloor_mul_le

theorem priceLe_of_fresh (fresh : Fresh s) (pool : Pool) :
    PriceLe (ratePool s) pool := by
  show s.totalPooledWeth.toNat * _ ≤ _ * s.totalSupply.toNat
  rw [fresh.unpooled, fresh.unissued]
  simp

theorem ratePool_of_operated
    (guarded : Guarded w.vault)
    (unslashed : ∀ assets, operation ≠ .slash assets)
    (operated : Operated d ctx w operation w') :
    PriceLe (ratePool w.vault) (ratePool w'.vault) := by
  rcases guarded.phase with fresh | seeded
  · exact priceLe_of_fresh fresh _
  · cases operated with
    | accrue late live taken given =>
        apply PriceLe.of_assets_le
        rw [given]
        exact Nat.le_add_right _ _
    | bootstrap empty =>
        exact priceLe_of_fresh (guarded.fresh_of_unissued empty) _
    | deposit live priced some given minted paid =>
        exact deposit_priceLe seeded guarded.adds priced
          ⟨given.symm, minted.supply.symm⟩
    | request priced some burned taken =>
        exact request_priceLe seeded guarded.adds priced ⟨taken, burned.supply⟩
    | slash => exact absurd rfl (unslashed _)
    | _ => exact PriceLe.refl _

/-- What a run without a slash preserves, from a seeded vault on. -/
structure Risen (source : Storage) (w : World) : Prop where
  guarded : Guarded w.vault
  seeded : Seeded w.vault
  dearer : PriceLe (ratePool source) (ratePool w.vault)

theorem risen_of_runs
    (guarded : Guarded w.vault) (seeded : Seeded w.vault)
    (run : (ledger d).Runs UnslashedLabel w w') :
    Risen w.vault w' := by
  refine System.Runs.invariant ?_ run ⟨guarded, seeded, PriceLe.refl _⟩
  intro world label next holds permitted step
  cases label with
  | weth caller call =>
      rcases step with ⟨_, books, _, rfl⟩
      exact ⟨holds.guarded, holds.seeded, holds.dearer⟩
  | operation ctx operation =>
      rcases step with ⟨_, operated⟩
      have unslashed (assets : U256) : operation ≠ .slash assets := by
        rintro rfl
        exact permitted.2 ctx assets rfl
      have adds := holds.guarded.adds
      constructor
      · exact guarded_of_operated holds.guarded permitted.1 operated
      · exact seeded_of_operated holds.seeded adds holds.guarded.unspendable
          permitted.1 operated
      · exact holds.dearer.trans (holds.seeded.supply_pos adds)
          (ratePool_of_operated holds.guarded unslashed operated)

/-- Once seeded, the vault stays so, slashes included. -/
structure Stocked (w : World) : Prop where
  guarded : Guarded w.vault
  seeded : Seeded w.vault

theorem stocked_of_runs
    (stocked : Stocked w) (run : (ledger d).Runs ActingLabel w w') :
    Stocked w' := by
  refine System.Runs.invariant ?_ run stocked
  intro world label next holds acting step
  cases label with
  | weth caller call =>
      rcases step with ⟨_, books, _, rfl⟩
      exact ⟨holds.guarded, holds.seeded⟩
  | operation ctx operation =>
      rcases step with ⟨_, operated⟩
      constructor
      · exact guarded_of_operated holds.guarded acting operated
      · exact seeded_of_operated holds.seeded holds.guarded.adds
          holds.guarded.unspendable acting operated

/-- The empty-vault conversion is behind, and no division is by zero. -/
structure Divisible (s : Storage) : Prop where
  supply : 1000000 ≤ s.totalSupply.toNat
  pooled : 1 ≤ s.totalPooledWeth.toNat
  toShares : ∀ assets,
    convertToShares assets s = mulDivDown assets s.totalSupply s.totalPooledWeth
  toAssets : ∀ shares,
    convertToAssets shares s = mulDivDown shares s.totalPooledWeth s.totalSupply

theorem Stocked.divisible (stocked : Stocked w) : Divisible w.vault where
  supply := stocked.seeded.supply_ge stocked.guarded.adds
  pooled := stocked.seeded.backed
  toShares := stocked.seeded.convertToShares_eq stocked.guarded.adds
  toAssets := stocked.seeded.convertToAssets_eq stocked.guarded.adds

/--
No run without a slash lowers the redemption rate, and after the first
deposit the supply and the pool stay away from zero, slashes included.
-/
theorem redemptionRate_laws (reached : Reached d Acting w) :
    (∀ w', (vault d).Runs Unslashed w w' →
      w.vault.totalPooledWeth.toNat * w'.vault.totalSupply.toNat ≤
        w'.vault.totalPooledWeth.toNat * w.vault.totalSupply.toNat) ∧
      (w.vault.totalSupply ≠ 0 →
        ∀ w', (vault d).Runs Acting w w' → Divisible w'.vault) := by
  have guarded := guarded_of_reachable (reached_ledger covers_acting reached)
  constructor
  · intro w' run
    show PriceLe (ratePool w.vault) (ratePool w'.vault)
    rcases guarded.phase with fresh | seeded
    · exact priceLe_of_fresh fresh _
    · exact (risen_of_runs guarded seeded
        ((refines_ledger covers_unslashed).runs run)).dearer
  · intro live w' run
    have stocked : Stocked w := ⟨guarded, guarded.seeded_of_live live⟩
    exact (stocked_of_runs stocked
      ((refines_ledger covers_acting).runs run)).divisible

instance (w : World) (action : Action) : Decidable (Acting w action) :=
  match action with
  | .call _ _ => inferInstanceAs (Decidable (_ ≠ _))
  | .weth _ _ => .isTrue trivial

theorem redemptionRate_of_staked :
    ∃ w, script solo Acting staked soloWorld = some w ∧ Divisible w.vault := by
  have ran : (script solo Acting staked soloWorld).any (fun w =>
        decide (w.vault.totalSupply ≠ 0)) = true := by
    decide
  rcases (Option.any_eq_true _ _).mp ran with ⟨w, reaches, live⟩
  have reached := solo_reached staked_admissible reaches
  exact ⟨w, reaches, (redemptionRate_laws reached).2 (of_decide_eq_true live) w
    Relation.ReflTransGen.refl⟩

end Eris.Vault.RedemptionRate
