import Eris.Evm.Word
import Eris.Foundation.Ledger

/-!
# A standard ERC-20 token

The books of one token, as `MockERC20.sol` keeps them.  The two facts every
argument about a standard token rests on are carried by the structure: the
balances add up to the total supply, and the total supply stays below a cap.
Every operation has to re-establish them, so a token whose books do not add
up cannot be built.

Besides the calls of the contracts under study a token receives calls from
anybody else.  The last section shows that no such call takes anything from a
holder who has approved nobody.
-/

namespace Eris.Evm.Erc20

open Foundation.Checked Foundation.Ledger Word

/-- The books of a token whose total supply is below `supplyCap`. -/
structure Token (supplyCap : Nat) where
  balanceOf : Address → U256
  allowance : Address → Address → U256
  totalSupply : U256
  backed : ∑ account, (balanceOf account).toNat = totalSupply.toNat
  capped : totalSupply.toNat < supplyCap

namespace Token

variable {supplyCap : Nat} {sender caller recipient : Address} {amount : U256}
    {before after : Token supplyCap}

theorem balance_le_supply
    (token : Token supplyCap) (account : Address) :
    (token.balanceOf account).toNat ≤ token.totalSupply.toNat := by
  rw [← token.backed]
  exact entry_le_total (fun account => (token.balanceOf account).toNat) _

/-- The balances after taking `amount` from one account. -/
def debited
    (token : Token supplyCap) (sender : Address) (amount : U256) :
    Address → U256 :=
  Function.update token.balanceOf sender (token.balanceOf sender - amount)

theorem sum_debited
    (token : Token supplyCap)
    (enough : amount.toNat ≤ (token.balanceOf sender).toNat) :
    ∑ account, (token.debited sender amount account).toNat + amount.toNat =
      token.totalSupply.toNat := by
  have moved := total_of_eq_off sender
      (fun account => (token.balanceOf account).toNat)
      (fun account => (token.debited sender amount account).toNat)
      (fun account different => by
        rw [debited, Function.update_of_ne different])
  rw [token.backed, debited, Function.update_self,
    BitVec.toNat_sub_of_le (BitVec.le_def.mpr enough)] at moved
  unfold debited
  omega

theorem credit_fits
    (token : Token supplyCap)
    (enough : amount.toNat ≤ (token.balanceOf sender).toNat)
    (recipient : Address) :
    (token.debited sender amount recipient).toNat + amount.toNat < 2 ^ 256 := by
  have total := token.sum_debited enough
  have entry := entry_le_total
      (fun account => (token.debited sender amount account).toNat) recipient
  have bound := token.totalSupply.isLt
  omega

/-- Move `amount` between two accounts: `_transfer`. -/
def move
    (token : Token supplyCap) (sender recipient : Address) (amount : U256) :
    Outcome String (Token supplyCap) :=
  if enough : amount.toNat ≤ (token.balanceOf sender).toNat then
    .ok { token with
        balanceOf := Function.update (token.debited sender amount) recipient
            (token.debited sender amount recipient + amount)
        backed := by
          have moved := total_of_eq_off recipient (fun account =>
                (token.debited sender amount account).toNat)
              (fun account =>
                (Function.update (token.debited sender amount) recipient
                  (token.debited sender amount recipient + amount)
                  account).toNat)
              (fun account different => by
                rw [Function.update_of_ne different])
          have total := token.sum_debited enough
          rw [Function.update_self,
            BitVec.toNat_add_of_lt (token.credit_fits enough recipient)]
            at moved
          omega }
  else .error (.reason "balance")

def transfer
    (token : Token supplyCap) (caller recipient : Address) (amount : U256) :
    Outcome String (Token supplyCap) :=
  token.move caller recipient amount

def approve
    (token : Token supplyCap) (caller spender : Address) (amount : U256) :
    Token supplyCap :=
  { token with
    allowance := Function.update token.allowance caller
        (Function.update (token.allowance caller) spender amount) }

@[simp]
theorem approve_balanceOf
    (token : Token supplyCap) (caller spender : Address) (amount : U256) :
    (token.approve caller spender amount).balanceOf = token.balanceOf :=
  rfl

theorem approve_allowance_of_ne
    (token : Token supplyCap) {owner : Address} (different : owner ≠ caller)
    (spender : Address) (amount : U256) :
    (token.approve caller spender amount).allowance owner =
      token.allowance owner := by
  simp only [approve]
  rw [Function.update_of_ne different]

/-- `transferFrom`; the greatest allowance is never used up. -/
def transferFrom
    (token : Token supplyCap)
    (caller sender recipient : Address) (amount : U256) :
    Outcome String (Token supplyCap) := do
  let allowed := token.allowance sender caller
  if allowed = BitVec.allOnes 256 then
    token.move sender recipient amount
  else do
    require (amount.toNat ≤ allowed.toNat) "allowance"
    (token.approve sender caller (allowed - amount)).move
      sender recipient amount

/-- `mint`, as far as the cap allows it. -/
def mint
    (token : Token supplyCap) (recipient : Address) (amount : U256) :
    Outcome String (Token supplyCap) :=
  if fits :
      token.totalSupply.toNat + amount.toNat < min supplyCap (2 ^ 256) then
    .ok { token with
        balanceOf := Function.update token.balanceOf recipient
            (token.balanceOf recipient + amount)
        totalSupply := token.totalSupply + amount
        backed := by
          have supplyFits : token.totalSupply.toNat + amount.toNat < 2 ^ 256 :=
            lt_of_lt_of_le fits (min_le_right _ _)
          have entry := token.balance_le_supply recipient
          have moved := total_of_eq_off recipient
              (fun account => (token.balanceOf account).toNat)
              (fun account =>
                (Function.update token.balanceOf recipient
                  (token.balanceOf recipient + amount) account).toNat)
              (fun account different => by
                rw [Function.update_of_ne different])
          rw [token.backed, Function.update_self,
            BitVec.toNat_add_of_lt (by omega)] at moved
          rw [BitVec.toNat_add_of_lt supplyFits]
          omega
        capped := by
          rw [BitVec.toNat_add_of_lt (lt_of_lt_of_le fits (min_le_right _ _))]
          exact lt_of_lt_of_le fits (min_le_left _ _) }
  else .error .panic

/-- Destroy tokens of the caller, as `WETH9.withdraw` does. -/
def burn
    (token : Token supplyCap) (caller : Address) (amount : U256) :
    Outcome String (Token supplyCap) :=
  if enough : amount.toNat ≤ (token.balanceOf caller).toNat then
    .ok { token with
        balanceOf := token.debited caller amount
        totalSupply := token.totalSupply - amount
        backed := by
          have total := token.sum_debited enough
          have entry := token.balance_le_supply caller
          rw [BitVec.toNat_sub_of_le (BitVec.le_def.mpr (by omega))]
          omega
        capped := by
          have entry := token.balance_le_supply caller
          have bound := token.capped
          rw [BitVec.toNat_sub_of_le (BitVec.le_def.mpr (by omega))]
          omega }
  else .error (.reason "balance")

/-- All of the supply with one holder, who trusts one spender. -/
def issued
    (holder spender : Address) (amount : U256)
    (small : amount.toNat < supplyCap) : Token supplyCap where
  balanceOf := Function.update (fun _ => 0) holder amount
  allowance := Function.update (fun _ _ => 0) holder
      (Function.update (fun _ => 0) spender (BitVec.allOnes 256))
  totalSupply := amount
  backed := by
    have total := total_of_eq_off holder (fun _ => 0)
        (fun account =>
          (Function.update (fun _ : Address => (0 : U256)) holder amount
            account).toNat)
        (fun account different => by
          rw [Function.update_of_ne different]
          rfl)
    simpa using total
  capped := small

/-- `amount` left `sender` and reached `recipient`, and nothing else moved. -/
structure Moved
    (before after : Token supplyCap)
    (sender recipient : Address) (amount : U256) : Prop where
  enough : amount.toNat ≤ (before.balanceOf sender).toNat
  balance : ∀ account, (after.balanceOf account).toNat +
        (if account = sender then amount.toNat else 0) =
      (before.balanceOf account).toNat +
        (if account = recipient then amount.toNat else 0)

theorem Moved.amount_lt
    (moved : Moved before after sender recipient amount) :
    amount.toNat < supplyCap :=
  lt_of_le_of_lt (le_trans moved.enough (before.balance_le_supply sender))
    before.capped

theorem Moved.balance_recipient
    (moved : Moved before after sender recipient amount)
    (different : recipient ≠ sender) :
    (after.balanceOf recipient).toNat =
      (before.balanceOf recipient).toNat + amount.toNat := by
  simpa [different] using moved.balance recipient

theorem Moved.balance_sender
    (moved : Moved before after sender recipient amount)
    (different : recipient ≠ sender) :
    (after.balanceOf sender).toNat + amount.toNat =
      (before.balanceOf sender).toNat := by
  simpa [Ne.symm different] using moved.balance sender

theorem move_ok
    {token after : Token supplyCap} {sender recipient : Address} {amount : U256}
    (done : token.move sender recipient amount = .ok after) :
    Moved token after sender recipient amount ∧
      after.allowance = token.allowance := by
  unfold move at done
  split at done
  · next enough =>
      have fits := token.credit_fits enough recipient
      injection done with equal
      subst equal
      refine ⟨⟨enough, fun account => ?_⟩, rfl⟩
      dsimp only
      by_cases isRecipient : account = recipient
      · subst account
        rw [Function.update_self, BitVec.toNat_add_of_lt fits]
        by_cases isSender : recipient = sender
        · subst recipient
          rw [debited, Function.update_self,
            BitVec.toNat_sub_of_le (BitVec.le_def.mpr enough)]
          simp only [if_true]
          omega
        · rw [debited, Function.update_of_ne isSender]
          simp [isSender]
      · rw [Function.update_of_ne isRecipient]
        by_cases isSender : account = sender
        · subst account
          rw [debited, Function.update_self,
            BitVec.toNat_sub_of_le (BitVec.le_def.mpr enough)]
          simp only [if_true, isRecipient, if_false]
          omega
        · rw [debited, Function.update_of_ne isSender]
          simp [isSender, isRecipient]
  · simp at done

theorem transferFrom_ok
    {token : Token supplyCap}
    (done : token.transferFrom caller sender recipient amount = .ok after) :
    Moved token after sender recipient amount ∧
      amount.toNat ≤ (token.allowance sender caller).toNat ∧
      ∀ owner, owner ≠ sender →
        after.allowance owner = token.allowance owner := by
  simp only [transferFrom] at done
  split at done
  · next unlimited =>
      have moved := move_ok done
      refine ⟨moved.1, ?_, fun owner _ => by rw [moved.2]⟩
      rw [unlimited, BitVec.toNat_allOnes]
      have bound := amount.isLt
      omega
  · simp only [bind_eq_ok, require_eq_ok] at done
    obtain ⟨_, allowed, done⟩ := done
    have moved := move_ok done
    refine ⟨⟨moved.1.enough, moved.1.balance⟩, allowed,
      fun owner different => ?_⟩
    rw [moved.2, approve_allowance_of_ne _ different]

/-- The calls a token accepts from arbitrary accounts. -/
inductive Call where
  | mint (recipient : Address) (amount : U256)
  | burn (amount : U256)
  | approve (spender : Address) (amount : U256)
  | transfer (recipient : Address) (amount : U256)
  | transferFrom (sender recipient : Address) (amount : U256)
deriving DecidableEq

def exec (token : Token supplyCap) (caller : Address) :
    Call → Outcome String (Token supplyCap)
  | .mint recipient amount => token.mint recipient amount
  | .burn amount => token.burn caller amount
  | .approve spender amount => .ok (token.approve caller spender amount)
  | .transfer recipient amount => token.transfer caller recipient amount
  | .transferFrom sender recipient amount =>
      token.transferFrom caller sender recipient amount

def Unapproved (token : Token supplyCap) (holder : Address) : Prop :=
  ∀ spender, token.allowance holder spender = 0

theorem unapproved_issued
    {holder spender other : Address} {small : amount.toNat < supplyCap}
    (different : other ≠ holder) :
    (issued holder spender amount small).Unapproved other := by
  intro account
  simp only [issued, Function.update_of_ne different]

theorem exec_by_other
    {token : Token supplyCap} {holder : Address} {call : Call}
    (unapproved : token.Unapproved holder) (other : caller ≠ holder)
    (done : token.exec caller call = .ok after) :
    (token.balanceOf holder).toNat ≤ (after.balanceOf holder).toNat ∧
      after.Unapproved holder := by
  cases call with
  | mint recipient amount =>
      simp only [exec, mint] at done
      split at done
      · next fits =>
          injection done with equal
          subst equal
          refine ⟨?_, unapproved⟩
          dsimp only
          by_cases isRecipient : holder = recipient
          · subst holder
            have entry := token.balance_le_supply recipient
            have supplyFits :
                token.totalSupply.toNat + amount.toNat < 2 ^ 256 :=
              lt_of_lt_of_le fits (min_le_right _ _)
            rw [Function.update_self, BitVec.toNat_add_of_lt (by omega)]
            omega
          · rw [Function.update_of_ne isRecipient]
      · simp at done
  | burn amount =>
      simp only [exec, burn] at done
      split at done
      · injection done with equal
        subst equal
        refine ⟨?_, unapproved⟩
        simp only [debited]
        rw [Function.update_of_ne (Ne.symm other)]
      · simp at done
  | approve spender amount =>
      simp only [exec, Except.ok.injEq] at done
      subst after
      constructor
      · rw [approve_balanceOf]
      · intro spender'
        rw [approve_allowance_of_ne _ (Ne.symm other)]
        exact unapproved spender'
  | transfer recipient amount =>
      have moved := move_ok done
      have balance := moved.1.balance holder
      rw [if_neg (Ne.symm other)] at balance
      refine ⟨by omega, fun spender => ?_⟩
      rw [moved.2]
      exact unapproved spender
  | transferFrom sender recipient amount =>
      have moved := transferFrom_ok done
      have balance := moved.1.balance holder
      by_cases isSender : sender = holder
      · subst sender
        have nothing : amount.toNat = 0 := by
          have allowed := moved.2.1
          rw [unapproved caller] at allowed
          simpa using allowed
        refine ⟨by split at balance <;> omega, fun spender => ?_⟩
        simp only [exec, transferFrom, unapproved caller] at done
        rw [if_neg (by decide)] at done
        simp only [bind_eq_ok, require_eq_ok] at done
        obtain ⟨_, _, done⟩ := done
        have zero : amount = 0 := BitVec.eq_of_toNat_eq nothing
        rw [(move_ok done).2]
        simp only [approve, Function.update_self, zero]
        by_cases isCaller : spender = caller
        · rw [isCaller, Function.update_self]
          exact BitVec.sub_zero 0
        · rw [Function.update_of_ne isCaller]
          exact unapproved spender
      · rw [if_neg (Ne.symm isSender)] at balance
        refine ⟨by omega, fun spender => ?_⟩
        rw [moved.2.2 holder (Ne.symm isSender)]
        exact unapproved spender

end Token

end Eris.Evm.Erc20
