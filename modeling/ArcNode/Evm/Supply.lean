/-
**The native coin supply is conserved.**

The ledger of a transaction starts with the balances after the purchase of the gas, which together
with what was paid make up the total supply, and its frames keep that (`conserved_execute`). The
settlement gives the unused gas back and the rest to the beneficiary, and the commit deletes no
coin; what a transaction pays for blobs goes to nobody (`total_of_executed`). So without blobs the
balances make up the supply again (**`supply_conserved`**), and with blobs they do not
(`blob_fee_lost`).
-/

import Mathlib
import ArcNode.Evm.TransactionSpec

namespace ArcNode.Evm

open ArcNode.Lib ArcNode.Types

def totalBalance (accounts : Address → StoredAccount) : ℕ :=
  ∑ address, (accounts address).balance.val

def totalSupplySlot (accounts : Address → StoredAccount) : ℕ :=
  ((accounts nativeCoinAuthorityAddress).storage totalSupplyStorageKey).val

section Supply

variable {env : Env} {block : BlockEnv} {tx : TxEnv} {world : World} {actions : List Action}

theorem sum_purchased (admitted : Admitted env block tx world)
    (balanced : totalBalance world.accounts = totalSupplySlot world.accounts) :
    (∑ address, purchased block tx world address) + tx.gasBalanceSpending block =
      totalSupplySlot world.accounts := by
  have enough := admitted.spending_le
  have split : ∀ address, purchased block tx world address +
      (if address = tx.caller then tx.gasBalanceSpending block else 0) =
      (world.accounts address).balance.val := by
    intro address
    unfold purchased
    by_cases here : address = tx.caller
    · rw [if_pos here, if_pos here, here]
      exact Nat.sub_add_cancel enough
    · rw [if_neg here, if_neg here, Nat.add_zero]
  have one : ∑ address : Address, (if address = tx.caller then tx.gasBalanceSpending block else 0) =
      tx.gasBalanceSpending block := by
    rw [Finset.sum_ite_eq' Finset.univ tx.caller, if_pos (Finset.mem_univ _)]
  rw [← balanced, totalBalance, ← Finset.sum_congr rfl fun address _ => split address,
    Finset.sum_add_distrib, one]

/-- **Every state of a transaction accounts for the coins.** -/
theorem conserved_execute (admitted : Admitted env block tx world)
    (balanced : totalBalance world.accounts = totalSupplySlot world.accounts)
    (actions : List Action) : Upheld env block tx world actions
      (Ledger.Balanced (2 ^ 256) (purchased block tx world) (totalSupplySlot world.accounts)) := by
  have kept : ∀ blocked, KeptFrom env (Ledger.Balanced (2 ^ 256) (purchased block tx world)
      (totalSupplySlot world.accounts)) blocked := fun _ _ _ _ turn held =>
    turn.keeps (fun step => step.balanced (sum_purchased admitted balanced))
      (fun _ _ held => ⟨held.accounts, held.counted, held.fits, held.emptied⟩) held
  refine execute_keeps admitted ?_ (kept _) fun _ _ => kept _
  obtain ⟨alive, seen, -⟩ := (purchased_opening admitted).seen
  rw [seen]
  exact ⟨fun _ => rfl, rfl,
    ((world.accounts nativeCoinAuthorityAddress).storage totalSupplyStorageKey).isLt,
    fun _ destroyed => nomatch destroyed⟩

theorem commit_balance {account : Account} (kept : account.destroyed = true → account.balance = 0) :
    account.commit.balance = account.balance := by
  unfold Account.commit
  split_ifs with gone
  · rcases Bool.or_eq_true_iff.mp gone with destroyed | empty
    · exact (kept destroyed).symm
    · unfold Account.isEmpty at empty
      simp only [Bool.and_eq_true, decide_eq_true_eq] at empty
      exact empty.2.1.1.symm
  · rfl

theorem commit_standing {account : Account} (alive : account.nonce ≠ 0)
    (standing : account.destroyed = false) :
    account.commit.storage = account.storage ∧ account.commit.nonce = account.nonce := by
  have present : (account.destroyed || (account.touched && account.isEmpty)) = false := by
    rw [standing, Account.isEmpty, decide_eq_false alive]
    simp
  rw [Account.commit, present]
  exact ⟨rfl, rfl⟩

section Executed

variable {receipt : Receipt} {accounts : Address → StoredAccount} {settlement : Settlement}
  (executed : Executed env block tx world actions receipt accounts settlement)
  (active : env.flags.isActive .zero8 = true)

include executed active

/-- **The commit takes no coin from anyone** if the destroyed hold nothing: the sender is not
destroyed, and from Zero8 neither is the beneficiary. -/
theorem balance_of_settled
    (sender : (view env.hashes (execute env block tx world actions).journal).destroyed tx.caller = false)
    (emptied : Ledger.Emptied (view env.hashes (execute env block tx world actions).journal))
    (address : Address) :
    (accounts address).balance = ((settled block tx settlement
      (execute env block tx world actions).journal).cells address).balance := by
  have standing := executed.beneficiary active
  rw [executed.accounts]
  generalize (execute env block tx world actions).journal = journal at emptied sender standing ⊢
  refine commit_balance fun destroyed => ?_
  have gone : (journal.cells address).destroyed = true := by
    rw [← destroyed]
    exact (settled_field (fun _ _ => rfl) _ _ _).symm
  have notSender : address ≠ tx.caller := by
    rintro rfl
    rw [show (view env.hashes journal).destroyed tx.caller = true from gone] at sender
    cases sender
  have notBeneficiary : address ≠ block.beneficiary := by
    rintro rfl
    rw [gone] at standing
    cases standing
  unfold settled rewardBeneficiary reimburseCaller incrBalance
  rw [modifyAccount_of_ne notBeneficiary, modifyAccount_of_ne notSender]
  exact Fin.ext (emptied address gone)

variable (balanced : totalBalance world.accounts = totalSupplySlot world.accounts)

include balanced

/-- Every balance after a transaction: what was there, what came in and went out, and the fee. -/
theorem balance_of_executed (address : Address) :
    (accounts address).balance.val +
        debits (view env.hashes (execute env block tx world actions).journal).moves address +
        (if address = tx.caller then totalFeeAmount block tx settlement + tx.blobFee block else 0) =
      (world.accounts address).balance.val +
        credits (view env.hashes (execute env block tx world actions).journal).moves address +
        (if address = block.beneficiary then totalFeeAmount block tx settlement else 0) := by
  have conserved := @conserved_execute env block tx world executed.admitted balanced actions
  have covered := sum_purchased executed.admitted balanced
  obtain ⟨result, ending, rfl⟩ := executed.ended
  have within := settleGas_le (conserved.gas result ending) (preExecution env block tx world).2
  have enough := executed.admitted.spending_le
  have commits := balance_of_settled executed active conserved.sender conserved.holds.emptied address
  have balances := @settled_balance env block tx world executed.admitted _ within
    (execute env block tx world actions).journal
  have moved := conserved.holds.accounts address
  have supply := conserved.holds.fits
  have part : ∀ holder, (view env.hashes (execute env block tx world actions).journal).balance holder +
      tx.gasBalanceSpending block ≤
      (view env.hashes (execute env block tx world actions).journal).supply := by
    intro holder
    have total := conserved.holds.total covered
    have part := Finset.single_le_sum (fun other _ => Nat.zero_le
      ((view env.hashes (execute env block tx world actions).journal).balance other))
      (Finset.mem_univ holder)
    omega
  generalize settleGas tx (preExecution env block tx world).2 result = settlement at *
  generalize (execute env block tx world actions).journal = journal at *
  have parts : tx.effectiveGasPrice block * (settlement.remaining + settlement.refunded) +
      totalFeeAmount block tx settlement + tx.blobFee block = tx.gasBalanceSpending block := by
    unfold totalFeeAmount Settlement.gasUsed TxEnv.gasBalanceSpending
    rw [← Nat.mul_add, Nat.mul_comm tx.gasLimit]
    have whole : settlement.remaining + settlement.refunded +
        (tx.gasLimit - settlement.remaining - settlement.refunded) = tx.gasLimit := by
      clear * - within
      omega
    rw [whole]
  have room : ∀ holder, (journal.cells holder).balance.val +
      tx.gasLimit * tx.effectiveGasPrice block < 2 ^ 256 := by
    intro holder
    have := part holder
    unfold TxEnv.gasBalanceSpending at this
    have same : (view env.hashes journal).balance holder = (journal.cells holder).balance.val := rfl
    omega
  have final := balances room address
  rw [commits, final]
  have same : (view env.hashes journal).balance address = (journal.cells address).balance.val := rfl
  unfold purchased at moved
  by_cases here : address = tx.caller
  · subst here
    rw [if_pos rfl] at moved
    rw [if_pos rfl, if_pos rfl]
    omega
  · rw [if_neg here] at moved
    rw [if_neg here, if_neg here]
    omega

omit active in
theorem supply_of_executed : totalSupplySlot accounts =
        (view env.hashes (execute env block tx world actions).journal).supply ∧
      (accounts nativeCoinAuthorityAddress).nonce ≠ 0 ∧
      (accounts nativeCoinControlAddress).nonce ≠ 0 := by
  obtain ⟨-, -, -, authority, control⟩ :=
    @conserved_execute env block tx world executed.admitted balanced actions
  rw [executed.accounts]
  generalize (execute env block tx world actions).journal = journal at authority control ⊢
  have stands : ∀ address, Ledger.Standing address (view env.hashes journal) →
      ((settled block tx settlement journal).cells address).commit.storage =
        (journal.cells address).storage ∧
      ((settled block tx settlement journal).cells address).commit.nonce ≠ 0 := by
    intro address standing
    have nonce : ((settled block tx settlement journal).cells address).nonce =
        (journal.cells address).nonce := settled_field (fun _ _ => rfl) _ _ _
    have destroyed : ((settled block tx settlement journal).cells address).destroyed =
        (journal.cells address).destroyed := settled_field (fun _ _ => rfl) _ _ _
    have storage : ((settled block tx settlement journal).cells address).storage =
        (journal.cells address).storage := settled_field (fun _ _ => rfl) _ _ _
    have alive : (journal.cells address).nonce ≠ 0 := of_decide_eq_true standing.1
    obtain ⟨kept, same⟩ := commit_standing (nonce ▸ alive) (destroyed.trans standing.2.2)
    exact ⟨kept.trans storage, by rw [same, nonce]; exact alive⟩
  refine ⟨?_, (stands _ authority).2, (stands _ control).2⟩
  unfold totalSupplySlot
  rw [(stands _ authority).1]
  rfl

/-- **The balances after a transaction make up the supply, but for the fee of its blobs.** -/
theorem total_of_executed :
    totalBalance accounts + tx.blobFee block = totalSupplySlot accounts := by
  have conserved := @conserved_execute env block tx world executed.admitted balanced actions
  have each := balance_of_executed executed active balanced
  obtain ⟨slot, -, -⟩ := supply_of_executed executed balanced
  have counted := conserved.holds.counted
  have received := sum_credits_add_burned
    (view env.hashes (execute env block tx world actions).journal).moves
  have given := sum_debits_add_minted
    (view env.hashes (execute env block tx world actions).journal).moves
  have summed := Finset.sum_congr rfl fun address (_ : address ∈ (Finset.univ : Finset Address)) =>
    each address
  simp only [Finset.sum_add_distrib, Finset.sum_ite_eq', Finset.mem_univ, if_true] at summed
  unfold totalBalance at balanced ⊢
  omega

end Executed

/-- **Native coin supply is conserved.** From a state in which the balances make up the supply,
every transaction without blobs that is executed ends in such a state, and leaves the two
precompiles in place. The supply changes by what was minted and burned; each balance by what came in
and went out, and the fee, which the sender pays and the beneficiary receives. In every state on the
way the supply has changed by exactly what was minted and burned so far, so that no burn was cut off
at zero, no balance exceeds the supply, and a destroyed account holds nothing. -/
theorem supply_conserved {receipt : Receipt} {accounts : Address → StoredAccount}
    (active : env.flags.isActive .zero8 = true) (noBlobs : tx.blobs = 0)
    (balanced : totalBalance world.accounts = totalSupplySlot world.accounts)
    (executed : transact env block tx world actions = .executed receipt accounts) :
    let moves := (view env.hashes (execute env block tx world actions).journal).moves
    let fee := tx.effectiveGasPrice block * receipt.gasUsed
    totalBalance accounts = totalSupplySlot accounts ∧
      totalSupplySlot accounts + burned moves = totalSupplySlot world.accounts + minted moves ∧
      (∀ address, (accounts address).balance.val + debits moves address +
          (if address = tx.caller then fee else 0) =
        (world.accounts address).balance.val + credits moves address +
          (if address = block.beneficiary then fee else 0)) ∧
      (∀ front, front <+: actions →
        let ledger := view env.hashes (execute env block tx world front).journal
        ledger.supply + burned ledger.moves = totalSupplySlot world.accounts + minted ledger.moves ∧
          (∀ holder, ledger.balance holder ≤ ledger.supply) ∧
          ∀ holder, ledger.destroyed holder = true → ledger.balance holder = 0) ∧
      (accounts nativeCoinAuthorityAddress).nonce ≠ 0 ∧
      (accounts nativeCoinControlAddress).nonce ≠ 0 := by
  obtain ⟨settlement, settles⟩ := executed_of_transact executed
  have conserved := @conserved_execute env block tx world settles.admitted balanced actions
  obtain ⟨slot, authority, control⟩ := supply_of_executed settles balanced
  have free : tx.blobFee block = 0 := by
    rw [TxEnv.blobFee, noBlobs, Nat.mul_zero, Nat.zero_mul]
  have total := total_of_executed settles active balanced
  have counted := conserved.holds.counted
  rw [free, Nat.add_zero] at total
  refine ⟨total, slot ▸ counted, ?_, ?_, authority, control⟩
  · intro address
    have each := balance_of_executed settles active balanced address
    have fee : totalFeeAmount block tx settlement = tx.effectiveGasPrice block * receipt.gasUsed := by
      rw [totalFeeAmount, settles.gasUsed]
    rw [free, Nat.add_zero, fee] at each
    exact each
  · intro front _
    have held := (@conserved_execute env block tx world settles.admitted balanced front).holds
    exact ⟨held.counted, held.balance_le (sum_purchased settles.admitted balanced), held.emptied⟩

end Supply

/-! ### A transaction without blobs, and one with a blob -/

def plainEnv : Env :=
  { (default : Env) with
    hashes := ⟨fun address => Fin.ofNat _ address.val, fun _ _ => 0, fun _ _ _ => 0⟩
    flags := ⟨true, true, true, true, true, true⟩ }

variable (holder : Address) (supply : U256)

/-- One account holds the whole supply; `listed` is the storage of NativeCoinControl. -/
def soleHolderAccounts (listed : U256 → U256) (address : Address) : StoredAccount :=
  if address = nativeCoinAuthorityAddress then
    ⟨0, 1, .empty, Function.update (fun _ => 0) totalSupplyStorageKey supply⟩
  else if address = nativeCoinControlAddress then ⟨0, 1, .empty, listed⟩
  else if address = holder then ⟨supply, 0, .empty, fun _ => 0⟩
  else .absent

theorem soleHolder_authority (listed : U256 → U256) :
    (soleHolderAccounts holder supply listed nativeCoinAuthorityAddress).nonce ≠ 0 := by
  rw [soleHolderAccounts, if_pos rfl]
  exact Nat.one_ne_zero

theorem soleHolder_control (listed : U256 → U256) :
    (soleHolderAccounts holder supply listed nativeCoinControlAddress).nonce ≠ 0 := by
  rw [soleHolderAccounts, if_neg (by decide), if_pos rfl]
  exact Nat.one_ne_zero

def soleHolder (listed : U256 → U256) : World :=
  ⟨soleHolderAccounts holder supply listed, soleHolder_authority holder supply listed,
    soleHolder_control holder supply listed⟩

theorem soleHolder_balanced {holder : Address} (plain : holder ≠ nativeCoinAuthorityAddress ∧
    holder ≠ nativeCoinControlAddress) (supply : U256) (listed : U256 → U256) :
    totalBalance (soleHolder holder supply listed).accounts =
      totalSupplySlot (soleHolder holder supply listed).accounts := by
  have each : ∀ address, (soleHolderAccounts holder supply listed address).balance.val =
      if address = holder then supply.val else 0 := by
    intro address
    unfold soleHolderAccounts
    split_ifs with authority same control same
    · exact absurd (same.symm.trans authority) plain.1
    · rfl
    · exact absurd (same.symm.trans control) plain.2
    all_goals rfl
  have slot : totalSupplySlot (soleHolder holder supply listed).accounts = supply.val := by
    show ((soleHolderAccounts holder supply listed nativeCoinAuthorityAddress).storage
      totalSupplyStorageKey).val = supply.val
    rw [soleHolderAccounts, if_pos rfl]
    simp only [Function.update_self]
  rw [slot, totalBalance]
  show ∑ address, (soleHolderAccounts holder supply listed address).balance.val = supply.val
  rw [Finset.sum_congr rfl fun address _ => each address,
    Finset.sum_ite_eq' Finset.univ holder, if_pos (Finset.mem_univ _)]

def TxOutcome.receipt? : TxOutcome → Option Receipt
  | .executed receipt _ => some receipt
  | _ => none

theorem TxOutcome.executed_of_receipt {outcome : TxOutcome} (known : outcome.receipt?.isSome = true) :
    ∃ receipt accounts, outcome = .executed receipt accounts := by
  cases outcome with
  | executed receipt accounts => exact ⟨receipt, accounts, rfl⟩
  | rejected failure | running => cases known

def plainBlock : BlockEnv := ⟨0x21, 1, 30000000, 1⟩

/-- A payment of 1000 from one user to another, with the given number of blobs. -/
def payment (blobs : ℕ) : TxEnv where
  caller := 0x11
  kind := .call 0x22 []
  value := 1000
  data := []
  nonce := 0
  gasLimit := 30000
  gasPrice := 2
  gasPriorityFee := none
  accessList := []
  blobs := blobs
  maxFeePerBlobGas := 1
  initialGas := 21000
  floorGas := 21000
  wellFormed := true

def openWorld : World := soleHolder 0x11 1000000 fun _ => 0

theorem openWorld_balanced : totalBalance openWorld.accounts = totalSupplySlot openWorld.accounts :=
  soleHolder_balanced (by decide) 1000000 fun _ => 0

theorem supply_conserved_payment : ∃ receipt accounts,
    transact plainEnv plainBlock (payment 0) openWorld [] = .executed receipt accounts ∧
    totalBalance accounts = totalSupplySlot accounts := by
  obtain ⟨receipt, accounts, executed⟩ := TxOutcome.executed_of_receipt (show
    (transact plainEnv plainBlock (payment 0) openWorld []).receipt?.isSome = true from
      by decide +kernel)
  exact ⟨receipt, accounts, executed, (supply_conserved rfl rfl openWorld_balanced executed).1⟩

/-- **The fee of a blob is lost**: afterwards the balances no longer make up the supply. -/
theorem blob_fee_lost : ∃ world receipt accounts, plainEnv.flags.isActive .zero8 = true ∧
    totalBalance world.accounts = totalSupplySlot world.accounts ∧
    transact plainEnv plainBlock (payment 1) world [] = .executed receipt accounts ∧
    totalBalance accounts + gasPerBlob = totalSupplySlot accounts := by
  obtain ⟨receipt, accounts, executed⟩ := TxOutcome.executed_of_receipt (show
    (transact plainEnv plainBlock (payment 1) openWorld []).receipt?.isSome = true from
      by decide +kernel)
  obtain ⟨settlement, settles⟩ := executed_of_transact executed
  exact ⟨_, receipt, accounts, rfl, openWorld_balanced, executed,
    total_of_executed settles rfl openWorld_balanced⟩

end ArcNode.Evm
