/-
**What a journal says about coins.**

`view` reads a journal as a ledger. Each operation on the journal is described by what it does to
that ledger: loads and reads only change what is warm (`Warms`), other writes of contracts are not
seen at all (`Silent`), a payment is a `post` and its log an `announce`, and the writes of the two
precompiles set the supply or the blocklist. `Follows` and `Turns` say that a journal grew and that
its ledger made steps; a turn may end with a change of the blocklist.
-/

import Mathlib
import ArcNode.Evm.Frames

namespace ArcNode.Evm

open ArcNode.Lib ArcNode.Lib.Journal ArcNode.Types

variable (address : Address)

theorem modifyAccount_self (change : Account → Account) (journal : EvmJournal) :
    (modifyAccount address change journal).cells address = change (journal.cells address) :=
  Function.update_self _ _ _

theorem modifyAccount_of_ne {address other : Address} (apart : other ≠ address)
    (change : Account → Account) (journal : EvmJournal) :
    (modifyAccount address change journal).cells other = journal.cells other :=
  Function.update_of_ne apart _ _

theorem modifyAccount_field {α : Type} {read : Account → α} {change : Account → Account}
    (same : ∀ account, read (change account) = read account) (address other : Address)
    (journal : EvmJournal) :
    read ((modifyAccount address change journal).cells other) = read (journal.cells other) := by
  by_cases here : other = address
  · rw [here, modifyAccount_self, same]
  · rw [modifyAccount_of_ne here]

/-- The property is true of every account, now and wherever the journal can go back. -/
def Everywhere (holds : Address → Account → Prop) (journal : EvmJournal) : Prop :=
  journal.Always fun cells => ∀ address, holds address (cells address)

theorem Everywhere.now {holds : Address → Account → Prop} {journal : EvmJournal}
    (everywhere : Everywhere holds journal) (address : Address) :
    holds address (journal.cells address) :=
  Always.now everywhere address

theorem Everywhere.modify {holds : Address → Account → Prop} {journal : EvmJournal}
    (everywhere : Everywhere holds journal) {address : Address} {change : Account → Account}
    (keeps : holds address (journal.cells address) → holds address (change (journal.cells address))) :
    Everywhere holds (modifyAccount address change journal) := by
  refine Always.write everywhere fun other => ?_
  by_cases here : other = address
  · rw [here, Function.update_self]
    exact keeps (everywhere.now address)
  · rw [Function.update_of_ne here]
    exact everywhere.now other

/-! ### Only warmth changes -/

def Account.cooled (account : Account) : Account :=
  { account with warm := false, warmSlots := fun _ => false }

/-- `newer` differs from `older` in warm accounts and slots only, and so does every journal
between. -/
structure Warms (older newer : EvmJournal) : Prop where
  grown : Extends older newer
  records : newer.records = older.records
  cells : ∀ address, (newer.cells address).cooled = (older.cells address).cooled
  everywhere : ∀ holds : Address → Account → Prop, (∀ address account after,
    after.cooled = account.cooled → holds address account → holds address after) →
      Everywhere holds older → Everywhere holds newer

variable (journal : EvmJournal)

namespace Warms

variable {older newer latest : EvmJournal}

theorem refl : Warms journal journal :=
  ⟨Extends.refl journal, rfl, fun _ => rfl, fun _ _ before => before⟩

theorem trans (first : Warms older newer) (second : Warms newer latest) : Warms older latest :=
  ⟨first.grown.trans second.grown, second.records.trans first.records,
    fun address => (second.cells address).trans (first.cells address), fun holds kept before =>
      second.everywhere holds kept (first.everywhere holds kept before)⟩

theorem of_change {address : Address} {change : Account → Account}
    (cools : ∀ account, (change account).cooled = account.cooled) (journal : EvmJournal) :
    Warms journal (modifyAccount address change journal) := by
  exact ⟨extends_write _ _ _, rfl, fun other => modifyAccount_field cools address other journal,
    fun _ kept before => before.modify (kept _ _ _ (cools _))⟩

variable (warms : Warms older newer)

include warms

theorem field {α : Type} {read : Account → α}
    (cold : ∀ account, read account.cooled = read account) (address : Address) :
    read (newer.cells address) = read (older.cells address) := by
  rw [← cold, warms.cells, cold]

theorem nonce (address : Address) :
    (newer.cells address).nonce = (older.cells address).nonce :=
  warms.field (fun _ => rfl) address

theorem balance (address : Address) :
    (newer.cells address).balance = (older.cells address).balance :=
  warms.field (fun _ => rfl) address

theorem storage (address : Address) :
    (newer.cells address).storage = (older.cells address).storage :=
  warms.field (fun _ => rfl) address

theorem destroyed (address : Address) :
    (newer.cells address).destroyed = (older.cells address).destroyed :=
  warms.field (fun _ => rfl) address

theorem view_eq (hashes : Hashes) :
    view hashes newer = view hashes older := by
  have created : ∀ address, (newer.cells address).created = (older.cells address).created :=
    fun address => warms.field (fun _ => rfl) address
  simp only [view, ledger, warms.records, warms.balance, warms.nonce, warms.storage, created,
    warms.destroyed]

end Warms

theorem warms_loadAccount : Warms journal (loadAccount address journal) := by
  refine Warms.of_change ?_ journal
  exact fun _ => rfl

theorem warms_sload (key : U256) (journal : EvmJournal) :
    Warms journal (sload address key journal) := by
  refine Warms.of_change ?_ journal
  exact fun _ => rfl

variable (hashes : Hashes)

theorem view_modifyAccount (address : Address) (change : Account → Account) (journal : EvmJournal) :
    view hashes (modifyAccount address change journal) =
      { balance := Function.update (view hashes journal).balance address
          (change (journal.cells address)).balance.val
        supply :=
          if address = nativeCoinAuthorityAddress then
            ((change (journal.cells address)).storage totalSupplyStorageKey).val
          else (view hashes journal).supply
        alive := Function.update (view hashes journal).alive address
          (decide ((change (journal.cells address)).nonce ≠ 0))
        created := Function.update (view hashes journal).created address
          (change (journal.cells address)).created
        destroyed := Function.update (view hashes journal).destroyed address
          (change (journal.cells address)).destroyed
        blocked :=
          if address = nativeCoinControlAddress then fun holder => isBlocklistedStatus
            ((change (journal.cells address)).storage (hashes.isBlocklistedStorageSlot holder))
          else (view hashes journal).blocked
        moves := (view hashes journal).moves
        notices := (view hashes journal).notices } := by
  have updated : ∀ {α : Type} (read : Account → α),
      (fun other => read ((modifyAccount address change journal).cells other)) =
        Function.update (fun other => read (journal.cells other)) address
          (read (change (journal.cells address))) := by
    intro α read
    funext other
    by_cases here : other = address
    · rw [here, modifyAccount_self, Function.update_self]
    · rw [modifyAccount_of_ne here, Function.update_of_ne here]
  unfold view ledger
  simp only [Ledger.mk.injEq]
  refine ⟨updated fun account => account.balance.val, ?_,
    updated fun account => decide (account.nonce ≠ 0), updated Account.created,
    updated Account.destroyed, ?_, rfl, rfl⟩
  · split_ifs with here
    · rw [← here, modifyAccount_self]
    · rw [modifyAccount_of_ne (Ne.symm here)]
  · split_ifs with here
    · rw [← here, modifyAccount_self]
    · rw [modifyAccount_of_ne (Ne.symm here)]

theorem supply_of_storage (address : Address) (journal : EvmJournal) :
    (if address = nativeCoinAuthorityAddress then
      ((journal.cells address).storage totalSupplyStorageKey).val else (view hashes journal).supply) =
      (view hashes journal).supply := by
  split_ifs with here
  · rw [here]
    rfl
  · rfl

theorem blocked_of_storage (address : Address) (journal : EvmJournal) :
    (if address = nativeCoinControlAddress then fun holder => isBlocklistedStatus
      ((journal.cells address).storage (hashes.isBlocklistedStorageSlot holder))
      else (view hashes journal).blocked) = (view hashes journal).blocked := by
  split_ifs with here
  · rw [here]
    rfl
  · rfl

/-! ### Writes that the ledger does not see -/

/-- `newer` is a grown `older` with the same ledger and the same nonces. -/
structure Silent (hashes : Hashes) (older newer : EvmJournal) : Prop where
  grown : Extends older newer
  seen : view hashes newer = view hashes older
  nonces : ∀ address, (newer.cells address).nonce = (older.cells address).nonce

section Silent

variable {hashes : Hashes} {older newer latest : EvmJournal}

theorem Warms.silent (warms : Warms older newer) : Silent hashes older newer :=
  ⟨warms.grown, warms.view_eq hashes, warms.nonce⟩

theorem Silent.refl : Silent hashes journal journal :=
  (Warms.refl journal).silent

theorem Silent.trans (first : Silent hashes older newer) (second : Silent hashes newer latest) :
    Silent hashes older latest :=
  ⟨first.grown.trans second.grown, second.seen.trans first.seen,
    fun address => (second.nonces address).trans (first.nonces address)⟩

/-- A change of an account that keeps balance, nonce and status, and the storage of the two
precompiles. -/
theorem silent_modifyAccount {address : Address} {change : Account → Account}
    (balance : ∀ account, (change account).balance = account.balance)
    (nonce : ∀ account, (change account).nonce = account.nonce)
    (created : ∀ account, (change account).created = account.created)
    (destroyed : ∀ account, (change account).destroyed = account.destroyed)
    (storage : address = nativeCoinAuthorityAddress ∨ address = nativeCoinControlAddress →
      ∀ account, (change account).storage = account.storage) (journal : EvmJournal) :
    Silent hashes journal (modifyAccount address change journal) := by
  refine ⟨extends_write _ _ _, ?_, fun other => modifyAccount_field nonce address other journal⟩
  rw [view_modifyAccount, balance, nonce, created, destroyed]
  unfold view ledger
  simp only [Ledger.mk.injEq, and_true]
  refine ⟨Function.update_eq_self _ _, ?_, Function.update_eq_self _ _, Function.update_eq_self _ _,
    Function.update_eq_self _ _, ?_⟩
  · split_ifs with here
    · rw [storage (Or.inl here), here]
    · rfl
  · split_ifs with here
    · rw [storage (Or.inr here), here]
    · rfl

theorem silent_touchAccount : Silent hashes journal (touchAccount address journal) := by
  refine silent_modifyAccount ?_ ?_ ?_ ?_ ?_ journal <;> intros <;> rfl

theorem silent_setCode (code : Code) (journal : EvmJournal) :
    Silent hashes journal (setCode address code journal) := by
  refine silent_modifyAccount ?_ ?_ ?_ ?_ ?_ journal <;> intros <;> rfl

theorem silent_sstore {address : Address} (key value : U256)
    (unreserved : address ≠ nativeCoinAuthorityAddress ∧ address ≠ nativeCoinControlAddress)
    (journal : EvmJournal) : Silent hashes journal (sstore address key value journal) := by
  refine silent_modifyAccount ?_ ?_ ?_ ?_ ?_ journal
  case refine_5 => exact fun reserved => (not_or.mpr unreserved reserved).elim
  all_goals exact fun _ => rfl

/-- A log that is not a transfer log of the system address. -/
theorem silent_emitLog {log : Log} (other : Record.notice? (.log log) = none)
    (journal : EvmJournal) : Silent hashes journal (emitLog log journal) := by
  refine ⟨extends_record _ _, ?_, fun _ => rfl⟩
  show ledger hashes journal.cells (.log log :: journal.records) = view hashes journal
  unfold view ledger
  rw [List.filterMap_cons_none other]
  rfl

end Silent

/-! ### Writes that the ledger sees -/

section Seen

variable (hashes : Hashes)

theorem view_emitTransfer (sender receiver : Address) (amount : U256) (journal : EvmJournal) :
    view hashes (emitLog ⟨systemAddress, .transfer sender receiver amount⟩ journal) =
      (view hashes journal).announce ⟨sender, receiver, amount.val⟩ := by
  rfl

theorem view_noteMove (debited credited : Option Address) (amount : U256) (journal : EvmJournal) :
    view hashes (noteMove hashes debited credited amount journal) =
      { view hashes journal with
        moves := ⟨debited, credited, amount.val, (view hashes journal).bars debited credited⟩ ::
          (view hashes journal).moves } := by
  rfl

theorem view_setBalance {address : Address} {change : Account → Account}
    (nonce : ∀ account, (change account).nonce = account.nonce)
    (created : ∀ account, (change account).created = account.created)
    (destroyed : ∀ account, (change account).destroyed = account.destroyed)
    (storage : ∀ account, (change account).storage = account.storage) (journal : EvmJournal) :
    view hashes (modifyAccount address change journal) =
      { view hashes journal with
        balance := Function.update (view hashes journal).balance address
          (change (journal.cells address)).balance.val } := by
  rw [view_modifyAccount, nonce, created, destroyed, storage]
  simp only [Ledger.mk.injEq, true_and, and_true]
  exact ⟨supply_of_storage hashes address journal, Function.update_eq_self _ _,
    Function.update_eq_self _ _, Function.update_eq_self _ _,
    blocked_of_storage hashes address journal⟩

variable (address : Address)

theorem view_credit (amount : U256) (journal : EvmJournal) :
    view hashes (credit address amount journal) =
      { view hashes journal with
        balance := Function.update (view hashes journal).balance address
          (((view hashes journal).balance address + amount.val) % 2 ^ 256) } := by
  refine view_setBalance hashes ?_ ?_ ?_ ?_ journal <;> intros <;> rfl

theorem view_debit {address : Address} {amount : U256} {journal : EvmJournal}
    (enough : amount.val ≤ (view hashes journal).balance address) :
    view hashes (debit address amount journal) =
      { view hashes journal with
        balance := Function.update (view hashes journal).balance address
          ((view hashes journal).balance address - amount.val) } := by
  have left : ((journal.cells address).balance - amount).val =
      (view hashes journal).balance address - amount.val := U256.val_sub_of_le enough
  rw [← left]
  refine view_setBalance hashes ?_ ?_ ?_ ?_ journal <;> intros <;> rfl

/-- **The coins of a transfer**: one posted move. -/
theorem view_moveCoins {sender receiver : Address} {amount : U256} {journal : EvmJournal}
    (apart : sender ≠ receiver) (enough : amount.val ≤ (view hashes journal).balance sender) :
    view hashes (moveCoins hashes sender receiver amount journal) =
      (view hashes journal).post (2 ^ 256) ⟨some sender, some receiver, amount.val,
        (view hashes journal).bars (some sender) (some receiver)⟩ := by
  unfold moveCoins
  rw [view_credit, view_debit, view_noteMove]
  case enough => rw [view_noteMove]; exact enough
  unfold Ledger.post
  simp only [Ledger.mk.injEq, Option.isNone_some, Bool.false_eq_true, if_false, and_true]
  have small : (view hashes journal).balance sender < 2 ^ 256 := (journal.cells sender).balance.isLt
  funext holder
  by_cases received : holder = receiver
  · subst received
    simp [Move.credit, Move.debit, apart, Function.update_of_ne apart.symm]
  · by_cases gave : holder = sender
    · subst gave
      simp only [Function.update_of_ne received, Function.update_self, Move.credit, Move.debit,
        Option.some.injEq, Ne.symm received, if_true, if_false, add_zero]
      exact (Nat.mod_eq_of_lt (by omega)).symm
    · have small : (view hashes journal).balance holder < 2 ^ 256 :=
        (journal.cells holder).balance.isLt
      simp only [Function.update_of_ne received, Function.update_of_ne gave, Move.credit, Move.debit,
        Option.some.injEq, Ne.symm received, Ne.symm gave, if_false, add_zero, Nat.sub_zero]
      exact (Nat.mod_eq_of_lt small).symm

theorem view_sstore_supply (value : U256) (journal : EvmJournal) :
    view hashes (sstore nativeCoinAuthorityAddress totalSupplyStorageKey value journal) =
      { view hashes journal with supply := value.val } := by
  have apart : nativeCoinAuthorityAddress ≠ nativeCoinControlAddress := by decide
  unfold sstore
  rw [view_modifyAccount]
  simp only [Ledger.mk.injEq, if_true, if_neg apart, Function.update_self, true_and, and_true]
  exact ⟨Function.update_eq_self _ _, Function.update_eq_self _ _, Function.update_eq_self _ _,
    Function.update_eq_self _ _⟩

theorem view_sstore_control (key value : U256) (journal : EvmJournal) :
    ∃ blocked, view hashes (sstore nativeCoinControlAddress key value journal) =
      { view hashes journal with blocked := blocked } := by
  have apart : nativeCoinControlAddress ≠ nativeCoinAuthorityAddress := by decide
  refine ⟨(view hashes (sstore nativeCoinControlAddress key value journal)).blocked, ?_⟩
  unfold sstore
  rw [view_modifyAccount]
  simp only [Ledger.mk.injEq, if_neg apart, true_and, and_true]
  exact ⟨Function.update_eq_self _ _, Function.update_eq_self _ _, Function.update_eq_self _ _,
    Function.update_eq_self _ _⟩

theorem view_bumpNonce (journal : EvmJournal) : view hashes (bumpNonce address journal) =
      { view hashes journal with alive := Function.update (view hashes journal).alive address true } := by
  unfold bumpNonce
  rw [view_modifyAccount]
  simp only [Ledger.mk.injEq, and_true]
  refine ⟨Function.update_eq_self _ _, supply_of_storage hashes address journal, ?_,
    Function.update_eq_self _ _, Function.update_eq_self _ _,
    blocked_of_storage hashes address journal⟩
  simp

theorem view_destroy (journal : EvmJournal) :
    view hashes (modifyAccount address (fun account => { account with destroyed := true }) journal) =
      { view hashes journal with
        destroyed := Function.update (view hashes journal).destroyed address true } := by
  rw [view_modifyAccount]
  simp only [Ledger.mk.injEq, true_and, and_true]
  exact ⟨Function.update_eq_self _ _, supply_of_storage hashes address journal,
    Function.update_eq_self _ _, Function.update_eq_self _ _,
    blocked_of_storage hashes address journal⟩

end Seen

end ArcNode.Evm
