/-
**The transfer logs account for every balance.**

Each move of coins is published by one log of the system address, wherever the move is made, and a
revert takes both back. So the transfer logs of a receipt are the moves that stood at the end of the
frames, in their order (`reported_execute`), and they add up to what every account received and sent
(**`transfer_logs_account`**).
-/

import Mathlib
import ArcNode.Evm.Supply

namespace ArcNode.Evm

open ArcNode.Lib ArcNode.Types

def Log.notice? (entry : Log) : Option (Notice Address) :=
  match entry.data with
  | .transfer sender receiver amount =>
    if entry.address = systemAddress then some ⟨sender, receiver, amount.val⟩ else none
  | _ => none

theorem notice?_eq_bind (record : Record) : record.notice? = record.log?.bind Log.notice? := by
  cases record with
  | move coins => rfl
  | log entry =>
    obtain ⟨address, data⟩ := entry
    cases data <;> rfl

def Receipt.transferLogs (receipt : Receipt) : List (Notice Address) :=
  receipt.logs.filterMap Log.notice?

section Logs

variable {env : Env} {block : BlockEnv} {tx : TxEnv} {world : World} {actions : List Action}

/-- The notices tell the moves, the moves explain every balance, and the destroyed hold nothing. -/
structure Reported (block : BlockEnv) (tx : TxEnv) (world : World) (ledger : Ledger Address) :
    Prop where
  told : Ledger.Told ledger
  accounted : Ledger.Accounted (2 ^ 256) (purchased block tx world) ledger
  emptied : Ledger.Emptied ledger

theorem reported_execute (admitted : Admitted env block tx world) :
    Upheld env block tx world actions (Reported block tx world) := by
  have kept : ∀ blocked, KeptFrom env (Reported block tx world) blocked := fun _ _ _ _ turn held =>
    turn.keeps (fun step held => ⟨step.told held.told, step.accounted held.accounted,
      step.emptied held.emptied⟩)
      (fun _ _ held => ⟨⟨held.told.notices, held.told.proper⟩, held.accounted, held.emptied⟩) held
  refine execute_keeps admitted ?_ (kept _) fun _ _ => kept _
  obtain ⟨alive, seen, -⟩ := (purchased_opening admitted).seen
  rw [seen]
  exact ⟨⟨rfl, fun _ none => nomatch none⟩, fun _ => Nat.ModEq.refl _,
    fun _ destroyed => nomatch destroyed⟩

/-- The transfer logs of a receipt are the moves of the frames, oldest first. -/
theorem transferLogs_eq {receipt : Receipt} {accounts : Address → StoredAccount}
    {settlement : Settlement}
    (executed : Executed env block tx world actions receipt accounts settlement) :
    receipt.transferLogs =
      ((view env.hashes (execute env block tx world actions).journal).moves.map Move.notice).reverse := by
  have reported := (@reported_execute env block tx world actions executed.admitted).holds
  rw [← reported.told.notices, Receipt.transferLogs, executed.logs, List.filterMap_reverse,
    List.filterMap_filterMap]
  show _ = ((execute env block tx world actions).journal.records.filterMap Record.notice?).reverse
  rw [show Record.notice? = fun record => record.log?.bind Log.notice? from funext notice?_eq_bind]

/-- **The transfer logs account for every balance change.** No log is of nothing or from an account
to itself, and the logs are the moves that the frames made, where nobody, in a mint or a burn, is
named by the zero address. For every other account, what the frames made of its balance, between the
purchase of the gas and the settlement, is what the logs say it received and sent, in the arithmetic
of balances; and if the balances made up the supply, then the final balance is also as a number what
it was, plus what was received, minus what was sent, and the fee. -/
theorem transfer_logs_account {receipt : Receipt} {accounts : Address → StoredAccount}
    (active : env.flags.isActive .zero8 = true)
    (executed : transact env block tx world actions = .executed receipt accounts) :
    let journal := (execute env block tx world actions).journal
    let logs := receipt.transferLogs
    let fee := tx.effectiveGasPrice block * receipt.gasUsed
    (∀ log ∈ logs, log.amount ≠ 0 ∧ log.sender ≠ log.receiver) ∧
    logs = ((view env.hashes journal).moves.map Move.notice).reverse ∧
    (∀ address, address ≠ 0 → (journal.cells address).balance.val + Ledger.sent logs address ≡
      purchased block tx world address + Ledger.received logs address [MOD 2 ^ 256]) ∧
    (∃ settlement : Settlement, receipt.gasUsed = settlement.gasUsed tx ∧ ∀ address,
      (accounts address).balance = ((settled block tx settlement journal).cells address).balance) ∧
    (totalBalance world.accounts = totalSupplySlot world.accounts → ∀ address, address ≠ 0 →
      (accounts address).balance.val + Ledger.sent logs address +
          (if address = tx.caller then fee + tx.blobFee block else 0) =
        (world.accounts address).balance.val + Ledger.received logs address +
          (if address = block.beneficiary then fee else 0)) := by
  obtain ⟨settlement, settles⟩ := executed_of_transact executed
  obtain ⟨reported, sender, -⟩ := @reported_execute env block tx world actions settles.admitted
  have logs := transferLogs_eq settles
  have inflow : ∀ address, address ≠ 0 → Ledger.received receipt.transferLogs address =
      credits (view env.hashes (execute env block tx world actions).journal).moves address := by
    intro address someone
    rw [logs, ← List.map_reverse, Ledger.received_notices someone, credits_reverse]
  have outflow : ∀ address, address ≠ 0 → Ledger.sent receipt.transferLogs address =
      debits (view env.hashes (execute env block tx world actions).journal).moves address := by
    intro address someone
    rw [logs, ← List.map_reverse, Ledger.sent_notices someone, debits_reverse]
  refine ⟨?_, logs, ?_, ⟨settlement, settles.gasUsed,
    balance_of_settled settles active sender reported.emptied⟩, ?_⟩
  · intro log member
    rw [logs, List.mem_reverse] at member
    obtain ⟨move, made, rfl⟩ := List.mem_map.mp member
    exact reported.told.proper move made
  · intro address someone
    rw [inflow address someone, outflow address someone]
    exact reported.accounted address
  · intro balanced address someone
    have fee : totalFeeAmount block tx settlement = tx.effectiveGasPrice block * receipt.gasUsed := by
      rw [totalFeeAmount, settles.gasUsed]
    rw [inflow address someone, outflow address someone, ← fee]
    exact balance_of_executed settles active balanced address

end Logs

theorem transfer_logs_account_payment : ∃ receipt accounts,
    transact plainEnv plainBlock (payment 0) openWorld [] = .executed receipt accounts ∧
    (accounts 0x22).balance.val + Ledger.sent receipt.transferLogs 0x22 =
      Ledger.received receipt.transferLogs 0x22 := by
  obtain ⟨receipt, accounts, executed⟩ := TxOutcome.executed_of_receipt (show
    (transact plainEnv plainBlock (payment 0) openWorld []).receipt?.isSome = true from
      by decide +kernel)
  have told := (transfer_logs_account rfl executed).2.2.2.2 openWorld_balanced 0x22 (by decide)
  have before : (openWorld.accounts 0x22).balance.val = 0 := by decide +kernel
  rw [if_neg (by decide), if_neg (by decide), before, Nat.zero_add] at told
  exact ⟨receipt, accounts, executed, told⟩

end ArcNode.Evm
