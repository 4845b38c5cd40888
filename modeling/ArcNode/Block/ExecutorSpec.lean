/-
**What the steps of the block executor do.**

Each step that succeeds commits at most one state and tells it to the hook that is in place
(`Advances`), so that a hook can follow the database (`Told`). The gas of the block is that of its
last receipt and stays within the limit (`Metered`), which is why the subtraction before a
transaction never fails. Nothing else depends on the hook: **`quiet_executeTransactions`** and its
companions say that a step makes of an executor without a hook what it makes of one with a hook, up
to what was told.
-/

import ArcNode.Block.Executor
import ArcNode.Fees.ControlLaw

namespace ArcNode.Block

open ArcNode.Lib ArcNode.Types ArcNode.Evm ArcNode.Fees

section Spec

variable {chain : Chain} {environment : Environment} {ctx : ExecutionCtx} {weather : Weather}
  {executor next : ArcBlockExecutor}

/-! ### Commits -/

/-- A step that commits at most one state and tells it to the hook. -/
structure Advances (executor next : ArcBlockExecutor) : Prop where
  hook : next.hook = executor.hook
  active : next.stateHookActive = executor.stateHookActive
  error : next.postBlockError = executor.postBlockError
  told : next.updates = executor.updates ∧ next.world = executor.world ∨
    ∃ committable : Committable executor.world, next.world = World.commit executor.world committable ∧
      next.updates = (executor.onState committable.state).updates

variable (state : StateUpdate)

@[simp] theorem onState_hook : (executor.onState state).hook = executor.hook := by
  unfold ArcBlockExecutor.onState
  split_ifs <;> rfl

@[simp] theorem onState_active :
    (executor.onState state).stateHookActive = executor.stateHookActive := by
  unfold ArcBlockExecutor.onState
  split_ifs <;> rfl

@[simp] theorem onState_error :
    (executor.onState state).postBlockError = executor.postBlockError := by
  unfold ArcBlockExecutor.onState
  split_ifs <;> rfl

@[simp] theorem onState_applied :
    (executor.onState state).postBlockApplied = executor.postBlockApplied := by
  unfold ArcBlockExecutor.onState
  split_ifs <;> rfl

@[simp] theorem onState_receipts : (executor.onState state).receipts = executor.receipts := by
  unfold ArcBlockExecutor.onState
  split_ifs <;> rfl

@[simp] theorem onState_gasUsed : (executor.onState state).gasUsed = executor.gasUsed := by
  unfold ArcBlockExecutor.onState
  split_ifs <;> rfl

@[simp] theorem onState_stores : (executor.onState state).stores = executor.stores := by
  unfold ArcBlockExecutor.onState
  split_ifs <;> rfl

/-- The updates so far, applied in order to the state of the parent, give the state of the
database. -/
def Told (parent : World) (executor : ArcBlockExecutor) : Prop :=
  executor.updates.foldl (fun accounts update => update.apply accounts) parent.accounts =
    executor.world.accounts

/-- **A hook in place follows the database.** -/
theorem Advances.keeps_told {parent : World} (advances : Advances executor next)
    (hooked : executor.hook = true) (told : Told parent executor) : Told parent next := by
  unfold Told at *
  rcases advances.told with ⟨updates, world⟩ | ⟨committable, world, updates⟩
  · rw [updates, world, told]
  · rw [updates, world, ArcBlockExecutor.onState, if_pos hooked, List.foldl_append, told]
    rfl

theorem Advances.nonce (advances : Advances executor next) {root : Address}
    (alive : (executor.world.accounts root).nonce ≠ 0) : (next.world.accounts root).nonce ≠ 0 := by
  rcases advances.told with ⟨-, world⟩ | ⟨committable, world, -⟩
  · rw [world]
    exact alive
  · rw [world]
    exact committable.keeps root alive

/-! ### Steps -/

theorem applyBlockhashesContractCall_spec
    (ok : applyBlockhashesContractCall chain environment ctx weather executor = .ok next) :
    next = executor ∨ ∃ committable : Committable executor.world,
      committable.state = blockhashesState environment.number ctx.parentHash executor.world.accounts ∧
      next = { executor.onState committable.state with
        world := World.commit executor.world committable } := by
  unfold applyBlockhashesContractCall at ok
  split_ifs at ok
  · exact Or.inl (Except.ok.inj ok).symm
  · exact Or.inr ⟨_, rfl, (Except.ok.inj ok).symm⟩

/-- The checks before the transactions, which a block that is accepted passed. -/
structure PreExecuted (chain : Chain) (environment : Environment) (ctx : ExecutionCtx)
    (weather : Weather) (executor next : ArcBlockExecutor) : Prop where
  number : ∃ number, blockNumberU64 environment = .ok number ∧
    environment.gasLimit = expectedGasLimit (chain.feeParams environment next.world.accounts)
      (chain.spec.blockGasLimitConfig number)
  called : applyBlockhashesContractCall chain environment ctx weather executor = .ok next
  beneficiary : isBlocklistedStatus ((next.world.accounts nativeCoinControlAddress).storage
    (chain.base.hashes.isBlocklistedStorageSlot environment.beneficiary)) = false

theorem preExecuted_of_ok
    (ok : applyPreExecutionChanges chain environment ctx weather executor = .ok next) :
    PreExecuted chain environment ctx weather executor next := by
  obtain ⟨number, known, rest⟩ := bind_eq_ok.mp ok
  obtain ⟨called, calls, rest⟩ := bind_eq_ok.mp rest
  obtain ⟨_, unlisted, rest⟩ := bind_eq_ok.mp rest
  obtain ⟨_, limited, same⟩ := bind_eq_ok.mp rest
  obtain rfl := Except.ok.inj same
  refine ⟨⟨number, known, ?_⟩, calls, ?_⟩
  · dsimp only [validateGasLimit] at limited
    split_ifs at limited with differs
    exact not_not.mp differs
  · unfold validateBeneficiaryNotBlocklisted at unlisted
    split_ifs at unlisted with _ listed
    exact Bool.eq_false_iff.mpr listed

/-- A transaction that was executed and committed. -/
structure Included (chain : Chain) (environment : Environment) (transaction : Transaction)
    (executor next : ArcBlockExecutor) : Prop where
  room : executor.gasUsed ≤ environment.gasLimit
  fits : executor.gasUsed.val + transaction.env.gasLimit ≤ environment.gasLimit.val
  outcome : ∃ receipt accounts,
    transact (chain.env environment) environment.block transaction.env executor.world
      transaction.actions = .executed receipt accounts ∧
    ∃ gasUsed : U64, gasUsed.val = executor.gasUsed.val + receipt.gasUsed ∧
      next.gasUsed = gasUsed ∧ next.receipts = executor.receipts ++ [⟨receipt, gasUsed⟩] ∧
      next.world.accounts = accounts
  advances : Advances executor next
  applied : next.postBlockApplied = executor.postBlockApplied
  stores : next.stores = executor.stores

theorem included_of_ok {transaction : Transaction}
    (ok : executeTransaction chain environment transaction executor = .ok next) :
    Included chain environment transaction executor next := by
  obtain ⟨output, executed, committed⟩ := bind_eq_ok.mp ok
  unfold executeTransactionWithoutCommit at executed
  by_cases short : environment.gasLimit < executor.gasUsed
  · rw [if_pos short] at executed
    cases executed
  rw [if_neg short] at executed
  dsimp only at executed
  by_cases large : environment.gasLimit.val - executor.gasUsed.val < transaction.env.gasLimit
  · rw [if_pos large] at executed
    cases executed
  rw [if_neg large] at executed
  have room : executor.gasUsed ≤ environment.gasLimit := not_lt.mp short
  have room_val := Fin.le_def.mp room
  split at executed
  · next receipt accounts outcome =>
    obtain rfl := Except.ok.inj executed
    unfold commitTransaction at committed
    split_ifs at committed with small
    obtain rfl := Except.ok.inj committed
    refine ⟨room, by omega, ⟨receipt, accounts, outcome, Fin.ofNat _ _, Nat.mod_eq_of_lt small, rfl,
      ?_, (accounts_of_transact outcome).symm⟩, ?_, ?_, ?_⟩
    · dsimp only
    · exact ⟨onState_hook _, onState_active _, onState_error _, Or.inr ⟨_, rfl, rfl⟩⟩
    · exact onState_applied _
    · exact onState_stores _
  · cases executed
  · cases executed

/-- The writes after the block were made: one slot of SystemAccounting, with the values that follow
from those of the parent. -/
structure Recorded (chain : Chain) (environment : Environment) (ctx : ExecutionCtx)
    (executor next : ArcBlockExecutor) (number : U64) (parent values : GasValues) : Prop where
  known : blockNumberU64 environment = .ok number
  read : parent = unpackGasValues ((executor.world.accounts systemAccountingAddress).storage
    (chain.abi.gasValuesSlot (number.saturatingSub 1)))
  computed : computeGasValues chain.spec number
    (chain.feeParams environment executor.world.accounts) parent executor.gasUsed
    environment.gasLimit environment.basefee = some values
  extra : ctx.extraData ≠ [] → decodeBaseFeeFromBytes ctx.extraData = some values.nextBaseFee
  stores : next.stores = executor.stores ++ [(parent, values)]
  advances : Advances executor next
  receipts : next.receipts = executor.receipts ∧ next.gasUsed = executor.gasUsed
  applied : next.postBlockApplied = true
  account : (executor.world.accounts systemAccountingAddress).nonce ≠ 0 →
    next.world.accounts systemAccountingAddress =
      withGasValues chain number values (executor.world.accounts systemAccountingAddress)
  others : ∀ other, other ≠ systemAccountingAddress →
    next.world.accounts other = executor.world.accounts other

theorem computeBlockGasValues_spec {number : U64} {parent values : GasValues}
    (ok : computeBlockGasValues chain environment weather number executor = .ok (parent, values)) :
    parent = unpackGasValues ((executor.world.accounts systemAccountingAddress).storage
        (chain.abi.gasValuesSlot (number.saturatingSub 1))) ∧
      computeGasValues chain.spec number (chain.feeParams environment executor.world.accounts) parent
        executor.gasUsed environment.gasLimit environment.basefee = some values := by
  unfold computeBlockGasValues at ok
  split at ok
  · cases ok
  · split_ifs at ok
    rw [retrieveGasValues_eq] at ok
    dsimp only at ok
    split at ok
    · cases ok
    · next found computed =>
      obtain ⟨rfl, rfl⟩ := Prod.mk.inj (Except.ok.inj ok)
      exact ⟨rfl, computed⟩

theorem commitGasValues_ok {number : U64} {values : GasValues} {state : StateUpdate}
    (fine : weather.store = false)
    (stored : storeGasValues chain environment number values executor.world.accounts = .ok state)
    (parent : GasValues) :
    commitGasValues chain environment weather number parent values executor =
      .ok { executor.onState state with
        world := World.commit executor.world ⟨state, storeGasValues_keeps stored⟩
        postBlockApplied := true
        stores := executor.stores ++ [(parent, values)] } := by
  unfold commitGasValues
  rw [fine, if_neg Bool.false_ne_true]
  split
  · next failure failed => cases stored.symm.trans failed
  · next other wrote =>
    obtain rfl : state = other := Except.ok.inj (stored.symm.trans wrote)
    rfl

theorem recorded_of_ok (pending : executor.postBlockApplied = false)
    (ok : applyPostBlockWrites chain environment ctx weather executor = .ok next) :
    ∃ number parent values, Recorded chain environment ctx executor next number parent values := by
  unfold applyPostBlockWrites at ok
  rw [pending, if_neg Bool.false_ne_true] at ok
  obtain ⟨number, known, rest⟩ := bind_eq_ok.mp ok
  obtain ⟨⟨parent, values⟩, computed, rest⟩ := bind_eq_ok.mp rest
  obtain ⟨_, validated, committed⟩ := bind_eq_ok.mp rest
  obtain ⟨read, computes⟩ := computeBlockGasValues_spec computed
  obtain ⟨update, wrote, elsewhere, here⟩ :=
    @storeGasValues_eq chain environment executor.world.accounts number values
  have fine : weather.store = false := by
    by_contra stormy
    unfold commitGasValues at committed
    rw [if_pos (Bool.eq_true_of_not_eq_false stormy)] at committed
    cases committed
  obtain rfl := Except.ok.inj ((commitGasValues_ok fine wrote parent).symm.trans committed)
  refine ⟨number, parent, values, known, read, computes, fun given => ?_, rfl, ?_, ?_, rfl,
    fun alive => ?_, fun other apart => ?_⟩
  · unfold validateExtraDataBaseFee at validated
    split_ifs at validated with differs
    exact not_not.mp fun other => differs ⟨given, other⟩
  · exact ⟨onState_hook _, onState_active _, onState_error _, Or.inr ⟨_, rfl, rfl⟩⟩
  · exact ⟨onState_receipts _, onState_gasUsed _⟩
  · show update.apply executor.world.accounts systemAccountingAddress = _
    rw [StateUpdate.apply, here alive]
    rfl
  · show update.apply executor.world.accounts other = _
    rw [StateUpdate.apply, elsewhere other apart]
    rfl

/-! ### Runs -/

variable {building : Bool} {transactions : List Transaction}

theorem executeTransactions_turns {holds : ArcBlockExecutor → Prop} (lacks : ¬ holds executor)
    (ok : executeTransactions chain environment building transactions executor = .ok next)
    (has : holds next) : ∃ earlier transaction later before after,
      transactions = earlier ++ transaction :: later ∧
      executeTransactions chain environment building earlier executor = .ok before ∧
      executeTransaction chain environment transaction before = .ok after ∧
      ¬ holds before ∧ holds after := by
  induction transactions generalizing executor with
  | nil =>
    rw [Except.ok.inj ok] at lacks
    exact (lacks has).elim
  | cons transaction rest ih =>
    unfold executeTransactions at ok
    cases executed : executeTransaction chain environment transaction executor with
    | ok middle =>
      rw [executed] at ok
      by_cases turned : holds middle
      · exact ⟨[], transaction, rest, executor, middle, rfl, rfl, executed, lacks, turned⟩
      · obtain ⟨earlier, turning, later, before, after, rfl, reaches, step⟩ := ih turned ok
        refine ⟨transaction :: earlier, turning, later, before, after, rfl, ?_, step⟩
        rw [executeTransactions, executed]
        exact reaches
    | error fault =>
      rw [executed] at ok
      dsimp only at ok
      split_ifs at ok with skips
      obtain ⟨earlier, turning, later, before, after, rfl, reaches, step⟩ := ih lacks ok
      refine ⟨transaction :: earlier, turning, later, before, after, rfl, ?_, step⟩
      rw [executeTransactions, executed]
      exact (if_pos skips).trans reaches

theorem executeTransactions_keeps {holds : ArcBlockExecutor → Prop}
    (keeps : ∀ transaction before after, holds before →
      executeTransaction chain environment transaction before = .ok after → holds after)
    (begins : holds executor)
    (ok : executeTransactions chain environment building transactions executor = .ok next) :
    holds next := by
  by_contra lost
  obtain ⟨_, transaction, _, before, after, -, -, executed, held, gone⟩ :=
    @executeTransactions_turns chain environment executor next building transactions
      (fun executor => ¬ holds executor) (not_not.mpr begins) ok lost
  exact gone (keeps _ _ _ (not_not.mp held) executed)

theorem executeTransactions_fault {holds : ArcBlockExecutor → Prop}
    (keeps : ∀ transaction before after, holds before →
      executeTransaction chain environment transaction before = .ok after → holds after)
    (begins : holds executor) {fault : Fault}
    (failed : executeTransactions chain environment building transactions executor = .error fault) :
    ∃ transaction before, holds before ∧
      executeTransaction chain environment transaction before = .error fault := by
  induction transactions generalizing executor with
  | nil => cases failed
  | cons transaction rest ih =>
    unfold executeTransactions at failed
    cases executed : executeTransaction chain environment transaction executor with
    | ok middle =>
      rw [executed] at failed
      exact ih (keeps _ _ _ begins executed) failed
    | error other =>
      rw [executed] at failed
      dsimp only at failed
      split_ifs at failed
      · exact ih begins failed
      · rw [Except.error.inj failed] at executed
        exact ⟨transaction, executor, begins, executed⟩

theorem executeTransactions_append
    {middle : ArcBlockExecutor}
    (ok : executeTransactions chain environment building transactions executor = .ok middle)
    (more : List Transaction) :
    executeTransactions chain environment building (transactions ++ more) executor =
      executeTransactions chain environment building more middle := by
  induction transactions generalizing executor with
  | nil => rw [Except.ok.inj ok, List.nil_append]
  | cons transaction rest ih =>
    rw [List.cons_append, executeTransactions]
    unfold executeTransactions at ok
    cases executed : executeTransaction chain environment transaction executor with
    | ok after =>
      rw [executed] at ok
      exact ih ok
    | error fault =>
      rw [executed] at ok
      dsimp only at ok ⊢
      split_ifs at ok with skips
      rw [if_pos skips]
      exact ih ok

/-! ### Gas -/

/-- The gas of the block is that of its last receipt, and within the limit. -/
structure Metered (environment : Environment) (executor : ArcBlockExecutor) : Prop where
  last : executor.gasUsed = (executor.receipts.getLast?.map BlockReceipt.cumulativeGasUsed).getD 0
  ordered : executor.receipts.Pairwise fun older newer =>
    older.cumulativeGasUsed ≤ newer.cumulativeGasUsed
  below : ∀ receipt ∈ executor.receipts, receipt.cumulativeGasUsed ≤ executor.gasUsed
  within : executor.gasUsed ≤ environment.gasLimit

theorem metered_new (parent : World) : Metered environment (.new parent) :=
  ⟨rfl, List.Pairwise.nil, fun _ member => (List.not_mem_nil member).elim, Fin.zero_le _⟩

theorem Metered.congr (metered : Metered environment executor)
    (receipts : next.receipts = executor.receipts) (gasUsed : next.gasUsed = executor.gasUsed) :
    Metered environment next := by
  obtain ⟨last, ordered, below, within⟩ := metered
  rw [← receipts, ← gasUsed] at last
  rw [← receipts] at ordered below
  rw [← gasUsed] at below within
  exact ⟨last, ordered, below, within⟩

theorem gasUsed_le_of_transact {env : Env} {block : BlockEnv} {tx : TxEnv} {world : World}
    {actions : List Action} {receipt : Receipt} {accounts : Address → StoredAccount}
    (executed : transact env block tx world actions = .executed receipt accounts) :
    receipt.gasUsed ≤ tx.gasLimit := by
  obtain ⟨settlement, done⟩ := executed_of_transact executed
  rw [done.gasUsed, Settlement.gasUsed]
  omega

theorem Included.metered {transaction : Transaction}
    (included : Included chain environment transaction executor next)
    (metered : Metered environment executor) : Metered environment next := by
  obtain ⟨receipt, accounts, executed, gasUsed, total, used, receipts, -⟩ := included.outcome
  have bound := gasUsed_le_of_transact executed
  have fits := included.fits
  have grown : executor.gasUsed ≤ gasUsed := Fin.le_def.mpr (by omega)
  refine ⟨?_, ?_, ?_, ?_⟩
  · rw [used, receipts, List.getLast?_append]
    rfl
  · rw [receipts, List.pairwise_append]
    refine ⟨metered.ordered, List.pairwise_singleton _ _, fun older member newer last => ?_⟩
    rw [List.mem_singleton.mp last]
    exact (metered.below older member).trans grown
  · intro other member
    rw [receipts, List.mem_append] at member
    rw [used]
    rcases member with old | last
    · exact (metered.below other old).trans grown
    · rw [List.mem_singleton.mp last]
  · rw [used]
    exact Fin.le_def.mpr (by omega)

theorem executeTransaction_ne_panic (metered : Metered environment executor)
    (transaction : Transaction) (message : String) :
    executeTransaction chain environment transaction executor ≠ .error (.panic message) := by
  intro failed
  have within := metered.within
  have within_val := Fin.le_def.mp within
  unfold executeTransaction executeTransactionWithoutCommit at failed
  rw [if_neg (not_lt.mpr within)] at failed
  dsimp only at failed
  by_cases large : environment.gasLimit.val - executor.gasUsed.val < transaction.env.gasLimit
  · rw [if_pos large] at failed
    cases failed
  rw [if_neg large] at failed
  split at failed
  · next receipt accounts outcome =>
    have bound := gasUsed_le_of_transact outcome
    have limit := environment.gasLimit.isLt
    have small : executor.gasUsed.val + receipt.gasUsed < 2 ^ 64 := by omega
    dsimp only [bind, Except.bind, commitTransaction] at failed
    rw [if_pos small] at failed
    cases failed
  · cases failed
  · cases failed

/-! ### Without a hook -/

def quiet (executor : ArcBlockExecutor) : ArcBlockExecutor :=
  { executor with hook := false, stateHookActive := false, updates := [] }

theorem quiet_applyBlockhashesContractCall :
    applyBlockhashesContractCall chain environment ctx weather (quiet executor) =
      (applyBlockhashesContractCall chain environment ctx weather executor).map quiet := by
  unfold applyBlockhashesContractCall
  obtain ⟨world, receipts, gasUsed, blobGasUsed, hook, active, applied, error, updates, stores⟩ :=
    executor
  split_ifs
  · rfl
  · rfl
  · cases hook <;> rfl

theorem quiet_applyPreExecutionChanges :
    applyPreExecutionChanges chain environment ctx weather (quiet executor) =
      (applyPreExecutionChanges chain environment ctx weather executor).map quiet := by
  dsimp only [applyPreExecutionChanges, bind, Except.bind]
  rw [quiet_applyBlockhashesContractCall]
  cases blockNumberU64 environment with
  | error fault => rfl
  | ok number =>
    cases applyBlockhashesContractCall chain environment ctx weather executor with
    | error fault => rfl
    | ok called =>
      dsimp only [Except.map, quiet]
      cases validateBeneficiaryNotBlocklisted chain environment weather called.world.accounts with
      | error fault => rfl
      | ok _ =>
        dsimp only
        cases validateGasLimit chain environment number called.world.accounts <;> rfl

theorem quiet_executeTransaction (transaction : Transaction) :
    executeTransaction chain environment transaction (quiet executor) =
      (executeTransaction chain environment transaction executor).map quiet := by
  show (executeTransactionWithoutCommit chain environment transaction executor).bind
      (commitTransaction (quiet executor)) =
    ((executeTransactionWithoutCommit chain environment transaction executor).bind
      (commitTransaction executor)).map quiet
  cases executeTransactionWithoutCommit chain environment transaction executor with
  | error fault => rfl
  | ok output =>
    obtain ⟨world, receipts, gasUsed, blobGasUsed, hook, active, applied, error, updates, stores⟩ :=
      executor
    dsimp only [Except.bind, commitTransaction, quiet]
    split_ifs
    · cases hook <;> rfl
    · rfl

theorem quiet_executeTransactions (building : Bool) (transactions : List Transaction) :
    executeTransactions chain environment building transactions (quiet executor) =
      (executeTransactions chain environment building transactions executor).map quiet := by
  induction transactions generalizing executor with
  | nil => rfl
  | cons transaction rest ih =>
    unfold executeTransactions
    rw [quiet_executeTransaction]
    cases executeTransaction chain environment transaction executor with
    | ok middle => exact ih
    | error fault =>
      dsimp only [Except.map]
      split_ifs
      · exact ih
      · rfl

theorem quiet_commitGasValues (number : U64) (parent values : GasValues) :
    commitGasValues chain environment weather number parent values (quiet executor) =
      (commitGasValues chain environment weather number parent values executor).map quiet := by
  obtain ⟨update, wrote, -⟩ := @storeGasValues_eq chain environment executor.world.accounts number values
  cases fine : weather.store with
  | true =>
    unfold commitGasValues
    rw [fine]
    rfl
  | false =>
    have there : storeGasValues chain environment number values (quiet executor).world.accounts =
        .ok update := wrote
    rw [commitGasValues_ok fine wrote, commitGasValues_ok fine there]
    obtain ⟨world, receipts, gasUsed, blobGasUsed, hook, active, applied, error, updates, stores⟩ :=
      executor
    cases hook <;> rfl

theorem quiet_applyPostBlockWrites :
    applyPostBlockWrites chain environment ctx weather (quiet executor) =
      (applyPostBlockWrites chain environment ctx weather executor).map quiet := by
  have computes : ∀ number, computeBlockGasValues chain environment weather number (quiet executor) =
      computeBlockGasValues chain environment weather number executor := fun _ => rfl
  unfold applyPostBlockWrites
  rw [show (quiet executor).postBlockApplied = executor.postBlockApplied from rfl]
  split_ifs
  · rfl
  dsimp only [bind, Except.bind]
  cases blockNumberU64 environment with
  | error fault => rfl
  | ok number =>
    dsimp only
    rw [computes]
    cases computeBlockGasValues chain environment weather number executor with
    | error fault => rfl
    | ok values =>
      dsimp only
      cases validateExtraDataBaseFee ctx values.2.nextBaseFee with
      | error fault => rfl
      | ok _ => exact quiet_commitGasValues number values.1 values.2

end Spec

end ArcNode.Block
