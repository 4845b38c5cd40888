/-
**The block executor.**

`ArcBlockExecutor` runs a block in steps: the parent hash goes into the history contract of EIP-2935
and the beneficiary and the gas limit are checked; each transaction is executed and committed; then
the gas values of the block are written to SystemAccounting, in `finish` or, when a state hook is
taken away before, already then; its error is kept for `finish`. `Weather` says which reads of the
database fail. `updates` and `stores` are observations that no code reads: what the hook was told,
and the gas values written, with those of the parent.
-/

import ArcNode.Block.SystemCalls

namespace ArcNode.Block

open ArcNode.Lib ArcNode.Types ArcNode.Evm ArcNode.Fees

/-! ### Errors -/

/-- `BlockExecutionError`, by its causes. -/
inductive BlockExecutionError where
  | blockNumberConversion
  | blockhashesContractCall
  | blocklistRead
  | blockedBeneficiary (message : String)
  | gasLimitMismatch (blockGasLimit expected : U64)
  | transactionGasLimit (transactionGasLimit blockAvailableGas : ℕ)
  | invalidTransaction (failure : InvalidTransaction)
  | extraDataMismatch (computed : U64) (extraData : Option U64)
  | systemAccounting (failure : SystemAccountingError)

/-- How a step of the executor fails: with an error, in a panic, or because the given actions do not
end the transaction, which is no execution. -/
inductive Fault where
  | error (error : BlockExecutionError)
  | panic (message : String)
  | unfinished

/-- Which reads and writes of the database fail. -/
structure Weather where
  blockhashes : Bool
  blocklist : Bool
  gasValues : Bool
  store : Bool

/-! ### The executor -/

/-- A transaction with what the contracts it calls do. -/
structure Transaction where
  env : TxEnv
  actions : List Action

structure BlockReceipt where
  receipt : Receipt
  cumulativeGasUsed : U64

/-- A block in execution. -/
structure ArcBlockExecutor where
  world : World
  receipts : List BlockReceipt
  gasUsed : U64
  blobGasUsed : U64
  hook : Bool
  stateHookActive : Bool
  postBlockApplied : Bool
  postBlockError : Option BlockExecutionError
  updates : List StateUpdate
  stores : List (GasValues × GasValues)

namespace ArcBlockExecutor

def new (parent : World) : ArcBlockExecutor :=
  ⟨parent, [], 0, 0, false, false, false, none, [], []⟩

/-- `on_state` of the system caller. -/
def onState (update : StateUpdate) (executor : ArcBlockExecutor) : ArcBlockExecutor :=
  if executor.hook then { executor with updates := executor.updates ++ [update] } else executor

end ArcBlockExecutor

/-- A state that keeps the accounts of a world that have a nonce, as every state does. -/
structure Committable (world : World) where
  state : StateUpdate
  keeps : ∀ root, (world.accounts root).nonce ≠ 0 → (state.apply world.accounts root).nonce ≠ 0

/-- `commit` of the database. -/
def World.commit (world : World) (committable : Committable world) : World :=
  ⟨committable.state.apply world.accounts, committable.keeps _ world.authority,
    committable.keeps _ world.control⟩

/-- `ArcTxResult`. -/
structure TxResult (world : World) where
  receipt : Receipt
  committable : Committable world
  blobGasUsed : ℕ

def blockNumberU64 (environment : Environment) : Except Fault U64 :=
  match ofU256 environment.number with
  | some number => .ok number
  | none => .error (.error .blockNumberConversion)

/-! ### Before the transactions -/

def historyStorageAddress : Address := 0x0000F90827F1C53a10cb7A02335B175320002935

def historyServeWindow : ℕ := 8191

/-- The state of the call to the history contract, which stores the parent hash in a ring buffer. -/
def blockhashesState (number : U256) (parentHash : U256) (accounts : Address → StoredAccount) :
    StateUpdate := fun address =>
  let account := accounts address
  if address = historyStorageAddress ∧ account.code ≠ .empty then
    some ⟨account.balance, account.nonce, account.code, Function.update account.storage
      (Fin.ofNat _ ((number.val - 1) % historyServeWindow)) parentHash⟩
  else none

theorem blockhashesState_keeps (number parentHash : U256) (accounts : Address → StoredAccount)
    (root : Address) (alive : (accounts root).nonce ≠ 0) :
    ((blockhashesState number parentHash accounts).apply accounts root).nonce ≠ 0 := by
  unfold StateUpdate.apply blockhashesState
  dsimp only
  split_ifs
  · exact alive
  · exact alive

section Executor

variable (chain : Chain) (environment : Environment) (ctx : ExecutionCtx) (weather : Weather)

variable (executor : ArcBlockExecutor)

/-- `apply_blockhashes_contract_call`: nothing happens before Prague and at genesis. -/
def applyBlockhashesContractCall : Except Fault ArcBlockExecutor :=
  if chain.pragueActive environment.timestamp = false ∨ environment.number = 0 then .ok executor
  else if weather.blockhashes then .error (.error .blockhashesContractCall)
  else
    let committable : Committable executor.world :=
      ⟨blockhashesState environment.number ctx.parentHash executor.world.accounts,
        blockhashesState_keeps environment.number ctx.parentHash executor.world.accounts⟩
    .ok { executor.onState committable.state with world := World.commit executor.world committable }

def validateBeneficiaryNotBlocklisted (accounts : Address → StoredAccount) : Except Fault Unit :=
  if weather.blocklist then .error (.error .blocklistRead)
  else if isBlocklistedStatus ((accounts nativeCoinControlAddress).storage
      (chain.base.hashes.isBlocklistedStorageSlot environment.beneficiary)) then
    .error (.error (.blockedBeneficiary errBlockedAddress))
  else .ok ()

variable (number : U64)

/-- The gas limit has to be the one that ProtocolConfig asks for. -/
def validateGasLimit (accounts : Address → StoredAccount) : Except Fault Unit :=
  let expected := expectedGasLimit (chain.feeParams environment accounts)
    (chain.spec.blockGasLimitConfig number)
  if environment.gasLimit ≠ expected then
    .error (.error (.gasLimitMismatch environment.gasLimit expected))
  else .ok ()

def applyPreExecutionChanges : Except Fault ArcBlockExecutor := do
  let number ← blockNumberU64 environment
  let executor ← applyBlockhashesContractCall chain environment ctx weather executor
  validateBeneficiaryNotBlocklisted chain environment weather executor.world.accounts
  validateGasLimit chain environment number executor.world.accounts
  .ok executor

/-! ### Transactions -/

theorem finalize_keeps {env : Env} {block : BlockEnv} {tx : TxEnv} {world : World}
    {actions : List Action} {receipt : Receipt} {accounts : Address → StoredAccount}
    (executed : transact env block tx world actions = .executed receipt accounts) (root : Address)
    (alive : (world.accounts root).nonce ≠ 0) :
    ((finalize (finalJournal env block tx world actions)).apply world.accounts root).nonce ≠ 0 := by
  rw [← accounts_of_transact executed]
  exact nonce_of_transact executed alive

def executeTransactionWithoutCommit (transaction : Transaction) (executor : ArcBlockExecutor) :
    Except Fault (TxResult executor.world) :=
  if environment.gasLimit < executor.gasUsed then
    .error (.panic "gas_used must not exceed block gas_limit")
  else
    let blockAvailableGas := environment.gasLimit.val - executor.gasUsed.val
    if blockAvailableGas < transaction.env.gasLimit then
      .error (.error (.transactionGasLimit transaction.env.gasLimit blockAvailableGas))
    else
      match outcome : transact (chain.env environment) environment.block transaction.env
          executor.world transaction.actions with
      | .executed receipt _ =>
        .ok ⟨receipt, ⟨finalize (finalJournal (chain.env environment) environment.block
          transaction.env executor.world transaction.actions), finalize_keeps outcome⟩,
          gasPerBlob * transaction.env.blobs⟩
      | .rejected failure => .error (.error (.invalidTransaction failure))
      | .running => .error .unfinished

def commitTransaction (output : TxResult executor.world) : Except Fault ArcBlockExecutor :=
  if executor.gasUsed.val + output.receipt.gasUsed < 2 ^ 64 then
    let gasUsed : U64 := Fin.ofNat _ (executor.gasUsed.val + output.receipt.gasUsed)
    .ok { executor.onState output.committable.state with
      world := World.commit executor.world output.committable
      gasUsed := gasUsed
      blobGasUsed := U64.ofNatSaturating (executor.blobGasUsed.val + output.blobGasUsed)
      receipts := executor.receipts ++ [⟨output.receipt, gasUsed⟩] }
  else .error (.panic "cumulative gas overflow")

/-- A transaction, run and committed. -/
def executeTransaction (transaction : Transaction) (executor : ArcBlockExecutor) :
    Except Fault ArcBlockExecutor := do
  let output ← executeTransactionWithoutCommit chain environment transaction executor
  commitTransaction executor output

/-- What the payload builder does with a transaction that fails: it skips one that is not valid or
does not fit, and gives up otherwise. -/
def Fault.skipped : Fault → Bool
  | .error (.invalidTransaction .database) => false
  | .error (.invalidTransaction _) => true
  | .error (.transactionGasLimit _ _) => true
  | _ => false

/-- The transactions of a block: a block that is built leaves out what fails, any other fails with
it. -/
def executeTransactions (building : Bool) :
    List Transaction → ArcBlockExecutor → Except Fault ArcBlockExecutor
  | [], executor => .ok executor
  | transaction :: rest, executor =>
    match executeTransaction chain environment transaction executor with
    | .ok next => executeTransactions building rest next
    | .error fault =>
      if building = true ∧ fault.skipped = true then executeTransactions building rest executor
      else .error fault

/-! ### After the transactions -/

/-- `validate_extra_data_base_fee`, made only when there is extra data. -/
def validateExtraDataBaseFee (nextBaseFee : U64) : Except Fault Unit :=
  if ctx.extraData ≠ [] ∧ decodeBaseFeeFromBytes ctx.extraData ≠ some nextBaseFee then
    .error (.error (.extraDataMismatch nextBaseFee (decodeBaseFeeFromBytes ctx.extraData)))
  else .ok ()

/-- The values of the parent, and those that `compute_gas_values` makes of them. -/
def computeBlockGasValues (executor : ArcBlockExecutor) : Except Fault (GasValues × GasValues) :=
  match number.checkedAdd 1 with
  | none => .error (.panic "block number overflow")
  | some _ =>
    if weather.gasValues then .error (.error (.systemAccounting .execution))
    else
      match retrieveGasValues chain environment (number.saturatingSub 1) executor.world.accounts with
      | .error failure => .error (.error (.systemAccounting failure))
      | .ok parent =>
        match computeGasValues chain.spec number (chain.feeParams environment executor.world.accounts)
            parent executor.gasUsed environment.gasLimit environment.basefee with
        | none => .error (.panic "attempt to divide by zero or multiply with overflow")
        | some values => .ok (parent, values)

theorem storeGasValues_keeps {chain : Chain} {environment : Environment} {number : U64}
    {values : GasValues} {accounts : Address → StoredAccount} {state : StateUpdate}
    (stored : storeGasValues chain environment number values accounts = .ok state) (root : Address)
    (alive : (accounts root).nonce ≠ 0) : (state.apply accounts root).nonce ≠ 0 := by
  obtain ⟨update, wrote, elsewhere, here⟩ :=
    @storeGasValues_eq chain environment accounts number values
  obtain rfl : update = state := Except.ok.inj (wrote.symm.trans stored)
  unfold StateUpdate.apply
  by_cases accounting : root = systemAccountingAddress
  · rw [accounting] at alive ⊢
    rw [here alive]
    exact alive
  · rw [elsewhere root accounting]
    exact alive

/-- The commit of the gas values and the notice to the hook. -/
def commitGasValues (parent values : GasValues) (executor : ArcBlockExecutor) :
    Except Fault ArcBlockExecutor :=
  if weather.store then .error (.error (.systemAccounting .execution))
  else
    match stored : storeGasValues chain environment number values executor.world.accounts with
    | .error failure => .error (.error (.systemAccounting failure))
    | .ok state =>
      .ok { executor.onState state with
        world := World.commit executor.world ⟨state, storeGasValues_keeps stored⟩
        postBlockApplied := true
        stores := executor.stores ++ [(parent, values)] }

def applyPostBlockWrites : Except Fault ArcBlockExecutor :=
  if executor.postBlockApplied then .ok executor
  else do
    let number ← blockNumberU64 environment
    let (parent, values) ← computeBlockGasValues chain environment weather number executor
    validateExtraDataBaseFee ctx values.nextBaseFee
    commitGasValues chain environment weather number parent values executor

/-- `set_state_hook`: an installed hook that is taken away still sees the writes after the block. -/
def setStateHook (hook : Bool) (executor : ArcBlockExecutor) : Except Fault ArcBlockExecutor :=
  if hook = false ∧ executor.stateHookActive = true ∧ executor.postBlockApplied = false then
    match applyPostBlockWrites chain environment ctx weather executor with
    | .ok next => .ok { next with hook := hook, stateHookActive := hook }
    | .error (.error failure) =>
      .ok { executor with postBlockError := some failure, hook := hook, stateHookActive := hook }
    | .error fault => .error fault
  else .ok { executor with hook := hook, stateHookActive := hook }

def finish : Except Fault ArcBlockExecutor :=
  match executor.postBlockError with
  | some failure => .error (.error failure)
  | none => applyPostBlockWrites chain environment ctx weather executor

/-! ### A block -/

structure HookUse where
  installs : Bool
  clears : Bool

variable (use : HookUse)

def openHook (executor : ArcBlockExecutor) : Except Fault ArcBlockExecutor :=
  if use.installs then setStateHook chain environment ctx weather true executor else .ok executor

/-- The hook after the transactions; without one in place this changes nothing. -/
def closeHook (executor : ArcBlockExecutor) : Except Fault ArcBlockExecutor :=
  if use.clears then setStateHook chain environment ctx weather false executor else .ok executor

/-- **A block**, from the state of its parent. -/
def executeBlock (building : Bool) (transactions : List Transaction) (parent : World) :
    Except Fault ArcBlockExecutor := do
  let opened ← openHook chain environment ctx weather use (.new parent)
  let ready ← applyPreExecutionChanges chain environment ctx weather opened
  let executed ← executeTransactions chain environment building transactions ready
  let closed ← closeHook chain environment ctx weather use executed
  finish chain environment ctx weather closed

end Executor

end ArcNode.Block
