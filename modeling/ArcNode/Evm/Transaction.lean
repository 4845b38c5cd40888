/-
**Transactions.**

`ArcEvmHandler` runs a transaction in the steps of the mainnet handler of `revm`: validation, the
purchase of all the gas, the EIP-7702 authorizations, the frames, the return of the unused gas, the
reward of the beneficiary, and the commit. What differs is that a transaction of a blocklisted
sender, or with value for a blocklisted recipient, is refused before it starts, that the whole fee
goes to the beneficiary, and that from Zero8 a transaction whose beneficiary was destroyed in it is
refused.

The intrinsic and floor gas are computed by `revm` from the data and arrive as numbers; its checks
on the chain id, the transaction type, the size of the init code and the versions of blob hashes
arrive as one flag.
-/

import Mathlib
import ArcNode.Evm.Frames

namespace ArcNode.Evm

open ArcNode.Lib ArcNode.Types

/-! ### Transactions, blocks and the state between them -/

/-- An EIP-7702 authorization; `authority` is the signer, if the signature is valid. -/
structure Authorization where
  authority : Option Address
  chainIdMatches : Bool
  nonce : ℕ
  delegate : Address

/-- A creation, or a call; only a call has an authorization list. -/
inductive TxKind where
  | create
  | call (recipient : Address) (authorizations : List Authorization)

/-- A transaction, decoded. -/
structure TxEnv where
  caller : Address
  kind : TxKind
  value : U256
  data : List Byte
  nonce : ℕ
  gasLimit : ℕ
  gasPrice : ℕ
  gasPriorityFee : Option ℕ
  accessList : List (Address × List U256)
  blobs : ℕ
  maxFeePerBlobGas : ℕ
  initialGas : ℕ
  floorGas : ℕ
  wellFormed : Bool

structure BlockEnv where
  beneficiary : Address
  basefee : ℕ
  gasLimit : ℕ
  blobGasPrice : ℕ

/-- The accounts between two transactions. The two precompiles that keep the supply and the
blocklist have an account since genesis, with nonce 1. -/
structure World where
  accounts : Address → StoredAccount
  authority : (accounts nativeCoinAuthorityAddress).nonce ≠ 0
  control : (accounts nativeCoinControlAddress).nonce ≠ 0

def gasPerBlob : ℕ := 131072

namespace TxEnv

variable (tx : TxEnv) (block : BlockEnv)

/-- The price that is paid per gas. -/
def effectiveGasPrice : ℕ :=
  match tx.gasPriorityFee with
  | none => tx.gasPrice
  | some priority => min tx.gasPrice (block.basefee + priority)

/-- What the blobs of a transaction cost; nobody receives it. -/
def blobFee : ℕ := gasPerBlob * tx.blobs * block.blobGasPrice

/-- The most that the transaction may spend. -/
def maxBalanceSpending : ℕ :=
  tx.gasLimit * tx.gasPrice + tx.value.val + gasPerBlob * tx.blobs * tx.maxFeePerBlobGas

/-- What is paid before the frames run: all the gas, and the blobs. -/
def gasBalanceSpending : ℕ := tx.gasLimit * tx.effectiveGasPrice block + tx.blobFee block

def isCall : Bool :=
  match tx.kind with
  | .create => false
  | .call _ _ => true

end TxEnv

/-- The environment with the caller and nonce of a transaction. -/
def Env.during (env : Env) (tx : TxEnv) : Env :=
  { env with txCaller := tx.caller, txNonce := tx.nonce }

/-- Why a transaction is not executed. -/
inductive InvalidTransaction where
  | str (message : String)
  | malformed
  | priorityFeeGreaterThanMaxFee
  | gasPriceLessThanBasefee
  | blobGasPriceGreaterThanMax
  | callerGasLimitMoreThanBlock
  | callGasCostMoreThanGasLimit
  | gasFloorMoreThanGasLimit
  | rejectCallerWithCode
  | nonceMismatch
  | nonceOverflowInTransaction
  | overflowPaymentInTransaction
  | lackOfFundForMaxFee
  | database
  deriving DecidableEq

section Handler

variable (env : Env) (block : BlockEnv) (tx : TxEnv) (world : World)

/-! ### Validation -/

/-- `validate`: the checks that do not look at the state. -/
def validate : Option InvalidTransaction :=
  if tx.wellFormed = false then some .malformed
  else if tx.gasPriorityFee.any (tx.gasPrice < ·) then some .priorityFeeGreaterThanMaxFee
  else if tx.effectiveGasPrice block < block.basefee then some .gasPriceLessThanBasefee
  else if tx.blobs ≠ 0 ∧ tx.maxFeePerBlobGas < block.blobGasPrice then
    some .blobGasPriceGreaterThanMax
  else if block.gasLimit < tx.gasLimit then some .callerGasLimitMoreThanBlock
  else if tx.gasLimit < tx.initialGas then some .callGasCostMoreThanGasLimit
  else if tx.gasLimit < tx.floorGas then some .gasFloorMoreThanGasLimit
  else none

/-- An account at the start of a transaction: the beneficiary, the precompiles and what the access
list names are warm. -/
def initialAccount (address : Address) : Account :=
  let account := (world.accounts address).load
  let listed := tx.accessList.filter fun entry => decide (entry.1 = address)
  { account with
    warm := decide (address = block.beneficiary) || decide (address = nativeCoinAuthorityAddress) ||
      decide (address = nativeCoinControlAddress) || decide (address = systemAccountingAddress) ||
      (env.purePrecompile address).isSome || !listed.isEmpty
    warmSlots := fun key => listed.any fun entry => decide (key ∈ entry.2) }

def initialJournal : EvmJournal := Journal.new (initialAccount env block tx world)

variable (journal : EvmJournal)

/-- `check_blocklist`: the sender, and the recipient of a call with value. -/
def checkBlocklist : Option InvalidTransaction :=
  if blocklisted env.hashes journal tx.caller then some (.str errBlockedAddress)
  else
    match tx.kind with
    | .create => none
    | .call recipient _ =>
      if tx.value ≠ 0 ∧ blocklisted env.hashes journal recipient = true then
        some (.str errBlockedAddress)
      else none

/-- The slots that `check_blocklist` reads. -/
def readParties : EvmJournal :=
  match tx.kind with
  | .create => readBlocklist env tx.caller journal
  | .call recipient _ =>
    if tx.value = 0 then readBlocklist env tx.caller journal
    else readBlocklist env recipient (readBlocklist env tx.caller journal)

/-- `validate_against_state`: code, nonce and funds of the sender. -/
def validateAgainstState (sender : Account) : Option InvalidTransaction :=
  match sender.code with
  | .contract _ => some .rejectCallerWithCode
  | _ =>
    if sender.nonce ≠ tx.nonce then some .nonceMismatch
    else if tx.nonce = 2 ^ 64 - 1 then some .nonceOverflowInTransaction
    else if 2 ^ 128 ≤ tx.gasLimit * tx.gasPrice then some .overflowPaymentInTransaction
    else if sender.balance.val < tx.maxBalanceSpending then some .lackOfFundForMaxFee
    else none

/-- Why a transaction does not start, if it does not. -/
def refusal : Option InvalidTransaction :=
  match validate block tx with
  | some failure => some failure
  | none =>
    match checkBlocklist env tx (initialJournal env block tx world) with
    | some failure => some failure
    | none => validateAgainstState tx (initialAccount env block tx world tx.caller)

/-! ### Before the frames -/

/-- `deduct_caller`: the gas and the blobs are paid; the nonce of a call is bumped here, that of a
creation when its frame is made. -/
def deductCaller : EvmJournal → EvmJournal :=
  modifyAccount tx.caller fun account =>
    { account with
      balance := U256.saturatingSub account.balance (Fin.ofNat _ (tx.gasBalanceSpending block))
      nonce := if tx.isCall then account.nonce + 1 else account.nonce
      warm := true
      touched := true }

/-- One entry of `apply_eip7702_auth_list`, with the refund so far. -/
def applyAuthorization (state : EvmJournal × ℕ) (entry : Authorization) : EvmJournal × ℕ :=
  match entry.authority with
  | none => state
  | some authority =>
    let account := state.1.cells authority
    let loaded := loadAccount authority state.1
    let code := if entry.delegate = 0 then Code.empty else Code.delegated entry.delegate
    if entry.chainIdMatches = false ∨ entry.nonce = 2 ^ 64 - 1 then state
    else
      match account.code with
      | .contract _ => (loaded, state.2)
      | _ =>
        if account.nonce ≠ entry.nonce then (loaded, state.2)
        else
          (bumpNonce authority (setCode authority code loaded),
            if account.isEmpty then state.2 else state.2 + 12500)

def applyAuthorizations : EvmJournal × ℕ :=
  match tx.kind with
  | .create => (journal, 0)
  | .call _ authorizations => authorizations.foldl applyAuthorization (journal, 0)

/-- `pre_execution`: the journal that the frames start from, and the EIP-7702 refund. -/
def preExecution : EvmJournal × ℕ :=
  applyAuthorizations tx (deductCaller block tx
    (readParties env tx (loadAccount nativeCoinControlAddress (initialJournal env block tx world))))

/-! ### The frames -/

/-- The input of the first frame. -/
def firstFrameInput : FrameInput :=
  match tx.kind with
  | .create => .create ⟨tx.caller, .create, tx.value, tx.data, tx.gasLimit - tx.initialGas⟩
  | .call recipient _ =>
    .call ⟨.call, recipient, recipient, knownBytecode journal recipient, .transfer tx.value, tx.data,
      tx.gasLimit - tx.initialGas, false, tx.caller⟩

def loadRecipient : EvmJournal :=
  match tx.kind with
  | .create => journal
  | .call recipient _ => loadAccount recipient journal

/-- The machine when the first frame has been initialized. -/
def begin : Machine :=
  let journal := loadRecipient tx (preExecution env block tx world).1
  (start (env.during tx) (buildSubcallRegistry (env.during tx)) (firstFrameInput tx journal) journal).1

/-- The frames of a transaction, driven by the interpreter's actions. -/
def execute (actions : List Action) : Machine :=
  run (step (env.during tx) (buildSubcallRegistry (env.during tx))) (begin env block tx world) actions

/-! ### After the frames -/

/-- The gas that is given back: what was not spent, and the refund. -/
structure Settlement where
  remaining : ℕ
  refunded : ℕ

/-- `last_frame_result`, `refund` and `eip7623_check_gas_floor`: a halted transaction gives nothing
back, the refund is a fifth of the gas spent at most, and the floor is spent in any case. -/
def settleGas (eip7702Refund : ℕ) (result : FrameResult) : Settlement :=
  let status := result.interpreterResult.result
  let remaining := if status.isOkOrRevert then result.gas.remaining else 0
  let recorded : ℤ := (if status.isOk then result.gas.refunded else 0) + eip7702Refund
  let spent := tx.gasLimit - remaining
  let refunded := min (recorded % 2 ^ 64).toNat (spent / 5)
  if spent - refunded < tx.floorGas then ⟨tx.gasLimit - tx.floorGas, 0⟩ else ⟨remaining, refunded⟩

variable (settlement : Settlement)

def Settlement.gasUsed : ℕ :=
  tx.gasLimit - settlement.remaining - settlement.refunded

def incrBalance (address : Address) (amount : U256) : EvmJournal → EvmJournal :=
  modifyAccount address fun account =>
    { account with balance := U256.saturatingAdd account.balance amount, warm := true, touched := true }

/-- `reimburse_caller`; the product saturates at 128 bits. -/
def reimburseCaller : EvmJournal → EvmJournal :=
  incrBalance tx.caller (Fin.ofNat _ (min
    (tx.effectiveGasPrice block * (settlement.remaining + settlement.refunded)) (2 ^ 128 - 1)))

/-- The fee of a transaction: base fee and priority fee for all the gas used. -/
def totalFeeAmount : ℕ :=
  tx.effectiveGasPrice block * settlement.gasUsed tx

/-- `reward_beneficiary`, once the check of a destroyed beneficiary is passed. -/
def rewardBeneficiary : EvmJournal → EvmJournal :=
  incrBalance block.beneficiary (Fin.ofNat _ (totalFeeAmount block tx settlement))

/-- What a block records about a transaction. -/
structure Receipt where
  result : InstructionResult
  output : Output
  gasUsed : ℕ
  logs : List Log

/-- How a transaction ends; `running` says that the frames need more actions. -/
inductive TxOutcome where
  | rejected (failure : InvalidTransaction)
  | running
  | executed (receipt : Receipt) (accounts : Address → StoredAccount)

/-- `post_execution` and the commit. -/
def postExecution (result : FrameResult) (journal : EvmJournal) : TxOutcome :=
  let settlement := settleGas tx (preExecution env block tx world).2 result
  let repaid := reimburseCaller block tx settlement journal
  if env.flags.isActive .zero8 = true ∧ (repaid.cells block.beneficiary).destroyed = true then
    .rejected (.str errSelfdestructedBalanceIncreased)
  else
    let final := rewardBeneficiary block tx settlement repaid
    .executed ⟨result.interpreterResult.result, result.interpreterResult.output,
      settlement.gasUsed tx, (final.records.filterMap Record.log?).reverse⟩
      fun address => (final.cells address).commit

/-- A whole transaction. -/
def transact (actions : List Action) : TxOutcome :=
  match refusal env block tx world with
  | some failure => .rejected failure
  | none =>
    let machine := execute env block tx world actions
    match machine.ending with
    | none => .running
    | some .fatal => .rejected .database
    | some (.finished result) => postExecution env block tx world result machine.journal

end Handler

end ArcNode.Evm
