/-
**The stateful precompiles.**

NativeCoinAuthority mints, burns and transfers coins and keeps the total supply in its storage;
NativeCoinControl keeps the blocklist in its storage; SystemAccounting stores the gas values of
recent blocks. Each function is a program over the journal and a gas counter that stops at the first
failed check, in the order of the source, with the message and the gas of that failure. What a
failed program had written is taken back by the call frame, so a failure carries no journal.

The selectors and the ABI encoding are generated code: a call arrives decoded, with `none` where the
arguments do not decode.
-/

import Mathlib
import ArcNode.Lib.Program
import ArcNode.Evm.State

namespace ArcNode.Evm

open ArcNode.Lib ArcNode.Types

/-! ### Gas -/

/-- A gas counter; what remains never exceeds the limit. -/
structure Gas where
  limit : ℕ
  remaining : ℕ
  refunded : ℤ
  within : remaining ≤ limit

variable (gas : Gas) (cost : ℕ)

namespace Gas

def new (limit : ℕ) : Gas := ⟨limit, limit, 0, le_refl limit⟩

theorem sub_within : gas.remaining - cost ≤ gas.limit :=
  (Nat.sub_le _ _).trans gas.within

/-- `record_regular_cost`; `none` when the gas does not cover the cost. -/
def recordRegularCost (gas : Gas) : Option Gas :=
  if cost ≤ gas.remaining then
    some ⟨gas.limit, gas.remaining - cost, gas.refunded, gas.sub_within cost⟩
  else none

def spendAll : Gas := ⟨gas.limit, 0, gas.refunded, Nat.zero_le gas.limit⟩

def totalGasSpent : ℕ := gas.limit - gas.remaining

def used : ℕ := gas.totalGasSpent - gas.refunded.toNat

end Gas

def warmStorageReadCost : ℕ := 100

def coldSloadCost : ℕ := 2100

def coldAccountAccessCost : ℕ := 2600

def callStipend : ℕ := 2300

def sstoreSet : ℕ := 20000

def warmSstoreReset : ℕ := 2900

def precompileSstoreGasCost : ℕ := 2900

def precompileSloadGasCost : ℕ := 2100

def precompileEmptyAccountGasCost : ℕ := 25000

def precompileEarlyRevertGasPenalty : ℕ := 200

/-! ### Outcomes and messages -/

/-- What a call returns: nothing, an error message in the format of Solidity, or a value. -/
inductive Output where
  | empty
  | message (text : String)
  | flag (value : Bool)
  | word (value : U256)
  | bytes (data : List Byte)
  deriving DecidableEq

/-- `PrecompileErrorOrRevert`: a revert with the gas used and a message, or the out-of-gas halt. -/
inductive PrecompileErrorOrRevert where
  | revert (gasUsed : ℕ) (message : String)
  | error
  deriving DecidableEq

def errExecutionReverted : String := "Execution reverted"

def errInsufficientFunds : String := "Insufficient funds"

def errOverflow : String := "Arithmetic overflow"

def errInvalidCaller : String := "Invalid caller"

def errClearEmpty : String := "Cannot clear balance of empty account"

def errDelegateCallNotAllowed : String := "Delegate call not allowed"

def errStateChangeDuringStaticCall : String := "State change during static call"

def errCannotMint : String := "Not enabled native coin minter"

def errCannotBurn : String := "Not enabled native coin burner"

def errCannotTransfer : String := "Not enabled for native coin transfers"

def errZeroAmount : String := "Zero amount invalid"

def errCannotBlocklist : String := "Not enabled for blocklisting"

def errCannotUnblocklist : String := "Not enabled for unblocklisting"

variable (message : String)

def newReverted : PrecompileErrorOrRevert :=
  .revert gas.used message

/-- `new_reverted_with_penalty`: out of gas when the penalty is not covered. -/
def newRevertedWithPenalty (penalty : ℕ) (message : String) : PrecompileErrorOrRevert :=
  match gas.recordRegularCost penalty with
  | some charged => .revert charged.used message
  | none => .error

/-! ### Programs -/

/-- A precompile: it works on the journal and its gas counter, and may fail. -/
abbrev PrecompileM := StateT (EvmJournal × Gas) (Except PrecompileErrorOrRevert)

def reverted (state : EvmJournal × Gas) : PrecompileErrorOrRevert :=
  newReverted state.2 message

/-- `new_reverted_with_early_penalty`. -/
def earlyPenalty (state : EvmJournal × Gas) : PrecompileErrorOrRevert :=
  newRevertedWithPenalty state.2 precompileEarlyRevertGasPenalty message

def outOfGas (_ : EvmJournal × Gas) : PrecompileErrorOrRevert := .error

variable (address : Address)

def getAccount : PrecompileM Account := do
  let state ← get
  pure (state.1.cells address)

def onJournal (change : EvmJournal → EvmJournal) : PrecompileM Unit :=
  modify fun state => (change state.1, state.2)

def recordCostOrOutOfGas : PrecompileM Unit := fun state =>
  match state.2.recordRegularCost cost with
  | some gas => .ok ((), (state.1, gas))
  | none => .error .error

def checkGasRemaining : PrecompileM Unit := do
  let state ← get
  require (cost ≤ state.2.remaining) outOfGas

/-- The arguments of a call, or the revert of a call that does not decode. -/
def decoded {α : Type} (arguments : Option α) : PrecompileM α := fun state =>
  match arguments with
  | some values => .ok (values, state)
  | none => .error (earlyPenalty errExecutionReverted state)

def accountLoadCost (isCold : Bool) : ℕ :=
  if isCold then coldAccountAccessCost else warmStorageReadCost

def sstoreBaseCost (original present new : U256) : ℕ :=
  if new = present then warmStorageReadCost
  else if original = present then if original = 0 then sstoreSet else warmSstoreReset
  else warmStorageReadCost

/-- `read`: the gas is charged before a cold slot is loaded. -/
def read (key : U256) : PrecompileM U256 := do
  onJournal (loadAccount address)
  let account ← getAccount address
  recordCostOrOutOfGas (if account.warmSlots key then warmStorageReadCost else coldSloadCost)
  onJournal (sload address key)
  pure (account.storage key)

/-- `write`: refused with no more than the call stipend left, and charged before it is made. -/
def write (key value : U256) : PrecompileM Unit := do
  let state ← get
  require (callStipend < state.2.remaining) outOfGas
  onJournal (loadAccount address)
  let account ← getAccount address
  recordCostOrOutOfGas (if account.warmSlots key then 0 else coldSloadCost)
  onJournal (sload address key)
  recordCostOrOutOfGas (sstoreBaseCost (account.original key) (account.storage key) value)
  onJournal (sstore address key value)

/-- The cost of the log that an event makes: topics and bytes of data. -/
def logGas : LogData → ℕ
  | .transfer _ _ _ => 375 + 3 * 375 + 8 * 32
  | .blocklisted _ => 375 + 2 * 375
  | .unBlocklisted _ => 375 + 2 * 375
  | .other topics data => 375 + topics.length * 375 + 8 * data.length

def emitEvent (data : LogData) : PrecompileM Unit := do
  recordCostOrOutOfGas (logGas data)
  onJournal (emitLog ⟨address, data⟩)

def recordEmptyAccountCreationCost (account : Account) (amount : U256) : PrecompileM Unit :=
  recordCostOrOutOfGas
    (if amount ≠ 0 ∧ account.isEmpty = true then precompileEmptyAccountGasCost else 0)

/-! ### Balances -/

section Balances

variable (hashes : Hashes) (flags : ArcHardforkFlags)

/-- `check_can_decr_account`: before Zero8 an account may not be emptied. -/
def checkCanDecrAccount (account : Account) (amount : U256) : PrecompileM Unit := do
  require (amount ≤ account.balance) (reverted errInsufficientFunds)
  if flags.isActive .zero8 = false ∧ account.balance = amount ∧ account.nonce = 0 ∧
      account.code = .empty then
    recordCostOrOutOfGas precompileSstoreGasCost
    require False (reverted errClearEmpty)
  else pure ()

def transferMessage : TransferError → String
  | .outOfFunds => errInsufficientFunds
  | .overflowPayment => errOverflow
  | .createCollision => errExecutionReverted

/-- `transfer` of the journal, with its errors as reverts. -/
def journalTransfer (sender receiver : Address) (amount : U256) : PrecompileM Unit := fun state =>
  match transferLoaded hashes sender receiver amount state.1 with
  | .ok journal => .ok ((), (journal, state.2))
  | .error failure => .error (reverted (transferMessage failure) state)

def transfer (sender receiver : Address) (amount : U256) : PrecompileM Unit := do
  let source ← getAccount sender
  onJournal (loadAccount sender)
  recordCostOrOutOfGas (accountLoadCost (!source.warm))
  checkCanDecrAccount flags source amount
  recordCostOrOutOfGas precompileSstoreGasCost
  let target ← getAccount receiver
  onJournal (loadAccount receiver)
  recordCostOrOutOfGas (accountLoadCost (!target.warm))
  recordCostOrOutOfGas precompileSstoreGasCost
  require (target.destroyed = false) (reverted errSelfdestructedBalanceIncreased)
  recordEmptyAccountCreationCost target amount
  journalTransfer hashes sender receiver amount

def balanceIncr (receiver : Address) (amount : U256) : PrecompileM Unit := do
  let target ← getAccount receiver
  onJournal (loadAccount receiver)
  recordCostOrOutOfGas (accountLoadCost (!target.warm))
  require (target.destroyed = false) (reverted errSelfdestructedBalanceIncreased)
  require (target.balance.val + amount.val < 2 ^ 256) (reverted errOverflow)
  recordCostOrOutOfGas precompileSstoreGasCost
  recordEmptyAccountCreationCost target amount
  onJournal (noteMove hashes none (some receiver) amount)
  onJournal (credit receiver amount)

def balanceDecr (sender : Address) (amount : U256) : PrecompileM Unit := do
  let source ← getAccount sender
  onJournal (loadAccount sender)
  recordCostOrOutOfGas (accountLoadCost (!source.warm))
  checkCanDecrAccount flags source amount
  recordCostOrOutOfGas precompileSstoreGasCost
  onJournal (noteMove hashes (some sender) none amount)
  onJournal (debit sender amount)

end Balances

/-! ### Checks on the call -/

structure PrecompileInput where
  gas : ℕ
  caller : Address
  targetAddress : Address
  bytecodeAddress : Address
  isStatic : Bool

def checkStaticcall (input : PrecompileInput) : PrecompileM Unit :=
  require (input.isStatic = false) fun state =>
    newReverted state.2.spendAll errStateChangeDuringStaticCall

def checkDelegatecall (flags : ArcHardforkFlags) (precompileAddress : Address)
    (input : PrecompileInput) : PrecompileM Unit :=
  require (input.targetAddress = precompileAddress ∧ input.bytecodeAddress = precompileAddress)
    fun state =>
      if flags.isActive .zero8 then earlyPenalty errDelegateCallNotAllowed state
      else reverted errDelegateCallNotAllowed state

section Authority

variable (hashes : Hashes) (flags : ArcHardforkFlags) (input : PrecompileInput)

/-! ### NativeCoinAuthority -/

/-- `is_blocklisted` of the precompiles, with the read charged. -/
def isBlocklisted (address : Address) : PrecompileM Bool := do
  let status ← read nativeCoinControlAddress (hashes.isBlocklistedStorageSlot address)
  pure (isBlocklistedStatus status)

/-- The checks all three functions of the authority begin with. -/
def authorize {α : Type} (arguments : Option α) (message : String) : PrecompileM α := do
  checkStaticcall input
  let values ← decoded arguments
  require (input.caller = nativeFiatTokenAddress) (earlyPenalty message)
  checkDelegatecall flags nativeCoinAuthorityAddress input
  pure values

def checkNotBlocklisted (address : Address) : PrecompileM Unit := do
  let blocked ← isBlocklisted hashes address
  require (blocked = false) (earlyPenalty errBlockedAddress)

def mint (arguments : Option (Address × U256)) : PrecompileM Output := do
  let (receiver, amount) ← authorize flags input arguments errCannotMint
  require (receiver ≠ 0) (earlyPenalty errZeroAddress)
  checkNotBlocklisted hashes receiver
  require (amount ≠ 0) (earlyPenalty errZeroAmount)
  let currentTotalSupply ← read nativeCoinAuthorityAddress totalSupplyStorageKey
  require (currentTotalSupply.val + amount.val < 2 ^ 256) (earlyPenalty errOverflow)
  write nativeCoinAuthorityAddress totalSupplyStorageKey (currentTotalSupply + amount)
  balanceIncr hashes receiver amount
  emitEvent systemAddress (.transfer 0 receiver amount)
  pure (.flag true)

def burn (arguments : Option (Address × U256)) : PrecompileM Output := do
  let (sender, amount) ← authorize flags input arguments errCannotBurn
  require (sender ≠ 0) (earlyPenalty errZeroAddress)
  checkNotBlocklisted hashes sender
  require (amount ≠ 0) (earlyPenalty errZeroAmount)
  balanceDecr hashes flags sender amount
  let currentTotalSupply ← read nativeCoinAuthorityAddress totalSupplyStorageKey
  write nativeCoinAuthorityAddress totalSupplyStorageKey
    (U256.saturatingSub currentTotalSupply amount)
  emitEvent systemAddress (.transfer sender 0 amount)
  pure (.flag true)

/-- The function `transfer` of the authority; an amount of zero is allowed and changes nothing. -/
def transferFrom (arguments : Option (Address × Address × U256)) : PrecompileM Output := do
  let (sender, receiver, amount) ← authorize flags input arguments errCannotTransfer
  require (sender ≠ 0 ∧ receiver ≠ 0) (earlyPenalty errZeroAddress)
  checkNotBlocklisted hashes sender
  checkNotBlocklisted hashes receiver
  if amount ≠ 0 then
    transfer hashes flags sender receiver amount
    if sender ≠ receiver then emitEvent systemAddress (.transfer sender receiver amount)
    else pure ()
  else pure ()
  pure (.flag true)

def totalSupply (arguments : Option Unit) : PrecompileM Output := do
  decoded arguments
  checkGasRemaining precompileSloadGasCost
  let supply ← read nativeCoinAuthorityAddress totalSupplyStorageKey
  pure (.word supply)

inductive AuthorityCall where
  | tooShort
  | invalidSelector
  | mint (arguments : Option (Address × U256))
  | burn (arguments : Option (Address × U256))
  | transfer (arguments : Option (Address × Address × U256))
  | totalSupply (arguments : Option Unit)
  deriving Inhabited

/-- The dispatch of the `precompile!` macro for input that no function takes. -/
def unknownCall (message : String) : PrecompileM Output := do
  require False (earlyPenalty message)
  pure .empty

def runNativeCoinAuthority : AuthorityCall → PrecompileM Output
  | .tooShort => unknownCall "Input too short"
  | .invalidSelector => unknownCall "Invalid selector"
  | .mint arguments => mint hashes flags input arguments
  | .burn arguments => burn hashes flags input arguments
  | .transfer arguments => transferFrom hashes flags input arguments
  | .totalSupply arguments => totalSupply arguments

/-! ### NativeCoinControl -/

variable (arguments : Option Address)

/-- The two functions that change the blocklist: the status they write, the event they emit and the
message of an unauthorized call. The check against delegate calls moved in front of the check of the
gas with Zero8. -/
def setBlocklisted (status : U256) (event : Address → LogData)
    (message : String) : PrecompileM Output := do
  checkStaticcall input
  let account ← decoded arguments
  require (input.caller = nativeFiatTokenAddress) (earlyPenalty message)
  if flags.isActive .zero8 then checkDelegatecall flags nativeCoinControlAddress input else pure ()
  checkGasRemaining (precompileSstoreGasCost + logGas (event account))
  if flags.isActive .zero8 then pure () else checkDelegatecall flags nativeCoinControlAddress input
  write nativeCoinControlAddress (hashes.isBlocklistedStorageSlot account) status
  emitEvent nativeCoinControlAddress (event account)
  pure (.flag true)

def blocklist : PrecompileM Output :=
  setBlocklisted hashes flags input arguments 1 .blocklisted errCannotBlocklist

def unBlocklist : PrecompileM Output :=
  setBlocklisted hashes flags input arguments 0 .unBlocklisted errCannotUnblocklist

def isBlocklistedCall : PrecompileM Output := do
  let account ← decoded arguments
  checkGasRemaining precompileSloadGasCost
  let blocked ← isBlocklisted hashes account
  pure (.flag blocked)

inductive ControlCall where
  | tooShort
  | invalidSelector
  | blocklist (arguments : Option Address)
  | isBlocklisted (arguments : Option Address)
  | unBlocklist (arguments : Option Address)
  deriving Inhabited

def runNativeCoinControl : ControlCall → PrecompileM Output
  | .tooShort => unknownCall "Input too short"
  | .invalidSelector => unknownCall "Invalid selector"
  | .blocklist arguments => blocklist hashes flags input arguments
  | .isBlocklisted arguments => isBlocklistedCall hashes arguments
  | .unBlocklist arguments => unBlocklist hashes flags input arguments

/-! ### SystemAccounting -/

/-- A call to SystemAccounting, by its selector; the slot of a block and the packed gas values are
computed from the arguments. -/
inductive AccountingCall where
  | tooShort
  | invalidSelector
  | storeGasValues (arguments : Option (U256 × U256))
  | getGasValues (arguments : Option U256)
  deriving Inhabited

def runSystemAccounting : AccountingCall → PrecompileM Output
  | .tooShort => unknownCall "Input too short"
  | .invalidSelector => unknownCall "Invalid selector"
  | .storeGasValues arguments => do
    checkStaticcall input
    let (slot, packed) ← decoded arguments
    require (input.caller = systemAddress) (earlyPenalty errInvalidCaller)
    checkDelegatecall flags systemAccountingAddress input
    write systemAccountingAddress slot packed
    pure (.flag true)
  | .getGasValues arguments => do
    let slot ← decoded arguments
    let packed ← read systemAccountingAddress slot
    pure (.word packed)

end Authority

end ArcNode.Evm
