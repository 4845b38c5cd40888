/-
**Call frames.**

`ArcEvm` drives the frames of `revm`. A new frame passes the checks of `before_frame_init`, is
initialized by `revm` with its value transfer and its checkpoint, and gets its transfer log; a call
to a registered subcall precompile instead starts the child call it asks for and keeps a
continuation, keyed by its depth, that turns the result of the child into the result of the call.
SELFDESTRUCT is the overridden instruction.

What a contract does is not modelled: an `Action` is what the interpreter of the top frame does
next, chosen freely, with every gas figure, cold load and failed read that the source can meet.
Stack and memory, and with them how a parent takes a child's result, are left out.
-/

import Mathlib
import ArcNode.Lib.Machine
import ArcNode.Evm.Precompiles

namespace ArcNode.Evm

open ArcNode.Lib ArcNode.Types

/-! ### Results and inputs of frames -/

def callStackLimit : ℕ := 1024

/-- How a frame ends. -/
inductive InstructionResult where
  | stop
  | returned
  | selfDestruct
  | revert
  | callTooDeep
  | outOfFunds
  | outOfGas
  | precompileOOG
  | createCollision
  | overflowPayment
  | callNotAllowedInsideStatic
  | stateChangeDuringStaticCall
  | otherHalt
  deriving DecidableEq

namespace InstructionResult

def isOk : InstructionResult → Bool
  | .stop | .returned | .selfDestruct => true
  | _ => false

/-- The results that give the rest of the gas back. -/
def isOkOrRevert : InstructionResult → Bool
  | .stop | .returned | .selfDestruct | .revert | .callTooDeep | .outOfFunds => true
  | _ => false

end InstructionResult

structure InterpreterResult where
  result : InstructionResult
  output : Output
  gas : Gas

inductive FrameResult where
  | call (outcome : InterpreterResult)
  | create (outcome : InterpreterResult) (address : Option Address)

namespace FrameResult

def interpreterResult : FrameResult → InterpreterResult
  | .call outcome => outcome
  | .create outcome _ => outcome

def isOk (result : FrameResult) : Bool := result.interpreterResult.result.isOk

def gas (result : FrameResult) : Gas := result.interpreterResult.gas

end FrameResult

inductive CallScheme where
  | call
  | callCode
  | delegateCall
  | staticCall
  deriving DecidableEq

/-- The value of a call: transferred, or only shown to the callee. -/
inductive CallValue where
  | transfer (amount : U256)
  | apparent (amount : U256)
  deriving DecidableEq

def CallValue.get : CallValue → U256
  | .transfer amount => amount
  | .apparent amount => amount

/-- The inputs of a call frame. -/
structure CallInputs where
  scheme : CallScheme
  targetAddress : Address
  bytecodeAddress : Address
  knownBytecode : Code
  value : CallValue
  input : List Byte
  gasLimit : ℕ
  isStatic : Bool
  caller : Address

variable (inputs : CallInputs)

def CallInputs.transferValue : Option U256 :=
  match inputs.value with
  | .transfer amount => some amount
  | .apparent _ => none

/-- How the address of a created contract is found. -/
inductive CreateScheme where
  | create
  | create2 (salt : U256)
  | custom (address : Address)
  deriving DecidableEq

structure CreateInputs where
  caller : Address
  scheme : CreateScheme
  value : U256
  initCode : List Byte
  gasLimit : ℕ

/-- `created_address`, with the nonce of the caller. -/
def CreateInputs.createdAddress (hashes : Hashes) (inputs : CreateInputs) (nonce : ℕ) : Address :=
  match inputs.scheme with
  | .create => hashes.createAddress inputs.caller nonce
  | .create2 salt => hashes.create2Address inputs.caller salt inputs.initCode
  | .custom address => address

inductive FrameInput where
  | call (inputs : CallInputs)
  | create (inputs : CreateInputs)

def FrameInput.gasLimit : FrameInput → ℕ
  | .call inputs => inputs.gasLimit
  | .create inputs => inputs.gasLimit

/-- A frame on the stack. -/
structure Frame where
  depth : ℕ
  creates : Option Address
  targetAddress : Address
  caller : Address
  callValue : U256
  isStatic : Bool
  gasLimit : ℕ
  checkpoint : Checkpoint

/-- A frame to run, or its result at once. -/
inductive ItemOrResult where
  | item (frame : Frame)
  | result (result : FrameResult)

/-- What is fixed while a transaction runs: the hashes, the active forks, the generated ABI code,
the precompiles without state, and the caller and nonce of the transaction. -/
structure Env where
  hashes : Hashes
  flags : ArcHardforkFlags
  authorityCall : List Byte → AuthorityCall
  controlCall : List Byte → ControlCall
  accountingCall : List Byte → AccountingCall
  callFromCall : List Byte → Option (Address × Address × List Byte)
  callFromReturns : Bool → Output → List Byte
  outputLength : Output → ℕ
  purePrecompile : Address → Option (List Byte → ℕ → Except PrecompileErrorOrRevert (ℕ × Output))
  txCaller : Address
  txNonce : ℕ
  deriving Inhabited

/-! ### Frame initialization in revm -/

/-- A precompile that reads nothing but its input. -/
def pureProgram (run : List Byte → ℕ → Except PrecompileErrorOrRevert (ℕ × Output))
    (inputs : CallInputs) : PrecompileM Output := fun state =>
  match run inputs.input inputs.gasLimit with
  | .ok (gasUsed, output) => (do recordCostOrOutOfGas gasUsed; pure output).run state
  | .error failure => .error failure

section RevmFrames

variable (env : Env)

/-- The program of the precompile at an address, if there is one. -/
def precompileAt (inputs : CallInputs) : Option (PrecompileM Output) :=
  let input : PrecompileInput :=
    ⟨inputs.gasLimit, inputs.caller, inputs.targetAddress, inputs.bytecodeAddress, inputs.isStatic⟩
  if inputs.bytecodeAddress = nativeCoinAuthorityAddress then
    some (runNativeCoinAuthority env.hashes env.flags input (env.authorityCall inputs.input))
  else if inputs.bytecodeAddress = nativeCoinControlAddress then
    some (runNativeCoinControl env.hashes env.flags input (env.controlCall inputs.input))
  else if inputs.bytecodeAddress = systemAccountingAddress then
    some (runSystemAccounting env.flags input (env.accountingCall inputs.input))
  else (env.purePrecompile inputs.bytecodeAddress).map fun run => pureProgram run inputs

/-- The result of a precompile and, when it succeeds, the journal it leaves. One that halts has
spent all its gas. -/
def runPrecompile (program : PrecompileM Output) (gasLimit : ℕ) (journal : EvmJournal) :
    InterpreterResult × EvmJournal :=
  match program.run (journal, Gas.new gasLimit) with
  | .ok (output, (after, gas)) =>
    (⟨.returned, output, ⟨gasLimit, gasLimit - gas.used, 0, Nat.sub_le gasLimit gas.used⟩⟩, after)
  | .error (.revert gasUsed message) =>
    (⟨.revert, .message message, ⟨gasLimit, gasLimit - gasUsed, 0, Nat.sub_le gasLimit gasUsed⟩⟩,
      journal)
  | .error .error => (⟨.precompileOOG, .empty, ⟨gasLimit, 0, 0, Nat.zero_le gasLimit⟩⟩, journal)

def TransferError.instructionResult : TransferError → InstructionResult
  | .outOfFunds => .outOfFunds
  | .overflowPayment => .overflowPayment
  | .createCollision => .createCollision

/-- The value transfer of a call, after the checkpoint is taken. -/
def callTransfer (inputs : CallInputs) (journal : EvmJournal) : Except TransferError EvmJournal :=
  match inputs.value with
  | .transfer amount =>
    transferLoaded env.hashes inputs.caller inputs.targetAddress amount journal
  | .apparent _ => .ok journal

variable (depth : ℕ)

/-- `make_call_frame`: the transfer and a precompile are taken back if the call fails at once. -/
def makeCallFrame (inputs : CallInputs) (journal : EvmJournal) : ItemOrResult × EvmJournal :=
  let ends (result : InstructionResult) : ItemOrResult :=
    .result (.call ⟨result, .empty, Gas.new inputs.gasLimit⟩)
  if callStackLimit < depth then (ends .callTooDeep, journal)
  else
    match callTransfer env inputs journal.enter with
    | .error failure => (ends failure.instructionResult, journal.enter.revert journal.mark)
    | .ok paid =>
      match precompileAt env inputs with
      | some program =>
        let ran := runPrecompile program inputs.gasLimit paid
        (.result (.call ran.1),
          if ran.1.result.isOk then ran.2.leave else ran.2.revert journal.mark)
      | none =>
        if inputs.knownBytecode = .empty then (ends .stop, paid.leave)
        else
          (.item ⟨depth, none, inputs.targetAddress, inputs.caller, inputs.value.get,
            inputs.isStatic, inputs.gasLimit, journal.mark⟩, paid)

/-- `make_create_frame`: the nonce of the creator stays bumped when the creation fails. -/
def makeCreateFrame (inputs : CreateInputs) (journal : EvmJournal) : ItemOrResult × EvmJournal :=
  let ends (result : InstructionResult) : ItemOrResult :=
    .result (.create ⟨result, .empty, Gas.new inputs.gasLimit⟩ none)
  if callStackLimit < depth then (ends .callTooDeep, journal)
  else
    let loaded := loadAccount inputs.caller journal
    let nonce := (journal.cells inputs.caller).nonce
    if (journal.cells inputs.caller).balance < inputs.value then (ends .outOfFunds, loaded)
    else if nonce = 2 ^ 64 - 1 then (ends .returned, loaded)
    else
      let address := inputs.createdAddress env.hashes nonce
      let ready := loadAccount address (bumpNonce inputs.caller loaded)
      match createAccount env.hashes inputs.caller address inputs.value ready.enter with
      | .error failure => (ends failure.instructionResult, ready.enter.revert ready.mark)
      | .ok made =>
        (.item ⟨depth, some address, address, inputs.caller, inputs.value, false, inputs.gasLimit,
          ready.mark⟩, made)

def initFrame (input : FrameInput) (journal : EvmJournal) : ItemOrResult × EvmJournal :=
  match input with
  | .call inputs => makeCallFrame env depth inputs journal
  | .create inputs => makeCreateFrame env depth inputs journal

end RevmFrames

/-! ### The checks before a frame -/

/-- `BeforeFrameInitResult`, without the gas of the reads, which is not charged. -/
inductive BeforeFrameInitResult where
  | log (log : Log)
  | checked
  | reverted (result : FrameResult)
  | none

/-- `create_frame_result` with no gas spent. -/
def createFrameResult (input : FrameInput) (message : String) : FrameResult :=
  match input with
  | .call inputs => .call ⟨.revert, .message message, Gas.new inputs.gasLimit⟩
  | .create inputs => .create ⟨.revert, .message message, Gas.new inputs.gasLimit⟩ none

/-- `extract_call_transfer_params`: only CALL moves value from one account to another. -/
def extractCallTransferParams : Option (Address × Address × U256) :=
  match inputs.scheme with
  | .delegateCall | .staticCall | .callCode => none
  | .call => some (inputs.caller, inputs.targetAddress, inputs.transferValue.getD 0)

section Checks

variable (env : Env)

variable (depth : ℕ) (inputs : CreateInputs)

/-- The sender, receiver and amount of a creation with value. -/
def createTransferParams (journal : EvmJournal) : Option (Address × Address × U256) :=
  if inputs.value = 0 then none
  else
    match inputs.scheme with
    | .create =>
      let nonce := if depth = 0 then env.txNonce else (journal.cells inputs.caller).nonce
      some (inputs.caller, inputs.createdAddress env.hashes nonce, inputs.value)
    | .create2 _ => some (inputs.caller, inputs.createdAddress env.hashes 0, inputs.value)
    | .custom _ => none

/-- The normalization of a CREATE2 with value: `revm` reuses the address that was checked. -/
def normalizeCreate : CreateInputs :=
  match inputs.scheme with
  | .create2 _ =>
    if inputs.value = 0 then inputs
    else { inputs with scheme := .custom (inputs.createdAddress env.hashes 0) }
  | _ => inputs

/-- The nonce of a nested creation is read from the loaded account. -/
def loadCreator (journal : EvmJournal) : EvmJournal :=
  if inputs.value ≠ 0 ∧ inputs.scheme = .create ∧ depth ≠ 0 then loadAccount inputs.caller journal
  else journal

/-- `is_address_blocklisted` makes the slot warm; the answer is `blocklisted` of the journal. -/
def readBlocklist (address : Address) : EvmJournal → EvmJournal :=
  sload nativeCoinControlAddress (env.hashes.isBlocklistedStorageSlot address)

/-- `check_blocklist_and_create_log`: the sender is read first. -/
def checkBlocklistAndCreateLog (sender receiver : Address) (amount : U256) (input : FrameInput)
    (journal : EvmJournal) : BeforeFrameInitResult × EvmJournal :=
  if sender = 0 ∨ receiver = 0 then (.reverted (createFrameResult input errZeroAddress), journal)
  else
    let first := readBlocklist env sender journal
    if blocklisted env.hashes journal sender then
      (.reverted (createFrameResult input errBlockedAddress), first)
    else
      let second := readBlocklist env receiver first
      if blocklisted env.hashes journal receiver then
        (.reverted (createFrameResult input errBlockedAddress), second)
      else
        -- from Zero7 the probe of the receiver is taken back, so that a cold account stays cold
        let probed := if env.flags.isActive .zero7 then second else loadAccount receiver second
        if (journal.cells receiver).destroyed then
          (.reverted (createFrameResult input errSelfdestructedBalanceIncreased), probed)
        else if sender = receiver then (.checked, probed)
        else (.log (createEip7708TransferLog sender receiver amount), probed)

/-- What `before_frame_init` does with the sender, receiver and amount it extracted. -/
def checkTransfer (params : Option (Address × Address × U256)) (input : FrameInput)
    (journal : EvmJournal) : BeforeFrameInitResult × EvmJournal :=
  match params with
  | some (sender, receiver, amount) =>
    if amount = 0 then (.none, journal)
    else checkBlocklistAndCreateLog env sender receiver amount input journal
  | none => (.none, journal)

variable (input : FrameInput)

/-- `before_frame_init`: its verdict, the input as it is handed on, and the journal. -/
def beforeFrameInit (journal : EvmJournal) : BeforeFrameInitResult × FrameInput × EvmJournal :=
  match input with
  | .call inputs =>
    let verdict := checkTransfer env (extractCallTransferParams inputs) input journal
    (verdict.1, input, verdict.2)
  | .create inputs =>
    let handed := FrameInput.create (normalizeCreate env inputs)
    let verdict := checkTransfer env (createTransferParams env depth inputs journal) handed
      (loadCreator depth inputs journal)
    (verdict.1, handed, verdict.2)

/-! ### Checked frame initialization -/

/-- `should_emit_transfer_log`: for a frame to be run and for a call or creation that succeeded. -/
def shouldEmitTransferLog : ItemOrResult → Bool
  | .item _ => true
  | .result (.create outcome address) => outcome.result.isOk && address.isSome
  | .result (.call outcome) => outcome.result.isOk

def isPrecompileCall : FrameInput → Bool
  | .call inputs => (precompileAt env inputs).isSome
  | .create _ => false

variable (maybeLog : Option Log)

/-- `init_precompile_frame_with_transfer_log`: the log comes before those of the precompile, under a
checkpoint of its own. -/
def initPrecompileFrameWithTransferLog (journal : EvmJournal) : ItemOrResult × EvmJournal :=
  match maybeLog with
  | none => initFrame env depth input journal
  | some log =>
    let started := initFrame env depth input (emitLog log journal.enter)
    (started.1,
      if shouldEmitTransferLog started.1 then started.2.leave else started.2.revert journal.mark)

/-- `init_deferred_frame_with_transfer_log`: the log comes after the frame is initialized. -/
def initDeferredFrameWithTransferLog (journal : EvmJournal) : ItemOrResult × EvmJournal :=
  let started := initFrame env depth input journal
  match maybeLog with
  | none => started
  | some log =>
    (started.1, if shouldEmitTransferLog started.1 then emitLog log started.2 else started.2)

/-- The initialization of a frame that passed the checks, with its log. -/
def initFrameWithLog (journal : EvmJournal) : ItemOrResult × EvmJournal :=
  if isPrecompileCall env input then
    initPrecompileFrameWithTransferLog env depth input maybeLog journal
  else initDeferredFrameWithTransferLog env depth input maybeLog journal

/-- `frame_init` without subcalls: checks, then the frame. -/
def checkedFrameInit (journal : EvmJournal) : ItemOrResult × EvmJournal :=
  let before := beforeFrameInit env depth input journal
  match before.1 with
  | .reverted result => (.result result, before.2.2)
  | .log log => initFrameWithLog env depth before.2.1 (some log) before.2.2
  | .checked | .none => initFrameWithLog env depth before.2.1 none before.2.2

end Checks

/-! ### Subcalls -/

/-- What a subcall precompile asks for: a child call, and the gas of decoding. -/
structure SubcallInitResult where
  childInputs : CallInputs
  gasOverhead : ℕ

/-- What a subcall precompile makes of the child's result: output, success, and the gas of
encoding. -/
structure SubcallCompletionResult where
  output : Output
  success : Bool
  gasOverhead : ℕ

/-- A precompile that spawns a child call; both phases may fail. -/
structure SubcallPrecompile where
  initSubcall : CallInputs → Except String SubcallInitResult
  completeSubcall : FrameResult → Option SubcallCompletionResult

/-- Who may call a subcall precompile. -/
inductive AllowedCallers where
  | unrestricted
  | only (callers : List Address)

def AllowedCallers.isAllowed (caller : Address) : AllowedCallers → Bool
  | .unrestricted => true
  | .only callers => decide (caller ∈ callers)

/-- The subcall precompiles by address, with their allowed callers. -/
abbrev SubcallRegistry := Address → Option (SubcallPrecompile × AllowedCallers)

/-- State stored between the two phases. -/
structure SubcallContinuation where
  precompile : SubcallPrecompile
  gasLimit : ℕ
  initSubcallGasOverhead : ℕ
  checkpoint : Checkpoint

def subcallDispatchCost : ℕ := 100

/-- `abi_decode_gas` and `abi_encode_gas`, which are the same sum. -/
def abiGas (length : ℕ) : ℕ := 100 + (length + 31) / 32 * 3

/-- `init_subcall_revert`: a flat cost, or all the gas if it does not cover that. -/
def initSubcallRevert (message : String) (inputs : CallInputs) : FrameResult :=
  let gas := Gas.new inputs.gasLimit
  .call ⟨.revert, .message message, (gas.recordRegularCost subcallDispatchCost).getD gas.spendAll⟩

/-- A static subcall reverts and spends all its gas. -/
def initSubcallStaticRevert : FrameResult :=
  .call ⟨.revert, .message "subcall precompiles cannot be invoked in static context",
    (Gas.new inputs.gasLimit).spendAll⟩

/-- `subcall_oog`, with all the gas spent. -/
def subcallOog (gasLimit : ℕ) : FrameResult :=
  .call ⟨.outOfGas, .empty, (Gas.new gasLimit).spendAll⟩

section Subcalls

variable (env : Env)

/-- `CallFromPrecompile`: a call to a target with another sender, no value and never static. -/
def callFromPrecompile : SubcallPrecompile where
  initSubcall inputs :=
    match env.callFromCall inputs.input with
    | none => .error "ABI decode error: callFrom"
    | some (sender, target, data) =>
      let overhead := abiGas data.length
      if inputs.gasLimit < overhead then
        .error "insufficient gas: gas limit below ABI decode overhead"
      else
        let available := inputs.gasLimit - overhead
        .ok ⟨⟨.call, target, target, .empty, .transfer 0, data, available - available / 64, false,
          sender⟩, overhead⟩
  completeSubcall
    | .call outcome =>
      some ⟨.bytes (env.callFromReturns outcome.result.isOk outcome.output), true,
        abiGas (env.outputLength outcome.output)⟩
    | .create _ _ => none

/-- CallFrom, since Zero7, for its two contracts. -/
def buildSubcallRegistry : SubcallRegistry := fun address =>
  if env.flags.isActive .zero7 ∧ address = callFromAddress then
    some (callFromPrecompile env, .only [memoAddress, multicall3FromAddress])
  else none

/-- `load_account_with_code_metered`: no load when the gas does not cover a cold one. -/
def loadAccountWithCodeMetered (address : Address) (gas : Gas) (journal : EvmJournal) :
    Option (Account × Gas) × EvmJournal :=
  let account := journal.cells address
  if account.warm = false ∧ gas.remaining < coldAccountAccessCost then (none, journal)
  else
    ((gas.recordRegularCost (accountLoadCost (!account.warm))).map fun charged => (account, charged),
      loadAccount address journal)

/-- The bytecode of the child: that of the target or, through a delegation, of the delegate. -/
def loadChildCode (target : Address) (gas : Gas) (journal : EvmJournal) :
    Option (Code × Gas) × EvmJournal :=
  let loaded := loadAccountWithCodeMetered target gas journal
  match loaded.1 with
  | none => (none, loaded.2)
  | some (account, charged) =>
    match account.code with
    | .delegated delegate =>
      let followed := loadAccountWithCodeMetered delegate charged loaded.2
      (followed.1.map fun found => (found.1.code, found.2), followed.2)
    | code => (some (code, charged), loaded.2)

/-- How `init_subcall` ends. -/
inductive SubcallInit where
  | pushed (frame : Frame) (continuation : SubcallContinuation)
  | immediate (result : FrameResult)

/-- `revert_subcall_checkpoint`: a dummy checkpoint keeps the depth. -/
def revertSubcallCheckpoint (saved : Checkpoint) (journal : EvmJournal) : EvmJournal :=
  journal.enter.revert saved

/-- The child returned normally. -/
def childSucceeded : FrameResult → Bool
  | .call outcome => outcome.result.isOk
  | .create _ _ => false

/-- The child hit an error: neither a normal return nor a revert. -/
def childHalted : FrameResult → Bool
  | .call outcome => !outcome.result.isOkOrRevert
  | .create _ _ => true

/-- What a subcall costs: its init overhead, what the child spent, and the completion. -/
def meteredGasUsed (child : FrameResult) (continuation : SubcallContinuation) : ℕ :=
  continuation.initSubcallGasOverhead + child.gas.totalGasSpent +
    ((continuation.precompile.completeSubcall child).map SubcallCompletionResult.gasOverhead).getD 0

/-- A halted child costs all the gas, at least. -/
def subcallGasUsed (child : FrameResult) (continuation : SubcallContinuation) : ℕ :=
  if childHalted child then max continuation.gasLimit (meteredGasUsed child continuation)
  else meteredGasUsed child continuation

/-- `complete_subcall`: the child's state is taken back when the call fails after all. -/
def completeSubcall (child : FrameResult) (continuation : SubcallContinuation)
    (journal : EvmJournal) : FrameResult × EvmJournal :=
  let undone :=
    if childSucceeded child then revertSubcallCheckpoint continuation.checkpoint journal
    else journal
  match (Gas.new continuation.gasLimit).recordRegularCost (subcallGasUsed child continuation) with
  | none => (subcallOog continuation.gasLimit, undone)
  | some gas =>
    match continuation.precompile.completeSubcall child with
    | some result =>
      if result.success then
        let refunded :=
          if childSucceeded child then gas.refunded + child.gas.refunded else gas.refunded
        (.call ⟨.returned, result.output, ⟨gas.limit, gas.remaining, refunded, gas.within⟩⟩, journal)
      else (.call ⟨.revert, result.output, gas⟩, undone)
    | none => (.call ⟨.revert, .empty, gas.spendAll⟩, undone)

/-- The first half of `init_subcall`: the checks and the account loads. It gives the child call with
the gas that is left for it and the completion, or the result that rejects the call. -/
def prepareSubcall (inputs : CallInputs) (precompile : SubcallPrecompile) (journal : EvmJournal) :
    Except FrameResult (CallInputs × Gas) × EvmJournal :=
  if inputs.scheme ≠ .call then
    (.error (initSubcallRevert "subcall precompiles only support CALL scheme" inputs), journal)
  else if inputs.isStatic then (.error (initSubcallStaticRevert inputs), journal)
  else if inputs.transferValue.getD 0 ≠ 0 then
    (.error (initSubcallRevert "subcall precompiles do not support value transfers" inputs), journal)
  else
    match precompile.initSubcall inputs with
    | .error message => (.error (initSubcallRevert message inputs), journal)
    | .ok init =>
      if init.childInputs.caller ≠ inputs.caller ∧ init.childInputs.caller ≠ env.txCaller then
        (.error (initSubcallRevert "sender spoofing requires tx.origin as sender" inputs), journal)
      else
        let known := loadAccount init.childInputs.caller journal
        match (Gas.new inputs.gasLimit).recordRegularCost init.gasOverhead with
        | none => (.error (subcallOog inputs.gasLimit), known)
        | some gas =>
          let code := loadChildCode init.childInputs.targetAddress gas known
          match code.1 with
          | none => (.error (subcallOog inputs.gasLimit), code.2)
          | some (bytecode, left) =>
            (.ok ({ init.childInputs with
                knownBytecode := bytecode
                gasLimit := left.remaining - left.remaining / 64 }, left), code.2)

/-- The second half of `init_subcall`: the checkpoint is saved and the child is started. -/
def dispatchSubcall (depth : ℕ) (inputs : CallInputs) (precompile : SubcallPrecompile)
    (child : CallInputs) (left : Gas) (saved : EvmJournal) : SubcallInit × EvmJournal :=
  let started := checkedFrameInit env (depth + 1) (.call child) saved
  let continuation : SubcallContinuation :=
    ⟨precompile, inputs.gasLimit, left.totalGasSpent, saved.mark⟩
  match started.1 with
  | .item frame => (.pushed frame continuation, started.2)
  | .result result =>
    let completed := completeSubcall result continuation started.2
    (.immediate completed.1, completed.2)

/-- `init_subcall`: the child runs between a saved checkpoint and the completion. -/
def initSubcall (depth : ℕ) (inputs : CallInputs) (precompile : SubcallPrecompile)
    (journal : EvmJournal) : SubcallInit × EvmJournal :=
  let prepared := prepareSubcall env inputs precompile journal
  match prepared.1 with
  | .error result => (.immediate result, prepared.2)
  | .ok (child, left) => dispatchSubcall env depth inputs precompile child left prepared.2

end Subcalls

/-! ### SELFDESTRUCT -/

/-- What the host of an instruction meets: the gas does not cover a cold load, the gas does not
cover the instruction, a read of the blocklist fails, and the gas at that moment. -/
structure HostConditions where
  coldLoadSkipped : Bool
  gasCovers : Bool
  blocklistReadFails : Bool
  remaining : ℕ
  refunded : ℤ

/-- How a failed read of the blocklist is taken: as not listed, or as fatal. -/
inductive BlocklistReadPolicy where
  | failOpen
  | failClosed

/-- What the interpreter does next. -/
inductive Next where
  | running (journal : EvmJournal)
  | newFrame (input : FrameInput) (journal : EvmJournal)
  | returned (outcome : InterpreterResult) (codeRejected : Bool) (journal : EvmJournal)
  | fatal

/-- The gas of a frame that ends, within its limit. -/
def Gas.bounded (limit remaining : ℕ) (refunded : ℤ) : Gas :=
  ⟨limit, min remaining limit, refunded, Nat.min_le_right remaining limit⟩

section Selfdestruct

variable (env : Env)

/-- What an unreadable blocklist means, fork by fork. -/
def blocklistReadPolicy : BlocklistReadPolicy :=
  if env.flags.isActive .zero8 then .failClosed
  else if env.flags.isActive .zero7 then .failClosed
  else .failOpen

/-- `is_blocklisted` of the instruction; `none` is the fatal error. -/
def hostBlocklisted (host : HostConditions) (journal : EvmJournal) (address : Address) :
    Option Bool :=
  match blocklistReadPolicy env with
  | .failOpen => some (!host.blocklistReadFails && blocklisted env.hashes journal address)
  | .failClosed =>
    if host.blocklistReadFails then none else some (blocklisted env.hashes journal address)

/-- The slots of the two parties become warm when they are read. -/
def readSelfdestructParties (source target : Address) (host : HostConditions)
    (journal : EvmJournal) : EvmJournal :=
  if host.blocklistReadFails then journal
  else readBlocklist env source (readBlocklist env target journal)

/-- `check_selfdestruct_accounts`: the result that ends the frame, if there is one; `none` is the
fatal error. -/
def checkSelfdestructAccounts (source target : Address) (host : HostConditions)
    (journal : EvmJournal) : Option (Option (InstructionResult × Output)) :=
  if source = target then some (some (.revert, .empty))
  else
    match hostBlocklisted env host journal target with
    | none => none
    | some true => some (some (.revert, .message errBlockedAddress))
    | some false =>
      match hostBlocklisted env host journal source with
      | none => none
      | some true => some (some (.revert, .message errBlockedAddress))
      | some false =>
        if host.coldLoadSkipped then some (some (.outOfGas, .empty))
        else if (journal.cells target).destroyed then
          some (some (.revert, .message errSelfdestructedBalanceIncreased))
        else some none

/-- `arc_network_selfdestruct_impl`. -/
def arcNetworkSelfdestruct (frame : Frame) (target : Address) (host : HostConditions)
    (journal : EvmJournal) : Next :=
  let ends (result : InstructionResult) (output : Output) (left : EvmJournal) : Next :=
    .returned ⟨result, output, Gas.bounded frame.gasLimit host.remaining host.refunded⟩ false
      left
  let balance := (journal.cells frame.targetAddress).balance
  let swept (ready : EvmJournal) : Next :=
    let after := selfdestruct env.hashes frame.targetAddress target (loadAccount target ready)
    let logged :=
      if balance = 0 then after
      else emitLog (createEip7708TransferLog frame.targetAddress target balance) after
    if host.gasCovers then ends .selfDestruct .empty logged else ends .outOfGas .empty logged
  if frame.isStatic then ends .stateChangeDuringStaticCall .empty journal
  else if balance = 0 then
    if host.coldLoadSkipped then ends .outOfGas .empty journal else swept journal
  else if target = 0 then ends .revert (.message errZeroAddress) journal
  else
    match checkSelfdestructAccounts env frame.targetAddress target host journal with
    | none => .fatal
    | some (some (result, output)) => ends result output journal
    | some none => swept (readSelfdestructParties env frame.targetAddress target host journal)

end Selfdestruct

/-! ### Instructions -/

/-- What the interpreter of the top frame does: a call, a creation, SELFDESTRUCT, a write to its own
storage, a log, the end of the frame, or a read of the database that fails. -/
inductive Action where
  | call (scheme : CallScheme) (target : Address) (value : U256) (input : List Byte) (gasLimit : ℕ)
  | create (salt : Option U256) (value : U256) (initCode : List Byte) (gasLimit : ℕ)
  | selfdestruct (target : Address) (host : HostConditions)
  | sstore (key value : U256)
  | log (topics : List U256) (data : List Byte)
  | finish (result : InstructionResult) (output : Output) (remaining : ℕ) (refunded : ℤ)
      (codeRejected : Bool)
  | databaseFails

/-- The bytecode that a call instruction finds at an address. -/
def knownBytecode (journal : EvmJournal) (address : Address) : Code :=
  match (journal.cells address).code with
  | .delegated delegate => (journal.cells delegate).code
  | code => code

/-- The inputs that a call instruction builds from the frame that executes it. -/
def callInputs (frame : Frame) (scheme : CallScheme) (target : Address) (value : U256)
    (input : List Byte) (gasLimit : ℕ) (bytecode : Code) : CallInputs :=
  match scheme with
  | .call =>
    ⟨.call, target, target, bytecode, .transfer value, input, gasLimit, frame.isStatic,
      frame.targetAddress⟩
  | .callCode =>
    ⟨.callCode, frame.targetAddress, target, bytecode, .transfer value, input, gasLimit,
      frame.isStatic, frame.targetAddress⟩
  | .delegateCall =>
    ⟨.delegateCall, frame.targetAddress, target, bytecode, .apparent frame.callValue, input,
      gasLimit, frame.isStatic, frame.caller⟩
  | .staticCall =>
    ⟨.staticCall, target, target, bytecode, .transfer 0, input, gasLimit, true, frame.targetAddress⟩

section Interpreter

variable (env : Env)

/-- One action of the interpreter of a frame. -/
def interpret (frame : Frame) (action : Action) (journal : EvmJournal) : Next :=
  let halt (result : InstructionResult) : Next :=
    .returned ⟨result, .empty, (Gas.new frame.gasLimit).spendAll⟩ false journal
  match action with
  | .call scheme target value input gasLimit =>
    if frame.isStatic = true ∧ scheme = .call ∧ value ≠ 0 then halt .callNotAllowedInsideStatic
    else
      .newFrame (.call (callInputs frame scheme target value input (min gasLimit frame.gasLimit)
        (knownBytecode journal target))) (loadAccount target journal)
  | .create salt value initCode gasLimit =>
    if frame.isStatic then halt .stateChangeDuringStaticCall
    else
      .newFrame (.create ⟨frame.targetAddress, salt.elim .create .create2, value, initCode,
        min gasLimit frame.gasLimit⟩) journal
  | .selfdestruct target host => arcNetworkSelfdestruct env frame target host journal
  | .sstore key value =>
    if frame.isStatic then halt .stateChangeDuringStaticCall
    else .running (sstore frame.targetAddress key value journal)
  | .log topics data =>
    if frame.isStatic then halt .stateChangeDuringStaticCall
    else .running (emitLog ⟨frame.targetAddress, .other topics data⟩ journal)
  | .finish result output remaining refunded codeRejected =>
    .returned ⟨result, output, Gas.bounded frame.gasLimit remaining refunded⟩ codeRejected
      journal
  | .databaseFails => .fatal

/-- The code that a creation installs. -/
def installedCode : Output → Code
  | .bytes (byte :: rest) => .contract (byte :: rest)
  | _ => .empty

/-- The end of a frame: committed or taken back; a creation installs its code unless it is
rejected. -/
def processReturn (frame : Frame) (outcome : InterpreterResult) (codeRejected : Bool)
    (journal : EvmJournal) : FrameResult × EvmJournal :=
  match frame.creates with
  | none =>
    (.call outcome,
      if outcome.result.isOk then journal.leave else journal.revert frame.checkpoint)
  | some address =>
    if outcome.result.isOk = false then
      (.create outcome (some address), journal.revert frame.checkpoint)
    else if codeRejected then
      (.create ⟨.otherHalt, outcome.output, outcome.gas.spendAll⟩ (some address),
        journal.revert frame.checkpoint)
    else
      (.create ⟨.returned, outcome.output, outcome.gas⟩ (some address),
        setCode address (installedCode outcome.output) journal.leave)

/-! ### The machine -/

/-- How the execution of a transaction ends. -/
inductive Ending where
  | finished (result : FrameResult)
  | fatal

/-- The state of `ArcEvm` while a transaction runs: the journal, the frames, top first, and the
continuations by depth. -/
structure Machine where
  journal : EvmJournal
  stack : List Frame
  continuations : ℕ → Option SubcallContinuation
  ending : Option Ending

/-- The continuation that completes a finished frame. -/
def continuationOf (continuations : ℕ → Option SubcallContinuation) (frame : Frame) :
    Option SubcallContinuation :=
  match frame.depth with
  | 0 => none
  | depth + 1 => continuations depth

end Interpreter

/-- How `frame_init` ends: a frame, with the continuation if `init_subcall` pushed it, or a
result. -/
inductive FrameInitResult where
  | item (frame : Frame) (continuation : Option SubcallContinuation)
  | result (result : FrameResult)

/-- What a turn of the execution loop does to the frames: it may push one, with its continuation if
`init_subcall` did, or pop one, with its result, the continuation that completed it, and the result
that its caller gets. -/
inductive Event where
  | none
  | pushed (frame : Frame) (continuation : Option SubcallContinuation)
  | popped (frame : Frame) (result : FrameResult) (continuation : Option SubcallContinuation)
      (answer : FrameResult)

section Loop

variable (env : Env) (registry : SubcallRegistry)

variable (depth : ℕ) (input : FrameInput) (journal : EvmJournal)

/-- The first half of `frame_init`: a call to a subcall precompile; `none` for any other frame. -/
def subcallInit : Option (SubcallInit × EvmJournal) :=
  match input with
  | .create _ => none
  | .call inputs =>
    match registry inputs.targetAddress with
    | none => none
    | some (precompile, allowed) =>
      if allowed.isAllowed inputs.caller = false then
        some (.immediate (initSubcallRevert "unauthorized caller" inputs), journal)
      else
        let before := beforeFrameInit env depth input journal
        match before.1 with
        | .reverted result => some (.immediate result, before.2.2)
        | _ => some (initSubcall env depth inputs precompile before.2.2)

/-- `frame_init`: a subcall, or an ordinary frame. -/
def frameInit : FrameInitResult × EvmJournal :=
  match subcallInit env registry depth input journal with
  | some (.pushed frame continuation, after) => (.item frame (some continuation), after)
  | some (.immediate result, after) => (.result result, after)
  | none =>
    let started := checkedFrameInit env depth input journal
    match started.1 with
    | .item frame => (.item frame none, started.2)
    | .result result => (.result result, started.2)

/-- The continuations after a frame is pushed for an input of the given depth. -/
def storeContinuation (continuation : Option SubcallContinuation)
    (continuations : ℕ → Option SubcallContinuation) : ℕ → Option SubcallContinuation :=
  match continuation with
  | none => continuations
  | some stored => Function.update continuations depth (some stored)

/-- A result goes to the frame below; without one it is the result of the transaction. -/
def deliver (result : FrameResult) (journal : EvmJournal) (below : List Frame)
    (continuations : ℕ → Option SubcallContinuation) : Machine :=
  match below with
  | [] => ⟨journal, [], continuations, some (.finished result)⟩
  | _ :: _ => ⟨journal, below, continuations, none⟩

/-- `frame_return_result` for the top frame, which has finished. -/
def frameReturnResult (frame : Frame) (below : List Frame) (result : FrameResult)
    (journal : EvmJournal) (continuations : ℕ → Option SubcallContinuation) : Machine × Event :=
  match continuationOf continuations frame with
  | none => (deliver result journal below continuations, .popped frame result none result)
  | some continuation =>
    let completed := completeSubcall result continuation journal
    (deliver completed.1 completed.2 below (Function.update continuations (frame.depth - 1) none),
      .popped frame result (some continuation) completed.1)

/-- One turn of the execution loop, with the action of the top frame. -/
def step (machine : Machine) (action : Action) : Machine × Event :=
  match machine.ending, machine.stack with
  | none, frame :: below =>
    match interpret env frame action machine.journal with
    | .running journal => (⟨journal, frame :: below, machine.continuations, none⟩, .none)
    | .newFrame input journal =>
      let started := frameInit env registry (frame.depth + 1) input journal
      match started.1 with
      | .item child continuation =>
        (⟨started.2, child :: frame :: below,
          storeContinuation (frame.depth + 1) continuation machine.continuations, none⟩,
          .pushed child continuation)
      -- a result without a frame of its own goes to the frame that asked for it
      | .result _ => (⟨started.2, frame :: below, machine.continuations, none⟩, .none)
    | .returned outcome codeRejected journal =>
      let ended := processReturn frame outcome codeRejected journal
      frameReturnResult frame below ended.1 ended.2 machine.continuations
    | .fatal => (⟨machine.journal, frame :: below, machine.continuations, some .fatal⟩, .none)
  | _, _ => (machine, .none)

/-- The machine after the first frame is initialized. -/
def start : Machine × Event :=
  let started := frameInit env registry 0 input journal
  match started.1 with
  | .item frame continuation =>
    (⟨started.2, [frame], storeContinuation 0 continuation fun _ => none, none⟩,
      .pushed frame continuation)
  | .result result => (⟨started.2, [], fun _ => none, some (.finished result)⟩, .none)

end Loop

end ArcNode.Evm
