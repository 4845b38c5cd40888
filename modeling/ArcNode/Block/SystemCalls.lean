/-
**System calls.**

Between transactions the node itself calls contracts, as the system address, with a gas limit of its
own and no fee. It reads and writes the gas values of recent blocks in SystemAccounting, a ring
buffer of 64 slots, one word for each block. The call runs through the frames of `revm` or, from
Zero7, through those of the node. Either way it succeeds: **`retrieveGasValues_eq`** gives what it
reads, and **`storeGasValues_eq`** the one account that it changes.

The answer of ProtocolConfig is a parameter, any function of the environment and the accounts.
-/

import ArcNode.Evm.Accounts
import ArcNode.Fees.BaseFee

namespace ArcNode.Block

open ArcNode.Lib ArcNode.Lib.Journal ArcNode.Types ArcNode.Evm ArcNode.Fees

/-! ### The environment of a block -/

structure Environment where
  number : U256
  timestamp : U64
  beneficiary : Address
  basefee : U64
  gasLimit : U64
  blobGasPrice : ℕ

def Environment.block (environment : Environment) : BlockEnv :=
  ⟨environment.beneficiary, environment.basefee.val, environment.gasLimit.val,
    environment.blobGasPrice⟩

/-- `EthBlockExecutionCtx`: what only the executor sees. The extra data is empty while a block is
built. -/
structure ExecutionCtx where
  parentHash : U256
  extraData : List Byte

/-! ### Gas values in storage -/

def gasValuesRingBufferSize : ℕ := 64

/-- `pack_gas_values_for_storage`: bytes 24 to 32, 16 to 24 and 8 to 16 of the word. -/
def packGasValues (values : GasValues) : U256 :=
  Fin.ofNat _ (values.gasUsed.val + 2 ^ 64 * (values.gasUsedSmoothed.val +
    2 ^ 64 * values.nextBaseFee.val))

/-- `unpack_gas_values_from_storage`. -/
def unpackGasValues (slot : U256) : GasValues :=
  ⟨Fin.ofNat _ slot.val, Fin.ofNat _ (slot.val / 2 ^ 64), Fin.ofNat _ (slot.val / 2 ^ 64 / 2 ^ 64)⟩

/-- The generated ABI code of SystemAccounting: its two calls arrive with the slot of the block in
the ring buffer and the packed values. -/
structure AccountingAbi (env : Env) where
  storageSlot : ℕ → U256
  storeGasValuesCall : U64 → GasValues → List Byte
  getGasValuesCall : U64 → List Byte
  store_decodes : ∀ number values, env.accountingCall (storeGasValuesCall number values) =
    .storeGasValues (some (storageSlot (number.val % gasValuesRingBufferSize), packGasValues values))
  get_decodes : ∀ number, env.accountingCall (getGasValuesCall number) =
    .getGasValues (some (storageSlot (number.val % gasValuesRingBufferSize)))

/-- `compute_gas_values_storage_slot`. -/
def AccountingAbi.gasValuesSlot {env : Env} (abi : AccountingAbi env) (number : U64) : U256 :=
  abi.storageSlot (number.val % gasValuesRingBufferSize)

/-- **A chain**: its specification, the generated code, when Prague is active, and what
ProtocolConfig answers in an environment and a state. -/
structure Chain where
  spec : ArcChainSpec
  base : Env
  abi : AccountingAbi base
  pragueActive : U64 → Bool
  feeParams : Environment → (Address → StoredAccount) → Option FeeParams

def Chain.env (chain : Chain) (environment : Environment) : Env :=
  { chain.base with
    flags := chain.spec.hardforkFlags environment.number.val environment.timestamp.val }

/-! ### System calls -/

def systemCallGasLimit : ℕ := 30000000

/-- The call that a system transaction makes. -/
def systemCallInputs (contract : Address) (data : List Byte) (bytecode : Code) : CallInputs :=
  ⟨.call, contract, contract, bytecode, .transfer 0, data, systemCallGasLimit, false, systemAddress⟩

/-- `transact_system_call`, as far as the first frame: a precompile answers there. Before Zero7 the
frames are those of `revm`. -/
def transactSystemCall (env : Env) (contract : Address) (data : List Byte)
    (accounts : Address → StoredAccount) : FrameInitResult × EvmJournal :=
  let system : Env := { env with txCaller := systemAddress, txNonce := 0 }
  let fresh : EvmJournal := Journal.new fun address => (accounts address).load
  let loaded := loadAccount contract fresh
  let input := FrameInput.call (systemCallInputs contract data (knownBytecode fresh contract))
  if env.flags.isActive .zero7 then
    frameInit system (buildSubcallRegistry system) 0 input
      (loadAccount nativeCoinControlAddress loaded)
  else
    let started := initFrame system 0 input loaded
    match started.1 with
    | .item frame => (.item frame none, started.2)
    | .result result => (.result result, started.2)

inductive SystemAccountingError where
  | execution
  | abiDecode
  | reverted
  | storeFailed
  deriving DecidableEq

/-- What a system call to SystemAccounting returned, with its state. -/
def systemCallOutput (called : FrameInitResult × EvmJournal) :
    Except SystemAccountingError (Output × StateUpdate) :=
  match called.1 with
  | .item _ _ => .error .execution
  | .result result =>
    if result.isOk then .ok (result.interpreterResult.output, finalize called.2) else .error .reverted

section SystemAccounting

variable (chain : Chain) (environment : Environment)

/-- `retrieve_gas_values`; the state of the call is dropped. -/
def retrieveGasValues (number : U64) (accounts : Address → StoredAccount) :
    Except SystemAccountingError GasValues :=
  match systemCallOutput (transactSystemCall (chain.env environment) systemAccountingAddress
    (chain.abi.getGasValuesCall number) accounts) with
  | .ok (.word packed, _) => .ok (unpackGasValues packed)
  | .ok _ => .error .abiDecode
  | .error failure => .error failure

/-- `store_gas_values`: the state that is committed. -/
def storeGasValues (number : U64) (values : GasValues) (accounts : Address → StoredAccount) :
    Except SystemAccountingError StateUpdate :=
  match systemCallOutput (transactSystemCall (chain.env environment) systemAccountingAddress
    (chain.abi.storeGasValuesCall number values) accounts) with
  | .ok (.flag true, state) => .ok state
  | .ok (.flag false, _) => .error .storeFailed
  | .ok _ => .error .abiDecode
  | .error failure => .error failure

end SystemAccounting

/-! ### Programs that succeed -/

section Succeeds

variable {α β : Type} {state : EvmJournal × Gas}

theorem run_bind_ok {program : PrecompileM α} {next : α → PrecompileM β} {value : α}
    {middle : EvmJournal × Gas} {result : β × (EvmJournal × Gas)}
    (first : program.run state = .ok (value, middle)) (second : (next value).run middle = .ok result) :
    (program >>= next).run state = .ok result := by
  rw [StateT.run_bind, first]
  exact second

theorem run_require_ok {condition : Prop} [Decidable condition]
    {failure : EvmJournal × Gas → PrecompileErrorOrRevert} (met : condition) :
    (require condition failure : PrecompileM Unit).run state = .ok ((), state) :=
  if_pos met

theorem run_charge_ok {cost : ℕ} (enough : cost ≤ state.2.remaining) :
    ∃ gas : Gas, gas.remaining = state.2.remaining - cost ∧
      (recordCostOrOutOfGas cost).run state = .ok ((), (state.1, gas)) := by
  refine ⟨⟨state.2.limit, state.2.remaining - cost, state.2.refunded, state.2.sub_within cost⟩, rfl, ?_⟩
  dsimp only [StateT.run, recordCostOrOutOfGas]
  rw [Gas.recordRegularCost, if_pos enough]

theorem run_read_ok (address : Address) (key : U256) (enough : coldSloadCost ≤ state.2.remaining) :
    ∃ gas : Gas, (read address key).run state =
      .ok ((state.1.cells address).storage key,
        (sload address key (loadAccount address state.1), gas)) := by
  have loaded := warms_loadAccount address state.1
  have covered : (if ((loadAccount address state.1).cells address).warmSlots key then
      warmStorageReadCost else coldSloadCost) ≤ state.2.remaining := by
    refine le_trans ?_ enough
    split_ifs
    · decide
    · exact le_rfl
  obtain ⟨gas, -, charged⟩ := @run_charge_ok (loadAccount address state.1, state.2) _ covered
  refine ⟨gas, ?_⟩
  rw [← loaded.storage address]
  exact run_bind_ok rfl (run_bind_ok rfl (run_bind_ok charged (run_bind_ok rfl rfl)))

theorem sstoreBaseCost_le (original present new : U256) :
    sstoreBaseCost original present new ≤ sstoreSet := by
  unfold sstoreBaseCost
  split_ifs <;> decide

theorem run_write_ok (address : Address) (key value : U256)
    (enough : coldSloadCost + sstoreSet ≤ state.2.remaining) :
    ∃ gas : Gas, (write address key value).run state =
      .ok ((), (sstore address key value (sload address key (loadAccount address state.1)), gas)) := by
  have stipend : callStipend < state.2.remaining := lt_of_lt_of_le (by decide) enough
  have cold : (if ((loadAccount address state.1).cells address).warmSlots key then
      0 else coldSloadCost) ≤ coldSloadCost := by
    split_ifs
    · exact Nat.zero_le _
    · exact le_rfl
  obtain ⟨gas, left, charged⟩ := @run_charge_ok (loadAccount address state.1, state.2) _
    (cold.trans (Nat.le_of_add_right_le enough))
  have rest : sstoreSet ≤ gas.remaining := by
    rw [left]
    show sstoreSet ≤ state.2.remaining - _
    omega
  obtain ⟨final, -, stored⟩ := @run_charge_ok (sload address key (loadAccount address state.1), gas) _
    ((sstoreBaseCost_le (((loadAccount address state.1).cells address).original key)
      (((loadAccount address state.1).cells address).storage key) value).trans rest)
  exact ⟨final, run_bind_ok rfl (run_bind_ok (run_require_ok stipend) (run_bind_ok rfl
    (run_bind_ok rfl (run_bind_ok charged (run_bind_ok rfl (run_bind_ok stored rfl))))))⟩

end Succeeds

/-! ### Calls to SystemAccounting -/

section Calls

variable {env : Env} {data : List Byte} {accounts : Address → StoredAccount}

def systemJournal (env : Env) (accounts : Address → StoredAccount) : EvmJournal :=
  let loaded := loadAccount systemAccountingAddress
    (Journal.new fun address => (accounts address).load)
  touchAccount systemAccountingAddress
    (if env.flags.isActive .zero7 then loadAccount nativeCoinControlAddress loaded else loaded).enter

def systemInput : PrecompileInput :=
  ⟨systemCallGasLimit, systemAddress, systemAccountingAddress, systemAccountingAddress, false⟩

theorem makeCallFrame_accounting {bytecode : Code} {journal after : EvmJournal} {output : Output}
    {gas : Gas}
    (ran : (runSystemAccounting env.flags systemInput (env.accountingCall data)).run
      (touchAccount systemAccountingAddress journal.enter, Gas.new systemCallGasLimit) =
        .ok (output, (after, gas))) :
    ∃ left, makeCallFrame env 0 (systemCallInputs systemAccountingAddress data bytecode) journal =
      (.result (.call ⟨.returned, output, left⟩), after.leave) := by
  have paid : callTransfer env (systemCallInputs systemAccountingAddress data bytecode)
      journal.enter = .ok (touchAccount systemAccountingAddress journal.enter) := by
    show transferLoaded env.hashes systemAddress systemAccountingAddress 0 journal.enter = _
    rw [transferLoaded, if_neg (by decide), if_pos rfl]
  have found : precompileAt env (systemCallInputs systemAccountingAddress data bytecode) =
      some (runSystemAccounting env.flags systemInput (env.accountingCall data)) := by
    dsimp only [precompileAt, systemCallInputs]
    rw [if_neg (by decide), if_neg (by decide), if_pos rfl]
    rfl
  obtain ⟨left, answer⟩ : ∃ left, runPrecompile
      (runSystemAccounting env.flags systemInput (env.accountingCall data))
      (systemCallInputs systemAccountingAddress data bytecode).gasLimit
      (touchAccount systemAccountingAddress journal.enter) = (⟨.returned, output, left⟩, after) := by
    unfold runPrecompile
    rw [show (systemCallInputs systemAccountingAddress data bytecode).gasLimit = systemCallGasLimit
      from rfl, ran]
    exact ⟨_, rfl⟩
  refine ⟨left, ?_⟩
  dsimp only [makeCallFrame]
  rw [if_neg (by decide), paid, found]
  dsimp only
  rw [answer]
  rfl

theorem frameInit_accounting {bytecode : Code} {journal after : EvmJournal} {result : FrameResult}
    (made : makeCallFrame env 0 (systemCallInputs systemAccountingAddress data bytecode) journal =
      (.result result, after)) :
    frameInit env (buildSubcallRegistry env) 0
      (.call (systemCallInputs systemAccountingAddress data bytecode)) journal =
        (.result result, after) := by
  have unregistered : buildSubcallRegistry env systemAccountingAddress = none :=
    if_neg fun registered => absurd registered.2 (by decide)
  have checked : checkedFrameInit env 0 (.call (systemCallInputs systemAccountingAddress data bytecode))
      journal = makeCallFrame env 0 (systemCallInputs systemAccountingAddress data bytecode) journal := by
    dsimp only [checkedFrameInit, beforeFrameInit, extractCallTransferParams, systemCallInputs,
      CallInputs.transferValue, Option.getD, checkTransfer]
    rw [if_pos rfl]
    unfold initFrameWithLog
    split_ifs <;> rfl
  dsimp only [frameInit, subcallInit]
  rw [show (systemCallInputs systemAccountingAddress data bytecode).targetAddress =
    systemAccountingAddress from rfl, unregistered]
  dsimp only
  rw [checked, made]

theorem transactSystemCall_accounting {output : Output} {after : EvmJournal} {gas : Gas}
    (ran : (runSystemAccounting env.flags systemInput (env.accountingCall data)).run
      (systemJournal env accounts, Gas.new systemCallGasLimit) = .ok (output, (after, gas))) :
    systemCallOutput (transactSystemCall env systemAccountingAddress data accounts) =
      .ok (output, finalize after) := by
  have answered : ∀ bytecode journal,
      (runSystemAccounting env.flags systemInput (env.accountingCall data)).run
        (touchAccount systemAccountingAddress journal.enter, Gas.new systemCallGasLimit) =
          .ok (output, (after, gas)) →
      ∃ left, makeCallFrame { env with txCaller := systemAddress, txNonce := 0 } 0
        (systemCallInputs systemAccountingAddress data bytecode) journal =
          (.result (.call ⟨.returned, output, left⟩), after.leave) := fun bytecode journal succeeded =>
    @makeCallFrame_accounting { env with txCaller := systemAddress, txNonce := 0 } data bytecode
      journal after output gas succeeded
  dsimp only [systemJournal] at ran
  dsimp only [transactSystemCall]
  by_cases active : env.flags.isActive .zero7 = true
  · rw [if_pos active] at ran ⊢
    obtain ⟨left, made⟩ := answered (knownBytecode
      (Journal.new fun address => (accounts address).load) systemAccountingAddress) _ ran
    rw [frameInit_accounting made]
    rfl
  · rw [if_neg active] at ran ⊢
    obtain ⟨left, made⟩ := answered (knownBytecode
      (Journal.new fun address => (accounts address).load) systemAccountingAddress) _ ran
    dsimp only [initFrame]
    rw [made]
    rfl

/-- Apart from SystemAccounting no account is touched. -/
theorem systemJournal_of_ne {other : Address} (apart : other ≠ systemAccountingAddress) :
    ((systemJournal env accounts).cells other).touched = false := by
  unfold systemJournal touchAccount
  rw [modifyAccount_of_ne apart]
  dsimp only [Journal.enter]
  split_ifs
  · exact ((@Warms.field _ _ ((warms_loadAccount systemAccountingAddress _).trans
      (warms_loadAccount nativeCoinControlAddress _)) _ Account.touched (fun _ => rfl) other)).trans rfl
  · exact (@Warms.field _ _ (warms_loadAccount systemAccountingAddress _) _ Account.touched
      (fun _ => rfl) other).trans rfl

theorem systemJournal_self :
    ∃ warm warmSlots, (systemJournal env accounts).cells systemAccountingAddress =
      { (accounts systemAccountingAddress).load with
        warm := warm, warmSlots := warmSlots, touched := true } := by
  unfold systemJournal touchAccount
  rw [modifyAccount_self]
  dsimp only [Journal.enter]
  split_ifs
  · unfold loadAccount
    rw [modifyAccount_of_ne (by decide), modifyAccount_self]
    exact ⟨_, _, rfl⟩
  · unfold loadAccount
    rw [modifyAccount_self]
    exact ⟨_, _, rfl⟩

end Calls

section GasValues

variable {chain : Chain} {environment : Environment} {accounts : Address → StoredAccount}

theorem retrieveGasValues_eq (number : U64) : retrieveGasValues chain environment number accounts =
      .ok (unpackGasValues ((accounts systemAccountingAddress).storage
        (chain.abi.gasValuesSlot number))) := by
  obtain ⟨warm, warmSlots, here⟩ := @systemJournal_self (chain.env environment) accounts
  have stored : ((systemJournal (chain.env environment) accounts).cells
      systemAccountingAddress).storage = (accounts systemAccountingAddress).storage := by
    rw [here]
    rfl
  have enough : coldSloadCost ≤ systemCallGasLimit := by decide
  obtain ⟨gas, ran⟩ := @run_read_ok (systemJournal (chain.env environment) accounts,
    Gas.new systemCallGasLimit) systemAccountingAddress (chain.abi.gasValuesSlot number) enough
  have answered := @transactSystemCall_accounting (chain.env environment)
    (chain.abi.getGasValuesCall number) accounts _ _ gas (by
      rw [show (chain.env environment).accountingCall (chain.abi.getGasValuesCall number) = _ from
        chain.abi.get_decodes number]
      exact run_bind_ok rfl (run_bind_ok ran rfl))
  unfold retrieveGasValues
  rw [answered]
  dsimp only
  rw [stored]

/-- The account of SystemAccounting after the values of a block are written. -/
def withGasValues (chain : Chain) (number : U64) (values : GasValues) (account : StoredAccount) :
    StoredAccount :=
  ⟨account.balance, account.nonce, account.code, Function.update account.storage
    (chain.abi.gasValuesSlot number) (packGasValues values)⟩

/-- **Writing the gas values of a block changes SystemAccounting alone**, and there one slot, if it
has an account. -/
theorem storeGasValues_eq (number : U64) (values : GasValues) :
    ∃ update, storeGasValues chain environment number values accounts = .ok update ∧
      (∀ other, other ≠ systemAccountingAddress → update other = none) ∧
      ((accounts systemAccountingAddress).nonce ≠ 0 → update systemAccountingAddress =
        some (withGasValues chain number values (accounts systemAccountingAddress))) := by
  obtain ⟨warm, warmSlots, here⟩ := @systemJournal_self (chain.env environment) accounts
  have elsewhere := @systemJournal_of_ne (chain.env environment) accounts
  have enough : coldSloadCost + sstoreSet ≤ systemCallGasLimit := by decide
  obtain ⟨gas, ran⟩ := @run_write_ok (systemJournal (chain.env environment) accounts,
    Gas.new systemCallGasLimit) systemAccountingAddress (chain.abi.gasValuesSlot number)
    (packGasValues values) enough
  have answered := @transactSystemCall_accounting (chain.env environment)
    (chain.abi.storeGasValuesCall number values) accounts _ _ gas (by
      rw [show (chain.env environment).accountingCall (chain.abi.storeGasValuesCall number values) = _
        from chain.abi.store_decodes number values]
      exact run_bind_ok (run_require_ok rfl) (run_bind_ok rfl (run_bind_ok (run_require_ok rfl)
        (run_bind_ok (run_require_ok ⟨rfl, rfl⟩) (run_bind_ok ran rfl)))))
  refine ⟨finalize (sstore systemAccountingAddress (chain.abi.gasValuesSlot number)
    (packGasValues values) (sload systemAccountingAddress (chain.abi.gasValuesSlot number)
      (loadAccount systemAccountingAddress (systemJournal (chain.env environment) accounts)))), ?_,
    fun other apart => ?_, fun alive => ?_⟩
  · unfold storeGasValues
    rw [answered]
  · have cold : (((sload systemAccountingAddress (chain.abi.gasValuesSlot number)
        (loadAccount systemAccountingAddress (systemJournal (chain.env environment) accounts))).cells
        other).touched) = false :=
      (@Warms.field _ _ ((warms_loadAccount systemAccountingAddress _).trans
        (warms_sload systemAccountingAddress _ _)) _ Account.touched (fun _ => rfl) other).trans
        (elsewhere apart)
    unfold finalize sstore
    rw [modifyAccount_of_ne apart, cold, if_neg Bool.false_ne_true]
  · unfold finalize sstore sload loadAccount
    rw [modifyAccount_self, modifyAccount_self, modifyAccount_self, here]
    refine (if_pos rfl).trans (congrArg some ?_)
    exact Rooted.commit ⟨alive, rfl, rfl⟩

end GasValues

/-! ### A fixed encoding -/

/-- SystemAccounting with calls of fixed width: a byte for the call, then the number and the
word. -/
def fixedAccountingCall : List Byte → AccountingCall
  | [] => .tooShort
  | selector :: arguments =>
    let slot : U256 := Fin.ofNat _ (beValue (arguments.take 8) % gasValuesRingBufferSize)
    if selector = 0 then .storeGasValues (some (slot, Fin.ofNat _ (beValue (arguments.drop 8))))
    else .getGasValues (some slot)

theorem fixedAbi_store {env : Env} (fixed : env.accountingCall = fixedAccountingCall) (number : U64)
    (values : GasValues) :
    env.accountingCall (0 :: (beBytes 8 number.val ++ beBytes 32 (packGasValues values).val)) =
      .storeGasValues (some (Fin.ofNat _ (number.val % gasValuesRingBufferSize),
        packGasValues values)) := by
  rw [fixed]
  dsimp only [fixedAccountingCall]
  rw [if_pos rfl, List.take_left' (length_beBytes 8 _), List.drop_left' (length_beBytes 8 _),
    beValue_beBytes number.isLt, beValue_beBytes (packGasValues values).isLt, Fin.ofNat_val_eq_self]

theorem fixedAbi_get {env : Env} (fixed : env.accountingCall = fixedAccountingCall) (number : U64) :
    env.accountingCall (1 :: beBytes 8 number.val) =
      .getGasValues (some (Fin.ofNat _ (number.val % gasValuesRingBufferSize))) := by
  rw [fixed]
  dsimp only [fixedAccountingCall]
  rw [if_neg (by decide), List.take_of_length_le (length_beBytes 8 _).le,
    beValue_beBytes number.isLt]

def fixedAbi (env : Env) (fixed : env.accountingCall = fixedAccountingCall) : AccountingAbi env where
  storageSlot place := Fin.ofNat _ place
  storeGasValuesCall number values :=
    0 :: (beBytes 8 number.val ++ beBytes 32 (packGasValues values).val)
  getGasValuesCall number := 1 :: beBytes 8 number.val
  store_decodes := fixedAbi_store fixed
  get_decodes := fixedAbi_get fixed

end ArcNode.Block
