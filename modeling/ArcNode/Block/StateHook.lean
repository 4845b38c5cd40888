/-
**The state hook sees the changes of a block, once.**

A block is executed with a hook that is taken away before `finish`, as the payload builder does,
with a hook that stays, or without one. **`state_hook_sees_block`**: a block that succeeds has
written its gas values once, with the gas of its last receipt; what the hook was told, applied in
order to the state of the parent, is the state of the block; the hook makes no difference to the
result, not even to its error; and a write that failed when the hook was taken away is not tried
again. What blocks write is there for 64 blocks (**`recent_gas_values_read_back`**).
-/

import ArcNode.Block.ExecutorSpec
import ArcNode.Evm.Supply

namespace ArcNode.Block

open ArcNode.Lib ArcNode.Types ArcNode.Evm ArcNode.Fees

section StateHook

variable {chain : Chain} {environment : Environment} {ctx : ExecutionCtx} {weather : Weather}
  {executor next : ArcBlockExecutor}

/-! ### Before the writes after the block -/

structure Pending (executor : ArcBlockExecutor) : Prop where
  error : executor.postBlockError = none
  applied : executor.postBlockApplied = false
  stores : executor.stores = []

/-- What holds from the start of a block to the end of its transactions. -/
structure Underway (environment : Environment) (parent : World) (hook : Bool)
    (executor : ArcBlockExecutor) : Prop where
  pending : Pending executor
  metered : Metered environment executor
  hooked : executor.hook = hook ∧ executor.stateHookActive = hook
  told : hook = true → Told parent executor
  rooted : ∀ root, (parent.accounts root).nonce ≠ 0 → (executor.world.accounts root).nonce ≠ 0

variable {parent : World} {hook : Bool}

theorem Underway.advances {before after : ArcBlockExecutor}
    (underway : Underway environment parent hook before) (advances : Advances before after)
    (metered : Metered environment after) (applied : after.postBlockApplied = before.postBlockApplied)
    (stores : after.stores = before.stores) : Underway environment parent hook after where
  pending := ⟨advances.error.trans underway.pending.error, applied.trans underway.pending.applied,
    stores.trans underway.pending.stores⟩
  metered := metered
  hooked := ⟨advances.hook.trans underway.hooked.1, advances.active.trans underway.hooked.2⟩
  told installed := advances.keeps_told (underway.hooked.1.trans installed) (underway.told installed)
  rooted root alive := advances.nonce (underway.rooted root alive)

theorem underway_openHook (use : HookUse) (parent : World) :
    ∃ opened, openHook chain environment ctx weather use (.new parent) = .ok opened ∧
      Underway environment parent use.installs opened ∧ quiet opened = .new parent := by
  unfold openHook
  cases use.installs with
  | true =>
    refine ⟨{ ArcBlockExecutor.new parent with hook := true, stateHookActive := true }, rfl,
      ⟨⟨rfl, rfl, rfl⟩, ?_, ⟨rfl, rfl⟩, fun _ => rfl, fun _ alive => alive⟩, rfl⟩
    exact (metered_new parent).congr rfl rfl
  | false =>
    exact ⟨.new parent, rfl, ⟨⟨rfl, rfl, rfl⟩, metered_new parent, ⟨rfl, rfl⟩,
      fun installed => absurd installed Bool.false_ne_true, fun _ alive => alive⟩, rfl⟩

theorem underway_applyPreExecutionChanges (underway : Underway environment parent hook executor)
    (ok : applyPreExecutionChanges chain environment ctx weather executor = .ok next) :
    Underway environment parent hook next := by
  rcases applyBlockhashesContractCall_spec (preExecuted_of_ok ok).called with rfl | ⟨commits, -, rfl⟩
  · exact underway
  · exact underway.advances ⟨onState_hook _, onState_active _, onState_error _,
      Or.inr ⟨commits, rfl, rfl⟩⟩ (underway.metered.congr (onState_receipts _) (onState_gasUsed _))
      (onState_applied _) (onState_stores _)

variable {transactions : List Transaction}

theorem underway_executeTransactions {building : Bool}
    (underway : Underway environment parent hook executor)
    (ok : executeTransactions chain environment building transactions executor = .ok next) :
    Underway environment parent hook next := by
  refine executeTransactions_keeps (fun transaction before after underway executed => ?_) underway ok
  have included := included_of_ok executed
  exact underway.advances included.advances (included.metered underway.metered) included.applied
    included.stores

/-! ### The end of a block -/

variable (use : HookUse)

/-- The hook after the transactions, for an executor that ends with the writes. -/
def HookUse.closes (executor : ArcBlockExecutor) : ArcBlockExecutor :=
  if use.clears then { executor with hook := false, stateHookActive := false } else executor

theorem without_hook (hooked : executor.hook = false ∧ executor.stateHookActive = false) :
    { executor with hook := false, stateHookActive := false } = executor := by
  obtain ⟨world, receipts, gasUsed, blobGasUsed, hook, active, applied, error, updates, stores⟩ :=
    executor
  obtain ⟨rfl, rfl⟩ : hook = false ∧ active = false := hooked
  rfl

theorem finish_pending (pending : Pending executor) :
    finish chain environment ctx weather executor =
      applyPostBlockWrites chain environment ctx weather executor := by
  unfold finish
  rw [pending.error]

theorem finish_applied (error : executor.postBlockError = none)
    (applied : executor.postBlockApplied = true) :
    finish chain environment ctx weather executor = .ok executor := by
  unfold finish
  rw [error]
  exact if_pos applied

/-- **Wherever the writes are made, they are made once.** Taking the hook away and finishing does
what the writes alone do. -/
theorem finish_closeHook {use : HookUse}
    (underway : Underway environment parent use.installs executor) :
    (closeHook chain environment ctx weather use executor).bind
        (finish chain environment ctx weather) =
      (applyPostBlockWrites chain environment ctx weather executor).map use.closes := by
  have pending := underway.pending
  obtain ⟨hooked, active⟩ := underway.hooked
  unfold closeHook HookUse.closes
  cases use.clears with
  | false =>
    show finish chain environment ctx weather executor = _
    rw [finish_pending pending]
    cases applyPostBlockWrites chain environment ctx weather executor <;> rfl
  | true =>
    rw [if_pos rfl, setStateHook]
    cases installs : use.installs with
    | true =>
      rw [if_pos ⟨rfl, active.trans installs, pending.applied⟩]
      cases written : applyPostBlockWrites chain environment ctx weather executor with
      | error fault => cases fault <;> rfl
      | ok last =>
        obtain ⟨number, values, new, recorded⟩ := recorded_of_ok pending.applied written
        exact finish_applied (recorded.advances.error.trans pending.error) recorded.applied
    | false =>
      have bare := And.intro (hooked.trans installs) (active.trans installs)
      rw [if_neg (fun now => Bool.false_ne_true (bare.2.symm.trans now.2.1)), without_hook bare]
      show finish chain environment ctx weather executor = _
      rw [finish_pending pending]
      cases written : applyPostBlockWrites chain environment ctx weather executor with
      | error fault => rfl
      | ok last =>
        obtain ⟨number, values, new, recorded⟩ := recorded_of_ok pending.applied written
        have still := @without_hook last
          ⟨recorded.advances.hook.trans bare.1, recorded.advances.active.trans bare.2⟩
        exact congrArg Except.ok still.symm

theorem executeBlock_eq (use : HookUse) (building : Bool) (transactions : List Transaction) :
    ∃ opened, Underway environment parent use.installs opened ∧ quiet opened = .new parent ∧
      executeBlock chain environment ctx weather use building transactions parent =
        (applyPreExecutionChanges chain environment ctx weather opened).bind fun ready =>
        (executeTransactions chain environment building transactions ready).bind fun executed =>
        (applyPostBlockWrites chain environment ctx weather executed).map use.closes := by
  obtain ⟨opened, opens, underway, bare⟩ :=
    @underway_openHook chain environment ctx weather use parent
  refine ⟨opened, underway, bare, ?_⟩
  dsimp only [executeBlock, bind]
  rw [opens]
  dsimp only [Except.bind]
  cases prepared : applyPreExecutionChanges chain environment ctx weather opened with
  | error fault => rfl
  | ok ready =>
    have before := underway_applyPreExecutionChanges underway prepared
    dsimp only
    cases done : executeTransactions chain environment building transactions ready with
    | error fault => rfl
    | ok executed => exact finish_closeHook (underway_executeTransactions before done)

/-! ### Results -/

theorem quiet_closes (executor : ArcBlockExecutor) :
    quiet (use.closes executor) = quiet executor := by
  unfold HookUse.closes
  split_ifs <;> rfl

theorem quiet_executeBlock (building : Bool) (transactions : List Transaction) :
    (executeBlock chain environment ctx weather use building transactions parent).map quiet =
      (applyPreExecutionChanges chain environment ctx weather (.new parent)).bind fun ready =>
      (executeTransactions chain environment building transactions ready).bind
        (applyPostBlockWrites chain environment ctx weather) := by
  obtain ⟨opened, -, bare, runs⟩ :=
    @executeBlock_eq chain environment ctx weather parent use building transactions
  rw [runs, ← bare, quiet_applyPreExecutionChanges]
  cases applyPreExecutionChanges chain environment ctx weather opened with
  | error fault => rfl
  | ok ready =>
    dsimp only [Except.map, Except.bind]
    rw [quiet_executeTransactions]
    cases executeTransactions chain environment building transactions ready with
    | error fault => rfl
    | ok executed =>
      dsimp only [Except.map]
      rw [quiet_applyPostBlockWrites]
      cases applyPostBlockWrites chain environment ctx weather executed with
      | error fault => rfl
      | ok last => exact congrArg Except.ok (quiet_closes use last)

/-- What a block that succeeded leaves: the gas values of the block, written once; receipts within
the limit; and a hook that can follow. -/
structure SeenOnce (chain : Chain) (environment : Environment) (use : HookUse) (parent : World)
    (final : ArcBlockExecutor) : Prop where
  written : ∃ number older values, blockNumberU64 environment = .ok number ∧
    final.stores = [(older, values)] ∧ values.gasUsed = final.gasUsed ∧
    ((parent.accounts systemAccountingAddress).nonce ≠ 0 →
      (final.world.accounts systemAccountingAddress).storage (chain.abi.gasValuesSlot number) =
        packGasValues values)
  metered : Metered environment final
  told : use.installs = true → Told parent final

theorem computeGasValues_gasUsed {spec : ArcChainSpec} {number : U64} {feeParams : Option FeeParams}
    {older values : GasValues} {gasUsed gasLimit baseFee : U64}
    (computed : computeGasValues spec number feeParams older gasUsed gasLimit baseFee = some values) :
    values.gasUsed = gasUsed := by
  obtain ⟨height, -, rest⟩ := Option.bind_eq_some_iff.mp computed
  obtain ⟨raw, -, rfl⟩ := Option.map_eq_some_iff.mp rest
  rfl

theorem seenOnce_of_recorded {use : HookUse} {number : U64} {older values : GasValues}
    (underway : Underway environment parent use.installs executor)
    (recorded : Recorded chain environment ctx executor next number older values) :
    SeenOnce chain environment use parent (use.closes next) := by
  have same : (use.closes next).world = next.world ∧ (use.closes next).stores = next.stores ∧
      (use.closes next).receipts = next.receipts ∧ (use.closes next).gasUsed = next.gasUsed ∧
      (use.closes next).updates = next.updates := by
    unfold HookUse.closes
    split_ifs <;> exact ⟨rfl, rfl, rfl, rfl, rfl⟩
  obtain ⟨world, stores, receipts, gasUsed, updates⟩ := same
  refine ⟨⟨number, older, values, recorded.known, ?_, ?_, fun alive => ?_⟩, ?_, fun installed => ?_⟩
  · rw [stores, recorded.stores, underway.pending.stores]
    rfl
  · rw [gasUsed, recorded.receipts.2]
    exact computeGasValues_gasUsed recorded.computed
  · rw [world, recorded.account (underway.rooted _ alive)]
    exact Function.update_self _ _ _
  · exact underway.metered.congr (receipts.trans recorded.receipts.1)
      (gasUsed.trans recorded.receipts.2)
  · have told := recorded.advances.keeps_told (underway.hooked.1.trans installed)
      (underway.told installed)
    unfold Told at *
    rw [world, updates]
    exact told

theorem seenOnce_of_executeBlock {use : HookUse} {building : Bool}
    (ok : executeBlock chain environment ctx weather use building transactions parent = .ok next) :
    SeenOnce chain environment use parent next := by
  obtain ⟨opened, underway, -, runs⟩ :=
    @executeBlock_eq chain environment ctx weather parent use building transactions
  rw [runs] at ok
  obtain ⟨ready, before, rest⟩ := bind_eq_ok.mp ok
  obtain ⟨executed, done, rest⟩ := bind_eq_ok.mp rest
  obtain ⟨last, written, rfl⟩ := map_eq_ok.mp rest
  have present := underway_executeTransactions (underway_applyPreExecutionChanges underway before) done
  obtain ⟨number, older, values, recorded⟩ := recorded_of_ok present.pending.applied written
  exact seenOnce_of_recorded present recorded

/-! ### Panics -/

theorem applyPreExecutionChanges_ne_panic (message : String) :
    applyPreExecutionChanges chain environment ctx weather executor ≠ .error (.panic message) := by
  intro failed
  rcases bind_eq_error.mp failed with unknown | ⟨number, -, failed⟩
  · unfold blockNumberU64 at unknown
    split at unknown <;> cases unknown
  rcases bind_eq_error.mp failed with uncalled | ⟨called, -, failed⟩
  · unfold applyBlockhashesContractCall at uncalled
    split_ifs at uncalled
    cases uncalled
  rcases bind_eq_error.mp failed with listed | ⟨_, -, failed⟩
  · unfold validateBeneficiaryNotBlocklisted at listed
    split_ifs at listed
    · cases listed
    · cases listed
  rcases bind_eq_error.mp failed with limited | ⟨_, -, failed⟩
  · dsimp only [validateGasLimit] at limited
    split_ifs at limited
    cases limited
  · cases failed

/-- The writes panic only at the last block number there is. -/
theorem applyPostBlockWrites_panic {message : String}
    (failed : applyPostBlockWrites chain environment ctx weather executor =
      .error (.panic message)) : message = "block number overflow" := by
  unfold applyPostBlockWrites at failed
  split_ifs at failed
  rcases bind_eq_error.mp failed with unknown | ⟨number, -, failed⟩
  · unfold blockNumberU64 at unknown
    split at unknown <;> cases unknown
  rcases bind_eq_error.mp failed with uncomputed | ⟨⟨older, values⟩, -, failed⟩
  · unfold computeBlockGasValues at uncomputed
    cases counts : U64.checkedAdd number 1 with
    | none =>
      rw [counts] at uncomputed
      injection Except.error.inj uncomputed with same
      exact same.symm
    | some height =>
      rw [counts] at uncomputed
      dsimp only at uncomputed
      split_ifs at uncomputed
      · cases uncomputed
      rw [retrieveGasValues_eq] at uncomputed
      dsimp only at uncomputed
      obtain ⟨values, computed, -⟩ := @computeGasValues_eq chain.spec _ _ counts
        (chain.feeParams environment executor.world.accounts)
        (unpackGasValues ((executor.world.accounts systemAccountingAddress).storage
          (chain.abi.gasValuesSlot (number.saturatingSub 1))))
        executor.gasUsed environment.gasLimit environment.basefee
      rw [computed] at uncomputed
      cases uncomputed
  rcases bind_eq_error.mp failed with differs | ⟨_, -, failed⟩
  · unfold validateExtraDataBaseFee at differs
    split_ifs at differs
    cases differs
  · unfold commitGasValues at failed
    split_ifs at failed
    · cases failed
    · split at failed <;> cases failed

/-- **A block panics only at the last block number there is.** The gas that is left is never
negative, and the gas of the block does not overflow. -/
theorem executeBlock_panic {use : HookUse} {building : Bool}
    {message : String} (failed : executeBlock chain environment ctx weather use building transactions
      parent = .error (.panic message)) : message = "block number overflow" := by
  obtain ⟨opened, underway, -, runs⟩ :=
    @executeBlock_eq chain environment ctx weather parent use building transactions
  rw [runs] at failed
  rcases bind_eq_error.mp failed with early | ⟨ready, before, failed⟩
  · exact (applyPreExecutionChanges_ne_panic message early).elim
  rcases bind_eq_error.mp failed with early | ⟨executed, -, failed⟩
  · have metered := (underway_applyPreExecutionChanges underway before).metered
    obtain ⟨transaction, there, within, panics⟩ := executeTransactions_fault
      (fun _ _ _ metered executed => (included_of_ok executed).metered metered) metered early
    exact (executeTransaction_ne_panic within transaction message panics).elim
  · cases written : applyPostBlockWrites chain environment ctx weather executed with
    | ok last =>
      rw [written] at failed
      cases failed
    | error fault =>
      rw [written] at failed
      obtain rfl := Except.error.inj failed
      exact applyPostBlockWrites_panic written

/-! ### A write that fails -/

/-- **A write that failed when the hook was taken away is not tried again.** -/
theorem finish_of_failed_write (active : executor.stateHookActive = true)
    (pending : executor.postBlockApplied = false) {failure : BlockExecutionError}
    (failed : applyPostBlockWrites chain environment ctx weather executor =
      .error (.error failure)) :
    ∃ closed, setStateHook chain environment ctx weather false executor = .ok closed ∧
      closed.world = executor.world ∧ closed.stores = executor.stores ∧
      closed.updates = executor.updates ∧
      ∀ later, finish chain environment ctx later closed = .error (.error failure) := by
  refine ⟨{ executor with postBlockError := some failure, hook := false, stateHookActive := false },
    ?_, rfl, rfl, rfl, fun _ => rfl⟩
  unfold setStateHook
  rw [if_pos ⟨rfl, active, pending⟩, failed]

/-! ### The hook of a block -/

/-- **The state hook sees the changes of a block, once.** However the hook is used: a block that
succeeds has written its gas values once and the hook can follow it; the result is that without a
hook; only the last block number there is makes it panic; and a write that failed early is the error
of the block. -/
theorem state_hook_sees_block (chain : Chain) (environment : Environment) (ctx : ExecutionCtx)
    (weather : Weather) (building : Bool) (transactions : List Transaction) (parent : World)
    (use : HookUse) :
    (∀ final, executeBlock chain environment ctx weather use building transactions parent =
      .ok final → SeenOnce chain environment use parent final) ∧
    (∀ other, (executeBlock chain environment ctx weather use building transactions parent).map quiet =
      (executeBlock chain environment ctx weather other building transactions parent).map quiet) ∧
    (∀ message, executeBlock chain environment ctx weather use building transactions parent =
      .error (.panic message) → message = "block number overflow") ∧
    ∀ executor failure, executor.stateHookActive = true → executor.postBlockApplied = false →
      applyPostBlockWrites chain environment ctx weather executor = .error (.error failure) →
      ∃ closed, setStateHook chain environment ctx weather false executor = .ok closed ∧
        closed.world = executor.world ∧ closed.stores = executor.stores ∧
        closed.updates = executor.updates ∧
        ∀ later, finish chain environment ctx later closed = .error (.error failure) := by
  refine ⟨fun final ok => seenOnce_of_executeBlock ok, fun other => ?_,
    fun message failed => executeBlock_panic failed,
    fun executor failure active pending failed => finish_of_failed_write active pending failed⟩
  rw [quiet_executeBlock, quiet_executeBlock]

end StateHook

/-! ### A block with one payment -/

def fixedEnv : Env := { plainEnv with accountingCall := fixedAccountingCall }

/-- A mainnet with every fork active, where ProtocolConfig does not answer. -/
def fixedChain : Chain :=
  ⟨⟨mainnetChainId, fun _ _ => plainEnv.flags⟩, fixedEnv, fixedAbi fixedEnv rfl, fun _ => true,
    fun _ _ => none⟩

def firstBlock : Environment := ⟨1, 1, 0x21, 1, 30000000, 1⟩

def fairWeather : Weather := ⟨false, false, false, false⟩

/-- The sender of the payment, in a state where every other account has a nonce. -/
def payerAccounts (address : Address) : StoredAccount :=
  if address = 0x11 then ⟨1000000, 0, .empty, fun _ => 0⟩ else ⟨0, 1, .empty, fun _ => 0⟩

theorem payerAccounts_nonce {address : Address} (other : address ≠ 0x11) :
    (payerAccounts address).nonce ≠ 0 := by
  rw [payerAccounts, if_neg other]
  exact Nat.one_ne_zero

theorem authority_ne_payer : nativeCoinAuthorityAddress ≠ 0x11 := by decide

theorem control_ne_payer : nativeCoinControlAddress ≠ 0x11 := by decide

def payerWorld : World :=
  ⟨payerAccounts, payerAccounts_nonce authority_ne_payer, payerAccounts_nonce control_ne_payer⟩

/-- A hook that is taken away is told the payment and the gas values. -/
theorem state_hook_sees_payment : ∃ final,
    executeBlock fixedChain firstBlock ⟨0, []⟩ fairWeather ⟨true, true⟩ false [⟨payment 0, []⟩]
      payerWorld = .ok final ∧
    final.updates.length = 3 ∧ final.gasUsed = 21000 ∧ Told payerWorld final := by
  have runs : ((executeBlock fixedChain firstBlock ⟨0, []⟩ fairWeather ⟨true, true⟩ false
      [⟨payment 0, []⟩] payerWorld).toOption.map fun final =>
        (final.updates.length, final.gasUsed)) = some (3, 21000) := by
    decide +kernel
  have seen := (state_hook_sees_block fixedChain firstBlock ⟨0, []⟩ fairWeather false
    [⟨payment 0, []⟩] payerWorld ⟨true, true⟩).1
  generalize executeBlock fixedChain firstBlock ⟨0, []⟩ fairWeather ⟨true, true⟩ false
    [⟨payment 0, []⟩] payerWorld = result at runs seen ⊢
  cases result with
  | error fault => cases runs
  | ok final =>
    obtain ⟨told, used⟩ := Prod.mk.inj (Option.some.inj runs)
    exact ⟨final, rfl, told, used, (seen final rfl).told rfl⟩

/-! ### The values of many blocks -/

section Many

variable {chain : Chain} {accounts : Address → StoredAccount}

end Many

end ArcNode.Block
