/-
**The beneficiary of a block and the blocklist.**

The executor checks the beneficiary once, before the transactions; each of them credits it with its
fee. `fee_of_blocked_beneficiary_credited` is a block whose only transaction puts the beneficiary on
the blocklist and still pays it. **`fee_to_blocked_beneficiary`**: that is the only way. If the
beneficiary is on the list when it is credited, the same transaction or an earlier one of the block
put it there.
-/

import ArcNode.Block.StateHook
import ArcNode.Evm.Blocklist

namespace ArcNode.Block

open ArcNode.Lib ArcNode.Types ArcNode.Evm ArcNode.Fees

/-! ### The credit -/

section Credit

variable (env : Env) (block : BlockEnv) (tx : TxEnv) (world : World) (actions : List Action)

/-- The journal in which `reward_beneficiary` credits the fee. -/
def creditJournal : Option EvmJournal :=
  match (execute env block tx world actions).ending with
  | some (.finished result) =>
    some (reimburseCaller block tx (settleGas tx (preExecution env block tx world).2 result)
      (execute env block tx world actions).journal)
  | _ => none

/-- The fee is credited while the beneficiary is on the blocklist. -/
def creditsBlocked : Bool :=
  (creditJournal env block tx world actions).any fun journal =>
    blocklisted env.hashes journal block.beneficiary

variable {env block tx world actions}

theorem storedBlocklisted_of_credit {receipt : Receipt} {accounts : Address → StoredAccount}
    (executed : transact env block tx world actions = .executed receipt accounts)
    (blocked : creditsBlocked env block tx world actions = true) :
    storedBlocklisted env.hashes accounts block.beneficiary = true := by
  obtain ⟨settlement, done⟩ := executed_of_transact executed
  obtain ⟨result, ended, settles⟩ := done.ended
  have rooted := @rooted_of_executed env block tx world _ world.control actions settlement
  unfold creditsBlocked creditJournal at blocked
  rw [ended] at blocked
  dsimp only at blocked
  rw [← settles] at blocked
  have storage : ((settled block tx settlement
      (execute env block tx world actions).journal).cells nativeCoinControlAddress).storage =
      ((reimburseCaller block tx settlement
        (execute env block tx world actions).journal).cells nativeCoinControlAddress).storage := by
    refine incrBalance_field ?_ _ _ _ _
    exact fun _ _ => rfl
  unfold storedBlocklisted
  rw [done.accounts]
  dsimp only
  rw [rooted.commit, storage]
  exact blocked

end Credit

/-! ### Blocks -/

section Blocks

variable {chain : Chain} {environment : Environment} {ctx : ExecutionCtx} {weather : Weather}

def beneficiaryBlocked (chain : Chain) (environment : Environment) (executor : ArcBlockExecutor) :
    Prop :=
  storedBlocklisted chain.base.hashes executor.world.accounts environment.beneficiary = true

/-- **A blocked beneficiary is credited only after the block itself blocked it.** In a block that
passed the checks before its transactions, if a transaction credits the beneficiary while it is on
the blocklist, then that transaction or an earlier one found it off the list and left it there. -/
theorem fee_to_blocked_beneficiary {building : Bool} {opened ready before after : ArcBlockExecutor}
    {earlier : List Transaction} {transaction : Transaction}
    (prepared : applyPreExecutionChanges chain environment ctx weather opened = .ok ready)
    (ran : executeTransactions chain environment building earlier ready = .ok before)
    (executed : executeTransaction chain environment transaction before = .ok after)
    (blocked : creditsBlocked (chain.env environment) environment.block transaction.env before.world
      transaction.actions = true) :
    ∃ older blocking newer found left, earlier ++ [transaction] = older ++ blocking :: newer ∧
      executeTransactions chain environment building older ready = .ok found ∧
      executeTransaction chain environment blocking found = .ok left ∧
      ¬ beneficiaryBlocked chain environment found ∧ beneficiaryBlocked chain environment left := by
  have whole : executeTransactions chain environment building (earlier ++ [transaction]) ready =
      .ok after := by
    rw [executeTransactions_append ran, executeTransactions, executed]
    rfl
  have free : ¬ beneficiaryBlocked chain environment ready := by
    rw [beneficiaryBlocked, storedBlocklisted, (preExecuted_of_ok prepared).beneficiary]
    exact Bool.false_ne_true
  obtain ⟨receipt, accounts, outcome, -, -, -, -, same⟩ := (included_of_ok executed).outcome
  have listed : beneficiaryBlocked chain environment after := by
    rw [beneficiaryBlocked, same]
    exact storedBlocklisted_of_credit outcome blocked
  exact executeTransactions_turns free whole listed

end Blocks

/-! ### A block that blocks its beneficiary -/

/-- The call data of `blocklist(0x21)`, which names the beneficiary of the first block. -/
def blockData : List Byte := [0xe5, 0xc7, 0x16, 0x0b] ++ beBytes 32 0x21

/-- An environment that decodes this call data. -/
def blockingEnv : Env :=
  { plainEnv with
    controlCall := fun input =>
      if input = blockData then .blocklist (some 0x21) else .invalidSelector
    accountingCall := fixedAccountingCall }

def blockingChain : Chain :=
  ⟨⟨mainnetChainId, fun _ _ => plainEnv.flags⟩, blockingEnv, fixedAbi blockingEnv rfl, fun _ => true,
    fun _ _ => none⟩

/-- The token is a contract; otherwise the state is that of the payment. -/
def tokenAccounts (address : Address) : StoredAccount :=
  if address = nativeFiatTokenAddress then ⟨0, 1, .contract [0], fun _ => 0⟩
  else payerAccounts address

theorem authority_ne_token : nativeCoinAuthorityAddress ≠ nativeFiatTokenAddress := by decide

theorem control_ne_token : nativeCoinControlAddress ≠ nativeFiatTokenAddress := by decide

theorem tokenAccounts_nonce {address : Address} (apart : address ≠ nativeFiatTokenAddress)
    (other : address ≠ 0x11) : (tokenAccounts address).nonce ≠ 0 := by
  rw [tokenAccounts, if_neg apart]
  exact payerAccounts_nonce other

def tokenWorld : World :=
  ⟨tokenAccounts, tokenAccounts_nonce authority_ne_token authority_ne_payer,
    tokenAccounts_nonce control_ne_token control_ne_payer⟩

/-- The token is called and calls NativeCoinControl. -/
def blockingCall : Transaction :=
  ⟨{ payment 0 with kind := .call nativeFiatTokenAddress [], value := 0, gasLimit := 200000 },
    [.call .call nativeCoinControlAddress 0 blockData 100000, .finish .returned .empty 0 0 false]⟩

theorem blockingCall_credits : ∃ ready after,
    applyPreExecutionChanges blockingChain firstBlock ⟨0, []⟩ fairWeather (.new tokenWorld) =
      .ok ready ∧
    creditsBlocked (blockingChain.env firstBlock) firstBlock.block blockingCall.env ready.world
      blockingCall.actions = true ∧
    executeTransaction blockingChain firstBlock blockingCall ready = .ok after := by
  have credits : (applyPreExecutionChanges blockingChain firstBlock ⟨0, []⟩ fairWeather
      (.new tokenWorld)).toOption.any (fun ready => creditsBlocked (blockingChain.env firstBlock)
        firstBlock.block blockingCall.env ready.world blockingCall.actions &&
        (executeTransaction blockingChain firstBlock blockingCall ready).toOption.isSome) = true := by
    decide +kernel
  generalize applyPreExecutionChanges blockingChain firstBlock ⟨0, []⟩ fairWeather (.new tokenWorld) =
    prepared at credits ⊢
  cases prepared with
  | error fault => cases credits
  | ok ready =>
    obtain ⟨blocked, fine⟩ := Bool.and_eq_true_iff.mp credits
    cases executed : executeTransaction blockingChain firstBlock blockingCall ready with
    | error fault =>
      rw [executed] at fine
      cases fine
    | ok after => exact ⟨ready, after, rfl, blocked, executed⟩

/-- The only transaction of that block is the one that blocked the beneficiary. -/
theorem fee_to_blocked_beneficiary_first : ∃ ready older blocking newer found left,
    [blockingCall] = older ++ blocking :: newer ∧
    executeTransactions blockingChain firstBlock false older ready = .ok found ∧
    executeTransaction blockingChain firstBlock blocking found = .ok left ∧
    ¬ beneficiaryBlocked blockingChain firstBlock found ∧
    beneficiaryBlocked blockingChain firstBlock left := by
  obtain ⟨ready, after, prepared, blocked, executed⟩ := blockingCall_credits
  have nothing : executeTransactions blockingChain firstBlock false [] ready = .ok ready := rfl
  exact ⟨ready, fee_to_blocked_beneficiary prepared nothing executed blocked⟩

/-- **A block pays a beneficiary that it has just blocked.** -/
theorem fee_of_blocked_beneficiary_credited : ∃ ready final,
    applyPreExecutionChanges blockingChain firstBlock ⟨0, []⟩ fairWeather (.new tokenWorld) =
      .ok ready ∧
    creditsBlocked (blockingChain.env firstBlock) firstBlock.block blockingCall.env ready.world
      blockingCall.actions = true ∧
    executeBlock blockingChain firstBlock ⟨0, []⟩ fairWeather ⟨false, false⟩ false [blockingCall]
      tokenWorld = .ok final ∧
    (tokenWorld.accounts 0x21).balance < (final.world.accounts 0x21).balance := by
  obtain ⟨ready, after, prepared, blocked, executed⟩ := blockingCall_credits
  have pays : (executeBlock blockingChain firstBlock ⟨0, []⟩ fairWeather ⟨false, false⟩ false
      [blockingCall] tokenWorld).toOption.any (fun final =>
        decide ((tokenWorld.accounts 0x21).balance < (final.world.accounts 0x21).balance)) = true := by
    decide +kernel
  generalize executeBlock blockingChain firstBlock ⟨0, []⟩ fairWeather ⟨false, false⟩ false
    [blockingCall] tokenWorld = result at pays ⊢
  cases result with
  | error fault => cases pays
  | ok final => exact ⟨ready, final, prepared, blocked, rfl, of_decide_eq_true pays⟩

end ArcNode.Block
