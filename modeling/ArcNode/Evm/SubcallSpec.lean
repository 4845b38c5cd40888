/-
**Subcalls.**

A call to a subcall precompile is prepared, which only makes accounts warm and gives the child call
(`Prepared`) or a rejection, then dispatched from a saved checkpoint, and completed when the child
has returned. Whatever the precompile and whatever the child does, the completion keeps the journal
or takes it back to the saved checkpoint (`completeSubcall_spec`); a subcall that is over at once
and failed left the journal as it was but for what is warm (`dispatched_dispatchSubcall`).
-/

import Mathlib
import ArcNode.Evm.FrameSpec

namespace ArcNode.Evm

open ArcNode.Lib ArcNode.Lib.Journal ArcNode.Types

/-! ### Completing a subcall -/

theorem recordRegularCost_limit {cost : ℕ} {gas charged : Gas}
    (covered : gas.recordRegularCost cost = some charged) : charged.limit = gas.limit := by
  unfold Gas.recordRegularCost at covered
  split_ifs at covered
  rw [← Option.some.inj covered]

theorem completeSubcall_spec (child : FrameResult) (continuation : SubcallContinuation)
    (journal : EvmJournal) :
    let completed := completeSubcall child continuation journal
    completed.1.gas.limit = continuation.gasLimit ∧
      (completed.2 = journal ∧ (completed.1.isOk = false → childSucceeded child = false) ∨
        completed.1.isOk = false ∧
        completed.2 = revertSubcallCheckpoint continuation.checkpoint journal) := by
  have undone : ∀ result : FrameResult, result.isOk = false →
      (if childSucceeded child then revertSubcallCheckpoint continuation.checkpoint journal
        else journal) = journal ∧ (result.isOk = false → childSucceeded child = false) ∨
      result.isOk = false ∧
        (if childSucceeded child then revertSubcallCheckpoint continuation.checkpoint journal
          else journal) = revertSubcallCheckpoint continuation.checkpoint journal := by
    intro result failed
    cases childSucceeded child with
    | true => exact Or.inr ⟨failed, if_pos rfl⟩
    | false => exact Or.inl ⟨if_neg Bool.false_ne_true, fun _ => rfl⟩
  dsimp only [completeSubcall]
  cases charged : (Gas.new continuation.gasLimit).recordRegularCost
      (subcallGasUsed child continuation) with
  | none => exact ⟨rfl, undone _ rfl⟩
  | some gas =>
    have limit : gas.limit = continuation.gasLimit := recordRegularCost_limit charged
    cases continuation.precompile.completeSubcall child with
    | none => exact ⟨limit, undone _ rfl⟩
    | some result =>
      obtain ⟨output, success, overhead⟩ := result
      cases success with
      | true => exact ⟨limit, Or.inl ⟨rfl, fun failed => nomatch failed⟩⟩
      | false => exact ⟨limit, undone _ rfl⟩

/-! ### Preparing a subcall -/

section Subcall

variable {env : Env} {depth : ℕ} {inputs : CallInputs} {journal : EvmJournal}
  {precompile : SubcallPrecompile}

theorem initSubcallRevert_limit (message : String) (inputs : CallInputs) :
    (initSubcallRevert message inputs).gas.limit = inputs.gasLimit := by
  show ((Gas.new inputs.gasLimit).recordRegularCost subcallDispatchCost |>.getD _).limit = _
  cases charged : (Gas.new inputs.gasLimit).recordRegularCost subcallDispatchCost with
  | none => rfl
  | some gas => exact recordRegularCost_limit charged

theorem warms_loadAccountWithCodeMetered (address : Address) (gas : Gas) (journal : EvmJournal) :
    Warms journal (loadAccountWithCodeMetered address gas journal).2 := by
  unfold loadAccountWithCodeMetered
  dsimp only
  split_ifs
  · exact Warms.refl _
  · exact warms_loadAccount _ _

theorem recordRegularCost_remaining {cost : ℕ} {gas charged : Gas}
    (covered : gas.recordRegularCost cost = some charged) :
    charged.remaining + cost = gas.remaining := by
  unfold Gas.recordRegularCost at covered
  split_ifs at covered with enough
  rw [← Option.some.inj covered]
  exact Nat.sub_add_cancel enough

/-- What the accesses before the child cost: its target and, through a delegation, the delegate. -/
def childAccessCost (target : Address) (journal : EvmJournal) : ℕ :=
  accountLoadCost (!(journal.cells target).warm) +
    match (journal.cells target).code with
    | .delegated delegate => accountLoadCost (!((loadAccount target journal).cells delegate).warm)
    | _ => 0

theorem loadAccountWithCodeMetered_cost {address : Address} {gas charged : Gas}
    {journal : EvmJournal} {account : Account}
    (loaded : (loadAccountWithCodeMetered address gas journal).1 = some (account, charged)) :
    account = journal.cells address ∧ charged.limit = gas.limit ∧
      charged.remaining + accountLoadCost (!(journal.cells address).warm) = gas.remaining ∧
      (loadAccountWithCodeMetered address gas journal).2 = loadAccount address journal := by
  unfold loadAccountWithCodeMetered at loaded ⊢
  dsimp only at loaded ⊢
  split_ifs at loaded with short
  obtain ⟨left, covered, same⟩ := Option.map_eq_some_iff.mp loaded
  cases same
  rw [if_neg short]
  exact ⟨rfl, recordRegularCost_limit covered, recordRegularCost_remaining covered, rfl⟩

theorem warms_loadChildCode (target : Address) (gas : Gas) (journal : EvmJournal) :
    Warms journal (loadChildCode target gas journal).2 := by
  have first := warms_loadAccountWithCodeMetered target gas journal
  unfold loadChildCode
  dsimp only
  cases found : (loadAccountWithCodeMetered target gas journal).1 with
  | none => exact first
  | some loaded =>
    dsimp only
    cases code : loaded.1.code with
    | empty | contract bytes => exact first
    | delegated delegate => exact first.trans (warms_loadAccountWithCodeMetered _ _ _)

/-- **The accesses are charged once each.** -/
theorem loadChildCode_cost {target : Address} {gas left : Gas} {journal : EvmJournal} {code : Code}
    (found : (loadChildCode target gas journal).1 = some (code, left)) :
    left.limit = gas.limit ∧
      left.remaining + childAccessCost target journal = gas.remaining := by
  unfold loadChildCode at found
  unfold childAccessCost
  dsimp only at found
  cases loaded : (loadAccountWithCodeMetered target gas journal).1 with
  | none =>
    rw [loaded] at found
    cases found
  | some first =>
    obtain ⟨account, charged⟩ := first
    obtain ⟨rfl, limit, cost, after⟩ := loadAccountWithCodeMetered_cost loaded
    rw [loaded] at found
    dsimp only at found
    cases kind : (journal.cells target).code with
    | empty | contract bytes =>
      rw [kind] at found
      cases found
      exact ⟨limit, cost⟩
    | delegated delegate =>
      rw [kind, after] at found
      obtain ⟨⟨account', charged'⟩, followed, same⟩ := Option.map_eq_some_iff.mp found
      cases same
      obtain ⟨-, same, second, -⟩ := loadAccountWithCodeMetered_cost followed
      exact ⟨same.trans limit, by dsimp only; omega⟩

/-- The child call of a subcall whose checks were passed, with the gas that is left. -/
structure Prepared (env : Env) (inputs : CallInputs) (precompile : SubcallPrecompile)
    (journal : EvmJournal) (child : CallInputs) (left : Gas) (saved : EvmJournal) : Prop where
  scheme : inputs.scheme = .call
  notStatic : inputs.isStatic = false
  noValue : inputs.amount = 0
  sender : child.caller = inputs.caller ∨ child.caller = env.txCaller
  made : ∃ init gas bytecode, precompile.initSubcall inputs = .ok init ∧
    (Gas.new inputs.gasLimit).recordRegularCost init.gasOverhead = some gas ∧
    loadChildCode init.childInputs.targetAddress gas
      (loadAccount init.childInputs.caller journal) = (some (bytecode, left), saved) ∧
    child = { init.childInputs with
      knownBytecode := bytecode
      gasLimit := left.remaining - left.remaining / 64 }

variable {child : CallInputs} {saved : EvmJournal}

theorem Prepared.warms {left : Gas}
    (prepared : Prepared env inputs precompile journal child left saved) :
    Warms journal saved := by
  obtain ⟨init, gas, bytecode, -, -, loaded, -⟩ := prepared.made
  have loads := (warms_loadAccount init.childInputs.caller journal).trans
    (warms_loadChildCode init.childInputs.targetAddress gas _)
  rw [loaded] at loads
  exact loads

theorem Prepared.left_limit {left : Gas}
    (prepared : Prepared env inputs precompile journal child left saved) :
    left.limit = inputs.gasLimit := by
  obtain ⟨init, gas, bytecode, -, charged, loaded, -⟩ := prepared.made
  exact (loadChildCode_cost (congrArg Prod.fst loaded)).1.trans (recordRegularCost_limit charged)

theorem Prepared.child_gas {left : Gas}
    (prepared : Prepared env inputs precompile journal child left saved) :
    child.gasLimit = left.remaining - left.remaining / 64 ∧ child.gasLimit ≤ inputs.gasLimit := by
  obtain ⟨init, gas, bytecode, -, -, -, rfl⟩ := prepared.made
  exact ⟨rfl, (Nat.sub_le _ _).trans (left.within.trans_eq prepared.left_limit)⟩

/-- A preparation that rejects the call only made accounts warm. -/
def PrepareMade (env : Env) (inputs : CallInputs) (precompile : SubcallPrecompile)
    (journal : EvmJournal) (made : Except FrameResult (CallInputs × Gas) × EvmJournal) : Prop :=
  match made.1 with
  | .error result =>
    Warms journal made.2 ∧ result.isOk = false ∧ result.gas.limit = inputs.gasLimit
  | .ok (child, left) => Prepared env inputs precompile journal child left made.2

theorem prepareMade_revert (message : String) :
    PrepareMade env inputs precompile journal (.error (initSubcallRevert message inputs), journal) :=
  ⟨Warms.refl _, rfl, initSubcallRevert_limit _ _⟩

theorem prepareSubcall_spec (inputs : CallInputs) (precompile : SubcallPrecompile)
    (journal : EvmJournal) :
    PrepareMade env inputs precompile journal (prepareSubcall env inputs precompile journal) := by
  dsimp only [prepareSubcall]
  by_cases scheme : inputs.scheme ≠ .call
  · rw [if_pos scheme]
    exact prepareMade_revert _
  rw [if_neg scheme]
  by_cases static : inputs.isStatic = true
  · rw [if_pos static]
    exact ⟨Warms.refl _, rfl, rfl⟩
  rw [if_neg static]
  by_cases value : inputs.transferValue.getD 0 ≠ 0
  · rw [if_pos value]
    exact prepareMade_revert _
  rw [if_neg value]
  cases decoded : precompile.initSubcall inputs with
  | error message => exact prepareMade_revert _
  | ok init =>
    dsimp only
    by_cases spoofs : init.childInputs.caller ≠ inputs.caller ∧ init.childInputs.caller ≠ env.txCaller
    · rw [if_pos spoofs]
      exact prepareMade_revert _
    rw [if_neg spoofs]
    have sender : init.childInputs.caller = inputs.caller ∨
        init.childInputs.caller = env.txCaller := by
      by_contra neither
      exact spoofs (not_or.mp neither)
    have known := warms_loadAccount init.childInputs.caller journal
    cases charged : (Gas.new inputs.gasLimit).recordRegularCost init.gasOverhead with
    | none => exact ⟨known, rfl, rfl⟩
    | some gas =>
      have loads := known.trans (warms_loadChildCode init.childInputs.targetAddress gas _)
      dsimp only
      cases found : (loadChildCode init.childInputs.targetAddress gas
          (loadAccount init.childInputs.caller journal)).1 with
      | none => exact ⟨loads, rfl, rfl⟩
      | some code =>
        exact ⟨not_not.mp scheme, Bool.eq_false_iff.mpr static, not_not.mp value, sender, init, gas,
          code.1, decoded, charged, Prod.ext found rfl, rfl⟩

/-! ### Dispatching a subcall -/

/-- What a subcall saves for its completion. -/
def continuationFor (inputs : CallInputs) (precompile : SubcallPrecompile) (left : Gas)
    (saved : EvmJournal) : SubcallContinuation :=
  ⟨precompile, inputs.gasLimit, left.totalGasSpent, saved.mark⟩

/-- A child that was pushed, or one that was over at once and completed. -/
def Dispatched (env : Env) (depth : ℕ) (inputs : CallInputs) (precompile : SubcallPrecompile)
    (child : CallInputs) (left : Gas) (saved : EvmJournal) (made : SubcallInit × EvmJournal) : Prop :=
  match made.1 with
  | .pushed frame continuation =>
    checkedFrameInit env (depth + 1) (.call child) saved = (.item frame, made.2) ∧
      continuation = continuationFor inputs precompile left saved
  | .immediate result =>
    ∃ outcome after, checkedFrameInit env (depth + 1) (.call child) saved = (.result outcome, after) ∧
      completeSubcall outcome (continuationFor inputs precompile left saved) after = (result, made.2)

theorem dispatched_dispatchSubcall (depth : ℕ) (inputs : CallInputs) (precompile : SubcallPrecompile)
    (child : CallInputs) (left : Gas) (saved : EvmJournal) :
    Dispatched env depth inputs precompile child left saved
      (dispatchSubcall env depth inputs precompile child left saved) := by
  dsimp only [dispatchSubcall]
  generalize started : checkedFrameInit env (depth + 1) (.call child) saved = made
  obtain ⟨outcome, after⟩ := made
  cases outcome with
  | item frame => exact ⟨started, rfl⟩
  | result result => exact ⟨result, after, started, rfl⟩

/-- **A subcall that is over at once** left the journal grown, or, if it or its child failed, as it
was saved but for what is warm. -/
theorem completed_at_once {continuation : SubcallContinuation}
    {saved middle after : EvmJournal} {outcome result : FrameResult}
    (ended : Over (.call child) saved middle outcome) (taken : continuation.checkpoint = saved.mark)
    (completed : completeSubcall outcome continuation middle = (result, after)) :
    result.gas.limit = continuation.gasLimit ∧ Extends saved after ∧
      (result.isOk = false ∨ childSucceeded outcome = false → Warms saved after) := by
  obtain ⟨limit, kept⟩ := completeSubcall_spec outcome continuation middle
  rw [completed] at limit kept
  refine ⟨limit, ?_⟩
  rcases kept with ⟨same, unsuccessful⟩ | ⟨failed, undone⟩
  · rw [show after = middle from same]
    refine ⟨ended.grown, ?_⟩
    rintro (failed | failed)
    · exact ended.quiet child rfl (unsuccessful failed)
    · exact ended.quiet child rfl failed
  · have back : revertSubcallCheckpoint continuation.checkpoint middle = saved := by
      rw [taken]
      exact revert_mark ended.grown.enter
    rw [show after = saved from undone.trans back]
    exact ⟨Extends.refl _, fun _ => Warms.refl _⟩

/-! ### Calls to subcall precompiles -/

/-- A call that a subcall precompile takes is rejected, or its child is dispatched. -/
inductive SubcallMade (env : Env) (registry : SubcallRegistry) (depth : ℕ) (input : FrameInput)
    (journal : EvmJournal) : SubcallInit × EvmJournal → Prop
  | rejected {result : FrameResult} {after : EvmJournal} (warms : Warms journal after)
      (failed : result.isOk = false) (gas : result.gas.limit = input.gasLimit) :
      SubcallMade env registry depth input journal (.immediate result, after)
  | dispatched {inputs child : CallInputs} {precompile : SubcallPrecompile}
      {allowed : AllowedCallers} {left : Gas} {before saved : EvmJournal}
      {made : SubcallInit × EvmJournal} (call : input = .call inputs)
      (registered : registry inputs.targetAddress = some (precompile, allowed))
      (allows : allowed.isAllowed inputs.caller = true) (warms : Warms journal before)
      (prepared : Prepared env inputs precompile before child left saved)
      (dispatch : Dispatched env depth inputs precompile child left saved made) :
      SubcallMade env registry depth input journal made

theorem subcallMade_initSubcall {registry : SubcallRegistry}
    {allowed : AllowedCallers} {before : EvmJournal}
    (registered : registry inputs.targetAddress = some (precompile, allowed))
    (allows : allowed.isAllowed inputs.caller = true) (warms : Warms journal before) :
    SubcallMade env registry depth (.call inputs) journal
      (initSubcall env depth inputs precompile before) := by
  have spec := @prepareSubcall_spec env inputs precompile before
  dsimp only [initSubcall]
  generalize prepareSubcall env inputs precompile before = prepared at spec ⊢
  obtain ⟨outcome, saved⟩ := prepared
  cases outcome with
  | error result =>
    obtain ⟨loads, failed, gas⟩ := spec
    exact .rejected (warms.trans loads) failed gas
  | ok values =>
    exact .dispatched rfl registered allows warms spec (dispatched_dispatchSubcall _ _ _ _ _ _)

theorem subcallMade_subcallInit {registry : SubcallRegistry} {input : FrameInput}
    {made : SubcallInit × EvmJournal}
    (taken : subcallInit env registry depth input journal = some made) :
    SubcallMade env registry depth input journal made := by
  cases input with
  | create inputs => cases taken
  | call inputs =>
    obtain ⟨warms, refuses, -⟩ := @beforeFrameInit_spec env depth (.call inputs) journal
    dsimp only [subcallInit] at taken
    cases registered : registry inputs.targetAddress with
    | none =>
      rw [registered] at taken
      cases taken
    | some values =>
      obtain ⟨precompile, allowed⟩ := values
      rw [registered] at taken
      dsimp only at taken
      by_cases barred : allowed.isAllowed inputs.caller = false
      · rw [if_pos barred] at taken
        rw [← Option.some.inj taken]
        exact .rejected (Warms.refl _) rfl (initSubcallRevert_limit _ _)
      · rw [if_neg barred] at taken
        have allows : allowed.isAllowed inputs.caller = true := Bool.eq_true_of_not_eq_false barred
        have made' := @subcallMade_initSubcall env depth inputs journal precompile registry allowed _
          registered allows warms
        generalize beforeFrameInit env depth (.call inputs) journal = before at *
        obtain ⟨verdict, handed, after⟩ := before
        cases verdict with
        | reverted result =>
          obtain ⟨failed, gas⟩ := refuses result rfl
          rw [← Option.some.inj taken]
          exact .rejected warms failed gas
        | log entry | checked | none => exact Option.some.inj taken ▸ made'

/-! ### CallFrom -/

/-- A subcall precompile whose child is a plain call of no value to one account. -/
def Plain (precompile : SubcallPrecompile) : Prop :=
  ∀ inputs init, precompile.initSubcall inputs = .ok init →
    init.childInputs.scheme = .call ∧ init.childInputs.value = .transfer 0 ∧
      init.childInputs.targetAddress = init.childInputs.bytecodeAddress ∧
      init.childInputs.isStatic = false

theorem callFrom_decoded {init : SubcallInitResult}
    (decoded : (callFromPrecompile env).initSubcall inputs = .ok init) :
    ∃ sender target data gasLimit, env.callFromCall inputs.input = some (sender, target, data) ∧
      init = ⟨⟨.call, target, target, .empty, .transfer 0, data, gasLimit, false, sender⟩,
        abiGas data.length⟩ := by
  dsimp only [callFromPrecompile] at decoded
  cases call : env.callFromCall inputs.input with
  | none =>
    rw [call] at decoded
    cases decoded
  | some values =>
    rw [call] at decoded
    dsimp only at decoded
    split_ifs at decoded
    exact ⟨_, _, _, _, rfl, (Except.ok.inj decoded).symm⟩

theorem plain_callFrom (env : Env) : Plain (callFromPrecompile env) := by
  intro inputs init decoded
  obtain ⟨sender, target, data, gasLimit, -, rfl⟩ := callFrom_decoded decoded
  exact ⟨rfl, rfl, rfl, rfl⟩

/-- The registry of the node holds CallFrom, for its two callers. -/
theorem buildSubcallRegistry_eq {address : Address}
    {allowed : AllowedCallers} (registered : buildSubcallRegistry env address =
      some (precompile, allowed)) :
    address = callFromAddress ∧ precompile = callFromPrecompile env ∧
      allowed = .only [memoAddress, multicall3FromAddress] := by
  unfold buildSubcallRegistry at registered
  split_ifs at registered with active
  cases registered
  exact ⟨active.2, rfl, rfl⟩

end Subcall

end ArcNode.Evm
