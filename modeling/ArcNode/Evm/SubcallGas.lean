/-
**The gas of a subcall.**

A call to CallFrom is charged for decoding its input, for the access to the target and its delegate,
for what the child spends, and for encoding the child's output; the child gets all but one 64th of
what is left before it. In the source the sums are checked additions of 64-bit words. What the
answer reports as spent never exceeds the gas of the call, is that sum when the child did not halt
and the completion fits, and is all the gas when the child halted (**`callFrom_gas`**).
-/

import Mathlib
import ArcNode.Evm.SubcallAtomicity

namespace ArcNode.Evm

open ArcNode.Lib ArcNode.Types

/-! ### Charges -/

theorem accountLoadCost_le (isCold : Bool) : accountLoadCost isCold ≤ 2600 := by
  cases isCold <;> decide

theorem childAccessCost_le (target : Address) (journal : EvmJournal) :
    childAccessCost target journal ≤ 5200 := by
  have first := accountLoadCost_le (!(journal.cells target).warm)
  unfold childAccessCost
  cases (journal.cells target).code with
  | empty | contract bytes => exact first.trans (by decide)
  | delegated delegate =>
    have second := accountLoadCost_le (!((loadAccount target journal).cells delegate).warm)
    dsimp only
    omega

/-! ### The call -/

theorem prepared_overhead {env : Env} {inputs child : CallInputs} {journal saved : EvmJournal}
    {left : Gas} (prepared : Prepared env inputs (callFromPrecompile env) journal child left saved) :
    ∃ sender target data, env.callFromCall inputs.input = some (sender, target, data) ∧
      left.totalGasSpent =
        abiGas data.length + childAccessCost target (loadAccount sender journal) := by
  have limit := prepared.left_limit
  obtain ⟨init, gas, bytecode, decoded, charged, loaded, -⟩ := prepared.made
  obtain ⟨sender, target, data, gasLimit, call, rfl⟩ := callFrom_decoded decoded
  dsimp only at charged loaded
  refine ⟨sender, target, data, call, ?_⟩
  have first := recordRegularCost_remaining charged
  have second := (loadChildCode_cost (congrArg Prod.fst loaded)).2
  have whole : (Gas.new inputs.gasLimit).remaining = inputs.gasLimit := rfl
  unfold Gas.totalGasSpent
  omega

/-- The completion of a CallFrom call by its cost: all the gas if that does not cover it. -/
theorem completeSubcall_spent (env : Env) (outcome : InterpreterResult)
    {continuation : SubcallContinuation} (own : continuation.precompile = callFromPrecompile env)
    (journal : EvmJournal) :
    let answer := (completeSubcall (.call outcome) continuation journal).1
    let cost := subcallGasUsed (.call outcome) continuation
    answer.gas.limit = continuation.gasLimit ∧
      answer.gas.totalGasSpent = min cost continuation.gasLimit := by
  have completes : continuation.precompile.completeSubcall (.call outcome) =
      some ⟨.bytes (env.callFromReturns outcome.result.isOk outcome.output), true,
        abiGas (env.outputLength outcome.output)⟩ := by
    rw [own]
    rfl
  dsimp only [completeSubcall]
  rw [completes]
  unfold Gas.recordRegularCost
  by_cases covered : subcallGasUsed (.call outcome) continuation ≤
      (Gas.new continuation.gasLimit).remaining
  · have whole : (Gas.new continuation.gasLimit).remaining = continuation.gasLimit := rfl
    rw [if_pos covered]
    refine ⟨rfl, ?_⟩
    rw [whole] at covered
    rw [min_eq_left covered]
    exact Nat.sub_sub_self covered
  · have whole : (Gas.new continuation.gasLimit).remaining = continuation.gasLimit := rfl
    rw [if_neg covered]
    refine ⟨rfl, ?_⟩
    rw [whole] at covered
    rw [min_eq_right (Nat.le_of_not_le covered)]
    rfl

/-- Data of this many bytes stood in memory that was paid for with 64 bits of gas, by the rule for
the expansion of memory. -/
def MemoryPaid (length : ℕ) : Prop :=
  3 * ((length + 31) / 32) + ((length + 31) / 32) ^ 2 / 512 < 2 ^ 64

theorem MemoryPaid.gas_le {length : ℕ} (paid : MemoryPaid length) : abiGas length ≤ 2 ^ 39 := by
  unfold MemoryPaid at paid
  unfold abiGas
  generalize (length + 31) / 32 = words at paid ⊢
  have small : words < 2 ^ 37 := by
    by_contra large
    have square : (2 ^ 37) ^ 2 ≤ words ^ 2 := Nat.pow_le_pow_left (not_lt.mp large) 2
    omega
  omega

/-- **Subcall gas is never created or lost.** A rejected call reports no more than its gas. For a
call that dispatches a child, with any outcome of the child within its limit: what was spent before
is the decoding and the accesses; the child got 63 of 64 parts of what was left, rounded up; the
answer reports at most the gas of the call, exactly decoding, accesses, child and encoding if the
child did not halt and they fit, and everything if the child halted; a refund comes from a
successful child only; and the checked sums fit in 64 bits, since data is paid for by memory. -/
theorem callFrom_gas (env : Env) (inputs : CallInputs) (journal : EvmJournal)
    (word : inputs.gasLimit < 2 ^ 64) :
    match prepareSubcall env inputs (callFromPrecompile env) journal with
    | (.error answer, _) =>
      answer.gas.limit = inputs.gasLimit ∧ answer.gas.totalGasSpent ≤ inputs.gasLimit
    | (.ok (child, left), saved) =>
      ∃ sender target data, env.callFromCall inputs.input = some (sender, target, data) ∧
        left.totalGasSpent = abiGas data.length + childAccessCost target (loadAccount sender journal) ∧
        child.gasLimit = (63 * (inputs.gasLimit - left.totalGasSpent) + 63) / 64 ∧
        ∀ (outcome : InterpreterResult) (middle : EvmJournal), outcome.gas.limit = child.gasLimit →
          let answer := (completeSubcall (.call outcome)
            (continuationFor inputs (callFromPrecompile env) left saved) middle).1
          let cost := left.totalGasSpent + outcome.gas.totalGasSpent +
            abiGas (env.outputLength outcome.output)
          answer.gas.limit = inputs.gasLimit ∧ answer.gas.totalGasSpent ≤ inputs.gasLimit ∧
            (childHalted (.call outcome) = false → cost ≤ inputs.gasLimit →
              answer.gas.totalGasSpent = cost) ∧
            (childHalted (.call outcome) = true → answer.gas.totalGasSpent = inputs.gasLimit) ∧
            (answer.gas.refunded ≠ 0 → childSucceeded (.call outcome) = true) ∧
            (MemoryPaid data.length → MemoryPaid (env.outputLength outcome.output) →
              left.totalGasSpent + outcome.gas.totalGasSpent < 2 ^ 64 ∧ cost < 2 ^ 64) := by
  have spec := @prepareSubcall_spec env inputs (callFromPrecompile env) journal
  generalize prepareSubcall env inputs (callFromPrecompile env) journal = made at spec ⊢
  obtain ⟨verdict, saved⟩ := made
  cases verdict with
  | error answer =>
    obtain ⟨-, -, limit⟩ := spec
    exact ⟨limit, (Nat.sub_le _ _).trans_eq limit⟩
  | ok values =>
    obtain ⟨child, left⟩ := values
    have prepared : Prepared env inputs (callFromPrecompile env) journal child left saved := spec
    obtain ⟨sender, target, data, call, overhead⟩ := prepared_overhead prepared
    have given := prepared.child_gas.1
    have limit := prepared.left_limit
    have within := left.within
    have spentBefore : left.totalGasSpent = inputs.gasLimit - left.remaining := by
      rw [Gas.totalGasSpent, limit]
    refine ⟨sender, target, data, call, overhead, by omega, ?_⟩
    intro outcome middle own answer cost
    obtain ⟨answerLimit, spent⟩ := @completeSubcall_spent env outcome
      (continuationFor inputs (callFromPrecompile env) left saved) rfl middle
    have metered : meteredGasUsed (.call outcome)
        (continuationFor inputs (callFromPrecompile env) left saved) = cost := rfl
    have childSpent : outcome.gas.totalGasSpent ≤ child.gasLimit := by
      rw [← own]
      exact Nat.sub_le _ _
    refine ⟨answerLimit, spent.trans_le (min_le_right _ _), ?_, ?_, ?_, ?_⟩
    · intro running fits
      rw [spent, subcallGasUsed, running, if_neg Bool.false_ne_true, metered]
      exact min_eq_left fits
    · intro halted
      rw [spent, subcallGasUsed, if_pos halted]
      exact min_eq_right (le_max_left _ _)
    · intro refunded
      by_contra failed
      exact refunded (completeSubcall_refund (Bool.eq_false_iff.mpr failed) _ _)
    · intro dataPaid outputPaid
      have decode := dataPaid.gas_le
      have encode := outputPaid.gas_le
      have access := childAccessCost_le target (loadAccount sender journal)
      refine ⟨by omega, ?_⟩
      show left.totalGasSpent + outcome.gas.totalGasSpent +
        abiGas (env.outputLength outcome.output) < 2 ^ 64
      omega

/-- A call of Memo to CallFrom. -/
def forwardInputs : CallInputs :=
  ⟨.call, callFromAddress, callFromAddress, .empty, .transfer 0, forwardData, 100000, false, memoAddress⟩

/-- Decoding and one cold account; the child gets 63 of 64 parts of the other 97300. -/
theorem callFrom_gas_forward : ∃ child left saved,
    prepareSubcall forwardEnv forwardInputs (callFromPrecompile forwardEnv) forwardJournal =
      (.ok (child, left), saved) ∧ left.totalGasSpent = 2700 ∧ child.gasLimit = 95780 := by
  have dispatched : (prepareSubcall forwardEnv forwardInputs (callFromPrecompile forwardEnv)
      forwardJournal).1.isOk = true := by decide +kernel
  have gas := callFrom_gas forwardEnv forwardInputs forwardJournal (by decide)
  generalize prepareSubcall forwardEnv forwardInputs (callFromPrecompile forwardEnv) forwardJournal =
    made at dispatched gas ⊢
  obtain ⟨verdict, saved⟩ := made
  cases verdict with
  | error answer => cases dispatched
  | ok values =>
    obtain ⟨child, left⟩ := values
    obtain ⟨sender, target, data, call, overhead, limit, -⟩ := gas
    cases call
    have access : childAccessCost 0x22 (loadAccount 0x11 forwardJournal) = 2600 := by decide +kernel
    have given : forwardInputs.gasLimit = 100000 := rfl
    have spent : left.totalGasSpent = 2700 := by
      rw [overhead, access]
      rfl
    rw [spent, given] at limit
    exact ⟨child, left, saved, rfl, spent, limit⟩

end ArcNode.Evm
